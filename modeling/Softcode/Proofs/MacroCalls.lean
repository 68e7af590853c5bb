/-
**Calls of macros.**

A macro whose body asks for arguments is called by its trigger and a list of arguments in
parentheses.  The pattern of such a macro is read as parts one after the other: the characters of
the trigger, and the parts of an argument list (`Softcode.Macro.argumentParts`), of which those for
further arguments may be left out.  On a call the search goes straight on.  Blanks never hold a
comma or a parenthesis, and an argument is all that comes before the next comma or closing
parenthesis; so each part reads what is meant for it and nothing has to be given back.

What becomes of a body is said by the relation `Softcode.Macro.Filled`: each placeholder gives way
to a text, and every other character stays.

Main definitions:

* `Softcode.Macro.argumentParts` — the parts of an argument list as patterns;
* `Softcode.Macro.callText` — **the text of a call**;
* `Softcode.Macro.Asks` — the placeholders of a body;
* `Softcode.Macro.Filled` — a body with its placeholders filled.

Main results:

* `Softcode.caseFold_eq_iff` — characters below the letters have no other case;
* `Softcode.Macro.readsParts_argumentList` — the argument list as it is written;
* `Softcode.Macro.reads_call` — **the search goes straight through a call**;
* `Softcode.Macro.maxParamOf_eq` — the highest placeholder of a body;
* `Softcode.Macro.expand_call` — **a call gives way to the body with its arguments put in**.
-/

import Softcode.Macro
import Softcode.Proofs.PatternReading

set_option autoImplicit false

namespace Softcode

/-! ### Characters and their case -/

/-- Nothing below the capital letters has a case. -/
theorem foldBy_of_lt {n : Nat} (h : n < 0x41) : foldBy n caseRules = n := if_pos h

theorem le_foldBy {n m : Nat} {rs : List CaseRule} (hn : m ≤ n)
    (h : ∀ r ∈ rs, (m : Int) ≤ r.first + r.shift) : m ≤ foldBy n rs := by
  induction rs with
  | nil => exact hn
  | cons r rs ih =>
      rw [foldBy]
      split
      · exact hn
      · split
        · next hfirst _ =>
            have := h r List.mem_cons_self
            unfold CaseRule.target
            omega
        · exact ih fun r' hr' => h r' (List.mem_cons_of_mem r hr')

theorem caseRules_above : ∀ r ∈ caseRules, 0x41 ≤ r.first ∧ (0x41 : Int) ≤ r.first + r.shift := by
  decide +kernel

theorem toNat_ofNat_above {n m : Nat} (h : m ≤ n) :
    (Char.ofNat n).toNat = 0 ∨ m ≤ (Char.ofNat n).toNat := by
  by_cases hvalid : n.isValidChar
  · rw [Char.ofNat, dif_pos hvalid]
    exact Or.inr h
  · rw [Char.ofNat, dif_neg hvalid]
    exact Or.inl rfl

/-- **A character below the capital letters is the only one that differs from it in case only.** -/
theorem caseFold_eq_iff {c d : Char} (hpos : 0 < d.toNat) (hd : d.toNat < 0x41) :
    caseFold c = d ↔ c = d := by
  constructor
  · rintro rfl
    rcases Nat.lt_or_ge c.toNat 0x41 with hc | hc
    · rw [caseFold, foldBy_of_lt hc, Char.ofNat_toNat]
    · have := le_foldBy hc fun r hr => (caseRules_above r hr).2
      rw [caseFold] at hpos hd
      rcases toNat_ofNat_above this with h | h <;> omega
  · rintro rfl
    rw [caseFold, foldBy_of_lt hd, Char.ofNat_toNat]

theorem mem_caseVariants_iff {c d : Char} (hpos : 0 < d.toNat) (hd : d.toNat < 0x41) :
    d ∈ caseVariants c ↔ c = d := by
  rw [← caseFold_eq_iff hpos hd, caseVariants, List.mem_cons, eq_comm, or_iff_left_iff_imp,
    List.mem_filterMap]
  rintro ⟨r, hr, hvariant⟩
  simp only at hvariant
  split at hvariant
  · next happlies =>
      obtain rfl := Option.some.inj hvariant
      have hfirst := (caseRules_above r hr).1
      simp only [CaseRule.applies, Bool.and_eq_true, decide_eq_true_eq] at happlies
      rcases toNat_ofNat_above (Nat.le_trans hfirst happlies.1.1) with h | h <;> omega
  · cases hvariant

/-- What holds of the ASCII characters, one by one, holds of each of them. -/
theorem forall_ascii {p : Char → Prop} (h : ∀ n < 128, p (Char.ofNat n)) {c : Char}
    (hc : c.toNat < 128) : p c := by
  have := h c.toNat hc
  rwa [Char.ofNat_toNat] at this

theorem caseFold_ascii {c : Char} (hc : c.toNat < 128) : caseFold c = c.toLower :=
  forall_ascii (p := fun c => caseFold c = c.toLower) (by decide +kernel) hc

theorem toNat_lt_of_toLower {c : Char} (h : c.toLower.toNat < 128) : c.toNat < 128 := by
  unfold Char.toLower at h
  split at h
  · next hupper =>
      have : c.val.toNat ≤ 90 := UInt32.le_iff_toNat_le.1 hupper.2
      exact Nat.lt_of_le_of_lt this (by decide)
  · exact h

theorem Text.join_cons (sep a : Text) (as : List Text) :
    Text.join sep (a :: as) = a ++ as.flatMap (sep ++ ·) := by
  induction as generalizing a with
  | nil => simp [Text.join]
  | cons b as ih => rw [Text.join, ih, List.flatMap_cons, List.append_assoc, List.append_assoc]

theorem Text.trim_trimStart (s : Text) : Text.trim (Text.trimStart s) = Text.trim s := by
  obtain ⟨b, hb, hs⟩ := Text.exists_blanks_trimStart s
  have hidem : Text.trimStart (Text.trimStart s) = Text.trimStart s := by
    conv_rhs => rw [hs]
    rw [Text.trimStart_blanks_append hb]
  rw [Text.trim, hidem, Text.trim]

namespace Macro

open Pattern

/-! ### The argument list as it is written -/

/-- Any number of blanks. -/
def blanks : Pattern := .star 0 true (.char .blank)

/-- All characters but a comma and a closing parenthesis. -/
def argumentChar : CharClass :=
  .compl (.anyCase (.union (.union .never (.single ',')) (.single ')')))

/-- An argument, without the blanks before it. -/
def argument (i : Nat) : Pattern := .group i (.star 0 true (.char argumentChar))

/-- An argument that may be left out, with the comma before it. -/
def further (i : Nat) : Pattern :=
  .opt 0 true (concat [blanks, .char (.sameCase ','), blanks, argument i])

/-- **The parts of a list of at least one and at most `n` arguments.** -/
def argumentParts (n : Nat) : List Pattern :=
  [blanks, .char (.sameCase '('), blanks, argument 1] ++ (List.range' 2 (n - 1)).map further ++
    [blanks, .char (.sameCase ')')]

theorem readsPart_argumentChar (g : Nat) :
    ReadsPart false ['[', '^', ',', ')', ']'] g g (.char argumentChar) :=
  .of_step (by decide) (by decide) fun _ _ _ _ _ _ => ⟨_, _, rfl, ⟨rfl, rfl, rfl⟩, rfl, rfl⟩

theorem readsPart_argument (g : Nat) :
    ReadsPart false ('(' :: (['[', '^', ',', ')', ']'] ++ ['*']) ++ [')']) g (g + 1)
      (argument (g + 1)) :=
  (readsPart_argumentChar (g + 1)).star.parts.group

theorem readsParts_firstArgument :
    ReadsParts firstArgument 0 1 [blanks, .char (.sameCase '('), blanks, argument 1] :=
  .cons (readsPart_blank 0).star (.cons (readsPart_open 0) (.cons (readsPart_blank 0).star
    (readsPart_argument 0).parts))

theorem readsPart_furtherArgument (g : Nat) :
    ReadsPart true furtherArgument g (g + 1) (further (g + 1)) :=
  (ReadsParts.cons (readsPart_blank g).star (.cons (readsPart_literal (c := ',') rfl g)
    (.cons (readsPart_blank g).star (readsPart_argument g).parts))).plain.opt

theorem readsParts_furtherArguments (k g : Nat) :
    ReadsParts (List.replicate k furtherArgument).flatten g (g + k)
      ((List.range' (g + 1) k).map further) := by
  induction k generalizing g with
  | zero => exact .nil g
  | succ k ih =>
      rw [List.replicate_succ, List.flatten_cons, List.range'_succ, List.map_cons,
        show g + (k + 1) = g + 1 + k by omega]
      exact .cons (readsPart_furtherArgument g) (ih (g + 1))

theorem readsParts_argumentsEnd (g : Nat) :
    ReadsParts argumentsEnd g g [blanks, .char (.sameCase ')')] :=
  .cons (readsPart_blank g).star (readsPart_close g).parts

/-- **An argument list** is read as its parts, with a group for each argument. -/
theorem readsParts_argumentList {n : Nat} (hn : 1 ≤ n) :
    ReadsParts (argumentList n) 0 n (argumentParts n) := by
  have hfurther := readsParts_furtherArguments (n - 1) 1
  rw [show 1 + (n - 1) = n by omega] at hfurther
  exact (readsParts_firstArgument.append hfurther).append (readsParts_argumentsEnd n)

/-! ### Reading a call -/

@[simp] theorem contains_comma (c : Char) : (CharClass.sameCase ',').contains c = (c == ',') := by
  rw [Bool.eq_iff_iff, CharClass.contains, beq_iff_eq, beq_iff_eq]
  exact caseFold_eq_iff (by decide) (by decide)

@[simp] theorem contains_open (c : Char) : (CharClass.sameCase '(').contains c = (c == '(') := by
  rw [Bool.eq_iff_iff, CharClass.contains, beq_iff_eq, beq_iff_eq]
  exact caseFold_eq_iff (by decide) (by decide)

@[simp] theorem contains_close (c : Char) : (CharClass.sameCase ')').contains c = (c == ')') := by
  rw [Bool.eq_iff_iff, CharClass.contains, beq_iff_eq, beq_iff_eq]
  exact caseFold_eq_iff (by decide) (by decide)

/-- The characters that end an argument. -/
def endsArgument (c : Char) : Bool := c == ',' || c == ')'

/-- An argument holds no character that would end it. -/
def IsArgument (a : Text) : Prop := ∀ c ∈ a, endsArgument c = false

instance (a : Text) : Decidable (IsArgument a) :=
  decidable_of_iff (a.all fun c => !endsArgument c) (by simp [IsArgument])

theorem contains_argumentChar (c : Char) : argumentChar.contains c = !endsArgument c := by
  have hsingle : ∀ d e : Char, (CharClass.single d).contains e = (e == d) := by
    intro d e
    rw [Bool.eq_iff_iff, CharClass.single, CharClass.contains, Bool.and_eq_true, decide_eq_true_iff,
      decide_eq_true_iff, beq_iff_eq]
    exact ⟨fun h => Char.le_antisymm h.2 h.1, fun h => h ▸ ⟨Char.le_refl _, Char.le_refl _⟩⟩
  have hany : (caseVariants c).any (CharClass.union (.union .never (.single ','))
      (.single ')')).contains = true ↔ endsArgument c = true := by
    simp only [List.any_eq_true, CharClass.contains, hsingle, Bool.false_or, Bool.or_eq_true,
      beq_iff_eq, endsArgument]
    constructor
    · rintro ⟨d, hd, rfl | rfl⟩
      · exact Or.inl ((mem_caseVariants_iff (by decide) (by decide)).1 hd)
      · exact Or.inr ((mem_caseVariants_iff (by decide) (by decide)).1 hd)
    · rintro (rfl | rfl)
      · exact ⟨',', (mem_caseVariants_iff (by decide) (by decide)).2 rfl, Or.inl rfl⟩
      · exact ⟨')', (mem_caseVariants_iff (by decide) (by decide)).2 rfl, Or.inr rfl⟩
  rw [argumentChar, CharClass.contains, CharClass.contains, Bool.eq_iff_iff.2 hany]

theorem isBlank_of_endsArgument {c : Char} (h : endsArgument c = true) : isBlank c = false := by
  rcases Bool.or_eq_true_iff.1 h with h | h <;> rw [beq_iff_eq.1 h] <;> rfl

/-- Behind an argument there is a character that ends it. -/
def IsEnded (y : Text) : Prop := y.head?.any endsArgument = true

theorem IsEnded.head {y : Text} (h : IsEnded y) {c : Char} (hc : y.head? = some c) :
    endsArgument c = true := by
  rwa [IsEnded, hc] at h

/-- Blanks are read as far as they go. -/
theorem reads_blanks {b y : Text} (hb : Text.AllBlank b)
    (hy : ∀ c, y.head? = some c → isBlank c = false) : Reads blanks b y [] :=
  reads_star hb hy

theorem reads_no_blanks {c : Char} (hc : isBlank c = false) (y : Text) :
    Reads blanks [] (c :: y) [] :=
  reads_blanks Text.allBlank_nil fun _ hd => Option.some.inj hd ▸ hc

/-- An argument is read up to the character that ends it. -/
theorem reads_argument (i : Nat) {a y : Text} (ha : IsArgument a) (hy : IsEnded y) :
    Reads (argument i) a y [(i, a)] := by
  refine Reads.group i (reads_star ?_ ?_)
  · intro c hc
    rw [contains_argumentChar, ha c hc]
    rfl
  · intro c hc
    rw [contains_argumentChar, hy.head hc]
    rfl

/-- The blanks before an argument do not belong to it. -/
theorem exists_reads_argument (i : Nat) {a y : Text} (ha : IsArgument a) (hy : IsEnded y) :
    ∃ b, a = b ++ Text.trimStart a ∧ Reads blanks b (Text.trimStart a ++ y) [] ∧
      Reads (argument i) (Text.trimStart a) y [(i, Text.trimStart a)] := by
  obtain ⟨b, hb, hab⟩ := Text.exists_blanks_trimStart a
  refine ⟨b, hab, reads_blanks hb ?_, reads_argument i ?_ hy⟩
  · intro c hc
    cases hstart : Text.trimStart a with
    | nil =>
        rw [hstart, List.nil_append] at hc
        exact isBlank_of_endsArgument (hy.head hc)
    | cons d s =>
        rw [hstart] at hc
        refine Text.head?_trimStart (s := a) ?_
        rw [hstart]
        exact hc
  · intro c hc
    refine ha c ?_
    rw [hab]
    exact List.mem_append_right b hc

/-- The groups of the arguments, numbered from `i` on, the latest first. -/
def noted (i : Nat) : List Text → List (Nat × Text)
  | [] => []
  | a :: as => noted (i + 1) as ++ [(i, Text.trimStart a)]

theorem reads_end (y : Text) : Reads (concat [blanks, .char (.sameCase ')')]) [')'] y [] := by
  have hblanks : Reads blanks [] ([')'] ++ y) [] := reads_no_blanks rfl y
  have hclose : Reads (.char (.sameCase ')')) [')'] y [] := reads_char (by simp) y
  exact hblanks.seq hclose

/-- A further argument. -/
theorem reads_further (i : Nat) {a y : Text} (ha : IsArgument a) (hy : IsEnded y) :
    Reads (further i) (',' :: a) y [(i, Text.trimStart a)] := by
  obtain ⟨b, hab, hblanks, hargument⟩ := exists_reads_argument i ha hy
  have hcomma : Reads (.char (.sameCase ',')) [','] (b ++ Text.trimStart a ++ y) [] :=
    reads_char (by simp) _
  have := (reads_no_blanks (c := ',') (by rfl) _).seq (hcomma.seq (hblanks.seq hargument))
  rw [← hab] at this
  exact this.opt

/-- Where the list ends, a further argument is left out. -/
theorem reads_further_stop (i : Nat) (y : Text) : Reads (further i) [] (')' :: y) [] := by
  refine reads_opt_stop fun s hs => ?_
  have hblank : ∀ c, s.rest.head? = some c → CharClass.blank.contains c = false := by
    intro c hc
    rw [hs] at hc
    rw [← Option.some.inj hc]
    rfl
  have hcomma : ∀ c, s.rest.head? = some c → (CharClass.sameCase ',').contains c = false := by
    intro c hc
    rw [hs] at hc
    rw [← Option.some.inj hc]
    rfl
  exact (skips_star 0 hblank).seq ((stops_char hcomma).seq _)

/-- **The further arguments and the end of the list.**  The induction is on the parts for further
arguments: as long as there are arguments each takes one of them, and the others are left out. -/
theorem reads_arguments {k i : Nat} {as : List Text} (hlength : as.length ≤ k)
    (has : ∀ a ∈ as, IsArgument a) (y : Text) :
    Reads (concat ((List.range' i k).map further ++ [blanks, .char (.sameCase ')')]))
      (as.flatMap ([','] ++ ·) ++ [')']) y (noted i as) := by
  induction k generalizing i as with
  | zero =>
      obtain rfl : as = [] := List.length_eq_zero_iff.1 (Nat.le_zero.1 hlength)
      exact reads_end y
  | succ k ih =>
      have hne : (List.range' (i + 1) k).map further ++ [blanks, .char (.sameCase ')')] ≠ [] := by
        simp
      rw [List.range'_succ, List.map_cons, List.cons_append]
      cases as with
      | nil =>
          have hstop : Reads (further i) [] ([')'] ++ y) [] := reads_further_stop i y
          exact hstop.concat_cons hne (@ih (i + 1) [] (Nat.zero_le k) (by simp))
      | cons a as =>
          have hended : IsEnded (as.flatMap ([','] ++ ·) ++ [')'] ++ y) := by
            cases as <;> rfl
          have := (reads_further i (has a List.mem_cons_self) hended).concat_cons hne
            (ih (Nat.le_of_succ_le_succ hlength) fun b hb => has b (List.mem_cons_of_mem a hb))
          rwa [List.flatMap_cons, List.append_assoc]

/-- The text of a list of arguments, with blanks before the parenthesis. -/
def argumentText (b : Text) (args : List Text) : Text := b ++ '(' :: (Text.join [','] args ++ [')'])

/-- **A list of arguments is read straight on.** -/
theorem reads_argumentParts {n : Nat} {b : Text} {args : List Text} (hb : Text.AllBlank b)
    (hne : args ≠ []) (hlength : args.length ≤ n) (hargs : ∀ a ∈ args, IsArgument a) (y : Text) :
    Reads (concat (argumentParts n)) (argumentText b args) y (noted 1 args) := by
  obtain ⟨a, as, rfl⟩ := List.exists_cons_of_ne_nil hne
  rw [List.length_cons] at hlength
  have hothers := reads_arguments (i := 2) (Nat.le_sub_of_add_le hlength)
    (fun c hc => hargs c (List.mem_cons_of_mem a hc)) y
  have hended : IsEnded (as.flatMap ([','] ++ ·) ++ [')'] ++ y) := by cases as <;> rfl
  have htext :
      argumentText b (a :: as) = b ++ (['('] ++ (a ++ (as.flatMap ([','] ++ ·) ++ [')']))) := by
    rw [argumentText, Text.join_cons, List.append_assoc, List.singleton_append]
  rw [htext]
  generalize as.flatMap ([','] ++ ·) ++ [')'] = z at hothers hended ⊢
  obtain ⟨b', hab, hblanks, hargument⟩ :=
    exists_reads_argument 1 (hargs a List.mem_cons_self) hended
  rw [← List.append_assoc] at hblanks
  have hfirst := hblanks.concat_cons (by simp) (hargument.concat_cons (by simp) hothers)
  rw [← List.append_assoc b', ← hab] at hfirst
  have hopen : Reads (.char (.sameCase '(')) ['('] (a ++ z ++ y) [] := reads_char (by simp) _
  have hbefore : Reads blanks b (['('] ++ (a ++ z) ++ y) [] :=
    reads_blanks hb fun c hc => Option.some.inj hc ▸ rfl
  have := hbefore.concat_cons (by simp) (hopen.concat_cons (by simp) hfirst)
  rwa [List.append_nil, List.append_nil, List.append_nil] at this

/-- The trigger is read in any case. -/
theorem reads_trigger {trigger w x y : Text} {ps : List Pattern} {gs : List (Nat × Text)}
    (hascii : ∀ c ∈ trigger, c.toLower.toNat < 128)
    (hw : w.map Char.toLower = trigger.map Char.toLower) (hne : ps ≠ [])
    (h : Reads (concat ps) x y gs) :
    Reads (concat (trigger.map (fun c => .char (.sameCase (caseFold c))) ++ ps)) (w ++ x) y gs := by
  induction trigger generalizing w with
  | nil =>
      obtain rfl : w = [] := List.map_eq_nil_iff.1 hw
      exact h
  | cons c trigger ih =>
      cases w with
      | nil => cases hw
      | cons d w =>
          rw [List.map_cons, List.map_cons, List.cons.injEq] at hw
          have hc := hascii c List.mem_cons_self
          have hfold : (CharClass.sameCase (caseFold c)).contains d = true := by
            refine beq_iff_eq.2 ?_
            rw [caseFold_ascii (toNat_lt_of_toLower hc), ← hw.1]
            exact caseFold_ascii (toNat_lt_of_toLower (hw.1 ▸ hc))
          have hchar : Reads (.char (.sameCase (caseFold c))) [d] (w ++ x ++ y) [] :=
            reads_char hfold _
          have := hchar.concat_cons (by simp [hne])
            (ih (fun e he => hascii e (List.mem_cons_of_mem c he)) hw.2)
          rwa [List.append_nil] at this

/-! ### Bodies -/

/-- A body asks for the argument `n`: a dollar sign stands before its digit. -/
def Asks (body : Text) (n : Nat) : Prop := ∃ c, ['$', c] <:+: body ∧ param? c = some n

theorem asks_cons_iff {c : Char} {s : Text} {n : Nat} :
    Asks (c :: s) n ↔ (∃ d, ['$', d] <+: c :: s ∧ param? d = some n) ∨ Asks s n := by
  simp only [Asks, List.infix_cons_iff, or_and_right, exists_or]

theorem Asks.le_maxParamOf {body : Text} {n : Nat} (h : Asks body n) : n ≤ maxParamOf body := by
  fun_induction maxParamOf body with
  | case1 c s ih =>
      rcases asks_cons_iff.1 h with ⟨d, hd, hn⟩ | h
      · obtain ⟨t, ht⟩ := hd
        cases ht
        rw [hn]
        exact Nat.le_max_left _ _
      · exact Nat.le_trans (ih h) (Nat.le_max_right _ _)
  | case2 c s hdollar ih =>
      rcases asks_cons_iff.1 h with ⟨d, ⟨t, ht⟩, -⟩ | h
      · cases ht
        exact absurd rfl (hdollar d t rfl)
      · exact ih h
  | case3 =>
      obtain ⟨c, hc, -⟩ := h
      cases List.infix_nil.1 hc

theorem asks_maxParamOf (body : Text) : maxParamOf body = 0 ∨ Asks body (maxParamOf body) := by
  fun_induction maxParamOf body with
  | case1 c s ih =>
      rcases Nat.le_total ((param? c).getD 0) (maxParamOf (c :: s)) with hle | hle
      · have hmax : Nat.max _ _ = _ := Nat.max_eq_right hle
        rw [hmax]
        exact ih.imp_right fun h => asks_cons_iff.2 (Or.inr h)
      · have hmax : Nat.max _ _ = _ := Nat.max_eq_left hle
        rw [hmax]
        cases hn : param? c with
        | none => exact Or.inl rfl
        | some n => exact Or.inr (asks_cons_iff.2 (Or.inl ⟨c, ⟨s, rfl⟩, hn⟩))
  | case2 c s hdollar ih => exact ih.imp_right fun h => asks_cons_iff.2 (Or.inr h)
  | case3 => exact Or.inl rfl

/-- **The highest placeholder of a body.** -/
theorem maxParamOf_eq {body : Text} {n : Nat} (h : Asks body n) (hle : ∀ i, Asks body i → i ≤ n) :
    maxParamOf body = n := by
  refine Nat.le_antisymm ?_ h.le_maxParamOf
  rcases asks_maxParamOf body with hzero | hasks
  · omega
  · exact hle _ hasks

/-- **A body with its placeholders filled**: a dollar sign with a digit gives way to a text, and
every other character stays. -/
inductive Filled (fill : Nat → Text) : Text → Text → Prop
  | nil : Filled fill [] []
  | param {c : Char} {n : Nat} {s t : Text} (hc : param? c = some n) (h : Filled fill s t) :
      Filled fill ('$' :: c :: s) (fill n ++ t)
  | keep {c : Char} {s t : Text} (hc : c = '$' → s.head?.bind param? = none) (h : Filled fill s t) :
      Filled fill (c :: s) (c :: t)

theorem filled_iff {m : Pattern.Match} {fill : Nat → Text}
    (hfill : ∀ n, Text.trim ((m.group? n).getD []) = fill n) {body t : Text} :
    Filled fill body t ↔ t = renderBody m body := by
  fun_induction renderBody m body generalizing t with
  | case1 c s n hn ih =>
      rw [hfill]
      constructor
      · intro h
        cases h with
        | param hc h =>
            cases hc.symm.trans hn
            rw [ih.1 h]
        | keep hc _ =>
            have : param? c = none := hc rfl
            rw [hn] at this
            cases this
      · rintro rfl
        exact .param hn (ih.2 rfl)
  | case2 c s hn ih =>
      constructor
      · intro h
        cases h with
        | param hc _ =>
            rw [hn] at hc
            cases hc
        | keep _ h => rw [ih.1 h]
      · rintro rfl
        exact .keep (fun _ => hn) (ih.2 rfl)
  | case3 c s hdollar ih =>
      constructor
      · intro h
        cases h with
        | param _ _ => exact absurd rfl (hdollar _ _ rfl)
        | keep _ h => rw [ih.1 h]
      · rintro rfl
        refine .keep ?_ (ih.2 rfl)
        rintro rfl
        cases s with
        | nil => rfl
        | cons d s => exact absurd rfl (hdollar d s rfl)
  | case4 =>
      constructor
      · intro h
        cases h
        rfl
      · rintro rfl
        exact .nil

/-! ### Calls -/

/-- The characters of a plain trigger. -/
def isTriggerChar (c : Char) : Bool := c.isAlphanum || c == '_' || c == '@'

theorem toNat_lt_of_isTriggerChar {c : Char} (h : isTriggerChar c = true) : c.toNat < 128 := by
  have hle : ∀ {d : Char}, c ≤ d → d.toNat < 128 → c.toNat < 128 := fun hcd hd =>
    Nat.lt_of_le_of_lt (UInt32.le_iff_toNat_le.1 hcd) hd
  rcases Bool.or_eq_true_iff.1 h with h | h
  · rcases Bool.or_eq_true_iff.1 h with h | h
    · rcases Bool.or_eq_true_iff.1 h with h | h
      · rcases Bool.or_eq_true_iff.1 h with h | h
        · exact hle (d := 'Z') (of_decide_eq_true h).2 (by decide)
        · exact hle (d := 'z') (of_decide_eq_true (Bool.and_eq_true_iff.1 h).2) (by decide)
      · exact hle (d := '9') (of_decide_eq_true (Bool.and_eq_true_iff.1 h).2) (by decide)
    · rw [beq_iff_eq.1 h]
      decide
  · rw [beq_iff_eq.1 h]
    decide

/-- A character of a plain trigger has no meaning of its own and is no blank, in any case. -/
theorem isTriggerChar_props {c : Char} (h : isTriggerChar c = true) :
    isMeta c = false ∧ isBlank c = false ∧ isBlank c.toLower = false ∧ c.toLower.toNat < 128 :=
  forall_ascii (p := fun c => isTriggerChar c = true → isMeta c = false ∧ isBlank c = false ∧
    isBlank c.toLower = false ∧ c.toLower.toNat < 128) (by decide +kernel)
    (toNat_lt_of_isTriggerChar h) h

theorem isTrim_trigger {trigger : Text} (h : ∀ c ∈ trigger, isTriggerChar c = true) :
    Text.IsTrim trigger :=
  ⟨fun c hc => (isTriggerChar_props (h c (List.mem_of_head? hc))).2.1,
    fun c hc => (isTriggerChar_props (h c (List.mem_of_getLast? hc))).2.1⟩

theorem readsParts_trigger {trigger : Text} (h : ∀ c ∈ trigger, isTriggerChar c = true) (g : Nat) :
    ReadsParts trigger g g (trigger.map fun c => .char (.sameCase (caseFold c))) := by
  induction trigger with
  | nil => exact .nil g
  | cons c trigger ih =>
      have hc := (isTriggerChar_props (h c List.mem_cons_self)).1
      exact .cons (readsPart_literal hc g) (ih fun d hd => h d (List.mem_cons_of_mem c hd))

/-- **The text of a call**: a name, perhaps blanks, and the arguments in parentheses. -/
def callText (name b : Text) (args : List Text) : Text := name ++ argumentText b args

/-- What a placeholder stands for in a call: the whole call, or an argument without the blanks
around it, or nothing. -/
def fillCall (call : Text) (args : List Text) : Nat → Text
  | 0 => call
  | i + 1 => Text.trim (args.getD i [])

theorem find?_noted (i j : Nat) (args : List Text) :
    ((noted i args).find? fun g => g.1 = j).map (·.2) =
      if j < i then none else args[j - i]?.map Text.trimStart := by
  induction args generalizing i with
  | nil => simp [noted]
  | cons a args ih =>
      rw [noted, List.find?_append, Option.map_or, ih]
      rcases Nat.lt_trichotomy j i with hlt | rfl | hgt
      · have hne : ¬ i = j := by omega
        simp [hlt, hne, Nat.lt_succ_of_lt hlt]
      · simp
      · have hne : ¬ i = j := by omega
        have hsub : j - i = j - (i + 1) + 1 := by omega
        have hlt : ¬ j < i + 1 := by omega
        have hlt' : ¬ j < i := by omega
        simp [hne, hlt, hlt', hsub]

theorem trim_group?_call {call : Text} {args : List Text} (hcall : Text.IsTrim call) (n : Nat) :
    Text.trim (((Match.mk call (noted 1 args)).group? n).getD []) = fillCall call args n := by
  cases n with
  | zero => exact Text.trim_of_isTrim hcall
  | succ i =>
      have hgroup : (Match.mk call (noted 1 args)).group? (i + 1) =
          args[i]?.map Text.trimStart := by
        have := find?_noted 1 (i + 1) args
        rw [if_neg (by omega), Nat.add_sub_cancel] at this
        rw [Match.group?, if_neg (Nat.succ_ne_zero i), this]
      rw [hgroup, fillCall, List.getD_eq_getElem?_getD]
      cases args[i]? with
      | none => rfl
      | some a => exact Text.trim_trimStart a

/-- A call has no blanks at its ends. -/
theorem isTrim_callText {trigger name : Text} (hne : trigger ≠ [])
    (htrigger : ∀ c ∈ trigger, isTriggerChar c = true)
    (hname : name.map Char.toLower = trigger.map Char.toLower) (b : Text) (args : List Text) :
    Text.IsTrim (callText name b args) := by
  obtain ⟨c, trigger, rfl⟩ := List.exists_cons_of_ne_nil hne
  cases name with
  | nil => cases hname
  | cons d name =>
      rw [List.map_cons, List.map_cons, List.cons.injEq] at hname
      refine ⟨fun e he => ?_, fun e he => ?_⟩
      · obtain rfl : d = e := Option.some.inj he
        by_contra hblank
        have hd : isBlank d = true := by simpa using hblank
        have hlower : d.toLower = d :=
          forall_blank (p := fun c => c.toLower = c) (by decide +kernel) hd
        have hc := (isTriggerChar_props (htrigger c List.mem_cons_self)).2.2.1
        rw [← hname.1, hlower] at hc
        exact hblank hc
      · have hlast : callText (d :: name) b args =
            (d :: name ++ (b ++ '(' :: Text.join [','] args)) ++ [')'] := by
          simp [callText, argumentText]
        rw [hlast, List.getLast?_concat] at he
        rw [← Option.some.inj he]
        rfl

/-- **The search goes straight through a call.** -/
theorem reads_call {trigger name b : Text} {args : List Text} {n : Nat}
    (htrigger : ∀ c ∈ trigger, isTriggerChar c = true)
    (hname : name.map Char.toLower = trigger.map Char.toLower) (hb : Text.AllBlank b)
    (hne : args ≠ []) (hlength : args.length ≤ n) (hargs : ∀ a ∈ args, IsArgument a) :
    Reads (concat (.empty :: (trigger.map (fun c => .char (.sameCase (caseFold c))) ++
      argumentParts n))) (callText name b args) [] (noted 1 args) := by
  have hascii : ∀ c ∈ trigger, c.toLower.toNat < 128 := fun c hc =>
    (isTriggerChar_props (htrigger c hc)).2.2.2
  have hlist : argumentParts n ≠ [] := by simp [argumentParts]
  have := (reads_empty _).concat_cons (by simp [hlist])
    (reads_trigger hascii hname hlist (reads_argumentParts hb hne hlength hargs []))
  rwa [List.append_nil] at this

/-- **A call gives way to the body with its arguments put in.**  The name may be written in any
case. -/
theorem expand_call {trigger body name b : Text} {args : List Text} {n : Nat}
    (origin : Option Location) (hne : trigger ≠ [])
    (htrigger : ∀ c ∈ trigger, isTriggerChar c = true)
    (hpos : 1 ≤ n) (hasks : Asks body n) (hhighest : ∀ i, Asks body i → i ≤ n)
    (hsome : args ≠ []) (hlength : args.length ≤ n) (hargs : ∀ a ∈ args, ',' ∉ a ∧ ')' ∉ a)
    (hname : Text.sameLetters name trigger = true) (hb : Text.AllBlank b) :
    ∃ d, Macro.compile trigger body origin = .ok d ∧
      ∀ t, Filled (fillCall (callText name b args) args) body t ↔
        t = d.expand (callText name b args) := by
  have hletters : name.map Char.toLower = trigger.map Char.toLower := beq_iff_eq.1 hname
  have hfree : ∀ a ∈ args, IsArgument a := by
    intro a ha c hc
    obtain ⟨hcomma, hclose⟩ := hargs a ha
    simp only [endsArgument, Bool.or_eq_false_iff, beq_eq_false_iff_ne]
    exact ⟨fun h => hcomma (h ▸ hc), fun h => hclose (h ▸ hc)⟩
  have hparen : '(' ∉ trigger := fun h =>
    absurd (isTriggerChar_props (htrigger '(' h)).1 (by decide)
  have hwritten : writtenPattern trigger n = "(?i)".toList ++ (trigger ++ argumentList n) := by
    rw [writtenPattern, if_pos ⟨hpos, hparen⟩, List.append_assoc]
  obtain ⟨p, hcompile, hmatch⟩ : ∃ p, Pattern.compile (writtenPattern trigger n) = .ok p ∧
      (p.matchAt? ⟨none, callText name b args, 0, []⟩ []).1 =
        some ⟨callText name b args, noted 1 args⟩ := by
    rw [hwritten]
    exact ⟨_, ((readsParts_trigger htrigger 0).append (readsParts_argumentList hpos)).compile,
      (reads_call htrigger hletters hb hsome hlength hfree).matchAt? none⟩
  refine ⟨⟨trigger, writtenPattern trigger n, p, body, n, origin⟩, ?_, fun t => ?_⟩
  · simp only [Macro.compile, Text.trim_of_isTrim (isTrim_trigger htrigger),
      maxParamOf_eq hasks hhighest, hcompile]
  · have hcall : callText name b args ≠ [] := by simp [callText, argumentText]
    have htrim : Text.IsTrim (callText name b args) := isTrim_callText hne htrigger hletters b args
    rw [filled_iff (trim_group?_call htrim), Macro.expand, replaceAll_whole _ hcall rfl hmatch]

/-- The first argument is empty, the second one looks like a placeholder and is not read again; the
last character of the body is a dollar sign. -/
theorem expand_call_greeting :
    ∃ d, Macro.compile ['h', 'i'] ['$', '2', '=', '$', '0', '$', '1', '$'] none = .ok d ∧
      d.expand ['H', 'i', ' ', '(', ' ', ',', ' ', '$', '1', ')'] =
        ['$', '1', '=', 'H', 'i', ' ', '(', ' ', ',', ' ', '$', '1', ')', '$'] := by
  have hasks : Asks ['$', '2', '=', '$', '0', '$', '1', '$'] 2 := ⟨'2', by decide, by decide⟩
  have htrigger : ∀ c ∈ ['h', 'i'], isTriggerChar c = true := List.all_eq_true.1 (by decide)
  have hname : Text.sameLetters ['H', 'i'] ['h', 'i'] = true := by decide
  have hargs : ∀ a ∈ [[' '], [' ', '$', '1']], ',' ∉ a ∧ ')' ∉ a := by decide
  have hb : Text.AllBlank [' '] := by decide
  obtain ⟨d, hd, hfilled⟩ := expand_call none (by decide) htrigger (by decide) hasks
    (fun i hi => Nat.le_trans hi.le_maxParamOf (by decide)) (by decide) (by decide) hargs hname hb
  refine ⟨d, hd, ((hfilled _).1 ?_).symm⟩
  exact .param (n := 2) rfl (.keep (by decide) (.param (n := 0) rfl (.param (n := 1) rfl
    (.keep (by decide) .nil))))

end Macro

end Softcode
