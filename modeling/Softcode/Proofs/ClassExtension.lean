/-
**Reading a class with more behind it.**

The step of `Proofs/PatternExtension.lean` for classes in brackets.  A class ends with a bracket of
its own, so a reader with more text behind it finds the same items; only the names in colons need an
argument, since the reader looks ahead for their end as far as the text goes.  The tail begins with
a backslash, and no name has one.

* `Softcode.Pattern.readClassRange_carries` — single items and ranges;
* `Softcode.Pattern.readClassOpen_carries` — the start of a class, with its negation and hyphens;
* `Softcode.Pattern.readPosix?_agree` — **names in colons**: both readers find the same one, or
  none;
* `Softcode.Pattern.readClassItems_carries`, `Softcode.Pattern.readClass_carries` — **whole
  classes**, by induction on the bound of the first reader.
-/

import Softcode.Proofs.PatternExtension

set_option autoImplicit false

namespace Softcode

namespace Pattern

variable {tail s : Text} {r r' : Reader} {c : Char}

/-! ### Items and ranges -/

theorem readClassPrimitive_carries (htail : IsTail tail) (h : r.Extends tail r') :
    Carries tail Primitive.erase (readClassPrimitive r) (readClassPrimitive r') := by
  cases hr : r.rest with
  | nil =>
      simp only [readClassPrimitive, hr]
      exact carries_failAt _ _ _
  | cons c s =>
      have hescape := readEscape_carries htail h hr
      simp only [readClassPrimitive, hr, h.next hr]
      by_cases hslash : c = '\\'
      · subst hslash
        exact hescape
      · simp only
        exact carries_ok rfl (h.bump hr)

/-- A value that depends on a part only up to places. -/
theorem exists_of_erase_eq {α β : Type} {read : Primitive → Except Error α} {erase : α → β}
    {f : Primitive → Option β} (hf : ∀ p, (read p).toOption.map erase = f p.erase)
    {p q : Primitive} (h : q.erase = p.erase) {a : α} (ha : read p = .ok a) :
    ∃ b, read q = .ok b ∧ erase b = erase a := by
  have hmap : (read q).toOption.map erase = some (erase a) := by
    rw [hf, h, ← hf, ha]
    rfl
  obtain ⟨b, hb, heq⟩ := Option.map_eq_some_iff.1 hmap
  exact ⟨b, eq_ok_of_toOption hb, heq⟩

theorem toClass_of_erase_eq {p q : Primitive} (h : q.erase = p.erase) {a : ClassAst}
    (ha : p.toClass = .ok a) : ∃ b, q.toClass = .ok b ∧ b.erase = a.erase :=
  exists_of_erase_eq (f := fun p => p.toClass.toOption) (fun p => by cases p <;> rfl) h ha

theorem toLiteral_of_erase_eq {p q : Primitive} (h : q.erase = p.erase) {a : Literal}
    (ha : p.toLiteral = .ok a) : ∃ b, q.toLiteral = .ok b ∧ b.erase = a.erase :=
  exists_of_erase_eq (f := fun p => p.toLiteral.toOption) (fun p => by cases p <;> rfl) h ha

/-- The second character is the same for both readers, where it is not a backslash. -/
theorem peek_extends (htail : IsTail tail) (h : r.Extends tail r') (hr : r.rest = c :: s) {d : Char}
    (hd : d ≠ '\\') : (r'.peekSpace == some d) = (r.peekSpace == some d) := by
  have hpeek : ∀ {r : Reader} {s : Text}, r.spaced = false → r.rest = c :: s →
      r.peekSpace = r.bump.rest.head? := by
    intro r s hs hr
    rw [Reader.peekSpace, hs, r.bump_rest hr, Reader.peek, hr]
    simp [List.head?_eq_getElem?]
  rw [hpeek h.spaced hr, hpeek h.spaced' (h.next hr), head?_extends htail (h.bump hr) hd]

theorem readClassRange_carries (htail : IsTail tail) (h : r.Extends tail r')
    (opened opened' : Span) :
    Carries tail ClassAst.erase (readClassRange opened r) (readClassRange opened' r') := by
  refine (readClassPrimitive_carries htail h).bind fun first first' r₁ r₁' hfirst h₁ => ?_
  simp only [Reader.skipSpace_eq h₁.spaced, Reader.skipSpace_eq h₁.spaced']
  cases hr₁ : r₁.rest with
  | nil => exact carries_failAt _ _ _
  | cons c s₁ =>
      have h₂ := h₁.bump hr₁
      simp only [h₁.next hr₁, peek_extends htail h₁ hr₁ (d := ']') (by decide),
        peek_extends htail h₁ hr₁ (d := '-') (by decide), Reader.bumpSpace_eq h₁.spaced,
        Reader.bumpSpace_eq h₁.spaced']
      split
      · refine carries_bind_value (fun a ha => toClass_of_erase_eq hfirst ha) fun a b hab => ?_
        exact carries_ok hab h₁
      · split
        · exact carries_failAt _ _ _
        · next hend =>
            obtain ⟨d, s₂, -, hend'⟩ := h₂.exists_next hend
            simp only [hend', Bool.false_eq_true, if_false]
            refine (readClassPrimitive_carries htail h₂).bind fun last last' r₃ r₃' hlast h₃ => ?_
            refine carries_bind_value (fun a ha => toLiteral_of_erase_eq hfirst ha) ?_
            intro a a' ha
            refine carries_bind_value (fun b hb => toLiteral_of_erase_eq hlast hb) fun b b' hb => ?_
            have hac : a'.erase.char = a.erase.char := by rw [ha]
            have hbc : b'.erase.char = b.erase.char := by rw [hb]
            change a'.char = a.char at hac
            change b'.char = b.char at hbc
            rw [hac, hbc]
            split
            · refine carries_ok ?_ h₃
              rw [ClassAst.erase, ClassAst.erase, ha, hb]
            · exact carries_failAt _ _ _

/-! ### The start of a class -/

theorem readHyphens_done {start : Position} {n : Nat} {items : ClassAst}
    (h : (r.rest.head? == some '-') = false) : readHyphens start n items r = .ok (items, r) := by
  cases n with
  | zero => rfl
  | succ n =>
      rw [readHyphens]
      split
      · next heq =>
          rw [heq] at h
          cases h
      · rfl

theorem readHyphens_carries (htail : IsTail tail) (h : r.Extends tail r') {n m : Nat}
    (hn : r.rest.length ≤ n) (hm : r'.rest.length ≤ m) {items items' : ClassAst}
    (hitems : items'.erase = items.erase) (start start' : Position) :
    Carries tail ClassAst.erase (readHyphens start n items r) (readHyphens start' m items' r') := by
  induction n generalizing m r r' items items' with
  | zero =>
      have hr : r.rest = [] := List.length_eq_zero_iff.1 (Nat.le_zero.1 hn)
      have hhead : (r.rest.head? == some '-') = false := by rw [hr]; rfl
      have hhead' := (head?_extends htail h (by decide)).trans hhead
      rw [readHyphens_done hhead, readHyphens_done hhead']
      exact carries_ok hitems h
  | succ n ih =>
      cases hhead : r.rest.head? == some '-' with
      | false =>
          rw [readHyphens_done hhead,
            readHyphens_done (by rw [head?_extends htail h (by decide), hhead])]
          exact carries_ok hitems h
      | true =>
          obtain ⟨s, hr⟩ := List.head?_eq_some_iff.1 (beq_iff_eq.1 hhead)
          have hr' := h.next hr
          have h₁ := h.bump hr
          have hm₁ := hm
          rw [hr', List.length_cons] at hm₁
          obtain ⟨m, rfl⟩ : ∃ m', m = m' + 1 := ⟨m - 1, by omega⟩
          simp only [readHyphens, hr, hr', Reader.bumpSpace_eq h.spaced,
            Reader.bumpSpace_eq h.spaced']
          split
          · exact carries_failAt _ _ _
          · next hend =>
              obtain ⟨d, s₁, -, hend'⟩ := h₁.exists_next hend
              simp only [hend', Bool.false_eq_true, if_false]
              refine ih h₁ ?_ ?_ ?_
              · rw [r.bump_rest hr]
                rw [hr, List.length_cons] at hn
                omega
              · rw [r'.bump_rest hr']
                omega
              · rw [ClassAst.erase, ClassAst.erase, hitems]
                rfl

theorem readClassOpen_carries (htail : IsTail tail) (h : r.Extends tail r') (hr : r.rest = c :: s) :
    Carries tail (fun x => (x.1, x.2.erase)) (readClassOpen r) (readClassOpen r') := by
  have h₁ := h.bump hr
  simp only [readClassOpen, Reader.bumpSpace_eq h.spaced, Reader.bumpSpace_eq h.spaced']
  split
  · exact carries_failAt _ _ _
  · next hend₁ =>
      obtain ⟨d, s₁, hr₁, hend₁'⟩ := h₁.exists_next hend₁
      simp only [hend₁', Bool.false_eq_true, if_false,
        head?_extends htail h₁ (d := '^') (by decide),
        Reader.bumpSpace_eq h₁.spaced, Reader.bumpSpace_eq h₁.spaced']
      generalize (r.bump.rest.head? == some '^') = negated
      obtain ⟨r₂, hr₂⟩ : ∃ r₂, r₂ = if negated then r.bump.bump else r.bump := ⟨_, rfl⟩
      obtain ⟨r₂', hr₂'⟩ : ∃ r₂', r₂' = if negated then r'.bump.bump else r'.bump := ⟨_, rfl⟩
      have h₂ : r₂.Extends tail r₂' := by
        rw [hr₂, hr₂']
        cases negated
        · exact h₁
        · exact h₁.bump hr₁
      simp only [← hr₂, ← hr₂']
      split
      · exact carries_failAt _ _ _
      · next hend₂ =>
          obtain ⟨e, s₂, -, hend₂'⟩ := h₂.exists_next hend₂
          simp only [hend₂', Bool.false_eq_true, if_false,
            head?_extends htail h₂ (d := '-') (by decide)]
          refine (readHyphens_carries htail h₂ (Nat.le_refl _) (Nat.le_refl _) rfl _ _).bind ?_
          intro items items' r₃ r₃' hitems h₃
          simp only [head?_extends htail h₃ (d := ']') (by decide), Reader.bumpSpace_eq h₃.spaced,
            Reader.bumpSpace_eq h₃.spaced']
          split
          · next hbracket =>
              obtain ⟨s₃, hr₃⟩ : ∃ s₃, r₃.rest = ']' :: s₃ :=
                List.head?_eq_some_iff.1 (beq_iff_eq.1 (Bool.and_eq_true_iff.1 hbracket).2)
              have h₄ := h₃.bump hr₃
              split
              · exact carries_failAt _ _ _
              · next hend₄ =>
                  obtain ⟨d₄, s₄, -, hend₄'⟩ := h₄.exists_next hend₄
                  simp only [hend₄', Bool.false_eq_true, if_false]
                  refine carries_ok ?_ h₄
                  simp only [ClassAst.erase, hitems]
                  rfl
          · refine carries_ok ?_ h₃
            simp only [hitems]

/-! ### Operators and names in colons -/

/-- The sign of an operation, which is written twice. -/
def ClassOp.sign : ClassOp → Char
  | inter => '&'
  | diff => '-'
  | symmDiff => '~'

theorem classOp?_eq_some_iff {kind : ClassOp} :
    classOp? r = some kind ↔ ∃ s, r.rest = kind.sign :: kind.sign :: s := by
  unfold classOp?
  constructor
  · intro h
    split at h
    · next s hs =>
        cases h
        exact ⟨s, hs⟩
    · next s hs =>
        cases h
        exact ⟨s, hs⟩
    · next s hs =>
        cases h
        exact ⟨s, hs⟩
    · cases h
  · rintro ⟨s, hs⟩
    rw [hs]
    cases kind <;> rfl

theorem classOp?_extends (htail : IsTail tail) (h : r.Extends tail r') :
    classOp? r' = classOp? r := by
  refine Option.ext fun kind => ?_
  have hsign : kind.sign ≠ '\\' := by cases kind <;> decide
  rw [classOp?_eq_some_iff, classOp?_eq_some_iff, h.rest]
  constructor
  · rintro ⟨s, hs⟩
    match r.rest, hs with
    | [], hs => exact absurd (htail _ (List.head?_eq_some_iff.2 ⟨_, hs⟩)) hsign
    | [c], hs => exact absurd (htail _ (List.head?_eq_some_iff.2 ⟨_, (List.cons.inj hs).2⟩)) hsign
    | c :: d :: s', hs =>
        obtain ⟨rfl, hs'⟩ := List.cons.inj hs
        obtain ⟨rfl, -⟩ := List.cons.inj hs'
        exact ⟨s', rfl⟩
  · rintro ⟨s, hs⟩
    exact ⟨s ++ tail, by rw [hs, List.cons_append, List.cons_append]⟩

theorem bumps_rest {x y : Text} (hr : r.rest = x ++ y) :
    (x.foldl (fun r _ => r.bump) r).rest = y := by
  induction x generalizing r with
  | nil => exact hr
  | cons c x ih => exact ih (r.bump_rest hr)

theorem bumps_extends (h : r.Extends tail r') {x y : Text} (hr : r.rest = x ++ y) :
    (x.foldl (fun r _ => r.bump) r).Extends tail (x.foldl (fun r _ => r.bump) r') := by
  induction x generalizing r r' with
  | nil => exact h
  | cons c x ih => exact ih (h.bump hr) (r.bump_rest hr)

/-- A text without backslashes comes next for both readers or for neither. -/
theorem bumpText?_extends (htail : IsTail tail) (h : r.Extends tail r') (token : Text)
    (htoken : '\\' ∉ token) :
    r.bumpText? token = none ∧ r'.bumpText? token = none ∨
      ∃ r₁ r₁', r.bumpText? token = some r₁ ∧ r'.bumpText? token = some r₁' ∧
        r₁.Extends tail r₁' := by
  unfold Reader.bumpText?
  cases hprefix : Text.dropPrefix? token r.rest with
  | some y =>
      have hr := Text.dropPrefix?_eq_some_iff.1 hprefix
      have hr' : Text.dropPrefix? token r'.rest = some (y ++ tail) := by
        rw [Text.dropPrefix?_eq_some_iff, h.rest, hr, List.append_assoc]
      rw [hr']
      exact Or.inr ⟨_, _, rfl, rfl, bumps_extends h hr⟩
  | none =>
      refine Or.inl ⟨rfl, Option.map_eq_none_iff.2 (Option.eq_none_iff_forall_ne_some.2 ?_)⟩
      intro y hy
      rw [Text.dropPrefix?_eq_some_iff, h.rest] at hy
      rcases List.append_eq_append_iff.1 hy with ⟨x, htoken', htail'⟩ | ⟨x, hrest, -⟩
      · cases x with
        | nil =>
            rw [List.append_nil] at htoken'
            rw [← htoken', Text.dropPrefix?_eq_some_iff.2 (List.append_nil token).symm] at hprefix
            cases hprefix
        | cons d x =>
            obtain rfl := htail d (by rw [htail']; rfl)
            exact htoken (by rw [htoken']; simp)
      · rw [hrest, Text.dropPrefix?_eq_some_iff.2 rfl] at hprefix
        cases hprefix

theorem posix?_of_backslash {name : Text} (h : '\\' ∈ name) :
    CharClass.posix? (String.ofList name) = none := by
  have hne : ∀ w : String, '\\' ∉ w.toList → String.ofList name ≠ w := by
    rintro w hw rfl
    rw [String.toList_ofList] at hw
    exact hw h
  unfold CharClass.posix?
  split
  case h_15 => rfl
  all_goals
    next heq => exact absurd heq (hne _ (by decide))

/-- A named class that both readers find, up to places, or neither. -/
def PosixAgree (tail : Text) (x y : Option (ClassAst × Reader)) : Prop :=
  x = none ∧ y = none ∨
    ∃ a a' r r', x = some (a, r) ∧ y = some (a', r') ∧ a'.erase = a.erase ∧ r.Extends tail r'

/-- What comes behind the opening of a named class. -/
def readPosixName? (start : Position) (negated : Bool) (r : Reader) : Option (ClassAst × Reader) :=
  let name := r.rest.takeWhile (· != ':')
  ((name.foldl (fun r _ => r.bump) r).bumpText? [':', ']']).bind fun r₁ =>
    (CharClass.posix? (String.ofList name)).map fun cls =>
      (.posix (r₁.spanFrom start) negated cls, r₁)

theorem readPosix?_eq (r : Reader) :
    readPosix? r = (r.bumpText? ['[', ':']).bind fun r₁ =>
      if r₁.rest.head? == some '^' then readPosixName? r.position true r₁.bump
      else readPosixName? r.position false r₁ := by
  unfold readPosix?
  cases r.bumpText? ['[', ':'] with
  | none => rfl
  | some r₁ =>
      simp only [Option.bind_eq_bind, Option.bind_some]
      split <;> simp only [readPosixName?, Option.map_eq_bind, Function.comp_def]

theorem readPosixName?_of_no_colon {start : Position} {negated : Bool}
    (h : r.rest.dropWhile (· != ':') = []) : readPosixName? start negated r = none := by
  have hname : r.rest.takeWhile (· != ':') = r.rest := by
    have := List.takeWhile_append_dropWhile (p := (· != ':')) (l := r.rest)
    rwa [h, List.append_nil] at this
  simp only [readPosixName?, hname, Reader.bumpText?, bumps_rest (List.append_nil r.rest).symm]
  rfl

/-- The name of a class ends before the tail, or it has a backslash and names no class. -/
theorem readPosixName?_agree (htail : IsTail tail) (h : r.Extends tail r') (start start' : Position)
    (negated : Bool) :
    PosixAgree tail (readPosixName? start negated r) (readPosixName? start' negated r') := by
  by_cases hstop : r.rest.dropWhile (· != ':') = []
  · refine Or.inl ⟨readPosixName?_of_no_colon hstop, ?_⟩
    cases tail with
    | nil =>
        refine readPosixName?_of_no_colon ?_
        rw [h.rest, List.append_nil, hstop]
    | cons c t =>
        obtain rfl := htail c rfl
        have hname : '\\' ∈ r'.rest.takeWhile (· != ':') := by
          rw [h.rest,
            List.takeWhile_append_of_pos fun d hd => List.dropWhile_eq_nil_iff.1 hstop d hd]
          simp
        simp only [readPosixName?, posix?_of_backslash hname, Option.map_none]
        exact Option.bind_eq_none_iff.2 fun _ _ => rfl
  · obtain ⟨hname, -⟩ := takeWhile_append_tail htail (Or.inr hstop)
    have hsplit := (List.takeWhile_append_dropWhile (p := (· != ':')) (l := r.rest)).symm
    have h₁ := bumps_extends h hsplit
    simp only [readPosixName?, h.rest, hname]
    rcases bumpText?_extends htail h₁ [':', ']'] (by decide) with
      ⟨hnone, hnone'⟩ | ⟨r₂, r₂', hr₂, hr₂', h₂⟩
    · rw [hnone, hnone']
      exact Or.inl ⟨rfl, rfl⟩
    · rw [hr₂, hr₂']
      cases CharClass.posix? (String.ofList (r.rest.takeWhile (· != ':'))) with
      | none => exact Or.inl ⟨rfl, rfl⟩
      | some cls => exact Or.inr ⟨_, _, r₂, r₂', rfl, rfl, rfl, h₂⟩

theorem readPosix?_agree (htail : IsTail tail) (h : r.Extends tail r') :
    PosixAgree tail (readPosix? r) (readPosix? r') := by
  rw [readPosix?_eq, readPosix?_eq]
  rcases bumpText?_extends htail h ['[', ':'] (by decide) with
    ⟨hr, hr'⟩ | ⟨r₁, r₁', hr₁, hr₁', h₁⟩
  · rw [hr, hr']
    exact Or.inl ⟨rfl, rfl⟩
  · simp only [hr₁, hr₁', Option.bind_some, head?_extends htail h₁ (d := '^') (by decide)]
    split
    · next hcaret =>
        obtain ⟨s, hs⟩ := List.head?_eq_some_iff.1 (beq_iff_eq.1 hcaret)
        exact readPosixName?_agree htail (h₁.bump hs) _ _ true
    · exact readPosixName?_agree htail h₁ _ _ false

/-! ### Whole classes -/

/-- What stands before an operation, without its places. -/
def eraseLeft (left : Option (ClassOp × ClassAst)) : Option (ClassOp × ClassAst) :=
  left.map fun x => (x.1, x.2.erase)

theorem erase_combine {left left' : Option (ClassOp × ClassAst)} {items items' : ClassAst}
    (hleft : eraseLeft left' = eraseLeft left) (hitems : items'.erase = items.erase) :
    (combine left' items').erase = (combine left items).erase := by
  have hcombine : ∀ left items,
      (combine left items).erase = combine (eraseLeft left) items.erase := by
    intro left items
    cases left <;> rfl
  rw [hcombine, hcombine, hleft, hitems]

/-- **The members of a class.**  The induction is on the bound for the first reader; a class inside
a class is read with the bound that is left. -/
theorem readClassItems_carries (htail : IsTail tail) {n m : Nat} (hnm : n ≤ m)
    (h : r.Extends tail r') {left left' : Option (ClassOp × ClassAst)} {items items' : ClassAst}
    (hleft : eraseLeft left' = eraseLeft left) (hitems : items'.erase = items.erase)
    (opened opened' : Span) :
    Carries tail ClassAst.erase (readClassItems n opened left items r)
      (readClassItems m opened' left' items' r') := by
  induction n generalizing m r r' left left' items items' opened opened' with
  | zero => exact carries_failAt _ _ _
  | succ n ih =>
      obtain ⟨m, rfl⟩ : ∃ m', m = m' + 1 := ⟨m - 1, by omega⟩
      have hnm : n ≤ m := Nat.le_of_succ_le_succ hnm
      simp only [readClassItems, Reader.skipSpace_eq h.spaced, Reader.skipSpace_eq h.spaced',
        classOp?_extends htail h]
      cases hop : classOp? r with
      | some kind =>
          obtain ⟨s, hr⟩ := classOp?_eq_some_iff.1 hop
          refine ih hnm ((h.bump hr).bump (r.bump_rest hr)) ?_ rfl _ _
          simp only [eraseLeft, Option.map_some, erase_combine hleft hitems]
      | none =>
          cases hr : r.rest with
          | nil => exact carries_failAt _ _ _
          | cons c s =>
              have hr' := h.next hr
              by_cases hclose : c = ']'
              · subst hclose
                simp only [hr']
                exact carries_ok (erase_combine hleft hitems) (h.bump hr)
              by_cases hopen : c = '['
              · subst hopen
                simp only [hr']
                rcases readPosix?_agree htail h with
                  ⟨hnone, hnone'⟩ | ⟨a, a', r₁, r₁', hsome, hsome', ha, h₁⟩
                · simp only [hnone, hnone']
                  refine (readClassOpen_carries htail h hr).bind ?_
                  rintro ⟨negated, first⟩ ⟨negated', first'⟩ r₁ r₁' hfirst h₁
                  obtain ⟨rfl, hfirst⟩ := Prod.mk.inj hfirst
                  refine (ih hnm h₁ rfl hfirst _ _).bind fun inner inner' r₂ r₂' hinner h₂ => ?_
                  refine ih hnm h₂ hleft ?_ _ _
                  simp only [ClassAst.erase, hitems, hinner]
                · simp only [hsome, hsome']
                  refine ih hnm h₁ hleft ?_ _ _
                  simp only [ClassAst.erase, hitems, ha]
              · simp only [hr', List.cons.injEq, hclose, hopen, false_and, IsEmpty.forall_iff,
                  implies_true]
                refine (readClassRange_carries htail h _ _).bind fun a a' r₁ r₁' ha h₁ => ?_
                refine ih hnm h₁ hleft ?_ _ _
                simp only [ClassAst.erase, hitems, ha]

/-- **A class** is the same for both readers. -/
theorem readClass_carries (htail : IsTail tail) (h : r.Extends tail r') (hr : r.rest = c :: s) :
    Carries tail Ast.erase (readClass r) (readClass r') := by
  refine (readClassOpen_carries htail h hr).bind ?_
  rintro ⟨negated, first⟩ ⟨negated', first'⟩ r₁ r₁' hfirst h₁
  obtain ⟨rfl, hfirst⟩ := Prod.mk.inj hfirst
  have hbound : r.rest.length ≤ r'.rest.length := by
    rw [h.rest, List.length_append]
    omega
  refine (readClassItems_carries htail hbound h₁ rfl hfirst _ _).bind ?_
  intro items items' r₂ r₂' hitems h₂
  refine carries_ok ?_ h₂
  simp only [Ast.erase, hitems]

end Pattern

end Softcode
