/-
**Reading patterns that are put together from parts.**

A written pattern is put together from texts that are parts of it: a character, an escape, a class,
a group, each perhaps with a sign of repetition behind it.  This module says what becomes of a text
that is put together so: the reader puts one tree after the other in front of what it has, and each
tree stands for the pattern of its text.  Where a tree comes from, its stretches of text, is of no
importance for that, so the results speak of trees that stand for a pattern
(`Proofs/PatternTrees.lean`).

The reader takes a bound on the number of parts.  A bound that is greater than the length of what is
left to read stays so, which is all that has to be known about it.

Main definitions:

* `Softcode.Pattern.ignoringCase` — the flags under which case is ignored;
* `Softcode.Pattern.ReadsPart`, `Softcode.Pattern.ReadsParts` — **texts that are read as one part,
  or as parts one after the other**.

Main results:

* `Softcode.Pattern.readParts_primitive` and others — the reader's steps, by the next character;
* `Softcode.Pattern.readsPart_literal`, `Softcode.Pattern.ReadsPart.star`,
  `Softcode.Pattern.ReadsParts.group` and others — the ways in which parts are put together;
* `Softcode.Pattern.ReadsParts.compile` — **the pattern of such a text**, with case ignored.
-/

import Mathlib.Data.List.Basic
import Softcode.Proofs.PatternTrees

set_option autoImplicit false

namespace Softcode

namespace Pattern

/-! ### The state of reading -/

namespace Reader

variable {r : Reader} {c : Char} {s : Text}

theorem bump_rest (h : r.rest = c :: s) : r.bump.rest = s := by
  simp only [bump, h]

@[simp] theorem bump_spaced (r : Reader) : r.bump.spaced = r.spaced := by
  unfold bump
  split <;> rfl

@[simp] theorem bump_groups (r : Reader) : r.bump.groups = r.groups := by
  unfold bump
  split <;> rfl

theorem skipSpace_eq (h : r.spaced = false) : r.skipSpace = r := by
  simp [skipSpace, h]

theorem bumpSpace_eq (h : r.spaced = false) : r.bumpSpace = r.bump := by
  rw [bumpSpace, skipSpace_eq (by rw [bump_spaced, h])]

end Reader

/-! ### Steps of reading -/

/-- The characters that do not stand for a part at the beginning of one. -/
def isOperator (c : Char) : Bool :=
  c == ')' || c == '|' || c == '(' || c == '[' || c == '?' || c == '*' || c == '+' || c == '\x7b'

section Steps

variable {n : Nat} {alts parts : List Ast} {r : Reader} {c : Char} {s : Text}

theorem readParts_nil (hs : r.spaced = false) (h : r.rest = []) :
    readParts (n + 1) alts parts r = .ok (Ast.altReversed (Ast.concatReversed parts) alts, r) := by
  rw [readParts, Reader.skipSpace_eq hs]
  simp only [h]

theorem readParts_close (hs : r.spaced = false) (h : r.rest = ')' :: s) :
    readParts (n + 1) alts parts r = .ok (Ast.altReversed (Ast.concatReversed parts) alts, r) := by
  rw [readParts, Reader.skipSpace_eq hs]
  simp only [h]

theorem readParts_bar (hs : r.spaced = false) (h : r.rest = '|' :: s) :
    readParts (n + 1) alts parts r = readParts n (Ast.concatReversed parts :: alts) [] r.bump := by
  rw [readParts, Reader.skipSpace_eq hs]
  simp only [h]

theorem readParts_bracket (hs : r.spaced = false) (h : r.rest = '[' :: s) :
    readParts (n + 1) alts parts r =
      readClass r >>= fun x => readParts n alts (x.1 :: parts) x.2 := by
  rw [readParts, Reader.skipSpace_eq hs]
  simp only [h]

theorem readParts_question (hs : r.spaced = false) (h : r.rest = '?' :: s) :
    readParts (n + 1) alts parts r =
      readOperator parts 0 (some 1) r >>= fun x => readParts n alts x.1 x.2 := by
  rw [readParts, Reader.skipSpace_eq hs]
  simp only [h]

theorem readParts_star (hs : r.spaced = false) (h : r.rest = '*' :: s) :
    readParts (n + 1) alts parts r =
      readOperator parts 0 none r >>= fun x => readParts n alts x.1 x.2 := by
  rw [readParts, Reader.skipSpace_eq hs]
  simp only [h]

theorem readParts_plus (hs : r.spaced = false) (h : r.rest = '+' :: s) :
    readParts (n + 1) alts parts r =
      readOperator parts 1 none r >>= fun x => readParts n alts x.1 x.2 := by
  rw [readParts, Reader.skipSpace_eq hs]
  simp only [h]

theorem readParts_brace (hs : r.spaced = false) (h : r.rest = '\x7b' :: s) :
    readParts (n + 1) alts parts r =
      readCounted parts r >>= fun x => readParts n alts x.1 x.2 := by
  rw [readParts, Reader.skipSpace_eq hs]
  simp only [h]

theorem readParts_primitive (hs : r.spaced = false) (h : r.rest = c :: s)
    (hc : isOperator c = false) :
    readParts (n + 1) alts parts r =
      readPrimitive r >>= fun x => readParts n alts (x.1.toAst :: parts) x.2 := by
  rw [readParts, Reader.skipSpace_eq hs]
  simp only [h]
  split
  case h_1 heq => cases heq
  case h_10 => rfl
  all_goals
    next heq =>
      obtain ⟨rfl, -⟩ := List.cons_eq_cons.1 heq
      exact absurd hc (by decide)

end Steps

/-! ### Texts that are read as parts -/

/-- The flags under which case is ignored. -/
def ignoringCase : Flags := { caseInsensitive := true }

/-- The reader has `rest` left to read and has opened `g` groups; blanks are not skipped. -/
structure Reader.At (r : Reader) (rest : Text) (g : Nat) : Prop where
  rest : r.rest = rest
  spaced : r.spaced = false
  groups : r.groups = g

theorem Reader.At.bump {r : Reader} {c : Char} {rest : Text} {g : Nat} (h : r.At (c :: rest) g) :
    r.bump.At rest g :=
  ⟨r.bump_rest h.rest, r.bump_spaced.trans h.spaced, r.bump_groups.trans h.groups⟩

/-- **A text that is read as one part**, which stands for the pattern `p`, where the number of
groups that are opened goes from `g` to `g'`.  A part that is `marked` ends with a sign of
repetition, behind which a question mark would belong to the sign. -/
structure ReadsPart (marked : Bool) (x : Text) (g g' : Nat) (p : Pattern) : Prop where
  ne_nil : x ≠ []
  head : x.head? ≠ some '?'
  reads : ∀ {rest : Text} {n : Nat} {r : Reader} (alts parts : List Ast), r.At (x ++ rest) g →
    (marked = true → rest.head? ≠ some '?') → (x ++ rest).length < n →
      ∃ m a r', readParts n alts parts r = readParts m alts (a :: parts) r' ∧ r'.At rest g' ∧
        rest.length < m ∧ a.isRepeatable = true ∧
        a.toPattern ignoringCase = .ok (p, ignoringCase)

/-- A text that is read as parts one after the other. -/
inductive ReadsParts : Text → Nat → Nat → List Pattern → Prop
  | nil (g : Nat) : ReadsParts [] g g []
  | cons {marked : Bool} {x y : Text} {g g₁ g₂ : Nat} {p : Pattern} {ps : List Pattern}
      (first : ReadsPart marked x g g₁ p) (others : ReadsParts y g₁ g₂ ps) :
      ReadsParts (x ++ y) g g₂ (p :: ps)

theorem ReadsParts.append {x y : Text} {g g₁ g₂ : Nat} {ps qs : List Pattern}
    (h : ReadsParts x g g₁ ps) (h' : ReadsParts y g₁ g₂ qs) :
    ReadsParts (x ++ y) g g₂ (ps ++ qs) := by
  induction h with
  | nil g => exact h'
  | cons first _ ih =>
      rw [List.append_assoc]
      exact .cons first (ih h')

theorem ReadsPart.parts {marked : Bool} {x : Text} {g g' : Nat} {p : Pattern}
    (h : ReadsPart marked x g g' p) : ReadsParts x g g' [p] := by
  have := ReadsParts.cons h (.nil g')
  rwa [List.append_nil] at this

theorem ReadsParts.head {x : Text} {g g' : Nat} {ps : List Pattern} (h : ReadsParts x g g' ps)
    {rest : Text} (hrest : rest.head? ≠ some '?') : (x ++ rest).head? ≠ some '?' := by
  cases h with
  | nil => exact hrest
  | cons first _ =>
      rw [List.append_assoc, List.head?_append_of_ne_nil _ first.ne_nil]
      exact first.head

/-- **The trees of a text that is read as parts** are put in front, the last one first. -/
theorem ReadsParts.reads {x : Text} {g g' : Nat} {ps : List Pattern} (h : ReadsParts x g g' ps)
    {rest : Text} {n : Nat} {r : Reader} (alts parts : List Ast) (hr : r.At (x ++ rest) g)
    (hrest : rest.head? ≠ some '?') (hn : (x ++ rest).length < n) :
    ∃ m as r', readParts n alts parts r = readParts m alts (as.reverse ++ parts) r' ∧
      r'.At rest g' ∧ rest.length < m ∧ StandFor as ignoringCase ps ignoringCase := by
  induction h generalizing n r parts with
  | nil g => exact ⟨n, [], r, rfl, hr, hn, .nil _⟩
  | cons first others ih =>
      rw [List.append_assoc] at hr hn
      obtain ⟨m, a, r₁, hread, hr₁, hm, -, ha⟩ :=
        first.reads alts parts hr (fun _ => others.head hrest) hn
      obtain ⟨m', as, r', hreads, hr', hm', has⟩ := ih (a :: parts) hr₁ hm
      refine ⟨m', a :: as, r', ?_, hr', hm', .cons ha has⟩
      rw [hread, hreads, List.reverse_cons, List.append_assoc, List.singleton_append]

/-! ### Single parts -/

/-- A text that is read in one step is read as a part: the bound goes down by one, and so does the
length of what is left, at least. -/
theorem ReadsPart.of_step {x : Text} {g : Nat} {p : Pattern} (hne : x ≠ [])
    (hhead : x.head? ≠ some '?')
    (h : ∀ rest n position names alts parts, ∃ a r',
      readParts (n + 1) alts parts ⟨x ++ rest, position, false, g, names⟩ =
        readParts n alts (a :: parts) r' ∧
      r'.At rest g ∧ a.isRepeatable = true ∧ a.toPattern ignoringCase = .ok (p, ignoringCase)) :
    ReadsPart false x g g p := by
  refine ⟨hne, hhead, ?_⟩
  rintro rest n ⟨r, position, spaced, groups, names⟩ alts parts ⟨rfl, rfl, rfl⟩ - hn
  have hx : 0 < x.length := List.length_pos_iff.2 hne
  rw [List.length_append] at hn
  obtain ⟨n, rfl⟩ : ∃ n', n = n' + 1 := ⟨n - 1, by omega⟩
  obtain ⟨a, r', hread, hr', ha, hp⟩ := h rest n position names alts parts
  exact ⟨n, a, r', hread, hr', by omega, ha, hp⟩

/-- A character without a meaning of its own stands for itself, in any case. -/
theorem readsPart_literal {c : Char} (hc : isMeta c = false) (g : Nat) :
    ReadsPart false [c] g g (.char (.sameCase (caseFold c))) := by
  have hne : ∀ d, isMeta d = true → c ≠ d := by
    rintro d hd rfl
    rw [hc] at hd
    cases hd
  have hoperator : isOperator c = false := by
    simp only [isOperator, Bool.or_eq_false_iff, beq_eq_false_iff_ne]
    exact ⟨⟨⟨⟨⟨⟨⟨hne _ rfl, hne _ rfl⟩, hne _ rfl⟩, hne _ rfl⟩, hne _ rfl⟩, hne _ rfl⟩, hne _ rfl⟩,
      hne _ rfl⟩
  refine .of_step (List.cons_ne_nil c []) (fun h => hne '?' rfl (Option.some.inj h)) ?_
  intro rest n position names alts parts
  have hprimitive : ∀ r : Reader, r.rest = c :: rest →
      readPrimitive r = .ok (.literal ⟨r.charSpan, c, false⟩, r.bump) := by
    intro r hr
    unfold readPrimitive
    rw [hr]
    split
    case h_5 heq =>
      obtain ⟨rfl, -⟩ := List.cons_eq_cons.1 heq
      rfl
    case h_6 heq => cases heq
    all_goals
      next heq => exact absurd (List.cons_eq_cons.1 heq).1 (hne _ rfl)
  let r : Reader := ⟨c :: rest, position, false, g, names⟩
  have hr : r.At (c :: rest) g := ⟨rfl, rfl, rfl⟩
  refine ⟨.literal ⟨r.charSpan, c, false⟩, r.bump, ?_, hr.bump, rfl, rfl⟩
  change readParts (n + 1) alts parts r = _
  rw [readParts_primitive hr.spaced hr.rest hoperator, hprimitive r hr.rest]
  rfl

/-- A backslash and an `s` stand for a blank. -/
theorem readsPart_blank (g : Nat) : ReadsPart false ['\\', 's'] g g (.char .blank) :=
  .of_step (by decide) (by decide) fun _ _ _ _ _ _ => ⟨_, _, rfl, ⟨rfl, rfl, rfl⟩, rfl, rfl⟩

/-- An opening parenthesis behind a backslash stands for itself. -/
theorem readsPart_open (g : Nat) : ReadsPart false ['\\', '('] g g (.char (.sameCase '(')) :=
  .of_step (by decide) (by decide) fun _ _ _ _ _ _ => ⟨_, _, rfl, ⟨rfl, rfl, rfl⟩, rfl, rfl⟩

/-- A closing parenthesis behind a backslash stands for itself. -/
theorem readsPart_close (g : Nat) : ReadsPart false ['\\', ')'] g g (.char (.sameCase ')')) :=
  .of_step (by decide) (by decide) fun _ _ _ _ _ _ => ⟨_, _, rfl, ⟨rfl, rfl, rfl⟩, rfl, rfl⟩

/-! ### Repetitions and groups -/

/-- A sign of repetition behind a part, where no question mark follows. -/
theorem readOperator_eq {a : Ast} {parts : List Ast} {min : Nat} {max : Option Nat} {r : Reader}
    {c : Char} {rest : Text} {g : Nat} (ha : a.isRepeatable = true) (hr : r.At (c :: rest) g)
    (hrest : rest.head? ≠ some '?') :
    readOperator (a :: parts) min max r = .ok (.repetition a min max true :: parts, r.bump) := by
  simp only [readOperator, lastPart, ha, if_true, bind, Except.bind, readLazy, hr.bump.rest,
    beq_eq_false_iff_ne.2 hrest, Bool.false_eq_true, if_false]

section Repetition

variable {x : Text} {g g' : Nat} {p : Pattern}

/-- A part with a sign of repetition behind it. -/
theorem ReadsPart.mark {c : Char} {min : Nat} {max : Option Nat} (h : ReadsPart false x g g' p)
    (hstep : ∀ {n alts parts} {r : Reader} {s : Text}, r.spaced = false → r.rest = c :: s →
      readParts (n + 1) alts parts r =
        readOperator parts min max r >>= fun x => readParts n alts x.1 x.2) :
    ReadsPart true (x ++ [c]) g g' (p.repeated true min max) := by
  refine ⟨by simp, ?_, ?_⟩
  · rw [List.head?_append_of_ne_nil _ h.ne_nil]
    exact h.head
  · intro rest n r alts parts hr hrest hn
    rw [List.append_assoc, List.singleton_append] at hr hn
    obtain ⟨m, a, r', hread, hr', hm, ha, hp⟩ := h.reads alts parts hr (by simp) hn
    rw [List.length_cons] at hm
    obtain ⟨m, rfl⟩ : ∃ m', m = m' + 1 := ⟨m - 1, by omega⟩
    refine ⟨m, .repetition a min max true, r'.bump, ?_, hr'.bump, by omega, rfl, ?_⟩
    · rw [hread, hstep hr'.spaced hr'.rest, readOperator_eq ha hr' (hrest rfl)]
      rfl
    · simp only [Ast.toPattern, hp, bind, Except.bind]
      rfl

theorem ReadsPart.star (h : ReadsPart false x g g' p) :
    ReadsPart true (x ++ ['*']) g g' (p.repeated true 0 none) :=
  h.mark readParts_star

theorem ReadsPart.opt (h : ReadsPart false x g g' p) :
    ReadsPart true (x ++ ['?']) g g' (p.repeated true 0 (some 1)) :=
  h.mark readParts_question

end Repetition

/-- What stands in a group is read up to its end, and then what follows it. -/
theorem readParts_group {n : Nat} {alts parts : List Ast} {r r₁ r₂ : Reader} {s : Text}
    {kind : GroupKind} {sub : Ast} (hs : r.spaced = false) (h : r.rest = '(' :: s)
    (hopening : readOpening r = .ok (.group kind, r₁))
    (hkind : (Opening.group kind).flags.state? .spaced = none) (hr₁ : r₁.spaced = false)
    (hsub : readParts n [] [] r₁ = .ok (sub, r₂)) (hr₂ : r₂.atEnd = false) :
    readParts (n + 1) alts parts r =
      readParts n alts (.group kind sub :: parts) { r₂.bump with spaced := false } := by
  obtain ⟨rest, position, spaced, groups, names⟩ := r₁
  obtain rfl : spaced = false := hr₁
  rw [readParts, Reader.skipSpace_eq hs]
  simp only [h, hopening, bind, Except.bind, hkind, hs, Option.getD_none, hsub, hr₂,
    Bool.false_eq_true, if_false]

/-- **Parts in a group** are read as one part. -/
theorem ReadsParts.enclose {o y : Text} {g g₁ g' : Nat} {ps : List Pattern} {p : Pattern}
    {kind : GroupKind} (h : ReadsParts y g₁ g' ps) (ho : o.head? = some '(')
    (hopening : ∀ {r : Reader} {rest : Text}, rest.head? ≠ some '?' → r.At (o ++ rest) g →
      ∃ r₁, readOpening r = .ok (.group kind, r₁) ∧ r₁.At rest g₁)
    (hkind : (Opening.group kind).flags.state? .spaced = none)
    (hp : ∀ {sub : Ast}, sub.toPattern ignoringCase = .ok (concat ps, ignoringCase) →
      (Ast.group kind sub).toPattern ignoringCase = .ok (p, ignoringCase)) :
    ReadsPart false (o ++ y ++ [')']) g g' p := by
  obtain ⟨o, rfl⟩ : ∃ o', o = '(' :: o' := List.head?_eq_some_iff.1 ho
  refine ⟨by simp, by simp, ?_⟩
  rintro rest n r alts parts hr - hn
  rw [List.append_assoc, List.append_assoc, List.singleton_append] at hr hn
  rw [List.cons_append, List.length_cons, List.length_append] at hn
  obtain ⟨n, rfl⟩ : ∃ n', n = n' + 1 := ⟨n - 1, by omega⟩
  obtain ⟨r₁, hopen, hr₁⟩ := hopening (h.head (by simp)) hr
  have hbound : (y ++ ')' :: rest).length < n := by omega
  obtain ⟨m, as, r₂, hread, hr₂, hm, has⟩ := h.reads [] [] hr₁ (by simp) hbound
  obtain ⟨m, rfl⟩ : ∃ m', m = m' + 1 := ⟨m - 1, by omega⟩
  rw [readParts_close hr₂.spaced hr₂.rest] at hread
  have hend : r₂.atEnd = false := by rw [Reader.atEnd, hr₂.rest, List.isEmpty_cons]
  refine ⟨n, _, _, readParts_group hr.spaced hr.rest hopen hkind hr₁.spaced hread hend,
    ⟨hr₂.bump.rest, rfl, hr₂.bump.groups⟩, ?_, rfl, hp ?_⟩
  · simp only [List.length_append, List.length_cons] at hn
    omega
  · refine toPattern_concatReversed.2 ⟨ps, ?_, rfl⟩
    rwa [List.append_nil, List.reverse_reverse]

theorem readOpening_capture {r : Reader} {rest : Text} {g : Nat} (hrest : rest.head? ≠ some '?')
    (hr : r.At (['('] ++ rest) g) :
    ∃ r₁, readOpening r = .ok (.group (.capture (g + 1)), r₁) ∧ r₁.At rest (g + 1) := by
  have hnone : ∀ token, r.bump.bumpText? ('?' :: token) = none := by
    intro token
    rw [Reader.bumpText?, hr.bump.rest]
    cases rest with
    | nil => rfl
    | cons c rest =>
        have hc : '?' ≠ c := fun h => hrest (by rw [h]; rfl)
        simp [hc]
  refine ⟨{ r.bump with groups := g + 1 }, ?_, ⟨hr.bump.rest, hr.bump.spaced, rfl⟩⟩
  simp only [readOpening, Reader.bumpSpace_eq hr.spaced, lookAroundMarks, List.findSome?_cons,
    List.findSome?_nil, hnone, Option.or_none, hr.bump.groups]

/-- A group is numbered when it is opened. -/
theorem ReadsParts.group {y : Text} {g g' : Nat} {ps : List Pattern}
    (h : ReadsParts y (g + 1) g' ps) :
    ReadsPart false ('(' :: y ++ [')']) g g' (.group (g + 1) (concat ps)) := by
  refine h.enclose (o := ['(']) rfl readOpening_capture rfl ?_
  intro sub hsub
  simp only [Ast.toPattern, hsub, bind, Except.bind]

theorem readOpening_plain {r : Reader} {rest : Text} {g : Nat}
    (hr : r.At (['(', '?', ':'] ++ rest) g) :
    ∃ r₁, readOpening r = .ok (.group (.plain []), r₁) ∧ r₁.At rest g := by
  obtain ⟨s, position, spaced, groups, names⟩ := r
  obtain ⟨rfl, rfl, rfl⟩ := hr
  exact ⟨_, rfl, ⟨rfl, rfl, rfl⟩⟩

/-- A group without a number stands for what is in it. -/
theorem ReadsParts.plain {y : Text} {g g' : Nat} {ps : List Pattern} (h : ReadsParts y g g' ps) :
    ReadsPart false (['(', '?', ':'] ++ y ++ [')']) g g' (concat ps) := by
  refine h.enclose rfl (fun _ hr => readOpening_plain hr) rfl ?_
  intro sub hsub
  have hswitch : ignoringCase.switch [] = ignoringCase := rfl
  simp only [Ast.toPattern, hswitch, hsub, bind, Except.bind]

/-! ### Whole patterns -/

/-- The switch at the beginning of a pattern that ignores case. -/
def caseSwitch : Ast := .flags [(.caseInsensitive, true)]

theorem parse_eq_ok_iff {t : Text} {a : Ast} :
    parse t = .ok a ↔
      ∃ r, readParts (t.length + 1) [] [] (Reader.start t) = .ok (a, r) ∧ r.atEnd = true := by
  constructor
  · intro h
    obtain ⟨⟨b, r⟩, hread, h⟩ := exists_of_bind_eq_ok h
    simp only at h
    split at h
    · next hend =>
        cases h
        exact ⟨r, hread, hend⟩
    · cases h
  · rintro ⟨r, hread, hend⟩
    simp only [parse, hread, bind, Except.bind, hend, if_true]

theorem compile_of_toPattern {t : Text} {a : Ast} {q : Pattern} {f : Flags}
    (hparse : parse t = .ok a) (ha : a.toPattern {} = .ok (q, f)) :
    Pattern.compile t = .ok (q.label 0).1 := by
  rw [Pattern.compile, hparse]
  change (a.toPattern {} >>= _) = _
  rw [ha]
  rfl

/-- A pattern that ignores case is read behind its switch. -/
theorem exists_reader (t : Text) :
    ∃ r : Reader, r.At t 0 ∧ ∀ {a : Ast}, parse ("(?i)".toList ++ t) = .ok a ↔
      ∃ r₁, readParts (t.length + 4) [] [caseSwitch] r = .ok (a, r₁) ∧ r₁.atEnd = true := by
  have hlength : ("(?i)".toList ++ t).length = t.length + 4 := by
    rw [List.length_append, Nat.add_comm]
    rfl
  obtain ⟨r, hr, hswitch⟩ : ∃ r : Reader, r.At t 0 ∧
      readParts (t.length + 4 + 1) [] [] (Reader.start ("(?i)".toList ++ t)) =
        readParts (t.length + 4) [] [caseSwitch] r := ⟨_, ⟨rfl, rfl, rfl⟩, rfl⟩
  refine ⟨r, hr, fun {a} => ?_⟩
  rw [parse_eq_ok_iff, hlength, hswitch]

/-- **A text that is read as parts up to its end.** -/
theorem ReadsParts.readParts_whole {x : Text} {g g' n : Nat} {ps : List Pattern}
    (h : ReadsParts x g g' ps) (alts parts : List Ast) {r : Reader} (hr : r.At x g)
    (hn : x.length < n) :
    ∃ as r', readParts n alts parts r =
        .ok (Ast.altReversed (Ast.concatReversed (as.reverse ++ parts)) alts, r') ∧
      r'.atEnd = true ∧ StandFor as ignoringCase ps ignoringCase := by
  rw [← List.append_nil x] at hr hn
  obtain ⟨m, as, r', hread, hr', hm, has⟩ := h.reads alts parts hr (by simp) hn
  obtain ⟨m, rfl⟩ : ∃ m', m = m' + 1 := ⟨m - 1, by omega⟩
  rw [readParts_nil hr'.spaced hr'.rest] at hread
  exact ⟨as, r', hread, by rw [Reader.atEnd, hr'.rest, List.isEmpty_nil], has⟩

/-- **A text that is read as parts, with case ignored**, is compiled to their patterns one after the
other; the switch itself matches nothing. -/
theorem ReadsParts.compile {x : Text} {g : Nat} {ps : List Pattern} (h : ReadsParts x 0 g ps) :
    Pattern.compile ("(?i)".toList ++ x) = .ok ((concat (.empty :: ps)).label 0).1 := by
  obtain ⟨r, hr, hparse⟩ := exists_reader x
  have hbound : x.length < x.length + 4 := by omega
  obtain ⟨as, r', hread, hend, has⟩ := h.readParts_whole [] [caseSwitch] hr hbound
  refine compile_of_toPattern (hparse.2 ⟨r', hread, hend⟩) (f := ignoringCase) ?_
  refine toPattern_concatReversed.2 ⟨.empty :: ps, ?_, rfl⟩
  rw [List.reverse_append, List.reverse_reverse]
  exact .cons rfl has

end Pattern

end Softcode
