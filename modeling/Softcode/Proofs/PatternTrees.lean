/-
**Trees and the patterns that they stand for.**

The reader gives trees, one for each part of a written pattern, and these stand for patterns.  Trees
one after the other stand for patterns one after the other, where each may switch flags for those
behind it (`Softcode.Pattern.StandFor`).

Two things about a tree do not matter for its pattern.  One is where its parts were written: a tree
without its places stands for the same pattern (`Softcode.Pattern.toOption_toPattern_erase`).  The
other concerns trees without groups and switches, which are what is read where no parenthesis
stands: such a tree leaves the flags as they are, its pattern has no groups, and whether it stands
for a pattern at all does not depend on flags such as the one for case.

Main definitions:

* `Softcode.Pattern.StandFor` — trees that stand for patterns, one after the other;
* `Softcode.Pattern.Ast.erase` — a tree without its places;
* `Softcode.Pattern.Ast.isPlain`, `Softcode.Pattern.Ast.Usable` — trees without groups and switches,
  and those of them that stand for a pattern.

Main results:

* `Softcode.Pattern.toPattern_concatReversed`, `Softcode.Pattern.toPattern_altReversed` — trees one
  after the other, and alternatives;
* `Softcode.Pattern.toPattern_of_erase_eq` — **the places in a tree do not matter**;
* `Softcode.Pattern.Ast.Usable.toPattern` — **a plain tree stands for a pattern without groups**,
  whether case matters or not.
-/

import Softcode.Pattern.Compile
import Softcode.Proofs.Matching
import Softcode.Proofs.Text

set_option autoImplicit false

namespace Softcode

namespace Pattern

/-! ### Trees and the patterns that they stand for -/

/-- Trees that stand for patterns, one after the other: the flags that are in force behind one tree
are in force for the next. -/
inductive StandFor : List Ast → Flags → List Pattern → Flags → Prop
  | nil (f : Flags) : StandFor [] f [] f
  | cons {a : Ast} {as : List Ast} {f f₁ f₂ : Flags} {p : Pattern} {ps : List Pattern}
      (first : a.toPattern f = .ok (p, f₁)) (others : StandFor as f₁ ps f₂) :
      StandFor (a :: as) f (p :: ps) f₂

theorem StandFor.append {as bs : List Ast} {f f₁ f₂ : Flags} {ps qs : List Pattern}
    (h : StandFor as f ps f₁) (h' : StandFor bs f₁ qs f₂) :
    StandFor (as ++ bs) f (ps ++ qs) f₂ := by
  induction h with
  | nil f => exact h'
  | cons first _ ih => exact .cons first (ih h')

theorem StandFor.length_eq {as : List Ast} {f f' : Flags} {ps : List Pattern}
    (h : StandFor as f ps f') : ps.length = as.length := by
  induction h with
  | nil => rfl
  | cons _ _ ih => rw [List.length_cons, List.length_cons, ih]

theorem standFor_singleton {a : Ast} {f f' : Flags} {p : Pattern}
    (h : a.toPattern f = .ok (p, f')) : StandFor [a] f [p] f' :=
  .cons h (.nil f')

theorem toPattern_seq_iff {a b : Ast} {f f₂ : Flags} {x : Pattern} :
    (Ast.seq a b).toPattern f = .ok (x, f₂) ↔
      ∃ p f₁ q, a.toPattern f = .ok (p, f₁) ∧ b.toPattern f₁ = .ok (q, f₂) ∧ x = .seq p q := by
  constructor
  · intro h
    rw [Ast.toPattern] at h
    obtain ⟨⟨p, f₁⟩, hp, h⟩ := exists_of_bind_eq_ok h
    obtain ⟨⟨q, f₂⟩, hq, h⟩ := exists_of_bind_eq_ok h
    cases h
    exact ⟨p, f₁, q, hp, hq, rfl⟩
  · rintro ⟨p, f₁, q, hp, hq, rfl⟩
    simp only [Ast.toPattern, hp, hq, bind, Except.bind]

theorem toPattern_alt_iff {a b : Ast} {f f₂ : Flags} {x : Pattern} :
    (Ast.alt a b).toPattern f = .ok (x, f₂) ↔
      ∃ p f₁ q, a.toPattern f = .ok (p, f₁) ∧ b.toPattern f₁ = .ok (q, f₂) ∧ x = .alt 0 p q := by
  constructor
  · intro h
    rw [Ast.toPattern] at h
    obtain ⟨⟨p, f₁⟩, hp, h⟩ := exists_of_bind_eq_ok h
    obtain ⟨⟨q, f₂⟩, hq, h⟩ := exists_of_bind_eq_ok h
    cases h
    exact ⟨p, f₁, q, hp, hq, rfl⟩
  · rintro ⟨p, f₁, q, hp, hq, rfl⟩
    simp only [Ast.toPattern, hp, hq, bind, Except.bind]

theorem toPattern_foldr_seq {as : List Ast} {a : Ast} {f f' : Flags} {x : Pattern} :
    (as.foldr Ast.seq a).toPattern f = .ok (x, f') ↔
      ∃ ps, StandFor (as ++ [a]) f ps f' ∧ x = concat ps := by
  have hne : ∀ {as : List Ast} {f ps}, StandFor (as ++ [a]) f ps f' → ps ≠ [] := by
    rintro as f ps h rfl
    simpa using h.length_eq
  induction as generalizing f x with
  | nil =>
      constructor
      · intro h
        exact ⟨[x], standFor_singleton h, rfl⟩
      · rintro ⟨ps, h, rfl⟩
        cases h with
        | cons first others =>
            cases others
            exact first
  | cons b as ih =>
      rw [List.foldr_cons, toPattern_seq_iff]
      constructor
      · rintro ⟨p, f₁, q, hp, hq, rfl⟩
        obtain ⟨ps, hps, rfl⟩ := ih.1 hq
        exact ⟨p :: ps, .cons hp hps, (concat_cons (hne hps)).symm⟩
      · rintro ⟨ps, h, rfl⟩
        cases h with
        | @cons _ _ _ f₁ _ p ps first others =>
            exact ⟨p, f₁, concat ps, first, ih.2 ⟨ps, others, rfl⟩, concat_cons (hne others)⟩

/-- **Trees one after the other** stand for patterns one after the other. -/
theorem toPattern_concatReversed {parts : List Ast} {f f' : Flags} {x : Pattern} :
    (Ast.concatReversed parts).toPattern f = .ok (x, f') ↔
      ∃ ps, StandFor parts.reverse f ps f' ∧ x = concat ps := by
  cases parts with
  | nil =>
      constructor
      · intro h
        cases h
        exact ⟨[], .nil f, rfl⟩
      · rintro ⟨ps, h, rfl⟩
        cases h
        rfl
  | cons last before =>
      have hfold : Ast.concatReversed (last :: before) = before.reverse.foldr Ast.seq last := by
        rw [List.foldr_reverse]
        rfl
      rw [hfold, toPattern_foldr_seq, List.reverse_cons]

/-- **Alternatives** stand for alternatives. -/
theorem toPattern_altReversed {last : Ast} {before : List Ast} {f f' : Flags} {x : Pattern} :
    (Ast.altReversed last before).toPattern f = .ok (x, f') ↔
      ∃ ps f₁ q, StandFor before.reverse f ps f₁ ∧ last.toPattern f₁ = .ok (q, f') ∧
        x = ps.foldr (alt 0) q := by
  have hfold : Ast.altReversed last before = before.reverse.foldr Ast.alt last := by
    rw [List.foldr_reverse]
    rfl
  rw [hfold]
  generalize before.reverse = as
  induction as generalizing f x with
  | nil =>
      constructor
      · intro h
        exact ⟨[], f, x, .nil f, h, rfl⟩
      · rintro ⟨ps, f₁, q, hps, hq, rfl⟩
        cases hps
        exact hq
  | cons a as ih =>
      rw [List.foldr_cons, toPattern_alt_iff]
      constructor
      · rintro ⟨p, f₁, q, hp, hq, rfl⟩
        obtain ⟨ps, f₂, q', hps, hlast, rfl⟩ := ih.1 hq
        exact ⟨p :: ps, f₂, q', .cons hp hps, hlast, rfl⟩
      · rintro ⟨ps, f₂, q, hps, hq, rfl⟩
        cases hps with
        | @cons _ _ _ f₁ _ p ps first others =>
            exact ⟨p, f₁, _, first, ih.2 ⟨ps, f₂, q, others, hq, rfl⟩, rfl⟩

/-! ### Trees without their places -/

/-- No stretch of text. -/
def Span.nowhere : Span := ⟨⟨0, 0, 0⟩, ⟨0, 0, 0⟩⟩

/-- A literal without its place. -/
def Literal.erase (l : Literal) : Literal := ⟨.nowhere, l.char, l.byte⟩

/-- A primitive part without its place. -/
def Primitive.erase : Primitive → Primitive
  | literal l => literal l.erase
  | assertion _ a => assertion .nowhere a
  | dot _ => dot .nowhere
  | perl _ negated kind => perl .nowhere negated kind
  | property _ negated query => property .nowhere negated query

/-- The tree of a class without its places. -/
def ClassAst.erase : ClassAst → ClassAst
  | nothing => nothing
  | literal l => literal l.erase
  | range first last => range first.erase last.erase
  | perl _ negated kind => perl .nowhere negated kind
  | property _ negated query => property .nowhere negated query
  | posix _ negated cls => posix .nowhere negated cls
  | bracket _ negated items => bracket .nowhere negated items.erase
  | union a b => union a.erase b.erase
  | op kind a b => op kind a.erase b.erase

/-- The tree of a pattern without its places. -/
def Ast.erase : Ast → Ast
  | empty => empty
  | flags fs => flags fs
  | literal l => literal l.erase
  | dot _ => dot .nowhere
  | assertion a => assertion a
  | perl _ negated kind => perl .nowhere negated kind
  | property _ negated query => property .nowhere negated query
  | bracket _ negated items => bracket .nowhere negated items.erase
  | repetition sub min max greedy => repetition sub.erase min max greedy
  | group kind sub => group kind sub.erase
  | seq a b => seq a.erase b.erase
  | alt a b => alt a.erase b.erase

theorem toOption_bind {ε α β : Type} (x : Except ε α) (f : α → Except ε β) :
    (x >>= f).toOption = x.toOption.bind fun a => (f a).toOption := by
  cases x <;> rfl

theorem toOption_unless {α : Type} (c : Bool) (fault : Fault) (span : Span) (a : α) :
    (if c then failAt fault span else .ok a : Except Error α).toOption =
      if c then none else some a := by
  cases c <;> rfl

theorem toOption_classLiteral (f : Flags) (l : Literal) :
    (f.classLiteral l.erase).toOption = (f.classLiteral l).toOption := by
  unfold Flags.classLiteral Literal.erase
  split <;> rfl

theorem toOption_finish (f : Flags) (s s' : Span) (negated : Bool) (a : CharClass) :
    (f.finish s negated a).toOption = (f.finish s' negated a).toOption :=
  (toOption_unless _ _ s _).trans (toOption_unless _ _ s' _).symm

theorem toOption_perl (f : Flags) (s s' : Span) (negated : Bool) (kind : PerlClass) :
    (f.perl s negated kind).toOption = (f.perl s' negated kind).toOption :=
  (toOption_unless _ _ s _).trans (toOption_unless _ _ s' _).symm

theorem toOption_property (f : Flags) (s s' : Span) (negated : Bool) (query : PropertyQuery) :
    (f.property s negated query).toOption = (f.property s' negated query).toOption := by
  unfold Flags.property
  split
  · rfl
  · split
    · rfl
    · exact toOption_finish f s s' negated _

theorem toOption_toClass_erase (f : Flags) (a : ClassAst) :
    (a.erase.toClass f).toOption = (a.toClass f).toOption := by
  induction a with
  | nothing => rfl
  | literal l =>
      simp only [ClassAst.erase, ClassAst.toClass, toOption_bind, toOption_classLiteral]
  | range first last =>
      simp only [ClassAst.erase, ClassAst.toClass, toOption_bind, toOption_classLiteral]
  | perl s negated kind => exact toOption_perl f _ s negated kind
  | property s negated query => exact toOption_property f _ s negated query
  | posix s negated cls => exact toOption_finish f _ s negated cls
  | bracket s negated items ih =>
      simp only [ClassAst.erase, ClassAst.toClass, toOption_bind, ih]
      exact congrArg _ (funext fun a => toOption_finish f _ s negated a)
  | union a b iha ihb =>
      simp only [ClassAst.erase, ClassAst.toClass, toOption_bind, iha, ihb]
  | op kind a b iha ihb =>
      simp only [ClassAst.erase, ClassAst.toClass, toOption_bind, iha, ihb]

theorem toOption_literal (f : Flags) (l : Literal) :
    (f.literal l.erase).toOption = (f.literal l).toOption := by
  unfold Flags.literal Literal.erase
  split <;> rfl

theorem toOption_dot (f : Flags) (s s' : Span) :
    (f.dot s).toOption = (f.dot s').toOption := by
  unfold Flags.dot
  split <;> rfl

/-- **The pattern of a tree does not depend on its places.** -/
theorem toOption_toPattern_erase (f : Flags) (a : Ast) :
    (a.erase.toPattern f).toOption = (a.toPattern f).toOption := by
  induction a generalizing f with
  | empty | flags | assertion => rfl
  | literal l => simp only [Ast.erase, Ast.toPattern, toOption_bind, toOption_literal]
  | dot s =>
      simp only [Ast.erase, Ast.toPattern, toOption_bind]
      rw [toOption_dot f _ s]
  | perl s negated kind =>
      simp only [Ast.erase, Ast.toPattern, toOption_bind]
      rw [toOption_perl f _ s]
  | property s negated query =>
      simp only [Ast.erase, Ast.toPattern, toOption_bind]
      rw [toOption_property f _ s]
  | bracket s negated items =>
      simp only [Ast.erase, Ast.toPattern, toOption_bind]
      rw [← toOption_toClass_erase f (.bracket s negated items)]
      rfl
  | repetition sub min max greedy ih => simp only [Ast.erase, Ast.toPattern, toOption_bind, ih]
  | group kind sub ih =>
      cases kind <;> simp only [Ast.erase, Ast.toPattern, toOption_bind, ih]
  | seq a b iha ihb =>
      simp only [Ast.erase, Ast.toPattern, toOption_bind, iha, ihb]
  | alt a b iha ihb =>
      simp only [Ast.erase, Ast.toPattern, toOption_bind, iha, ihb]

theorem eq_ok_of_toOption {ε α : Type} {x : Except ε α} {a : α} (h : x.toOption = some a) :
    x = .ok a := by
  cases x with
  | error e => cases h
  | ok b => rw [Option.some.inj h]

/-- **The places in a tree do not matter** for its pattern. -/
theorem toPattern_of_erase_eq {a b : Ast} (h : b.erase = a.erase) {f : Flags} {x : Pattern × Flags}
    (ha : a.toPattern f = .ok x) : b.toPattern f = .ok x := by
  refine eq_ok_of_toOption ?_
  rw [← toOption_toPattern_erase, h, toOption_toPattern_erase, ha]
  rfl

theorem StandFor.of_map_erase_eq {as bs : List Ast} (h : bs.map Ast.erase = as.map Ast.erase)
    {f f' : Flags} {ps : List Pattern} (has : StandFor as f ps f') : StandFor bs f ps f' := by
  induction has generalizing bs with
  | nil f =>
      obtain rfl : bs = [] := List.map_eq_nil_iff.1 h
      exact .nil f
  | cons first _ ih =>
      cases bs with
      | nil => cases h
      | cons b bs =>
          obtain ⟨hb, hbs⟩ := List.cons_eq_cons.1 h
          exact .cons (toPattern_of_erase_eq hb first) (ih hbs)

theorem erase_concatReversed (parts : List Ast) :
    (Ast.concatReversed parts).erase = Ast.concatReversed (parts.map Ast.erase) := by
  have hfold : ∀ (as : List Ast) (a : Ast), (as.foldl (fun acc a => .seq a acc) a).erase =
      (as.map Ast.erase).foldl (fun acc a => .seq a acc) a.erase := by
    intro as
    induction as with
    | nil => exact fun _ => rfl
    | cons b as ih => exact fun a => ih (.seq b a)
  cases parts with
  | nil => rfl
  | cons a as => exact hfold as a

/-! ### Trees without groups and switches -/

/-- Whether a tree has no groups and switches no flags. -/
def Ast.isPlain : Ast → Bool
  | flags _ | group _ _ => false
  | repetition sub _ _ _ => sub.isPlain
  | seq a b | alt a b => a.isPlain && b.isPlain
  | _ => true

/-- A tree without groups and switches that stands for a pattern. -/
structure Ast.Usable (a : Ast) : Prop where
  plain : a.isPlain = true
  stands : ∃ x, a.toPattern {} = .ok x

theorem groupless_times {p q : Pattern} (hp : p.groupless = true) (hq : q.groupless = true)
    (n : Nat) : (p.times n q).groupless = true := by
  induction n with
  | zero => exact hq
  | succ n ih => exact Bool.and_eq_true_iff.2 ⟨hp, ih⟩

theorem groupless_atMost {p : Pattern} (hp : p.groupless = true) (greedy : Bool) (n : Nat) :
    (p.atMost greedy n).groupless = true := by
  fun_induction atMost greedy p n with
  | case1 => rfl
  | case2 => exact hp
  | case3 n ih => exact Bool.and_eq_true_iff.2 ⟨hp, ih⟩

theorem groupless_repeated {p : Pattern} (hp : p.groupless = true) (greedy : Bool) (min : Nat)
    (max : Option Nat) : (p.repeated greedy min max).groupless = true := by
  rw [repeated]
  generalize (if p.onlyEmpty then Nat.min min 1 else min) = low
  generalize (if p.onlyEmpty then some ((max.getD 1).min 1) else max) = high
  cases high with
  | none =>
      cases low with
      | zero =>
          change (anyTimes greedy p).groupless = true
          unfold anyTimes
          split <;> exact hp
      | succ n =>
          have hplus : (plus 0 greedy p).groupless = true := hp
          exact groupless_times hp hplus n
  | some m =>
      have hmore := groupless_times hp (groupless_atMost hp greedy (m - low)) low
      cases low with
      | zero =>
          change (if m ≤ 0 then empty else _).groupless = true
          split
          · rfl
          · exact hmore
      | succ n =>
          change (if m ≤ n + 1 then p.times n p else _).groupless = true
          split
          · exact groupless_times hp hp n
          · exact hmore

section Unicode

variable {f g : Flags}

theorem exists_finish (hg : g.unicode = true) (s : Span) (negated : Bool) (a : CharClass) :
    ∃ x, g.finish s negated a = .ok x :=
  ⟨_, if_neg fun h => absurd (Bool.and_eq_true_iff.1 h).1 (by simp [hg])⟩

theorem exists_perl (hg : g.unicode = true) (s : Span) (negated : Bool) (kind : PerlClass) :
    ∃ x, g.perl s negated kind = .ok x :=
  ⟨_, if_neg fun h => absurd (Bool.and_eq_true_iff.1 h).1 (by simp [hg])⟩

theorem exists_property (hf : f.unicode = true) (hg : g.unicode = true) {s : Span} {negated : Bool}
    {query : PropertyQuery} (h : ∃ x, f.property s negated query = .ok x) :
    ∃ x, g.property s negated query = .ok x := by
  simp only [Flags.property, hf, hg, Bool.not_true, Bool.false_eq_true, if_false] at h ⊢
  cases hquery : query.find? with
  | error fault =>
      rw [hquery] at h
      obtain ⟨x, hx⟩ := h
      cases hx
  | ok a => exact exists_finish hg s negated a

theorem exists_classLiteral (hg : g.unicode = true) (l : Literal) :
    ∃ x, g.classLiteral l = .ok x :=
  ⟨l.char, if_pos (by rw [hg, Bool.true_or])⟩

/-- Whether a class can be used does not depend on flags but the one for Unicode. -/
theorem exists_toClass (hf : f.unicode = true) (hg : g.unicode = true) {a : ClassAst}
    (h : ∃ x, a.toClass f = .ok x) : ∃ x, a.toClass g = .ok x := by
  induction a with
  | nothing => exact ⟨_, rfl⟩
  | literal l =>
      obtain ⟨c, hc⟩ := exists_classLiteral hg l
      exact ⟨.single c, by rw [ClassAst.toClass, hc]; rfl⟩
  | range first last =>
      obtain ⟨c, hc⟩ := exists_classLiteral hg first
      obtain ⟨d, hd⟩ := exists_classLiteral hg last
      exact ⟨.range c d, by rw [ClassAst.toClass, hc, hd]; rfl⟩
  | perl s negated kind => exact exists_perl hg s negated kind
  | property s negated query => exact exists_property hf hg h
  | posix s negated cls => exact exists_finish hg s negated cls
  | bracket s negated items ih =>
      obtain ⟨x, hx⟩ := h
      obtain ⟨a, ha, -⟩ := exists_of_bind_eq_ok hx
      obtain ⟨b, hb⟩ := ih ⟨a, ha⟩
      obtain ⟨y, hy⟩ := exists_finish hg s negated b
      exact ⟨y, by rw [ClassAst.toClass, hb]; exact hy⟩
  | union a b iha ihb =>
      obtain ⟨x, hx⟩ := h
      obtain ⟨a', ha', hx⟩ := exists_of_bind_eq_ok hx
      obtain ⟨b', hb', -⟩ := exists_of_bind_eq_ok hx
      obtain ⟨c, hc⟩ := iha ⟨a', ha'⟩
      obtain ⟨d, hd⟩ := ihb ⟨b', hb'⟩
      exact ⟨.union c d, by rw [ClassAst.toClass, hc, hd]; rfl⟩
  | op kind a b iha ihb =>
      obtain ⟨x, hx⟩ := h
      obtain ⟨a', ha', hx⟩ := exists_of_bind_eq_ok hx
      obtain ⟨b', hb', -⟩ := exists_of_bind_eq_ok hx
      obtain ⟨c, hc⟩ := iha ⟨a', ha'⟩
      obtain ⟨d, hd⟩ := ihb ⟨b', hb'⟩
      rw [ClassAst.toClass, hc, hd]
      cases kind <;> exact ⟨_, rfl⟩

theorem exists_literal (hg : g.unicode = true) (l : Literal) : ∃ x, g.literal l = .ok x := by
  simp only [Flags.literal, hg, Bool.not_true, Bool.false_and, Bool.false_eq_true, if_false,
    if_true]
  split <;> exact ⟨_, rfl⟩

theorem exists_dot (hg : g.unicode = true) (s : Span) : ∃ x, g.dot s = .ok x := by
  simp only [Flags.dot, hg, Bool.not_true, Bool.false_eq_true, if_false]
  split
  · exact ⟨_, rfl⟩
  · split <;> exact ⟨_, rfl⟩

/-- A tree that stands for one character, of a class that the flags give. -/
theorem exists_char {x y : Except Error CharClass} {p : Pattern} {f₁ : Flags}
    (h : (x >>= fun c => .ok (Pattern.char c, f)) = .ok (p, f₁))
    (hy : (∃ c, x = .ok c) → ∃ c, y = .ok c) :
    f₁ = f ∧ ∃ q, (y >>= fun c => .ok (Pattern.char c, g)) = Except.ok (q, g) ∧
      q.groupless = true := by
  obtain ⟨c, hc, h⟩ := exists_of_bind_eq_ok h
  cases h
  obtain ⟨d, rfl⟩ := hy ⟨c, hc⟩
  exact ⟨rfl, .char d, rfl, rfl⟩

/-- A plain tree leaves the flags as they are, and stands for a pattern without groups under other
flags too. -/
theorem toPattern_plain (hf : f.unicode = true) (hg : g.unicode = true) {a : Ast}
    (ha : a.isPlain = true) {p : Pattern} {f₁ : Flags} (h : a.toPattern f = .ok (p, f₁)) :
    f₁ = f ∧ ∃ q, a.toPattern g = .ok (q, g) ∧ q.groupless = true := by
  induction a generalizing p f₁ with
  | empty =>
      cases h
      exact ⟨rfl, .empty, rfl, rfl⟩
  | flags fs => cases ha
  | group kind sub ih => cases ha
  | assertion a =>
      cases h
      refine ⟨rfl, .look (g.look a), ?_, rfl⟩
      rw [Ast.toPattern, hg]
      rfl
  | literal l => exact exists_char h fun _ => exists_literal hg l
  | dot s => exact exists_char h fun _ => exists_dot hg s
  | perl s negated kind => exact exists_char h fun _ => exists_perl hg s negated kind
  | property s negated query => exact exists_char h (exists_property hf hg)
  | bracket s negated items => exact exists_char h (exists_toClass hf hg)
  | repetition sub min max greedy ih =>
      obtain ⟨⟨x, f₂⟩, hsub, hx⟩ := exists_of_bind_eq_ok h
      cases hx
      obtain ⟨-, q, hq, hgroupless⟩ := ih ha hsub
      refine ⟨rfl, _, ?_, groupless_repeated hgroupless (greedy != g.swapGreed) min max⟩
      rw [Ast.toPattern, hq]
      rfl
  | seq a b iha ihb =>
      obtain ⟨ha, hb⟩ := Bool.and_eq_true_iff.1 ha
      obtain ⟨p₁, f₂, p₂, h₁, h₂, rfl⟩ := toPattern_seq_iff.1 h
      obtain ⟨rfl, q₁, hq₁, hgroupless₁⟩ := iha ha h₁
      obtain ⟨rfl, q₂, hq₂, hgroupless₂⟩ := ihb hb h₂
      exact ⟨rfl, .seq q₁ q₂, toPattern_seq_iff.2 ⟨q₁, g, q₂, hq₁, hq₂, rfl⟩,
        Bool.and_eq_true_iff.2 ⟨hgroupless₁, hgroupless₂⟩⟩
  | alt a b iha ihb =>
      obtain ⟨ha, hb⟩ := Bool.and_eq_true_iff.1 ha
      obtain ⟨p₁, f₂, p₂, h₁, h₂, rfl⟩ := toPattern_alt_iff.1 h
      obtain ⟨rfl, q₁, hq₁, hgroupless₁⟩ := iha ha h₁
      obtain ⟨rfl, q₂, hq₂, hgroupless₂⟩ := ihb hb h₂
      exact ⟨rfl, .alt 0 q₁ q₂, toPattern_alt_iff.2 ⟨q₁, g, q₂, hq₁, hq₂, rfl⟩,
        Bool.and_eq_true_iff.2 ⟨hgroupless₁, hgroupless₂⟩⟩

end Unicode

namespace Ast

/-- **A plain tree stands for a pattern without groups** and leaves the flags as they are. -/
theorem Usable.toPattern {a : Ast} (h : a.Usable) {g : Flags} (hg : g.unicode = true) :
    ∃ q, a.toPattern g = .ok (q, g) ∧ q.groupless = true := by
  obtain ⟨⟨p, f₁⟩, hp⟩ := h.stands
  exact (toPattern_plain rfl hg h.plain hp).2

theorem Usable.of_seq {a b : Ast} (h : (seq a b).Usable) : a.Usable ∧ b.Usable := by
  obtain ⟨ha, hb⟩ := Bool.and_eq_true_iff.1 h.plain
  obtain ⟨⟨x, f₂⟩, hx⟩ := h.stands
  obtain ⟨p, f₁, q, hp, hq, -⟩ := toPattern_seq_iff.1 hx
  obtain ⟨rfl, -⟩ := toPattern_plain (g := {}) rfl rfl ha hp
  exact ⟨⟨ha, _, hp⟩, ⟨hb, _, hq⟩⟩

theorem Usable.of_alt {a b : Ast} (h : (alt a b).Usable) : a.Usable ∧ b.Usable := by
  obtain ⟨ha, hb⟩ := Bool.and_eq_true_iff.1 h.plain
  obtain ⟨⟨x, f₂⟩, hx⟩ := h.stands
  obtain ⟨p, f₁, q, hp, hq, -⟩ := toPattern_alt_iff.1 hx
  obtain ⟨rfl, -⟩ := toPattern_plain (g := {}) rfl rfl ha hp
  exact ⟨⟨ha, _, hp⟩, ⟨hb, _, hq⟩⟩

/-- The trees of which a plain tree consists are plain. -/
theorem Usable.of_concatReversed {parts : List Ast} (h : (concatReversed parts).Usable) :
    ∀ a ∈ parts, a.Usable := by
  have hfold : ∀ (as : List Ast) (a : Ast), (as.foldl (fun acc a => seq a acc) a).Usable →
      a.Usable ∧ ∀ b ∈ as, b.Usable := by
    intro as
    induction as with
    | nil => exact fun a ha => ⟨ha, by simp⟩
    | cons b as ih =>
        intro a ha
        obtain ⟨hseq, has⟩ := ih _ ha
        exact ⟨hseq.of_seq.2, List.forall_mem_cons.2 ⟨hseq.of_seq.1, has⟩⟩
  cases parts with
  | nil => simp
  | cons a as => exact List.forall_mem_cons.2 (hfold as a h)

theorem Usable.of_altReversed {last : Ast} {before : List Ast}
    (h : (altReversed last before).Usable) : last.Usable ∧ ∀ a ∈ before, a.Usable := by
  unfold altReversed at h
  induction before generalizing last with
  | nil => exact ⟨h, by simp⟩
  | cons a before ih =>
      obtain ⟨halt, hbefore⟩ := ih h
      exact ⟨halt.of_alt.2, List.forall_mem_cons.2 ⟨halt.of_alt.1, hbefore⟩⟩

theorem isPlain_concatReversed {parts : List Ast} (h : ∀ a ∈ parts, a.isPlain = true) :
    (concatReversed parts).isPlain = true := by
  have hfold : ∀ (as : List Ast) (a : Ast), a.isPlain = true → (∀ b ∈ as, b.isPlain = true) →
      (as.foldl (fun acc a => seq a acc) a).isPlain = true := by
    intro as
    induction as with
    | nil => exact fun a ha _ => ha
    | cons b as ih =>
        intro a ha has
        obtain ⟨hb, has⟩ := List.forall_mem_cons.1 has
        exact ih _ (Bool.and_eq_true_iff.2 ⟨hb, ha⟩) has
  cases parts with
  | nil => rfl
  | cons a as =>
      obtain ⟨ha, has⟩ := List.forall_mem_cons.1 h
      exact hfold as a ha has

theorem isPlain_altReversed {last : Ast} {before : List Ast} (hlast : last.isPlain = true)
    (h : ∀ a ∈ before, a.isPlain = true) : (altReversed last before).isPlain = true := by
  unfold altReversed
  induction before generalizing last with
  | nil => exact hlast
  | cons a before ih =>
      obtain ⟨ha, hbefore⟩ := List.forall_mem_cons.1 h
      exact ih (Bool.and_eq_true_iff.2 ⟨ha, hlast⟩) hbefore

end Ast

/-- Plain trees one after the other. -/
theorem standFor_usable {as : List Ast} (h : ∀ a ∈ as, a.Usable) {g : Flags}
    (hg : g.unicode = true) :
    ∃ ps, StandFor as g ps g ∧ ∀ p ∈ ps, p.groupless = true := by
  induction as with
  | nil => exact ⟨[], .nil g, by simp⟩
  | cons a as ih =>
      obtain ⟨ha, has⟩ := List.forall_mem_cons.1 h
      obtain ⟨p, hp, hgroupless⟩ := ha.toPattern hg
      obtain ⟨ps, hps, hall⟩ := ih has
      exact ⟨p :: ps, .cons hp hps, List.forall_mem_cons.2 ⟨hgroupless, hall⟩⟩

end Pattern

end Softcode
