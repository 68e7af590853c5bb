/-
**Patterns with more around them.**

A macro ignores case and takes arguments, so two things are written around its trigger: a switch for
case before it and an argument list behind it.  Both can be followed through the reader at once.
Two readers go through the same text without parentheses, the second with trees before its first
alternative and with a tail behind the text; part by part their states grow in the same way.

* `Softcode.Pattern.Grown` — **the states of the two readers**, with `Grown.push`, `Grown.pop` and
  `Grown.bar` for the parts and alternatives that are read;
* `Softcode.Pattern.readParts_step`, `Softcode.Pattern.readParts_reaches` — **the second reader
  comes to the tail** in such a state, where the first comes to its end;
* `Softcode.Pattern.parse_caseSwitch` — **a pattern that can be compiled can be compiled with case
  ignored**, and has no groups then;
* `Softcode.Pattern.compile_append` — **what stands behind a pattern belongs to its last
  alternative**.
-/

import Softcode.Proofs.ClassExtension

set_option autoImplicit false

namespace Softcode

namespace Pattern

/-! ### Two readers of a whole pattern -/

/-- The alternatives of the second reader are those of the first, up to places, where the first of
them has the trees `base` before its own.  So have the parts of the first alternative, while it is
read: `b` are the trees that stand before the current parts. -/
inductive AltsGrown (base : List Ast) : List Ast → List Ast → List Ast → Prop
  | first : AltsGrown base [] [] base
  | bar {alts alts' parts parts' b : List Ast} (h : AltsGrown base alts alts' b)
      (hparts : parts'.map Ast.erase = (parts ++ b).map Ast.erase) :
      AltsGrown base (Ast.concatReversed parts :: alts) (Ast.concatReversed parts' :: alts') []

/-- The states of two readers that read the same pattern.  If `plain` holds, the trees of the first
one are plain. -/
structure Grown (plain : Prop) (base alts parts alts' parts' : List Ast) : Prop where
  altsPlain : plain → ∀ a ∈ alts, a.isPlain = true
  partsPlain : plain → ∀ a ∈ parts, a.isPlain = true
  erased : ∃ b, AltsGrown base alts alts' b ∧ parts'.map Ast.erase = (parts ++ b).map Ast.erase

section Grown

variable {tail s : Text} {r r' : Reader} {c : Char} {plain : Prop}
  {base alts parts alts' parts' : List Ast}

theorem Grown.push {a a' : Ast} (h : Grown plain base alts parts alts' parts')
    (ha : a'.erase = a.erase) (hplain : plain → a.isPlain = true) :
    Grown plain base alts (a :: parts) alts' (a' :: parts') := by
  obtain ⟨b, halts, hparts⟩ := h.erased
  refine ⟨h.altsPlain, fun hp => List.forall_mem_cons.2 ⟨hplain hp, h.partsPlain hp⟩, b, halts, ?_⟩
  rw [List.map_cons, List.cons_append, List.map_cons, ha, hparts]

theorem Grown.pop {a : Ast} (h : Grown plain base alts (a :: parts) alts' parts') :
    ∃ a' before', parts' = a' :: before' ∧ a'.erase = a.erase ∧ (plain → a.isPlain = true) ∧
      Grown plain base alts parts alts' before' := by
  obtain ⟨b, halts, hparts⟩ := h.erased
  cases parts' with
  | nil => cases hparts
  | cons a' before' =>
      obtain ⟨ha, hbefore⟩ := List.cons_eq_cons.1 hparts
      exact ⟨a', before', rfl, ha, fun hp => (List.forall_mem_cons.1 (h.partsPlain hp)).1,
        ⟨h.altsPlain, fun hp => (List.forall_mem_cons.1 (h.partsPlain hp)).2, b, halts, hbefore⟩⟩

theorem Grown.bar (h : Grown plain base alts parts alts' parts') :
    Grown plain base (Ast.concatReversed parts :: alts) [] (Ast.concatReversed parts' :: alts')
      [] := by
  obtain ⟨b, halts, hparts⟩ := h.erased
  refine ⟨fun hp => List.forall_mem_cons.2 ⟨?_, h.altsPlain hp⟩, by simp, [], halts.bar hparts, rfl⟩
  exact Ast.isPlain_concatReversed (h.partsPlain hp)

theorem lastPart_grown (r r' : Reader) (h : Grown plain base alts parts alts' parts') {a : Ast}
    {before : List Ast} (hlast : lastPart parts r = .ok (a, before)) :
    ∃ a' before', lastPart parts' r' = .ok (a', before') ∧ a'.erase = a.erase ∧
      (plain → a.isPlain = true) ∧ Grown plain base alts before alts' before' := by
  have hrepeatable : ∀ a : Ast, a.erase.isRepeatable = a.isRepeatable := by
    intro a
    cases a <;> rfl
  unfold lastPart at hlast
  split at hlast
  · cases hlast
  · split at hlast
    · next ha =>
        cases hlast
        obtain ⟨a', before', rfl, herase, hplain, hbefore⟩ := h.pop
        refine ⟨a', before', ?_, herase, hplain, hbefore⟩
        rw [lastPart, ← hrepeatable, herase, hrepeatable, if_pos ha]
    · cases hlast

theorem readOperator_grown (htail : IsTail tail) (h : r.Extends tail r') (hr : r.rest = c :: s)
    (hstate : Grown plain base alts parts alts' parts') {min : Nat} {max : Option Nat}
    {q : List Ast} {r₁ : Reader} (hread : readOperator parts min max r = .ok (q, r₁)) :
    ∃ q' r₁', readOperator parts' min max r' = .ok (q', r₁') ∧
      Grown plain base alts q alts' q' ∧ r₁.Extends tail r₁' := by
  obtain ⟨⟨a, before⟩, hlast, hread⟩ := exists_of_bind_eq_ok hread
  obtain ⟨a', before', hlast', ha, hplain, hbefore⟩ := lastPart_grown r r' hstate hlast
  obtain ⟨greedy, r₂, r₂', hlazy, hlazy', h₂⟩ := readLazy_extends htail (h.bump hr)
  simp only [hlazy] at hread
  cases hread
  refine ⟨.repetition a' min max greedy :: before', r₂', ?_, hbefore.push ?_ hplain, h₂⟩
  · simp only [readOperator, hlast', bind, Except.bind, hlazy']
  · rw [Ast.erase, Ast.erase, ha]

theorem readCounted_grown (htail : IsTail tail) (h : r.Extends tail r') (hr : r.rest = c :: s)
    (hstate : Grown plain base alts parts alts' parts') {q : List Ast} {r₁ : Reader}
    (hread : readCounted parts r = .ok (q, r₁)) :
    ∃ q' r₁', readCounted parts' r' = .ok (q', r₁') ∧
      Grown plain base alts q alts' q' ∧ r₁.Extends tail r₁' := by
  have h₁ := h.bump hr
  obtain ⟨⟨a, before⟩, hlast, hread⟩ := exists_of_bind_eq_ok hread
  obtain ⟨a', before', hlast', ha, hplain, hbefore⟩ := lastPart_grown r r' hstate hlast
  simp only [Reader.bumpSpace_eq h.spaced] at hread
  split at hread
  · cases hread
  · next hend =>
      obtain ⟨d, s₁, -, hend'⟩ := h₁.exists_next hend
      obtain ⟨⟨⟨min, max⟩, r₂⟩, hbounds, hread⟩ := exists_of_bind_eq_ok hread
      obtain ⟨⟨min', max'⟩, r₂', hbounds', heq, h₂⟩ :=
        readBounds_carries htail h₁ r.position r'.position _ _ hbounds
      obtain ⟨rfl, rfl⟩ := Prod.mk.inj heq
      simp only at hread
      split at hread
      · cases hread
      · next hbrace =>
          have hhead : (r₂.rest.head? == some '\x7d') = true := by simpa [bne] using hbrace
          obtain ⟨s₂, hr₂⟩ := List.head?_eq_some_iff.1 (beq_iff_eq.1 hhead)
          obtain ⟨greedy, r₃, r₃', hlazy, hlazy', h₃⟩ := readLazy_extends htail (h₂.bump hr₂)
          simp only [Reader.bumpSpace_eq h₂.spaced, hlazy] at hread
          split at hread
          · cases hread
          · next hmax =>
              cases hread
              refine ⟨.repetition a' min' max' greedy :: before', r₃', ?_, hbefore.push ?_ hplain,
                h₃⟩
              · simp only [readCounted, hlast', bind, Except.bind, Reader.bumpSpace_eq h.spaced',
                  hend', Bool.false_eq_true, if_false, hbounds', bne,
                  head?_extends htail h₂ (d := '\x7d') (by decide), hhead, Bool.not_true,
                  Reader.bumpSpace_eq h₂.spaced', hlazy', hmax]
              · rw [Ast.erase, Ast.erase, ha]

theorem isPlain_of_readClass {a : Ast} {r₁ : Reader} (h : readClass r = .ok (a, r₁)) :
    a.isPlain = true := by
  obtain ⟨x, -, h⟩ := exists_of_bind_eq_ok h
  obtain ⟨y, -, h⟩ := exists_of_bind_eq_ok h
  cases h
  rfl

theorem erase_toAst (p : Primitive) : p.toAst.erase = p.erase.toAst := by
  cases p <;> rfl

theorem isPlain_toAst (p : Primitive) : p.toAst.isPlain = true := by
  cases p <;> rfl

/-- **A step of the two readers**, by the next character: it takes both of them into states that
have grown in the same way. -/
theorem readParts_step (htail : IsTail tail) (h : r.Extends tail r') (hr : r.rest = c :: s)
    (hstate : Grown plain base alts parts alts' parts') {n : Nat} {a : Ast} {r₁ : Reader}
    (hread : readParts (n + 1) alts parts r = .ok (a, r₁)) (hend : r₁.atEnd = true) :
    ∃ alts₁ parts₁ alts₁' parts₁' r₂ r₂', Grown plain base alts₁ parts₁ alts₁' parts₁' ∧
      r₂.Extends tail r₂' ∧ readParts n alts₁ parts₁ r₂ = .ok (a, r₁) ∧
      ∀ m, readParts (m + 1) alts' parts' r' = readParts m alts₁' parts₁' r₂' := by
  have hr' := h.next hr
  have hrepeat : ∀ {min max}, (∀ {n alts parts} {r : Reader} {s}, r.spaced = false →
      r.rest = c :: s → readParts (n + 1) alts parts r =
        readOperator parts min max r >>= fun x => readParts n alts x.1 x.2) →
      ∃ alts₁ parts₁ alts₁' parts₁' r₂ r₂', Grown plain base alts₁ parts₁ alts₁' parts₁' ∧
        r₂.Extends tail r₂' ∧ readParts n alts₁ parts₁ r₂ = .ok (a, r₁) ∧
        ∀ m, readParts (m + 1) alts' parts' r' = readParts m alts₁' parts₁' r₂' := by
    intro min max hstep
    rw [hstep h.spaced hr] at hread
    obtain ⟨⟨q, r₂⟩, hoperator, hread⟩ := exists_of_bind_eq_ok hread
    obtain ⟨q', r₂', hoperator', hq, h₂⟩ := readOperator_grown htail h hr hstate hoperator
    refine ⟨_, _, _, _, _, _, hq, h₂, hread, fun m => ?_⟩
    rw [hstep h.spaced' hr', hoperator']
    rfl
  by_cases hclose : c = ')'
  · subst hclose
    rw [readParts_close h.spaced hr] at hread
    cases hread
    rw [Reader.atEnd, hr] at hend
    cases hend
  by_cases hopen : c = '('
  · subst hopen
    exact absurd (by rw [hr]; exact List.mem_cons_self) h.unopened
  by_cases hbar : c = '|'
  · subst hbar
    rw [readParts_bar h.spaced hr] at hread
    exact ⟨_, _, _, _, _, _, hstate.bar, h.bump hr, hread, fun m => readParts_bar h.spaced' hr'⟩
  by_cases hbracket : c = '['
  · subst hbracket
    rw [readParts_bracket h.spaced hr] at hread
    obtain ⟨⟨b, r₂⟩, hclass, hread⟩ := exists_of_bind_eq_ok hread
    obtain ⟨b', r₂', hclass', hb, h₂⟩ := readClass_carries htail h hr b r₂ hclass
    have hplain := isPlain_of_readClass hclass
    refine ⟨_, _, _, _, _, _, hstate.push hb fun _ => hplain, h₂, hread, fun m => ?_⟩
    rw [readParts_bracket h.spaced' hr', hclass']
    rfl
  by_cases hquestion : c = '?'
  · subst hquestion
    exact hrepeat readParts_question
  by_cases hstar : c = '*'
  · subst hstar
    exact hrepeat readParts_star
  by_cases hplus : c = '+'
  · subst hplus
    exact hrepeat readParts_plus
  by_cases hbrace : c = '\x7b'
  · subst hbrace
    rw [readParts_brace h.spaced hr] at hread
    obtain ⟨⟨q, r₂⟩, hcounted, hread⟩ := exists_of_bind_eq_ok hread
    obtain ⟨q', r₂', hcounted', hq, h₂⟩ := readCounted_grown htail h hr hstate hcounted
    refine ⟨_, _, _, _, _, _, hq, h₂, hread, fun m => ?_⟩
    rw [readParts_brace h.spaced' hr', hcounted']
    rfl
  have hoperator : isOperator c = false := by
    simp [isOperator, hclose, hopen, hbar, hbracket, hquestion, hstar, hplus, hbrace]
  rw [readParts_primitive h.spaced hr hoperator] at hread
  obtain ⟨⟨p, r₂⟩, hprimitive, hread⟩ := exists_of_bind_eq_ok hread
  obtain ⟨p', r₂', hprimitive', hp, h₂⟩ := readPrimitive_carries htail h p r₂ hprimitive
  have herase : p'.toAst.erase = p.toAst.erase := by rw [erase_toAst, erase_toAst, hp]
  refine ⟨_, _, _, _, _, _, hstate.push herase fun _ => isPlain_toAst p, h₂, hread, fun m => ?_⟩
  rw [readParts_primitive h.spaced' hr' hoperator, hprimitive']
  rfl

/-- **A whole pattern without parentheses.**  Where the first reader comes to its end, the second
has the tail ahead, in a state that has grown in the same way.  Its bound on the parts is still as
great there as the bound `k` that it had to spare. -/
theorem readParts_reaches (htail : IsTail tail) (h : r.Extends tail r')
    (hstate : Grown plain base alts parts alts' parts') {n : Nat} {a : Ast} {r₁ : Reader}
    (hread : readParts n alts parts r = .ok (a, r₁)) (hend : r₁.atEnd = true) :
    ∃ j alts₁ parts₁ alts₁' parts₁' r₂, a = Ast.altReversed (Ast.concatReversed parts₁) alts₁ ∧
      Grown plain base alts₁ parts₁ alts₁' parts₁' ∧ Reader.At r₂ tail 0 ∧
      ∀ k, readParts (n + k) alts' parts' r' = readParts (j + 1 + k) alts₁' parts₁' r₂ := by
  induction n generalizing r r' alts parts alts' parts' with
  | zero => cases hread
  | succ n ih =>
      cases hr : r.rest with
      | nil =>
          rw [readParts_nil h.spaced hr] at hread
          cases hread
          refine ⟨n, alts, parts, alts', parts', r', rfl, hstate, ⟨?_, h.spaced', h.groups⟩,
            fun k => rfl⟩
          rw [h.rest, hr, List.nil_append]
      | cons c s =>
          obtain ⟨_, _, _, _, r₂, r₂', hgrown, h₂, hread, hstep⟩ :=
            readParts_step htail h hr hstate hread hend
          obtain ⟨j, alts₁, parts₁, alts₁', parts₁', r₃, ha, hstate₁, hr₃, hk⟩ := ih h₂ hgrown hread
          refine ⟨j, alts₁, parts₁, alts₁', parts₁', r₃, ha, hstate₁, hr₃, fun k => ?_⟩
          rw [Nat.add_right_comm, hstep, hk]

end Grown

/-! ### Patterns that ignore case -/

theorem groupless_concat {ps : List Pattern} (h : ∀ p ∈ ps, p.groupless = true) :
    (concat ps).groupless = true := by
  fun_induction concat ps with
  | case1 => rfl
  | case2 p => exact h p List.mem_cons_self
  | case3 p q ps ih =>
      obtain ⟨hp, hps⟩ := List.forall_mem_cons.1 h
      exact Bool.and_eq_true_iff.2 ⟨hp, ih hps⟩

theorem groupless_alternatives {ps : List Pattern} {p : Pattern} :
    (ps.foldr (alt 0) p).groupless = true ↔
      (∀ q ∈ ps, q.groupless = true) ∧ p.groupless = true := by
  induction ps with
  | nil => simp
  | cons q ps ih =>
      rw [List.foldr_cons, List.forall_mem_cons, and_assoc, ← ih]
      exact Bool.and_eq_true_iff

/-- The tree of two or more alternatives. -/
def Ast.IsAlternation (a : Ast) : Prop := ∃ b c, a = .alt b c

theorem isAlternation_altReversed {last : Ast} {before : List Ast} (h : before ≠ []) :
    (Ast.altReversed last before).IsAlternation := by
  unfold Ast.altReversed
  induction before generalizing last with
  | nil => exact absurd rfl h
  | cons a before ih =>
      cases before with
      | nil => exact ⟨a, last, rfl⟩
      | cons b before => exact ih (by simp)

/-- The trees of a pattern behind the switch for case stand for patterns without groups. -/
theorem AltsGrown.standFor {alts alts' b : List Ast} (h : AltsGrown [caseSwitch] alts alts' b)
    (husable : ∀ a ∈ alts, a.Usable) :
    ∃ qs f, StandFor alts'.reverse {} qs f ∧ (∀ q ∈ qs, q.groupless = true) ∧
      ∀ {parts parts' : List Ast}, parts'.map Ast.erase = (parts ++ b).map Ast.erase →
        (∀ a ∈ parts, a.Usable) →
        ∃ ps, StandFor parts'.reverse f ps ignoringCase ∧ ∀ p ∈ ps, p.groupless = true := by
  induction h with
  | first =>
      refine ⟨[], {}, .nil _, by simp, fun {parts parts'} hparts hall => ?_⟩
      have hreverse : ∀ a ∈ parts.reverse, a.Usable := fun a ha => hall a (List.mem_reverse.1 ha)
      obtain ⟨ps, hps, hgroupless⟩ := standFor_usable hreverse (g := ignoringCase) rfl
      have hswitch : StandFor ([caseSwitch] ++ parts.reverse) {} ([.empty] ++ ps) ignoringCase :=
        (standFor_singleton rfl).append hps
      refine ⟨.empty :: ps, hswitch.of_map_erase_eq ?_, List.forall_mem_cons.2 ⟨rfl, hgroupless⟩⟩
      rw [List.map_reverse, hparts, ← List.map_reverse, List.reverse_append]
      rfl
  | bar h hparts ih =>
      obtain ⟨hlast, halts⟩ := List.forall_mem_cons.1 husable
      obtain ⟨qs, f, hqs, hgroupless, hrest⟩ := ih halts
      obtain ⟨ps, hps, hpsGroupless⟩ := hrest hparts hlast.of_concatReversed
      refine ⟨qs ++ [concat ps], ignoringCase, ?_, ?_, fun {parts parts'} hparts hall => ?_⟩
      · rw [List.reverse_cons]
        exact hqs.append (standFor_singleton (toPattern_concatReversed.2 ⟨ps, hps, rfl⟩))
      · intro q hq
        rcases List.mem_append.1 hq with hq | hq
        · exact hgroupless q hq
        · rw [List.mem_singleton.1 hq]
          exact groupless_concat hpsGroupless
      · have hreverse : ∀ a ∈ parts.reverse, a.Usable := fun a ha => hall a (List.mem_reverse.1 ha)
        obtain ⟨ps, hps, hpsGroupless⟩ := standFor_usable hreverse (g := ignoringCase) rfl
        refine ⟨ps, hps.of_map_erase_eq ?_, hpsGroupless⟩
        rw [List.map_reverse, hparts, List.append_nil, ← List.map_reverse]

theorem AltsGrown.eq_nil {base alts alts' b : List Ast} (h : AltsGrown base alts alts' b)
    (halts : alts = []) : alts' = [] ∧ b = base := by
  cases h with
  | first => exact ⟨rfl, rfl⟩
  | bar => cases halts

/-- Trees one after the other of which the first is a switch are no alternation. -/
theorem not_isAlternation_concatReversed {parts parts' : List Ast}
    (h : parts'.map Ast.erase = (parts ++ [caseSwitch]).map Ast.erase) :
    ¬ (Ast.concatReversed parts').IsAlternation := by
  rw [List.map_append] at h
  obtain ⟨init, last, rfl, -, hlast⟩ := List.map_eq_append_iff.1 h
  obtain ⟨switch, rfl⟩ : ∃ a, last = [a] := by
    refine List.length_eq_one_iff.1 ?_
    rw [← List.length_map Ast.erase, hlast]
    rfl
  rintro ⟨b, c, hbc⟩
  cases init with
  | nil =>
      obtain rfl : switch = .alt b c := hbc
      cases hlast
  | cons a before =>
      have hseq : Ast.concatReversed (a :: before ++ [switch]) =
          .seq switch (Ast.concatReversed (a :: before)) := by
        simp only [Ast.concatReversed, List.cons_append, List.foldl_append, List.foldl_cons,
          List.foldl_nil]
      cases hseq.symm.trans hbc

/-- **A pattern without parentheses can be read with case ignored**, and has no groups then. -/
theorem parse_caseSwitch {t : Text} {q₀ : Pattern} (hopen : '(' ∉ t)
    (hvalid : Pattern.compile t = .ok q₀) :
    ∃ a₀ a₁ q, parse t = .ok a₀ ∧ parse ("(?i)".toList ++ t) = .ok a₁ ∧
      a₁.toPattern {} = .ok (q, ignoringCase) ∧ q.groupless = true ∧
      (a₁.IsAlternation → a₀.IsAlternation) := by
  obtain ⟨a₀, hparse, hvalid⟩ := exists_of_bind_eq_ok hvalid
  obtain ⟨x, hstands, -⟩ := exists_of_bind_eq_ok hvalid
  obtain ⟨r₀, hread, hend⟩ := parse_eq_ok_iff.1 hparse
  obtain ⟨r, hr, hparse₁⟩ := exists_reader t
  have hextends : (Reader.start t).Extends [] r :=
    ⟨by rw [hr.rest, List.append_nil]; rfl, rfl, hr.spaced, hr.groups, hopen⟩
  have hstate : Grown True [caseSwitch] [] [] [] [caseSwitch] :=
    ⟨by simp, by simp, [caseSwitch], .first, rfl⟩
  obtain ⟨j, alts, parts, alts', parts', r', rfl, hgrown, hr', hk⟩ :=
    readParts_reaches (by simp [IsTail]) hextends hstate hread hend
  obtain ⟨b, hb, hparts⟩ := hgrown.erased
  have husable : (Ast.altReversed (Ast.concatReversed parts) alts).Usable :=
    ⟨Ast.isPlain_altReversed (Ast.isPlain_concatReversed (hgrown.partsPlain trivial))
      (hgrown.altsPlain trivial), x, hstands⟩
  obtain ⟨hlast, halts⟩ := husable.of_altReversed
  obtain ⟨qs, f, hqs, hqsGroupless, hrest⟩ := hb.standFor halts
  obtain ⟨ps, hps, hpsGroupless⟩ := hrest hparts hlast.of_concatReversed
  refine ⟨_, Ast.altReversed (Ast.concatReversed parts') alts', qs.foldr (alt 0) (concat ps),
    hparse, ?_, ?_, ?_, ?_⟩
  · refine hparse₁.2 ⟨r', ?_, by rw [Reader.atEnd, hr'.rest, List.isEmpty_nil]⟩
    rw [← readParts_nil hr'.spaced hr'.rest]
    exact hk 3
  · exact toPattern_altReversed.2
      ⟨qs, f, concat ps, hqs, toPattern_concatReversed.2 ⟨ps, hps, rfl⟩, rfl⟩
  · exact groupless_alternatives.2 ⟨hqsGroupless, groupless_concat hpsGroupless⟩
  · intro halternation
    refine isAlternation_altReversed fun hnil => ?_
    obtain ⟨rfl, rfl⟩ := hb.eq_nil hnil
    exact not_isAlternation_concatReversed hparts halternation

theorem AltsGrown.map_erase {alts alts' b : List Ast} (h : AltsGrown [] alts alts' b) :
    b = [] ∧ alts'.map Ast.erase = alts.map Ast.erase := by
  induction h with
  | first => exact ⟨rfl, rfl⟩
  | bar h hparts ih =>
      obtain ⟨rfl, halts⟩ := ih
      rw [List.append_nil] at hparts
      refine ⟨rfl, ?_⟩
      rw [List.map_cons, List.map_cons, halts, erase_concatReversed, erase_concatReversed, hparts]

/-- **A pattern with parts behind it**: they belong to the last alternative. -/
theorem compile_append {t tail : Text} {a : Ast} {q : Pattern} {g : Nat} {args : List Pattern}
    (htail : IsTail tail) (hopen : '(' ∉ t) (hparse : parse ("(?i)".toList ++ t) = .ok a)
    (ha : a.toPattern {} = .ok (q, ignoringCase)) (hargs : ReadsParts tail 0 g args) :
    ∃ qs ps, q = qs.foldr (alt 0) (concat ps) ∧ (qs ≠ [] → a.IsAlternation) ∧
      Pattern.compile ("(?i)".toList ++ (t ++ tail)) =
        .ok ((qs.foldr (alt 0) (concat (ps ++ args))).label 0).1 := by
  obtain ⟨r, hr, hparse₁⟩ := exists_reader t
  obtain ⟨r', hr', hparse₂⟩ := exists_reader (t ++ tail)
  obtain ⟨r₁, hread, hend⟩ := hparse₁.1 hparse
  have hextends : r.Extends tail r' :=
    ⟨by rw [hr'.rest, hr.rest], hr.spaced, hr'.spaced, hr'.groups, by rwa [hr.rest]⟩
  have hstate : Grown False [] [] [caseSwitch] [] [caseSwitch] :=
    ⟨False.elim, False.elim, [], .first, rfl⟩
  obtain ⟨j, alts, parts, alts', parts', r₂, rfl, hgrown, hr₂, hk⟩ :=
    readParts_reaches htail hextends hstate hread hend
  obtain ⟨b, hb, hparts⟩ := hgrown.erased
  obtain ⟨rfl, halts⟩ := hb.map_erase
  obtain ⟨qs, f, q', hqs, hlast, rfl⟩ := toPattern_altReversed.1 ha
  obtain ⟨ps, hps, rfl⟩ := toPattern_concatReversed.1 hlast
  refine ⟨qs, ps, rfl, ?_, ?_⟩
  · intro hne
    refine isAlternation_altReversed fun hnil => hne ?_
    have := hqs.length_eq
    rw [hnil] at this
    exact List.length_eq_zero_iff.1 this
  · have hbound : tail.length < j + 1 + tail.length := by omega
    obtain ⟨as, r₃, hreads, hend₃, has⟩ := hargs.readParts_whole alts' parts' hr₂ hbound
    have hlength : (t ++ tail).length + 4 = t.length + 4 + tail.length := by
      rw [List.length_append, Nat.add_right_comm]
    rw [← hk, ← hlength] at hreads
    refine compile_of_toPattern (f := ignoringCase) (hparse₂.2 ⟨r₃, hreads, hend₃⟩) ?_
    have halts' : StandFor alts'.reverse {} qs f :=
      hqs.of_map_erase_eq (by rw [List.map_reverse, halts, List.map_reverse])
    have hparts' : StandFor parts'.reverse f ps ignoringCase :=
      hps.of_map_erase_eq (by rw [List.map_reverse, hparts, List.append_nil, List.map_reverse])
    refine toPattern_altReversed.2 ⟨qs, f, _, halts', ?_, rfl⟩
    refine toPattern_concatReversed.2 ⟨ps ++ args, ?_, rfl⟩
    rw [List.reverse_append, List.reverse_reverse]
    exact hparts'.append has

end Pattern

end Softcode
