/-
**One bracket that is never closed.**

If all brackets of a stream match but for one square bracket that opens and is never closed, one
would expect the linter to report just that.  It does report exactly one bracket without a closing
one.  But a closing bracket takes the innermost open one off the stack whether it fits or not, so
from the bracket in excess on, every bracket that was open before it is compared with the closing
bracket of the next one around it.  Each time the two are of different kinds there is one more
finding.  So the linter reports one thing exactly if no parenthesis is open where the bracket
stands.

Main definitions:

* `Softcode.Lint.changes` — **the number of times that the kind changes** along a stack.

Main results:

* `Softcode.Lint.Walk.visit_crossing` — a closing bracket that does not fit is one finding;
* `Softcode.Lint.foldl_visit_excess` — **what a walk finds with one bracket in excess**;
* `Softcode.Lint.count_reported` — what is reported, by what is found;
* `Softcode.Lint.lint_excess_square` — **a square bracket in excess is one finding exactly if no
  parenthesis is open around it**.
-/

import Softcode.Proofs.StrippedBrackets

set_option autoImplicit false

namespace Softcode

namespace Lint

/-! ### Kinds along a stack -/

/-- **The number of times that the kind changes** along a stack of open brackets. -/
def changes : List BracketKind → Nat
  | j :: k :: kinds => (if j = k then 0 else 1) + changes (k :: kinds)
  | _ => 0

/-- The kind never changes exactly if all brackets are of the kind of the innermost one. -/
theorem changes_eq_zero_iff {j : BracketKind} {kinds : List BracketKind} :
    changes (j :: kinds) = 0 ↔ ∀ k ∈ kinds, k = j := by
  induction kinds generalizing j with
  | nil => simp [changes]
  | cons k kinds ih =>
      rw [changes, Nat.add_eq_zero_iff, ih, List.forall_mem_cons]
      constructor
      · rintro ⟨hhere, hrest⟩
        have hjk : j = k := by
          by_contra hne
          simp [hne] at hhere
        exact ⟨hjk.symm, fun i hi => (hrest i hi).trans hjk.symm⟩
      · rintro ⟨rfl, hrest⟩
        exact ⟨if_pos rfl, hrest⟩

/-! ### The walk -/

/-- A closing bracket that does not fit the innermost open one takes it off and is one finding. -/
theorem Walk.visit_crossing {s : Walk} {v : Visit} {j k : BracketKind}
    {kinds : List BracketKind} (hv : openerFor v.char = opener k)
    (hclose : ¬ (v.char = '[' ∨ v.char = '(')) (hs : s.IsOpen (j :: kinds)) (hjk : j ≠ k) :
    (s.visit v).IsOpen kinds ∧ (s.visit v).mismatches.length = s.mismatches.length + 1 := by
  obtain ⟨o, stack, hstack, ho, hrest⟩ := List.map_eq_cons_iff.1 hs
  have hne : ¬ o.1 = openerFor v.char := fun h =>
    hjk (opener_injective (ho.symm.trans (h.trans hv)))
  rw [visit, if_neg hclose, hstack]
  dsimp only
  rw [if_neg hne]
  exact ⟨hrest, rfl⟩

/-- A closing bracket takes the innermost open one off, and is a finding if the two do not fit. -/
theorem Walk.visit_closing {s : Walk} {v : Visit} {j k : BracketKind}
    {kinds : List BracketKind} (hv : openerFor v.char = opener k)
    (hclose : ¬ (v.char = '[' ∨ v.char = '(')) (hs : s.IsOpen (j :: kinds)) :
    (s.visit v).IsOpen kinds ∧
      (s.visit v).mismatches.length = s.mismatches.length + if j = k then 0 else 1 := by
  by_cases hjk : j = k
  · subst hjk
    obtain ⟨hopen, hsame⟩ := visit_fitting hv hclose hs
    rw [if_pos rfl, hsame]
    exact ⟨hopen, rfl⟩
  · rw [if_neg hjk]
    exact visit_crossing hv hclose hs hjk

/-- **What a walk finds with one bracket in excess.**  Where the word would close all brackets of
the stack but for one, which lies below the brackets `inner` that were opened later, one bracket is
left open, and there is a finding for each change of the kind from it on outwards. -/
theorem foldl_visit_excess {vs : List Visit} (hvs : ∀ v ∈ vs, isBracket v.char = true) {s : Walk}
    {j : BracketKind} (inner : List BracketKind) {kinds : List BracketKind}
    (hs : s.IsOpen (inner ++ j :: kinds))
    (h : unwind (inner ++ kinds) (visitedBrackets vs) = some []) :
    (∃ k, (vs.foldl Walk.visit s).IsOpen [k]) ∧
      (vs.foldl Walk.visit s).mismatches.length = s.mismatches.length + changes (j :: kinds) := by
  induction vs generalizing s j inner kinds with
  | nil =>
      obtain ⟨rfl, rfl⟩ := List.append_eq_nil_iff.1 (Option.some.inj h)
      exact ⟨⟨j, hs⟩, rfl⟩
  | cons v vs ih =>
      have hrest := fun w hw => hvs w (List.mem_cons_of_mem v hw)
      rw [visitedBrackets, List.filterMap_cons] at h
      rw [List.foldl_cons]
      obtain ⟨k, ⟨hk, hv, hopen⟩ | ⟨hk, hv, hclose⟩⟩ := exists_kind (hvs v List.mem_cons_self)
      · rw [hk] at h
        obtain ⟨hs', hsame⟩ := Walk.visit_opening hv hopen hs
        rw [← hsame]
        exact ih hrest (k :: inner) hs' h
      · rw [hk] at h
        cases inner with
        | cons i inner =>
            -- the bracket in excess is not the innermost one
            dsimp only [List.cons_append, unwind] at h
            split at h
            · next hik =>
                subst hik
                obtain ⟨hs', hsame⟩ := Walk.visit_fitting hv hclose hs
                rw [← hsame]
                exact ih hrest inner hs' h
            · cases h
        | nil =>
            cases kinds with
            | nil => cases h
            | cons i kinds =>
                -- the closing bracket is meant for the next one around the bracket in excess,
                -- which is in excess from here on
                dsimp only [List.nil_append, unwind] at h
                split at h
                · next hik =>
                    subst hik
                    obtain ⟨hs', hfound⟩ := Walk.visit_closing hv hclose hs
                    obtain ⟨hlast, hcount⟩ := ih hrest [] hs' h
                    refine ⟨hlast, ?_⟩
                    rw [hcount, hfound, changes, Nat.add_assoc]
                · cases h

/-- The walk over a stream whose word is matched but for one bracket that opens. -/
theorem behind_of_excess {ls : List Line} {u v : List Bracket} {j : BracketKind}
    (hword : bracketWord ls = u ++ .opening j :: v) (hmatched : Matched (u ++ v)) :
    ∃ kinds, unwind [] u = some kinds ∧ (∃ k, (Walk.behind ls).IsOpen [k]) ∧
      (Walk.behind ls).mismatches.length = changes (j :: kinds) := by
  have hvs : ∀ v ∈ visits ls, isBracket v.char = true := fun v => isBracket_of_mem_visitsIn
  have hstack := hmatched.unwind_eq []
  rw [unwind_append, Option.bind_eq_some_iff] at hstack
  obtain ⟨kinds, hfirst, hsecond⟩ := hstack
  -- the walk up to the bracket in excess, this bracket and the walk behind it
  rw [← brackets_visits] at hword
  obtain ⟨vs₁, vs₂, hvisits, hvs₁, hvs₂⟩ := List.filterMap_eq_append_iff.1 hword
  obtain ⟨none₁, x, vs₃, rfl, hnone, hx, hvs₃⟩ := List.filterMap_eq_cons_iff.1 hvs₂
  have hfront : visitedBrackets (vs₁ ++ none₁) = u := by
    rw [visitedBrackets, List.filterMap_append, hvs₁, List.filterMap_eq_nil_iff.2 hnone,
      List.append_nil]
  rw [← List.append_assoc] at hvisits
  have hmem : ∀ w ∈ vs₁ ++ none₁ ++ x :: vs₃, isBracket w.char = true := hvisits ▸ hvs
  have hback : visitedBrackets vs₃ = v := hvs₃
  rw [← hfront] at hfirst
  rw [← hback] at hsecond
  have hstart : Walk.IsOpen ⟨[], []⟩ [] := rfl
  obtain ⟨hbefore, hcount₁⟩ := foldl_visit_of_unwind
    (fun w hw => hmem w (List.mem_append_left _ hw)) hstart hfirst
  obtain ⟨k, ⟨hk, hxchar, hopen⟩ | ⟨hk, -, -⟩⟩ := exists_kind (hmem x (by simp))
  · obtain rfl : k = j := by
      rw [hx] at hk
      exact (Bracket.opening.inj (Option.some.inj hk)).symm
    obtain ⟨hthere, hcount₂⟩ := Walk.visit_opening hxchar hopen hbefore
    obtain ⟨hlast, hcount₃⟩ := foldl_visit_excess
      (fun w hw => hmem w (List.mem_append_right _ (List.mem_cons_of_mem x hw))) [] hthere hsecond
    refine ⟨kinds, hfront ▸ hfirst, ?_⟩
    rw [Walk.behind, hvisits, List.foldl_append, List.foldl_cons]
    refine ⟨hlast, ?_⟩
    rw [hcount₃, hcount₂, hcount₁]
    exact Nat.zero_add _
  · rw [hx] at hk
    cases hk

/-! ### What is reported -/

/-- Every finding is reported by default, with its code. -/
theorem code_diagnostic? (f : Finding) (loc : Location) :
    (f.diagnostic? {} loc).map (·.code) = some f.code := by
  have hlevel : ({} : Options).level f.rule = .warning ∨ ({} : Options).level f.rule = .error := by
    by_cases hcostly : f.rule = switchRule ∨ f.rule = entrancesRule
    · exact Or.inl (if_pos hcostly)
    · exact Or.inr (if_neg hcostly)
  rcases hlevel with h | h
  · rw [Finding.diagnostic?, h]
    rfl
  · rw [Finding.diagnostic?, h]
    rfl

/-- The codes that are reported are those of the findings, in another order. -/
theorem reported_perm (ls : List Line) :
    (reported ls).Perm ((findings ls).map fun f => f.1.code) := by
  have hcodes : ((findings ls).filterMap fun f => f.1.diagnostic? {} f.2).map (·.code) =
      (findings ls).map fun f => f.1.code := by
    rw [List.map_filterMap, ← List.filterMap_eq_map]
    exact List.filterMap_congr fun f _ => code_diagnostic? f.1 f.2
  rw [reported, lint_eq_findings, ← hcodes]
  exact (List.mergeSort_perm _ _).map _

/-- What the walk itself finds is reported under a code of its own exactly if it is a closing bracket
that does not fit, and never as a bracket that is left open. -/
theorem code_of_mem_walk {ls : List Line} {f : Finding × Location}
    (hf : f ∈ (Walk.behind ls).findings) :
    (f.1.code = "MF-LINT-0001" ↔ f.1.isMismatch = true) ∧ f.1.code ≠ "MF-LINT-0002" := by
  rcases Walk.plain_behind ls f hf with ⟨c, o, heq⟩ | ⟨call, hcall, heq⟩
  · rw [heq]
    exact ⟨iff_of_true rfl rfl, by simp [Finding.code]⟩
  · rw [heq]
    simp only [costlyCalls, List.mem_cons, List.not_mem_nil, or_false] at hcall
    rcases hcall with rfl | rfl
    · simp [Finding.code, Finding.isMismatch]
    · simp [Finding.code, Finding.isMismatch]

/-- **What is reported about brackets**: the closing brackets that do not fit, and those that are
left open. -/
theorem count_reported (ls : List Line) :
    (reported ls).count "MF-LINT-0001" = (Walk.behind ls).mismatches.length ∧
      (reported ls).count "MF-LINT-0002" = (Walk.behind ls).stack.length := by
  have hleft : ((Walk.behind ls).stack.reverse.map fun o => (Finding.unclosed o.1, o.2)).map
      (fun f => f.1.code) = List.replicate (Walk.behind ls).stack.length "MF-LINT-0002" := by
    rw [List.map_map, ← List.length_reverse]
    exact List.map_const'
  have hfindings : (findings ls).map (fun f => f.1.code) =
      (Walk.behind ls).findings.reverse.map (fun f => f.1.code) ++
        List.replicate (Walk.behind ls).stack.length "MF-LINT-0002" := by
    rw [← hleft, ← List.map_append]
    rfl
  constructor
  · have hmismatches : ((Walk.behind ls).findings.reverse.map fun f => f.1.code).count
        "MF-LINT-0001" = (Walk.behind ls).mismatches.length := by
      rw [List.map_reverse, List.count_reverse, List.count, List.countP_map,
        Walk.mismatches, ← List.countP_eq_length_filter]
      exact List.countP_congr fun f hf => beq_iff_eq.trans (code_of_mem_walk hf).1
    have hnone : "MF-LINT-0001" ∉ List.replicate (Walk.behind ls).stack.length "MF-LINT-0002" :=
      fun h => absurd (List.eq_of_mem_replicate h) (by decide)
    rw [(reported_perm ls).count_eq, hfindings, List.count_append, hmismatches,
      List.count_eq_zero_of_not_mem hnone, Nat.add_zero]
  · have hnone : "MF-LINT-0002" ∉ (Walk.behind ls).findings.reverse.map fun f => f.1.code := by
      intro h
      obtain ⟨f, hf, hcode⟩ := List.mem_map.1 h
      exact (code_of_mem_walk (List.mem_reverse.1 hf)).2 hcode
    rw [(reported_perm ls).count_eq, hfindings, List.count_append,
      List.count_eq_zero_of_not_mem hnone, List.count_replicate_self, Nat.zero_add]

/-- Among codes of which one occurs once, the other one does not occur exactly if this one is all
there is. -/
theorem filter_codes_iff {codes : List String} (h : codes.count "MF-LINT-0002" = 1) :
    codes.filter (fun code => code = "MF-LINT-0001" ∨ code = "MF-LINT-0002") = ["MF-LINT-0002"] ↔
      codes.count "MF-LINT-0001" = 0 := by
  constructor
  · intro hfilter
    rw [← List.count_filter (p := fun code => code = "MF-LINT-0001" ∨ code = "MF-LINT-0002")
      (by decide), hfilter]
    decide
  · intro hnone
    have honly : codes.filter (fun code => code = "MF-LINT-0001" ∨ code = "MF-LINT-0002") =
        codes.filter (· == "MF-LINT-0002") := by
      refine List.filter_congr fun code hcode => ?_
      have hne : code ≠ "MF-LINT-0001" := fun heq => List.count_eq_zero.1 hnone (heq ▸ hcode)
      rw [Bool.eq_iff_iff]
      simp [hne]
    rw [honly, List.filter_beq, h]
    rfl

/-- **A square bracket in excess is one finding exactly if no parenthesis is open around it.**  If
the word of the brackets of a stream is matched but for one square bracket, exactly one bracket is
reported to be without a closing one, and in addition one closing bracket that does not fit for each
change of the kind along the brackets that are open at this place, from the bracket itself on. -/
theorem lint_excess_square (ls : List Line) (u v : List Bracket)
    (hword : bracketWord ls = u ++ .opening .square :: v) (hmatched : Matched (u ++ v)) :
    ∃ kinds, unwind [] u = some kinds ∧
      (reported ls).count "MF-LINT-0002" = 1 ∧
      (reported ls).count "MF-LINT-0001" = changes (.square :: kinds) ∧
      ((reported ls).filter (fun code => code = "MF-LINT-0001" ∨ code = "MF-LINT-0002") =
          ["MF-LINT-0002"] ↔ ∀ k ∈ kinds, k = .square) := by
  obtain ⟨kinds, hkinds, ⟨k, hopen⟩, hmismatches⟩ := behind_of_excess hword hmatched
  obtain ⟨hcount₁, hcount₂⟩ := count_reported ls
  have hone : (Walk.behind ls).stack.length = 1 := by
    simpa using congrArg List.length hopen
  rw [hmismatches] at hcount₁
  rw [hone] at hcount₂
  refine ⟨kinds, hkinds, hcount₂, hcount₁, ?_⟩
  rw [filter_codes_iff hcount₂, hcount₁, changes_eq_zero_iff]

/-- A square bracket in quotes that is never closed, inside of a pair of square brackets and behind
a pair of parentheses. -/
def excessLines : List Line := [
  ⟨"[f(x)".toList, "main", 1⟩, ⟨"// )".toList, "main", 2⟩, ⟨"\"[\" g(y)]".toList, "main", 3⟩]

/-- One bracket is reported, since no parenthesis is open where the bracket in excess stands. -/
theorem lint_excess_square_excessLines :
    Matched ([.opening .square, .opening .round, .closing .round] ++
        [.opening .round, .closing .round, .closing .square]) ∧
      (reported excessLines).filter
        (fun code => code = "MF-LINT-0001" ∨ code = "MF-LINT-0002") = ["MF-LINT-0002"] := by
  have hmatched : Matched ([.opening .square, .opening .round, .closing .round] ++
      [.opening .round, .closing .round, .closing .square]) := by decide
  obtain ⟨kinds, hkinds, -, -, hone⟩ :=
    lint_excess_square excessLines _ _ (by decide +kernel) hmatched
  obtain rfl : [BracketKind.square] = kinds := Option.some.inj hkinds
  exact ⟨hmatched, hone.2 (by decide)⟩

/-- A square bracket between a pair of parentheses. -/
def enclosedLines : List Line := [⟨"([)".toList, "main", 1⟩]

/-- **A square bracket in excess between parentheses is reported twice**: as a closing parenthesis
that does not fit, and as a parenthesis that is never closed. -/
theorem lint_excess_square_twice :
    bracketWord enclosedLines = [.opening .round] ++ .opening .square :: [.closing .round] ∧
      Matched ([.opening .round] ++ [.closing .round]) ∧
      (reported enclosedLines).filter
        (fun code => code = "MF-LINT-0001" ∨ code = "MF-LINT-0002") ≠ ["MF-LINT-0002"] ∧
      (reported enclosedLines).count "MF-LINT-0001" = 1 := by
  obtain ⟨hcount₁, hcount₂⟩ := count_reported enclosedLines
  have hmismatches : (Walk.behind enclosedLines).mismatches.length = 1 := by decide +kernel
  have hstack : (Walk.behind enclosedLines).stack.length = 1 := by decide +kernel
  rw [hmismatches] at hcount₁
  rw [hstack] at hcount₂
  refine ⟨by decide +kernel, by decide, ?_, hcount₁⟩
  rw [Ne, filter_codes_iff hcount₂, hcount₁]
  decide

end Lint

end Softcode
