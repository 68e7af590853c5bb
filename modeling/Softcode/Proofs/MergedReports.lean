/-
**Merging reports.**

A report holds its findings in the order of a key: the place, then the code, then the message.
Severity, stage and notes are not part of the key, so findings may tie and still differ; those that
tie stay in the order in which they were given.  This leaves no choice: a list in the order of the
key is determined by what it holds at each key (`Softcode.eq_of_filter_key_eq`), and a report holds
at each key what it was made from, in the same order.  So two lists of findings have the same report
exactly if they agree at each key, and it makes no difference whether a part of a list has been
sorted before.

The pipeline reports what the stages found together with the report of the linter, which is sorted
already.  Its report is the one of all findings as they were made.

Main definitions:

* `Softcode.Location.key`, `Softcode.Diagnostic.key` — what places and findings are ordered by;
* `Softcode.Lint.found` — the findings of the linter, in the order in which they are made.

Main results:

* `Softcode.Diagnostic.le_iff_key_le` — the order of reports is that of the keys;
* `Softcode.Report.pairwise_of`, `Softcode.Report.filter_key_of` — reports are in order, and findings
  that tie are as they were given;
* `Softcode.Report.of_eq_of_iff` — **when two lists of findings have the same report**;
* `Softcode.Report.of_merges` — **merging reports is canonical**, and the order of the linter does
  not show.
-/

import Softcode.Proofs.RuleLevels
import Mathlib.Data.Prod.Lex
import Mathlib.Data.String.Basic
import Mathlib.Order.Compare
import Mathlib.Order.WithBot

set_option autoImplicit false

namespace Softcode

/-! ### Keys -/

/-- A value that may be missing; if it is, it comes before all others. -/
def missingFirst {α : Type} : Option α → WithBot α
  | none => ⊥
  | some a => a

/-- What places are ordered by: the source, the line, and the column, if there is one. -/
def Location.key (l : Location) : String ×ₗ ℕ ×ₗ WithBot ℕ :=
  toLex (l.file, toLex (l.line, missingFirst l.col))

/-- **What findings are ordered by**: the place, if there is one, the code and the message. -/
def Diagnostic.key (d : Diagnostic) : WithBot (String ×ₗ ℕ ×ₗ WithBot ℕ) ×ₗ String ×ₗ String :=
  toLex (missingFirst (d.loc.map Location.key), toLex (d.code, d.message))

section Keys

variable {α β κ : Type}

/-- Two comparisons one after the other compare pairs in the order of a dictionary. -/
theorem compares_then [Preorder α] [Preorder β] {o p : Ordering} {a a' : α} {b b' : β}
    (ho : o.Compares a a') (hp : p.Compares b b') :
    (o.then p).Compares (toLex (a, b)) (toLex (a', b')) := by
  cases o with
  | lt => exact Prod.Lex.toLex_lt_toLex.2 (Or.inl ho)
  | gt => exact Prod.Lex.toLex_lt_toLex.2 (Or.inl ho)
  | eq =>
      obtain rfl : a = a' := ho
      cases p with
      | lt => exact Prod.Lex.toLex_lt_toLex.2 (Or.inr ⟨rfl, hp⟩)
      | gt => exact Prod.Lex.toLex_lt_toLex.2 (Or.inr ⟨rfl, hp⟩)
      | eq => exact congrArg (fun b => toLex (a, b)) hp

/-- If values are compared as their keys are, so they are where they may be missing. -/
theorem compares_missingFirst [Ord α] [LinearOrder κ] {key : α → κ}
    (h : ∀ a b, (compare a b).Compares (key a) (key b)) (a b : Option α) :
    (compare a b).Compares (missingFirst (a.map key)) (missingFirst (b.map key)) := by
  cases a with
  | none =>
      cases b with
      | none => exact rfl
      | some b => exact WithBot.bot_lt_coe (key b)
  | some a =>
      cases b with
      | none => exact WithBot.bot_lt_coe (key a)
      | some b =>
          change (compare a b).Compares (key a : WithBot κ) (key b)
          cases hcompare : compare a b with
          | lt => exact WithBot.coe_lt_coe.2 ((h a b).eq_lt.1 hcompare)
          | eq => exact congrArg WithBot.some ((h a b).eq_eq.1 hcompare)
          | gt => exact WithBot.coe_lt_coe.2 ((h a b).eq_gt.1 hcompare)

end Keys

theorem Location.compares_key (a b : Location) : (compare a b).Compares a.key b.key := by
  have hcol := compares_missingFirst (fun m n : ℕ => (compare_iff m n).1 rfl) a.col b.col
  rw [Option.map_id', Option.map_id'] at hcol
  exact compares_then ((compare_iff a.file b.file).1 rfl)
    (compares_then ((compare_iff a.line b.line).1 rfl) hcol)

namespace Diagnostic

theorem compares_key (d e : Diagnostic) : (d.compare e).Compares d.key e.key := by
  rw [compare_eq_compareLex]
  exact compares_then (compares_missingFirst Location.compares_key d.loc e.loc)
    (compares_then ((compare_iff d.code e.code).1 rfl) ((compare_iff d.message e.message).1 rfl))

/-- **The order of reports is that of the keys.** -/
theorem le_iff_key_le (d e : Diagnostic) : d.le e = true ↔ d.key ≤ e.key :=
  bne_iff_ne.trans (compares_key d e).ne_gt

end Diagnostic

/-! ### Lists in the order of their keys -/

section Ordered

variable {α κ : Type} [LinearOrder κ] {key : α → κ} {l m : List α}

theorem mem_of_filter_key_eq (h : ∀ k, l.filter (fun a => key a = k) = m.filter fun a => key a = k)
    {a : α} (ha : a ∈ l) : a ∈ m := by
  have hfilter : a ∈ l.filter fun b => key b = key a := List.mem_filter.2 ⟨ha, decide_eq_true rfl⟩
  rw [h] at hfilter
  exact (List.mem_filter.1 hfilter).1

/-- The first element of a list in order has a key as small as any. -/
theorem key_head_le {a b : α} (hl : (a :: l).Pairwise fun a b => key a ≤ key b)
    (hb : b ∈ a :: l) : key a ≤ key b := by
  rcases List.mem_cons.1 hb with rfl | hb
  · exact le_rfl
  · exact (List.pairwise_cons.1 hl).1 b hb

/-- **A list in the order of its keys is determined by what it holds at each key.** -/
theorem eq_of_filter_key_eq (hl : l.Pairwise fun a b => key a ≤ key b)
    (hm : m.Pairwise fun a b => key a ≤ key b)
    (h : ∀ k, l.filter (fun a => key a = k) = m.filter fun a => key a = k) : l = m := by
  induction l generalizing m with
  | nil =>
      refine (List.eq_nil_iff_forall_not_mem.2 fun a ha => ?_).symm
      exact List.not_mem_nil (mem_of_filter_key_eq (fun k => (h k).symm) ha)
  | cons a l ih =>
      cases m with
      | nil => exact absurd (mem_of_filter_key_eq h List.mem_cons_self) List.not_mem_nil
      | cons b m =>
          -- each of the two heads stands somewhere in the other list, so neither key is smaller
          have hkey : key a = key b := le_antisymm
            (key_head_le hl (mem_of_filter_key_eq (fun k => (h k).symm) List.mem_cons_self))
            (key_head_le hm (mem_of_filter_key_eq h List.mem_cons_self))
          -- and both are the first at their key
          have hfirst := h (key a)
          rw [List.filter_cons_of_pos (by simp), List.filter_cons_of_pos (by simp [hkey])] at hfirst
          obtain ⟨rfl, hties⟩ := List.cons.inj hfirst
          refine congrArg (a :: ·) (ih hl.of_cons hm.of_cons fun k => ?_)
          by_cases hk : key a = k
          · exact hk ▸ hties
          · have hothers := h k
            rwa [List.filter_cons_of_neg (by simpa using hk),
              List.filter_cons_of_neg (by simpa using hk)] at hothers

end Ordered

/-! ### Reports -/

namespace Report

/-- Reports are in order. -/
theorem pairwise_of (ds : List Diagnostic) :
    (Report.of ds).diagnostics.Pairwise fun d e => d.key ≤ e.key :=
  (List.pairwise_mergeSort Diagnostic.le_trans Diagnostic.le_total ds).imp fun {d e} =>
    (Diagnostic.le_iff_key_le d e).1

/-- **What ties in a report is in the order in which it was given.** -/
theorem filter_key_of (ds : List Diagnostic) (k) :
    (Report.of ds).diagnostics.filter (fun d => d.key = k) = ds.filter fun d => d.key = k := by
  have hselect : (ds.mergeSort Diagnostic.le).filter (fun d => d.key = k) =
      (ds.filter fun d => d.key = k).mergeSort Diagnostic.le := by
    rw [← List.filterMap_eq_filter]
    refine (mergeSort_filterMap Diagnostic.le_trans Diagnostic.le_total ?_ ds).symm
    intro d e d' e' hd he
    rw [(Option.guard_eq_some_iff.1 hd).1, (Option.guard_eq_some_iff.1 he).1]
  -- what is selected ties, and so is in order already
  have hties : (ds.filter fun d => d.key = k).Pairwise fun d e => d.le e = true := by
    refine List.pairwise_of_forall_mem_list fun d hd e he => ?_
    have hd' : d.key = k := by simpa using (List.mem_filter.1 hd).2
    have he' : e.key = k := by simpa using (List.mem_filter.1 he).2
    exact (Diagnostic.le_iff_key_le d e).2 (by rw [hd', he'])
  exact hselect.trans (List.mergeSort_of_pairwise hties)

/-- The verdict of a report can be read off its findings. -/
theorem ok_of (ds : List Diagnostic) :
    (Report.of ds).ok = (Report.of ds).diagnostics.all fun d => !d.isError :=
  ((List.mergeSort_perm ds Diagnostic.le).all_eq).symm

/-- A report is fine exactly if none of its findings is an error. -/
theorem ok_of_iff (ds : List Diagnostic) :
    (Report.of ds).ok = true ↔ ∀ d ∈ ds, d.severity ≠ .error := by
  simp [Report.of, Diagnostic.isError]

/-- **When two lists of findings have the same report**: exactly if they hold the same at each key,
in the same order. -/
theorem of_eq_of_iff {ds es : List Diagnostic} :
    Report.of ds = Report.of es ↔
      ∀ k, ds.filter (fun d => d.key = k) = es.filter fun d => d.key = k := by
  constructor
  · intro h k
    rw [← filter_key_of, h, filter_key_of]
  · intro h
    have hdiagnostics : (Report.of ds).diagnostics = (Report.of es).diagnostics := by
      refine eq_of_filter_key_eq (pairwise_of ds) (pairwise_of es) fun k => ?_
      rw [filter_key_of, filter_key_of, h]
    have hok : (Report.of ds).ok = (Report.of es).ok := by rw [ok_of, ok_of, hdiagnostics]
    exact congrArg₂ Report.mk hok hdiagnostics

/-- Findings may be sorted before they are merged. -/
theorem of_append_diagnostics_of (a b : List Diagnostic) :
    Report.of (a ++ (Report.of b).diagnostics) = Report.of (a ++ b) := by
  refine of_eq_of_iff.2 fun k => ?_
  rw [List.filter_append, filter_key_of, List.filter_append]

end Report

/-! ### The report of the pipeline -/

/-- What the linter reports, in the order in which it is found. -/
def Lint.found (o : Lint.Options) (lines : List Line) : List Diagnostic :=
  (findings lines).filterMap fun f => f.1.diagnostic? o f.2

/-- What is reported in the end is as if the linter had not sorted its findings. -/
theorem Session.report_eq (s : Session) (o : Lint.Options) :
    s.report o = Report.of (s.diagnostics ++ Lint.found o s.lines) := by
  rw [Session.report, Lint.lint_eq_findings]
  exact Report.of_append_diagnostics_of s.diagnostics (Lint.found o s.lines)

/-- **Merging reports is canonical.**  The report of two lists of findings is the same if the second
one has been sorted to a report before.  It holds all findings, in the order of their keys, those
that tie in the order in which they are given, and it is fine exactly if none is an error.  So,
although the linter sorts what it found, the report of a run is that of what the stages found and
what the linter found, as it was found. -/
theorem Report.of_merges :
    (∀ a b : List Diagnostic,
      Report.of (a ++ (Report.of b).diagnostics) = Report.of (a ++ b) ∧
        (Report.of (a ++ b)).diagnostics.Perm (a ++ b) ∧
        ((Report.of (a ++ b)).diagnostics.Pairwise fun d e => d.key ≤ e.key) ∧
        (∀ k, (Report.of (a ++ b)).diagnostics.filter (fun d => d.key = k) =
          (a ++ b).filter fun d => d.key = k) ∧
        ((Report.of (a ++ b)).ok = true ↔ ∀ d ∈ a ++ b, d.severity ≠ .error)) ∧
      ∀ (o : Options) (s : Sources) (entry : Text) (out : Output), run o s entry = .ok out →
        ∃ lines r done, Resolver.resolveEntry s entry (o.resolver s.tree) = (.ok lines, r) ∧
          (Session.ofResolver o lines r).stages o.safeLimit = done ∧ out.lines = done.lines ∧
          Lint.lint o.linter done.lines = Report.of (Lint.found o.linter done.lines) ∧
          out.report = Report.of (done.diagnostics ++ Lint.found o.linter done.lines) := by
  refine ⟨fun a b => ⟨of_append_diagnostics_of a b, List.mergeSort_perm _ _, pairwise_of _,
    filter_key_of _, ok_of_iff _⟩, fun o s entry out hrun => ?_⟩
  obtain ⟨lines, r, done, hresolve, hstages, hlines, hreport, -⟩ := exists_of_run hrun
  exact ⟨lines, r, done, hresolve, hstages, hlines, Lint.lint_eq_findings o.linter done.lines,
    hreport.trans (Session.report_eq done o.linter)⟩

/-- The first macro has no pattern for a trigger, and the second one puts in brackets of which the
one that is never closed is found behind the one that does not fit. -/
def crossingMacros : Options := { defines := [(['('], []), (['x'], ['(', '[', ')'])] }

/-- The stages warn about a macro, and the linter finds brackets, not in the order of their
places. -/
theorem Report.of_merges_crossingMacros :
    ∃ (out : Output) (done : Session), run crossingMacros bracketSources ['/', 'm'] = .ok out ∧
      done.diagnostics.map Diagnostic.loc = [none] ∧
      (Lint.found {} done.lines).map Diagnostic.loc =
        [some ⟨"/c", 1, some 3⟩, some ⟨"/c", 1, some 1⟩, some ⟨"/m", 2, some 1⟩] ∧
      out.lines = done.lines ∧
      out.report = Report.of (done.diagnostics ++ Lint.found {} done.lines) := by
  -- loading does not depend on macros
  have hresolve : Resolver.resolveEntry bracketSources ['/', 'm']
      (crossingMacros.resolver bracketSources.tree) = _ := resolveEntry_bracket
  obtain ⟨out, hrun⟩ := exists_run hresolve
  obtain ⟨lines, r, done, hresolve', hstages, hlines, -, hreport⟩ :=
    Report.of_merges.2 _ _ _ _ hrun
  obtain ⟨hloaded, rfl⟩ := Prod.mk.inj (hresolve.symm.trans hresolve')
  obtain rfl := Except.ok.inj hloaded
  refine ⟨out, done, hrun, ?_, ?_, hlines, hreport⟩
  · rw [← hstages]
    decide +kernel
  · rw [← hstages]
    decide +kernel

end Softcode
