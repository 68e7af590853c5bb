/-
**What the linter finds, whatever it reports.**

The linter reports while it walks: at each bracket, and once more for the brackets that are left
open, it asks the options whether a finding is reported, and how.  This module separates the two.
A walk that knows of no options collects what is found; the linter follows it step by step, with the
same brackets open and with that of the findings reported which the options let through.  So the
brackets that are open at any place are the same for all options, and a report is made from findings
that do not depend on them.

Main definitions:

* `Softcode.Lint.Walk`, `Softcode.Lint.Walk.visit` — walks without options, and what one bracket
  does;
* `Softcode.Lint.findings` — **all findings of a stream**;
* `Softcode.Lint.Linter.Follows` — a linter at certain options has come as far as a walk.

Main results:

* `Softcode.Lint.Linter.Follows.visit`, `Softcode.Lint.Linter.Follows.foldl` — the linter follows
  the walk, over one bracket and over all;
* `Softcode.Lint.Linter.stack_foldl_eq` — the same brackets are open at all options;
* `Softcode.Lint.lint_eq_findings` — **a report is made from the findings**.
-/

import Softcode.Lint

set_option autoImplicit false

namespace Softcode

namespace Lint

/-! ### Walks without options -/

/-- The brackets that are open, the innermost first, and the findings so far, the latest first. -/
structure Walk where
  stack : List (Char × Location)
  findings : List (Finding × Location)

/-- What one bracket does: an opening one goes on the stack, a closing one takes the innermost off
and is found to be wrong if the two do not fit. -/
def Walk.visit (w : Walk) (v : Visit) : Walk :=
  if v.char = '[' ∨ v.char = '(' then
    ⟨(v.char, v.loc) :: w.stack, (costlyAt v).reverse ++ w.findings⟩
  else
    match w.stack with
    | [] => ⟨[], (.mismatch v.char none, v.loc) :: w.findings⟩
    | o :: stack =>
        if o.1 = openerFor v.char then ⟨stack, w.findings⟩
        else ⟨stack, (.mismatch v.char (some o), v.loc) :: w.findings⟩

/-- All findings of a stream, in the order in which they are made: those of the walk, and then the
brackets left open, the outermost first. -/
def findings (lines : List Line) : List (Finding × Location) :=
  let w := (visits lines).foldl Walk.visit ⟨[], []⟩
  w.findings.reverse ++ w.stack.reverse.map fun o => (.unclosed o.1, o.2)

/-! ### The linter follows the walk -/

namespace Linter

/-- A linter has come as far as a walk: the same brackets are open, and of the findings it has
reported those that its options let through. -/
structure Follows (o : Options) (s : Linter) (w : Walk) : Prop where
  stack : s.stack = w.stack
  diagnostics : s.diagnostics = w.findings.filterMap fun f => f.1.diagnostic? o f.2

variable {o : Options} {s : Linter} {w : Walk}

theorem stack_emit (s : Linter) (f : Finding × Location) : (s.emit o f).stack = s.stack := by
  unfold emit
  split <;> rfl

theorem Follows.emit (h : s.Follows o w) (f : Finding × Location) :
    (s.emit o f).Follows o ⟨w.stack, f :: w.findings⟩ := by
  refine ⟨(stack_emit s f).trans h.stack, ?_⟩
  rw [List.filterMap_cons, ← h.diagnostics]
  unfold Linter.emit
  cases f.1.diagnostic? o f.2 <;> rfl

theorem Follows.emitAll (h : s.Follows o w) (fs : List (Finding × Location)) :
    (fs.foldl (Linter.emit o) s).Follows o ⟨w.stack, fs.reverse ++ w.findings⟩ := by
  induction fs generalizing s w with
  | nil => exact h
  | cons f fs ih =>
      rw [List.foldl_cons, List.reverse_cons, List.append_assoc]
      exact ih (h.emit f)

/-- **The linter follows the walk over one bracket**, whatever is reported there. -/
theorem Follows.visit (h : s.Follows o w) (v : Visit) : (s.visit o v).Follows o (w.visit v) := by
  unfold Linter.visit Walk.visit
  by_cases hopen : v.char = '[' ∨ v.char = '('
  · rw [if_pos hopen, if_pos hopen]
    have hcostly := h.emitAll (costlyAt v)
    exact ⟨congrArg ((v.char, v.loc) :: ·) hcostly.stack, hcostly.diagnostics⟩
  · rw [if_neg hopen, if_neg hopen, ← h.stack]
    cases hstack : s.stack with
    | nil =>
        have hw : w.stack = [] := h.stack.symm.trans hstack
        have hemit := h.emit (.mismatch v.char none, v.loc)
        rw [hw] at hemit
        exact hemit
    | cons b stack =>
        have hpopped : Follows o ⟨stack, s.diagnostics⟩ ⟨stack, w.findings⟩ := ⟨rfl, h.diagnostics⟩
        dsimp only
        split
        · exact hpopped
        · exact hpopped.emit (.mismatch v.char (some b), v.loc)

theorem Follows.foldl (h : s.Follows o w) (vs : List Visit) :
    (vs.foldl (Linter.visit o) s).Follows o (vs.foldl Walk.visit w) := by
  induction vs generalizing s w with
  | nil => exact h
  | cons v vs ih => exact ih (h.visit v)

theorem follows_start (o : Options) : Follows o ⟨[], []⟩ ⟨[], []⟩ := ⟨rfl, rfl⟩

/-- **The same brackets are open at all options**, behind any part of a stream. -/
theorem stack_foldl_eq (o o' : Options) (vs : List Visit) :
    (vs.foldl (Linter.visit o) ⟨[], []⟩).stack = (vs.foldl (Linter.visit o') ⟨[], []⟩).stack :=
  ((follows_start o).foldl vs).stack.trans ((follows_start o').foldl vs).stack.symm

end Linter

/-- **A report is made from the findings**, those that the options let through. -/
theorem lint_eq_findings (o : Options) (lines : List Line) :
    lint o lines = .of ((findings lines).filterMap fun f => f.1.diagnostic? o f.2) := by
  have hwalk := (Linter.follows_start o).foldl (visits lines)
  generalize hs : (visits lines).foldl (Linter.visit o) ⟨[], []⟩ = s at hwalk
  generalize hw : (visits lines).foldl Walk.visit ⟨[], []⟩ = w at hwalk
  have hclosed : Linter.Follows o ⟨[], s.diagnostics⟩ ⟨[], w.findings⟩ := ⟨rfl, hwalk.diagnostics⟩
  have hdone := (hclosed.emitAll (s.stack.reverse.map fun b => (.unclosed b.1, b.2))).diagnostics
  rw [lint, hs, Linter.finish, hdone, findings, hw, ← List.filterMap_reverse, List.reverse_append,
    List.reverse_reverse, hwalk.stack]

end Lint

end Softcode
