/-
**Levels of rules select and relabel.**

What the linter finds does not depend on the levels of its rules; they decide only which findings
are reported, and how serious they are.  The order of a report does not look at the severity of a
finding, and sorting keeps findings that compare equal in the order in which they were made.  So a
report at any levels is the report in which every rule reports errors, with the findings of rules
that are off left out and the others as errors or warnings, as the level of their rule says.  A
finding says in its report which rule it belongs to: a costly call by its code, and a bracket by the
first character that its message quotes.

Main definitions:

* `Softcode.Lint.allErrors` — the options at which all rules report errors;
* `Softcode.Lint.ruleOf` — **the rule that a reported finding belongs to**;
* `Softcode.Lint.relabel?` — a reported finding at the level of its rule: nothing, an error or a
  warning.

Main results:

* `Softcode.Diagnostic.le_trans`, `Softcode.Diagnostic.le_total` — the order of reports;
* `Softcode.mergeSort_filterMap` — **sorting commutes with a selection** that keeps the order;
* `Softcode.Lint.ruleOf_diagnostic` — every reported finding names its rule;
* `Softcode.Lint.Options.level_eq_lookup` — the level of a rule is the one that is set, or the usual
  one;
* `Softcode.Lint.lint_relabels` — **levels of rules select and relabel**.
-/

import Softcode.Proofs.Balance

set_option autoImplicit false

namespace Softcode

/-! ### The order of reports -/

instance : Ord Location := ⟨Location.compare⟩

instance : Std.TransOrd Location :=
  inferInstanceAs (Std.TransCmp (compareLex (compareOn Location.file)
    (compareLex (compareOn Location.line) (compareOn Location.col))))

namespace Diagnostic

/-- Findings are compared by place, then by code, then by message. -/
theorem compare_eq_compareLex :
    Diagnostic.compare = compareLex (compareOn Diagnostic.loc)
      (compareLex (compareOn Diagnostic.code) (compareOn Diagnostic.message)) := by
  funext a b
  unfold Diagnostic.compare compareLex compareOn
  cases a.loc with
  | none => cases b.loc <;> rfl
  | some x => cases b.loc <;> rfl

instance : Std.TransCmp Diagnostic.compare := by
  rw [compare_eq_compareLex]
  infer_instance

theorem le_iff_isLE {a b : Diagnostic} : Diagnostic.le a b = true ↔ (a.compare b).isLE = true := by
  unfold Diagnostic.le
  cases a.compare b <;> decide

theorem le_trans (a b c : Diagnostic) (hab : a.le b = true) (hbc : b.le c = true) :
    a.le c = true :=
  le_iff_isLE.2 (Std.TransCmp.isLE_trans (le_iff_isLE.1 hab) (le_iff_isLE.1 hbc))

theorem le_total (a b : Diagnostic) : (a.le b || b.le a) = true := by
  have hswap : a.compare b = (b.compare a).swap := Std.OrientedCmp.eq_swap
  unfold Diagnostic.le
  rw [hswap]
  cases b.compare a <;> decide

/-- The order of reports does not look at the severity. -/
theorem le_withSeverity (a b : Diagnostic) (s t : Severity) :
    Diagnostic.le { a with severity := s } { b with severity := t } = a.le b := rfl

end Diagnostic

/-! ### Sorting what is selected -/

section Sorting

variable {α : Type} {le : α → α → Bool}

/-- A list in two parts of which the first has only elements that `a` may not stand before, and the
second only others, is cut between the two in one way. -/
theorem append_eq_append_of_cut {a : α} {l₁ l₂ m₁ m₂ : List α} (h : l₁ ++ l₂ = m₁ ++ m₂)
    (hl₁ : ∀ b ∈ l₁, (!le a b) = true) (hl₂ : ∀ b ∈ l₂, le a b = true)
    (hm₁ : ∀ b ∈ m₁, (!le a b) = true) (hm₂ : ∀ b ∈ m₂, le a b = true) : l₁ = m₁ ∧ l₂ = m₂ := by
  have hstop : ∀ l : List α, (∀ b ∈ l, le a b = true) → l.takeWhile (fun b => !le a b) = [] := by
    intro l hl
    cases l with
    | nil => rfl
    | cons b l => exact List.takeWhile_cons_of_neg (by simp [hl b List.mem_cons_self])
  have htake := congrArg (List.takeWhile fun b => !le a b) h
  rw [List.takeWhile_append_of_pos hl₁, List.takeWhile_append_of_pos hm₁, hstop l₂ hl₂,
    hstop m₂ hm₂, List.append_nil, List.append_nil] at htake
  subst htake
  exact ⟨rfl, List.append_cancel_left h⟩

/-- A sorted list has the elements that `a` may stand before behind `a`. -/
theorem le_of_mem_mergeSort (trans : ∀ a b c, le a b = true → le b c = true → le a c = true)
    (total : ∀ a b, (le a b || le b a) = true) {a : α} {l l₁ l₂ : List α}
    (h : l.mergeSort le = l₁ ++ a :: l₂) : ∀ b ∈ l₂, le a b = true := by
  have hsorted := List.pairwise_mergeSort trans total l
  rw [h] at hsorted
  exact (List.pairwise_cons.1 (List.pairwise_append.1 hsorted).2.1).1

/-- **Sorting commutes with a selection**, which may change what it selects as long as it keeps the
order. -/
theorem mergeSort_filterMap (trans : ∀ a b c, le a b = true → le b c = true → le a c = true)
    (total : ∀ a b, (le a b || le b a) = true) {g : α → Option α}
    (hg : ∀ a b a' b', g a = some a' → g b = some b' → le a' b' = le a b) (l : List α) :
    (l.filterMap g).mergeSort le = (l.mergeSort le).filterMap g := by
  induction l with
  | nil => rw [List.filterMap_nil, List.mergeSort_nil, List.filterMap_nil]
  | cons a l ih =>
      obtain ⟨l₁, l₂, hl, hrest, hbefore⟩ := List.mergeSort_cons trans total a l
      have hbehind := le_of_mem_mergeSort trans total hl
      rw [hl, List.filterMap_append, List.filterMap_cons, List.filterMap_cons]
      cases ha : g a with
      | none => rw [ih, hrest, List.filterMap_append]
      | some a' =>
          obtain ⟨m₁, m₂, hm, hrest', hbefore'⟩ :=
            List.mergeSort_cons trans total a' (l.filterMap g)
          have hbehind' := le_of_mem_mergeSort trans total hm
          rw [ih, hrest, List.filterMap_append] at hrest'
          -- both cuts are where `a'` belongs
          have hselected : ∀ {k : List α} {b' : α}, b' ∈ k.filterMap g →
              ∃ b ∈ k, le a' b' = le a b := by
            intro k b' hb'
            obtain ⟨b, hb, hgb⟩ := List.mem_filterMap.1 hb'
            exact ⟨b, hb, hg a b a' b' ha hgb⟩
          obtain ⟨h₁, h₂⟩ := append_eq_append_of_cut hrest'
            (fun b' hb' => by obtain ⟨b, hb, heq⟩ := hselected hb'; rw [heq]; exact hbefore b hb)
            (fun b' hb' => by obtain ⟨b, hb, heq⟩ := hselected hb'; rw [heq]; exact hbehind b hb)
            hbefore' hbehind'
          dsimp only
          rw [hm, h₁, h₂]

end Sorting

namespace Lint

/-! ### The rules of findings -/

/-- The character that a message quotes first. -/
def quotedChar? (message : String) : Option Char :=
  (Text.cut? '\x60' message.toList).bind fun parts => parts.2.head?

/-- **The rule that a reported finding belongs to**: that of the costly call with its code, or that
of the bracket that its message quotes first. -/
def ruleOf (d : Diagnostic) : String :=
  match costlyCalls.find? fun call => call.code = d.code with
  | some call => call.rule
  | none => ruleFor ((quotedChar? d.message).getD ' ')

/-- A message that quotes a character behind a text without quotes. -/
theorem quotedChar?_append {front : String} {text : Text} (htext : front.toList = text ++ ['\x60'])
    (hnone : '\x60' ∉ text) (c : Char) (rest : String) :
    quotedChar? (front ++ (c.toString ++ rest)) = some c := by
  have hmessage : (front ++ (c.toString ++ rest)).toList =
      text ++ '\x60' :: (c :: rest.toList) := by
    rw [String.toList_append, String.toList_append, htext]
    simp
  have hcut : Text.cut? '\x60' (front ++ (c.toString ++ rest)).toList =
      some (text, c :: rest.toList) := Text.cut?_eq_some_iff.2 ⟨hmessage, hnone⟩
  rw [quotedChar?, hcut]
  rfl

theorem quotedChar?_mismatch (c : Char) (innermost : Option (Char × Location)) :
    quotedChar? (Finding.mismatch c innermost).message = some c := by
  have hmessage : ∃ rest, (Finding.mismatch c innermost).message =
      "unexpected `" ++ (c.toString ++ rest) := by
    cases innermost with
    | none =>
        refine ⟨"` with nothing open", ?_⟩
        rw [← String.append_assoc]
        rfl
    | some o =>
        refine ⟨"` (innermost open `" ++ (o.1.toString ++ ("` at " ++ (o.2.render ++ ")"))), ?_⟩
        rw [← String.append_assoc, ← String.append_assoc, ← String.append_assoc,
          ← String.append_assoc, ← String.append_assoc]
        rfl
  have htext : "unexpected `".toList = "unexpected ".toList ++ ['\x60'] := by decide
  obtain ⟨rest, hrest⟩ := hmessage
  rw [hrest]
  exact quotedChar?_append htext (by decide) c rest

theorem quotedChar?_unclosed (c : Char) :
    quotedChar? (Finding.unclosed c).message = some (closerFor c) := by
  have hmessage : (Finding.unclosed c).message =
      "missing closing `" ++ ((closerFor c).toString ++ ("` for `" ++ (c.toString ++ "`"))) := by
    rw [← String.append_assoc, ← String.append_assoc, ← String.append_assoc]
    rfl
  have htext : "missing closing `".toList = "missing closing ".toList ++ ['\x60'] := by decide
  rw [hmessage]
  exact quotedChar?_append htext (by decide) (closerFor c) _

/-- Only opening brackets are on the stack. -/
def Walk.OnlyOpeners (s : Walk) : Prop := ∀ o ∈ s.stack, o.1 = '[' ∨ o.1 = '('

theorem Walk.OnlyOpeners.visit {s : Walk} (h : s.OnlyOpeners) (v : Visit) :
    (s.visit v).OnlyOpeners := by
  unfold Walk.visit
  split
  · next hopen =>
      intro o ho
      rcases List.mem_cons.1 ho with rfl | ho
      · exact hopen
      · exact h o ho
  · split
    · exact fun o ho => absurd ho List.not_mem_nil
    · next o' stack hstack =>
        have hrest : ∀ o ∈ stack, o.1 = '[' ∨ o.1 = '(' := fun o ho =>
          h o (hstack ▸ List.mem_cons_of_mem o' ho)
        split
        · exact hrest
        · exact hrest

theorem Walk.onlyOpeners_behind (ls : List Line) : (Walk.behind ls).OnlyOpeners := by
  have hfold : ∀ (vs : List Visit) (s : Walk), s.OnlyOpeners →
      (vs.foldl Walk.visit s).OnlyOpeners := by
    intro vs
    induction vs with
    | nil => exact fun s hs => hs
    | cons v vs ih => exact fun s hs => ih (s.visit v) (hs.visit v)
  exact hfold (visits ls) ⟨[], []⟩ fun o ho => absurd ho List.not_mem_nil

/-- The rule of a finding about brackets is that of the bracket that its message quotes first. -/
theorem ruleOf_of_isUnbalancedCode {d : Diagnostic} (hcode : IsUnbalancedCode d.code) {c : Char}
    (hquoted : quotedChar? d.message = some c) : ruleOf d = ruleFor c := by
  have hnone : (costlyCalls.find? fun call => call.code = d.code) = none := by
    rcases hcode with h | h
    · rw [h]
      decide
    · rw [h]
      decide
  rw [ruleOf, hnone, hquoted]
  rfl

/-- **Every reported finding names its rule.** -/
theorem ruleOf_diagnostic {ls : List Line} {f : Finding × Location} (hf : f ∈ findings ls)
    {o : Options} {d : Diagnostic} (hd : f.1.diagnostic? o f.2 = some d) : ruleOf d = f.1.rule := by
  obtain ⟨finding, loc⟩ := f
  obtain ⟨severity, -, rfl⟩ := Option.map_eq_some_iff.1 hd
  rcases mem_findings_iff.1 hf with hwalk | ⟨opened, hopened, heq⟩
  · rcases Walk.plain_behind ls _ hwalk with ⟨c, innermost, rfl⟩ | ⟨call, hcall, rfl⟩
    · exact ruleOf_of_isUnbalancedCode (Or.inl rfl) (quotedChar?_mismatch c innermost)
    · simp only [costlyCalls, List.mem_cons, List.not_mem_nil, or_false] at hcall
      rcases hcall with rfl | rfl
      · rfl
      · rfl
  · obtain ⟨rfl, rfl⟩ := Prod.mk.inj heq
    have hcloser : ruleFor (closerFor opened.1) = (Finding.unclosed opened.1).rule := by
      rcases Walk.onlyOpeners_behind ls opened hopened with hopen | hopen
      · rw [hopen]
        rfl
      · rw [hopen]
        rfl
    rw [← hcloser]
    exact ruleOf_of_isUnbalancedCode (Or.inr rfl) (quotedChar?_unclosed opened.1)

/-! ### Levels -/

/-- The options at which all rules report errors. -/
def allErrors : Options :=
  ⟨[(bracketsRule, .error), (parensRule, .error), (switchRule, .error), (entrancesRule, .error)]⟩

/-- A reported finding at the level of its rule: if the rule is off, there is none, and otherwise it
is an error or a warning and for the rest the same. -/
def relabel? (o : Options) (d : Diagnostic) : Option Diagnostic :=
  match o.level (ruleOf d) with
  | .off => none
  | .error => some { d with severity := .error }
  | .warning => some { d with severity := .warning }

theorem relabel?_eq_map (o : Options) (d : Diagnostic) :
    relabel? o d = (o.level (ruleOf d)).severity?.map fun s => { d with severity := s } := by
  unfold relabel?
  cases o.level (ruleOf d) <;> rfl

/-- **The level of a rule** is the one that is set by hand, or else a warning for costly calls and
an error for all other rules. -/
theorem Options.level_eq_lookup (o : Options) (rule : String) :
    o.level rule = (o.rules.lookup rule).getD
      (if rule = "switch-call" ∨ rule = "entrances-call" then .warning else .error) := by
  have hlookup : o.rules.lookup rule = (o.rules.find? fun r => r.1 = rule).map (·.2) := by
    rw [List.lookup_eq_findSome?, List.find?_eq_findSome?_guard, List.map_findSome?]
    refine congrArg (List.findSome? · o.rules) (funext fun r => ?_)
    by_cases hr : r.1 = rule
    · simp [Option.guard, hr]
    · simp [Option.guard, hr, Ne.symm hr]
  rw [hlookup, Options.level]
  cases o.rules.find? fun r => r.1 = rule <;> rfl

/-- The rules that findings belong to. -/
theorem rule_of_mem_findings {ls : List Line} {f : Finding × Location} (hf : f ∈ findings ls) :
    f.1.rule ∈ [bracketsRule, parensRule, switchRule, entrancesRule] := by
  rcases cases_of_mem_findings hf with ⟨c, o, heq⟩ | ⟨c, heq⟩ | ⟨call, hcall, heq⟩
  · rcases rule_of_isUnbalanced (f := f.1) (by rw [heq]; rfl) with h | h <;> simp [h]
  · rcases rule_of_isUnbalanced (f := f.1) (by rw [heq]; rfl) with h | h <;> simp [h]
  · simp only [costlyCalls, List.mem_cons, List.not_mem_nil, or_false] at hcall
    rcases hcall with rfl | rfl <;> simp [heq, Finding.rule]

/-- At these options every finding is reported as an error. -/
theorem diagnostic?_allErrors {ls : List Line} {f : Finding × Location} (hf : f ∈ findings ls) :
    f.1.diagnostic? allErrors f.2 =
      some ⟨f.1.code, .error, .lint, f.1.message, some f.2, f.1.notes⟩ := by
  have hlevels : ∀ rule ∈ [bracketsRule, parensRule, switchRule, entrancesRule],
      allErrors.level rule = .error := by decide
  rw [Finding.diagnostic?, hlevels _ (rule_of_mem_findings hf)]
  rfl

/-- What is reported of a finding is what is reported of it as an error, at the level of its rule. -/
theorem diagnostic?_eq_relabel? {ls : List Line} {f : Finding × Location} (hf : f ∈ findings ls)
    (o : Options) : f.1.diagnostic? o f.2 = (f.1.diagnostic? allErrors f.2).bind (relabel? o) := by
  have hall := diagnostic?_allErrors hf
  rw [hall, Option.bind_some, relabel?_eq_map, ruleOf_diagnostic hf hall]
  rfl

theorem le_of_relabel? {o : Options} {a b a' b' : Diagnostic} (ha : relabel? o a = some a')
    (hb : relabel? o b = some b') : Diagnostic.le a' b' = a.le b := by
  rw [relabel?_eq_map] at ha hb
  obtain ⟨s, -, rfl⟩ := Option.map_eq_some_iff.1 ha
  obtain ⟨t, -, rfl⟩ := Option.map_eq_some_iff.1 hb
  exact Diagnostic.le_withSeverity a b s t

theorem ruleOf_relabel? {o : Options} {d d' : Diagnostic} (h : relabel? o d = some d') :
    ruleOf d' = ruleOf d := by
  rw [relabel?_eq_map] at h
  obtain ⟨s, -, rfl⟩ := Option.map_eq_some_iff.1 h
  rfl

/-- A report is the report of errors, relabelled. -/
theorem lint_eq_relabel (o : Options) (ls : List Line) :
    (lint o ls).diagnostics = (lint allErrors ls).diagnostics.filterMap (relabel? o) := by
  have hselect : (findings ls).filterMap (fun f => f.1.diagnostic? o f.2) =
      ((findings ls).filterMap fun f => f.1.diagnostic? allErrors f.2).filterMap (relabel? o) := by
    rw [List.filterMap_filterMap]
    exact List.filterMap_congr fun f hf => diagnostic?_eq_relabel? hf o
  rw [lint_eq_findings, lint_eq_findings]
  calc ((findings ls).filterMap fun f => f.1.diagnostic? o f.2).mergeSort Diagnostic.le
      = (((findings ls).filterMap fun f => f.1.diagnostic? allErrors f.2).filterMap
          (relabel? o)).mergeSort Diagnostic.le := by rw [hselect]
    _ = (((findings ls).filterMap fun f => f.1.diagnostic? allErrors f.2).mergeSort
          Diagnostic.le).filterMap (relabel? o) :=
        mergeSort_filterMap Diagnostic.le_trans Diagnostic.le_total
          (fun _ _ _ _ ha hb => le_of_relabel? ha hb) _

/-- **Levels of rules select and relabel.**  The level of a rule is the one that is set for it, or
else the usual one; whatever is reported on the way, the same brackets are open.  A report is the
one in which all rules report errors, without the findings of rules that are off and with the others
as errors or warnings by the level of their rule, in the same order and otherwise the same.  So what
is reported for other rules does not depend on the level of one of them. -/
theorem lint_relabels :
    (∀ (o : Options) (rule : String), o.level rule = (o.rules.lookup rule).getD
      (if rule = "switch-call" ∨ rule = "entrances-call" then .warning else .error)) ∧
    (∀ (o o' : Options) (vs : List Visit),
      (vs.foldl (Linter.visit o) ⟨[], []⟩).stack = (vs.foldl (Linter.visit o') ⟨[], []⟩).stack) ∧
    (∀ (o : Options) (ls : List Line),
      (lint o ls).diagnostics = (lint allErrors ls).diagnostics.filterMap (relabel? o)) ∧
      ∀ (o o' : Options) (rule : String) (ls : List Line),
        (∀ r, r ≠ rule → o.level r = o'.level r) →
        (lint o ls).diagnostics.filter (fun d => ruleOf d ≠ rule) =
          (lint o' ls).diagnostics.filter fun d => ruleOf d ≠ rule := by
  refine ⟨Options.level_eq_lookup, Linter.stack_foldl_eq, lint_eq_relabel,
    fun o o' rule ls hlevels => ?_⟩
  rw [lint_eq_relabel o, lint_eq_relabel o', List.filter_filterMap, List.filter_filterMap]
  refine List.filterMap_congr fun d _ => ?_
  by_cases hrule : ruleOf d = rule
  · -- whatever the levels are, nothing is left of the rule
    have hnone : ∀ o, (relabel? o d).filter (fun d' => decide (ruleOf d' ≠ rule)) = none := by
      intro o
      refine Option.filter_eq_none_iff.2 fun d' hd' => ?_
      simp [ruleOf_relabel? hd', hrule]
    rw [hnone, hnone]
  · rw [relabel?, hlevels _ hrule]
    rfl

/-- A parenthesis that closes nothing, and a costly call. -/
def mixedLines : List Line := [⟨")[switch(x)]".toList, "main", 1⟩]

/-- The options without the rule about parentheses. -/
def noParens : Options := ⟨[(parensRule, .off)]⟩

theorem lint_allErrors_mixedLines :
    (lint allErrors mixedLines).diagnostics.map (fun d => (d.code, d.severity)) =
      [("MF-LINT-0001", .error), ("MF-LINT-0101", .error)] := by
  have hfound : ((findings mixedLines).filterMap fun f => f.1.diagnostic? allErrors f.2).map
      (fun d => (d.loc, d.code, d.severity)) =
        [(some ⟨"main", 1, some 1⟩, "MF-LINT-0001", .error),
          (some ⟨"main", 1, some 2⟩, "MF-LINT-0101", .error)] := by
    decide +kernel
  obtain ⟨d, ds, hds, hd, hrest⟩ := List.map_eq_cons_iff.1 hfound
  obtain ⟨e, es, rfl, he, hes⟩ := List.map_eq_cons_iff.1 hrest
  obtain rfl := List.map_eq_nil_iff.1 hes
  simp only [Prod.mk.injEq] at hd he
  -- the findings are made in the order of their places, so that sorting does not move them
  have hcolumns : compare (some 1) (some 2) = Ordering.lt := rfl
  have hle : d.le e = true := by
    simp [Diagnostic.le, Diagnostic.compare, hd.1, he.1, Location.compare, hcolumns]
  rw [lint_eq_findings, hds, Report.of, List.mergeSort_of_pairwise (by simpa using hle)]
  simp [hd.2, he.2]

/-- Without the rule about parentheses, its finding is gone, the costly call is a warning where it
was an error, and is found as by default. -/
theorem lint_relabels_mixedLines :
    (lint allErrors mixedLines).diagnostics.map (fun d => (d.code, d.severity)) =
        [("MF-LINT-0001", .error), ("MF-LINT-0101", .error)] ∧
      ((lint allErrors mixedLines).diagnostics.filterMap (relabel? noParens)).map
          (fun d => (d.code, d.severity)) = [("MF-LINT-0101", .warning)] ∧
      (∀ r, r ≠ parensRule → noParens.level r = ({} : Options).level r) ∧
      (lint noParens mixedLines).diagnostics.filter (fun d => ruleOf d ≠ parensRule) =
        (lint {} mixedLines).diagnostics.filter fun d => ruleOf d ≠ parensRule := by
  have hlevels : ∀ r, r ≠ parensRule → noParens.level r = ({} : Options).level r := by
    intro r hr
    simp [noParens, Options.level, Ne.symm hr]
  have hremoved : (lint noParens mixedLines).diagnostics.map (fun d => (d.code, d.severity)) =
      [("MF-LINT-0101", .warning)] := by
    decide +kernel
  rw [lint_relabels.2.2.1 noParens mixedLines] at hremoved
  exact ⟨lint_allErrors_mixedLines, hremoved, hlevels,
    lint_relabels.2.2.2 _ _ parensRule mixedLines hlevels⟩

end Lint

end Softcode
