/-
**The linter accepts the balanced streams.**

The brackets and parentheses of a stream form one word, over all its lines: those of plain code and
those inside quotes count, while comments, addresses, escape pairs and lines with a marker have
none.  The linter walks along this word with a stack that it keeps in order even where it has found
something wrong, for a closing bracket takes the innermost open one off whether it fits or not.
Errors do not cancel each other all the same.  Up to the first closing bracket that does not fit,
the stack is the one that decides whether the word is matched, and from there on there is a finding
that nothing takes back.

Main definitions:

* `Softcode.Lint.bracketWord` — **the word of the brackets of a stream**;
* `Softcode.Lint.Walk.mismatches` — the closing brackets found so far that do not fit.

Main results:

* `Softcode.Lint.brackets_visits` — the linter walks along the word;
* `Softcode.Lint.Walk.visit_opening`, `Softcode.Lint.Walk.visit_fitting`,
  `Softcode.Lint.Walk.visit_stray` — what one bracket does;
* `Softcode.Lint.foldl_visit_of_unwind`, `Softcode.Lint.mismatches_of_unwind_none` — what the whole
  word does;
* `Softcode.Lint.exists_unbalanced_iff` — findings about brackets and the diagnostics for them;
* `Softcode.Lint.lint_matched_iff` — **nothing is reported exactly if the word is matched**, and
  only then a compilation succeeds.
-/

import Softcode.Proofs.Brackets
import Softcode.Proofs.Provenance

set_option autoImplicit false

namespace Softcode

namespace Lint

/-! ### The word of a stream -/

/-- The brackets that count among characters with roles: square and round ones, in plain code or
inside quotes. -/
def countedBrackets (ps : List (Char × Role)) : List Bracket :=
  ps.filterMap fun p =>
    if (p.2 = .code ∨ p.2 = .quoted) ∧ isBracket p.1 then Bracket.ofChar? p.1 else none

/-- The word of the brackets of a stream that begins in the given mode. -/
def bracketWordIn : Mode → List Line → List Bracket
  | _, [] => []
  | mode, l :: ls =>
      if isRawText l.text || isDroppedText l.text then bracketWordIn mode ls
      else
        countedBrackets (l.text.zip (scanLine mode l.text).1) ++
          bracketWordIn (scanLine mode l.text).2.nextLine ls

/-- **The word of the brackets of a stream.** -/
def bracketWord (lines : List Line) : List Bracket := bracketWordIn .code lines

/-- The brackets that the linter looks at. -/
def visitedBrackets (vs : List Visit) : List Bracket :=
  vs.filterMap fun v => Bracket.ofChar? v.char

theorem brackets_visitsFrom (l : Line) (col : Nat) (t : Text) (roles : List Role) :
    visitedBrackets (visitsFrom l col t roles) = countedBrackets (t.zip roles) := by
  fun_induction visitsFrom l col t roles with
  | case1 col c s r rs more hcounts ih =>
      rw [visitedBrackets, List.filterMap_cons, countedBrackets, List.zip_cons_cons,
        List.filterMap_cons, if_pos hcounts]
      rw [visitedBrackets, countedBrackets] at ih
      rw [ih]
  | case2 col c s r rs more hcounts ih =>
      rw [countedBrackets, List.zip_cons_cons, List.filterMap_cons, if_neg hcounts]
      exact ih
  | case3 t col roles hdone =>
      cases t with
      | nil => rfl
      | cons c t =>
          cases roles with
          | nil => rfl
          | cons r rs => exact absurd rfl (hdone c t r rs rfl)

theorem brackets_visitsIn (mode : Mode) (lines : List Line) :
    visitedBrackets (visitsIn mode lines) = bracketWordIn mode lines := by
  fun_induction visitsIn mode lines with
  | case1 => rfl
  | case2 mode l ls hmarked ih => rw [ih, bracketWordIn, if_pos hmarked]
  | case3 mode l ls hmarked roles last hscan ih =>
      rw [bracketWordIn, if_neg hmarked, hscan, ← ih, ← brackets_visitsFrom l 1]
      exact List.filterMap_append

/-- **The linter walks along the word of the stream.** -/
theorem brackets_visits (lines : List Line) :
    visitedBrackets (visits lines) = bracketWord lines :=
  brackets_visitsIn .code lines

/-- What the linter looks at is a bracket. -/
theorem isBracket_of_mem_visitsFrom {l : Line} {col : Nat} {t : Text} {roles : List Role}
    {v : Visit} (h : v ∈ visitsFrom l col t roles) : isBracket v.char = true := by
  fun_induction visitsFrom l col t roles with
  | case1 col c s r rs more hcounts ih =>
      rcases List.mem_cons.1 h with rfl | h
      · exact hcounts.2
      · exact ih h
  | case2 col c s r rs more hcounts ih => exact ih h
  | case3 => exact absurd h List.not_mem_nil

theorem isBracket_of_mem_visitsIn {mode : Mode} {lines : List Line} {v : Visit}
    (h : v ∈ visitsIn mode lines) : isBracket v.char = true := by
  fun_induction visitsIn mode lines with
  | case1 => exact absurd h List.not_mem_nil
  | case2 mode l ls hmarked ih => exact ih h
  | case3 mode l ls hmarked roles last hscan ih =>
      rcases List.mem_append.1 h with h | h
      · exact isBracket_of_mem_visitsFrom h
      · exact ih h

/-! ### One bracket -/

/-- The opening bracket of a kind. -/
def opener : BracketKind → Char
  | .square => '['
  | .round => '('
  | .curly => '\x7b'

theorem opener_injective {j k : BracketKind} (h : opener j = opener k) : j = k := by
  cases j <;> cases k <;> simp_all [opener]

/-- A bracket that the linter looks at opens, or closes a kind of which the linter knows the opening
bracket. -/
theorem exists_kind {c : Char} (h : isBracket c = true) :
    ∃ k, Bracket.ofChar? c = some (.opening k) ∧ c = opener k ∧ (c = '[' ∨ c = '(') ∨
      Bracket.ofChar? c = some (.closing k) ∧ openerFor c = opener k ∧ ¬ (c = '[' ∨ c = '(') := by
  simp only [isBracket, Bool.or_eq_true, beq_iff_eq] at h
  rcases h with ((rfl | rfl) | rfl) | rfl
  · exact ⟨.square, Or.inl (by decide)⟩
  · exact ⟨.square, Or.inr (by decide)⟩
  · exact ⟨.round, Or.inl (by decide)⟩
  · exact ⟨.round, Or.inr (by decide)⟩

/-- A closing bracket that does not fit. -/
def Finding.isMismatch : Finding → Bool
  | mismatch .. => true
  | _ => false

/-- The closing brackets found so far that do not fit. -/
def Walk.mismatches (s : Walk) : List (Finding × Location) :=
  s.findings.filter fun f => f.1.isMismatch

/-- The kinds of the brackets that are open. -/
def Walk.IsOpen (s : Walk) (kinds : List BracketKind) : Prop :=
  s.stack.map (·.1) = kinds.map opener

namespace Walk

variable {s : Walk} {v : Visit} {k : BracketKind} {kinds : List BracketKind}

/-- An opening bracket goes on the stack; a costly call is no mismatch. -/
theorem visit_opening (hv : v.char = opener k) (hopen : v.char = '[' ∨ v.char = '(')
    (hs : s.IsOpen kinds) :
    (s.visit v).IsOpen (k :: kinds) ∧ (s.visit v).mismatches = s.mismatches := by
  rw [visit, if_pos hopen]
  constructor
  · rw [IsOpen, List.map_cons, List.map_cons, hv]
    exact congrArg (opener k :: ·) hs
  · have hcostly : (costlyAt v).reverse.filter (fun f => f.1.isMismatch) = [] := by
      refine List.filter_eq_nil_iff.2 fun f hf => ?_
      obtain ⟨call, -, rfl⟩ := List.mem_map.1 (List.mem_reverse.1 hf)
      exact Bool.false_ne_true
    rw [mismatches, List.filter_append, hcostly, List.nil_append]
    rfl

/-- A closing bracket that fits takes the innermost open one off. -/
theorem visit_fitting (hv : openerFor v.char = opener k) (hclose : ¬ (v.char = '[' ∨ v.char = '('))
    (hs : s.IsOpen (k :: kinds)) :
    (s.visit v).IsOpen kinds ∧ (s.visit v).mismatches = s.mismatches := by
  obtain ⟨o, stack, hstack, ho, hrest⟩ := List.map_eq_cons_iff.1 hs
  rw [visit, if_neg hclose, hstack]
  dsimp only
  rw [if_pos (ho.trans hv.symm)]
  exact ⟨hrest, rfl⟩

/-- Any other closing bracket is a finding. -/
theorem visit_stray (hv : openerFor v.char = opener k) (hclose : ¬ (v.char = '[' ∨ v.char = '('))
    (hs : s.IsOpen kinds) (hstray : kinds.head? ≠ some k) : (s.visit v).mismatches ≠ [] := by
  rw [visit, if_neg hclose]
  split
  · exact List.cons_ne_nil _ _
  · next o stack hstack =>
      have hne : ¬ o.1 = openerFor v.char := by
        intro ho
        rw [IsOpen, hstack, List.map_cons] at hs
        obtain ⟨j, kinds, rfl, hj, -⟩ := List.map_eq_cons_iff.1 hs.symm
        have hkind : j = k := opener_injective (hj.trans (ho.trans hv))
        exact hstray (congrArg some hkind)
      rw [if_neg hne]
      exact List.cons_ne_nil _ _

/-- Findings stay. -/
theorem findings_subset_visit (s : Walk) (v : Visit) : s.findings ⊆ (s.visit v).findings := by
  unfold visit
  split
  · exact List.subset_append_right _ _
  · split
    · exact List.subset_cons_self _ _
    · split
      · exact List.Subset.refl _
      · exact List.subset_cons_self _ _

end Walk

/-! ### The whole word -/

theorem findings_subset_foldl (s : Walk) (vs : List Visit) :
    s.findings ⊆ (vs.foldl Walk.visit s).findings := by
  induction vs generalizing s with
  | nil => exact List.Subset.refl _
  | cons v vs ih => exact List.Subset.trans (s.findings_subset_visit v) (ih (s.visit v))

theorem mismatches_foldl_ne_nil {s : Walk} (h : s.mismatches ≠ []) (vs : List Visit) :
    (vs.foldl Walk.visit s).mismatches ≠ [] := by
  obtain ⟨f, hf⟩ := List.exists_mem_of_ne_nil _ h
  obtain ⟨hmem, hmismatch⟩ := List.mem_filter.1 hf
  exact List.ne_nil_of_mem (List.mem_filter.2 ⟨findings_subset_foldl s vs hmem, hmismatch⟩)

/-- **Along a word whose closing brackets fit** the stack of the linter is the stack that decides
matching, and nothing is found. -/
theorem foldl_visit_of_unwind {vs : List Visit} (hvs : ∀ v ∈ vs, isBracket v.char = true)
    {s : Walk} {kinds kinds' : List BracketKind} (hs : s.IsOpen kinds)
    (h : unwind kinds (visitedBrackets vs) = some kinds') :
    (vs.foldl Walk.visit s).IsOpen kinds' ∧
      (vs.foldl Walk.visit s).mismatches = s.mismatches := by
  induction vs generalizing s kinds with
  | nil =>
      obtain rfl : kinds = kinds' := Option.some.inj h
      exact ⟨hs, rfl⟩
  | cons v vs ih =>
      have hrest := fun w hw => hvs w (List.mem_cons_of_mem v hw)
      rw [visitedBrackets, List.filterMap_cons] at h
      rw [List.foldl_cons]
      obtain ⟨k, ⟨hk, hv, hopen⟩ | ⟨hk, hv, hclose⟩⟩ := exists_kind (hvs v List.mem_cons_self)
      · rw [hk] at h
        obtain ⟨hs', hsame⟩ := Walk.visit_opening hv hopen hs
        rw [← hsame]
        exact ih hrest hs' h
      · rw [hk] at h
        cases kinds with
        | nil => cases h
        | cons j kinds =>
            dsimp only [unwind] at h
            split at h
            · next hj =>
                subst hj
                obtain ⟨hs', hsame⟩ := Walk.visit_fitting hv hclose hs
                rw [← hsame]
                exact ih hrest hs' h
            · cases h

/-- **A closing bracket that does not fit is found**, wherever it stands, and stays. -/
theorem mismatches_of_unwind_none {vs : List Visit} (hvs : ∀ v ∈ vs, isBracket v.char = true)
    {s : Walk} {kinds : List BracketKind} (hs : s.IsOpen kinds)
    (h : unwind kinds (visitedBrackets vs) = none) :
    (vs.foldl Walk.visit s).mismatches ≠ [] := by
  induction vs generalizing s kinds with
  | nil => cases h
  | cons v vs ih =>
      have hrest := fun w hw => hvs w (List.mem_cons_of_mem v hw)
      rw [visitedBrackets, List.filterMap_cons] at h
      rw [List.foldl_cons]
      obtain ⟨k, ⟨hk, hv, hopen⟩ | ⟨hk, hv, hclose⟩⟩ := exists_kind (hvs v List.mem_cons_self)
      · rw [hk] at h
        exact ih hrest (Walk.visit_opening hv hopen hs).1 h
      · rw [hk] at h
        by_cases hhead : kinds.head? = some k
        · obtain ⟨kinds, rfl⟩ := List.head?_eq_some_iff.1 hhead
          dsimp only [unwind] at h
          rw [if_pos rfl] at h
          exact ih hrest (Walk.visit_fitting hv hclose hs).1 h
        · exact mismatches_foldl_ne_nil (Walk.visit_stray hv hclose hs hhead) vs

/-! ### Findings -/

/-- A finding about brackets that do not match. -/
def Finding.isUnbalanced : Finding → Bool
  | mismatch .. | unclosed _ => true
  | costly _ => false

/-- What a walk can find: a closing bracket that does not fit, or one of the costly calls. -/
def Walk.Plain (s : Walk) : Prop :=
  ∀ f ∈ s.findings, (∃ c o, f.1 = .mismatch c o) ∨ ∃ call ∈ costlyCalls, f.1 = .costly call

theorem Walk.Plain.visit {s : Walk} (h : s.Plain) (v : Visit) : (s.visit v).Plain := by
  have hmismatch : ∀ o, ∀ f ∈ (Finding.mismatch v.char o, v.loc) :: s.findings,
      (∃ c o, f.1 = .mismatch c o) ∨ ∃ call ∈ costlyCalls, f.1 = .costly call := by
    intro o f hf
    rcases List.mem_cons.1 hf with rfl | hf
    · exact Or.inl ⟨v.char, o, rfl⟩
    · exact h f hf
  unfold Walk.visit
  split
  · intro f hf
    rcases List.mem_append.1 hf with hf | hf
    · obtain ⟨call, hcall, rfl⟩ := List.mem_map.1 (List.mem_reverse.1 hf)
      exact Or.inr ⟨call, (List.mem_filter.1 hcall).1, rfl⟩
    · exact h f hf
  · split
    · exact hmismatch none
    · split
      · exact h
      · exact hmismatch _

theorem Walk.Plain.foldl {s : Walk} (h : s.Plain) (vs : List Visit) :
    (vs.foldl Walk.visit s).Plain := by
  induction vs generalizing s with
  | nil => exact h
  | cons v vs ih => exact ih (h.visit v)

/-- The walk behind all brackets of a stream. -/
def Walk.behind (lines : List Line) : Walk := (visits lines).foldl Walk.visit ⟨[], []⟩

theorem mem_findings_iff {lines : List Line} {f : Finding × Location} :
    f ∈ findings lines ↔ f ∈ (Walk.behind lines).findings ∨
      ∃ o ∈ (Walk.behind lines).stack, (Finding.unclosed o.1, o.2) = f := by
  rw [findings, List.mem_append, List.mem_reverse, List.mem_map]
  simp only [List.mem_reverse]
  rfl

theorem Walk.plain_behind (lines : List Line) : (behind lines).Plain :=
  Plain.foldl (fun _ hf => absurd hf List.not_mem_nil) (visits lines)

/-- **What is found in a stream**: closing brackets that do not fit, brackets that are never closed
and costly calls. -/
theorem cases_of_mem_findings {lines : List Line} {f : Finding × Location}
    (h : f ∈ findings lines) :
    (∃ c o, f.1 = .mismatch c o) ∨ (∃ c, f.1 = .unclosed c) ∨
      ∃ call ∈ costlyCalls, f.1 = .costly call := by
  rcases mem_findings_iff.1 h with h | ⟨o, -, rfl⟩
  · exact (Walk.plain_behind lines f h).imp_right Or.inr
  · exact Or.inr (Or.inl ⟨o.1, rfl⟩)

/-- **The linter finds nothing about brackets exactly if the word is matched.** -/
theorem matched_iff_findings (lines : List Line) :
    Matched (bracketWord lines) ↔ ∀ f ∈ findings lines, f.1.isUnbalanced = false := by
  have hvs : ∀ v ∈ visits lines, isBracket v.char = true := fun v => isBracket_of_mem_visitsIn
  have hstart : Walk.IsOpen ⟨[], []⟩ [] := rfl
  rw [matched_iff, ← brackets_visits]
  cases hunwind : unwind [] (visitedBrackets (visits lines)) with
  | none =>
      -- the first closing bracket that does not fit is a finding
      refine iff_of_false nofun fun h => ?_
      obtain ⟨f, hf⟩ := List.exists_mem_of_ne_nil _ (mismatches_of_unwind_none hvs hstart hunwind)
      obtain ⟨hmem, hmismatch⟩ := List.mem_filter.1 hf
      have hfine := h f (mem_findings_iff.2 (Or.inl hmem))
      cases hfinding : f.1 with
      | mismatch c o => rw [hfinding] at hfine; cases hfine
      | unclosed c => rw [hfinding] at hmismatch; cases hmismatch
      | costly call => rw [hfinding] at hmismatch; cases hmismatch
  | some kinds =>
      have hbehind : (Walk.behind lines).IsOpen kinds ∧ (Walk.behind lines).mismatches = [] :=
        foldl_visit_of_unwind hvs hstart hunwind
      obtain ⟨hopen, hnone⟩ := hbehind
      constructor
      · intro h f hf
        obtain rfl : kinds = [] := Option.some.inj h
        rcases mem_findings_iff.1 hf with hwalk | ⟨o, ho, -⟩
        · rcases Walk.plain_behind lines f hwalk with ⟨c, o, hmismatch⟩ | ⟨call, -, hcall⟩
          · have hmem : f ∈ (Walk.behind lines).mismatches :=
              List.mem_filter.2 ⟨hwalk, by rw [hmismatch]; rfl⟩
            rw [hnone] at hmem
            exact absurd hmem List.not_mem_nil
          · rw [hcall]
            rfl
        · rw [List.map_eq_nil_iff.1 hopen] at ho
          exact absurd ho List.not_mem_nil
      · intro h
        -- a bracket that is open at the end is a finding of its own
        cases kinds with
        | nil => rfl
        | cons k kinds =>
            obtain ⟨o, stack, hstack, -, -⟩ := List.map_eq_cons_iff.1 hopen
            have ho : o ∈ (Walk.behind lines).stack := hstack ▸ List.mem_cons_self
            cases h _ (mem_findings_iff.2 (Or.inr ⟨o, ho, rfl⟩))

/-! ### Diagnostics -/

/-- The codes of findings about brackets. -/
def IsUnbalancedCode (code : String) : Prop := code = "MF-LINT-0001" ∨ code = "MF-LINT-0002"

theorem mem_lint_iff {o : Options} {lines : List Line} {d : Diagnostic} :
    d ∈ (lint o lines).diagnostics ↔ ∃ f ∈ findings lines, f.1.diagnostic? o f.2 = some d := by
  rw [lint_eq_findings, Report.of, List.mem_mergeSort, List.mem_filterMap]

/-- A finding has such a code exactly if it is about brackets, and then it belongs to one of two
rules. -/
theorem isUnbalancedCode_iff {lines : List Line} {f : Finding × Location}
    (hf : f ∈ findings lines) : IsUnbalancedCode f.1.code ↔ f.1.isUnbalanced = true := by
  rcases cases_of_mem_findings hf with ⟨c, o, heq⟩ | ⟨c, heq⟩ | ⟨call, hcall, heq⟩
  · rw [heq]
    exact iff_of_true (Or.inl rfl) rfl
  · rw [heq]
    exact iff_of_true (Or.inr rfl) rfl
  · rw [heq]
    refine iff_of_false ?_ Bool.false_ne_true
    simp only [costlyCalls, List.mem_cons, List.not_mem_nil, or_false] at hcall
    rcases hcall with rfl | rfl
    · simp [IsUnbalancedCode, Finding.code]
    · simp [IsUnbalancedCode, Finding.code]

theorem rule_of_isUnbalanced {f : Finding} (h : f.isUnbalanced = true) :
    f.rule = bracketsRule ∨ f.rule = parensRule := by
  have hrule : ∀ c, ruleFor c = bracketsRule ∨ ruleFor c = parensRule := by
    intro c
    unfold ruleFor
    split
    · exact Or.inl rfl
    · exact Or.inr rfl
  cases f with
  | mismatch c o => exact hrule c
  | unclosed c => exact hrule c
  | costly call => cases h

/-- The diagnostics with such a code are those of the findings about brackets, at the level of their
rule. -/
theorem exists_finding_of_mem_lint {o : Options} {lines : List Line} {d : Diagnostic}
    (hd : d ∈ (lint o lines).diagnostics) (hcode : IsUnbalancedCode d.code) :
    ∃ f ∈ findings lines, f.1.isUnbalanced = true ∧
      (o.level f.1.rule).severity? = some d.severity := by
  obtain ⟨f, hf, hdiag⟩ := mem_lint_iff.1 hd
  obtain ⟨severity, hseverity, rfl⟩ := Option.map_eq_some_iff.1 hdiag
  exact ⟨f, hf, (isUnbalancedCode_iff hf).1 hcode, hseverity⟩

/-- **Findings about brackets are reported** if their rules are not off. -/
theorem exists_unbalanced_iff {o : Options} (hbrackets : o.level bracketsRule ≠ .off)
    (hparens : o.level parensRule ≠ .off) (lines : List Line) :
    (∃ d ∈ (lint o lines).diagnostics, IsUnbalancedCode d.code) ↔
      ∃ f ∈ findings lines, f.1.isUnbalanced = true := by
  constructor
  · rintro ⟨d, hd, hcode⟩
    obtain ⟨f, hf, hunbalanced, -⟩ := exists_finding_of_mem_lint hd hcode
    exact ⟨f, hf, hunbalanced⟩
  · rintro ⟨f, hf, hunbalanced⟩
    have hlevel : o.level f.1.rule ≠ .off := by
      rcases rule_of_isUnbalanced hunbalanced with hrule | hrule
      · rwa [hrule]
      · rwa [hrule]
    obtain ⟨severity, hseverity⟩ : ∃ severity, (o.level f.1.rule).severity? = some severity := by
      cases hcase : o.level f.1.rule with
      | error => exact ⟨_, rfl⟩
      | warning => exact ⟨_, rfl⟩
      | off => exact absurd hcase hlevel
    refine ⟨⟨f.1.code, severity, .lint, f.1.message, some f.2, f.1.notes⟩,
      mem_lint_iff.2 ⟨f, hf, ?_⟩, (isUnbalancedCode_iff hf).2 hunbalanced⟩
    rw [Finding.diagnostic?, hseverity]
    rfl

/-- No diagnostic with such a code is reported exactly if the word is matched. -/
theorem matched_iff_lint {o : Options} (hbrackets : o.level bracketsRule ≠ .off)
    (hparens : o.level parensRule ≠ .off) (lines : List Line) :
    Matched (bracketWord lines) ↔ ¬ ∃ d ∈ (lint o lines).diagnostics, IsUnbalancedCode d.code := by
  rw [matched_iff_findings, exists_unbalanced_iff hbrackets hparens]
  simp

/-! ### Compilation -/

/-- The linter finds no error in what a compilation gives. -/
theorem isError_of_compile {o : Softcode.Options} {s : Sources} {entry : Text} {out : Output}
    (h : compile o s entry = .ok out) :
    ∀ d ∈ (lint o.linter out.lines).diagnostics, d.isError = false := by
  obtain ⟨hrun, hok⟩ := compile_eq_ok_iff.1 h
  obtain ⟨lines, r, done, -, -, hlines, hreport, -⟩ := exists_of_run hrun
  intro d hd
  rw [hreport, Session.report, Report.of, ← hlines] at hok
  have hall := List.all_eq_true.1 hok d (List.mem_append_right _ hd)
  simpa using hall

/-- **The linter accepts exactly the balanced streams.**  Unless one of the two rules is off, it
reports neither a closing bracket that does not fit nor an opening one that is never closed exactly
if the word of the brackets of the stream is matched.  So if both rules report errors, as they do by
default, only commands whose brackets match come out of a compilation. -/
theorem lint_matched_iff :
    (∀ (o : Options) (lines : List Line), o.level bracketsRule ≠ .off →
      o.level parensRule ≠ .off →
      ((∀ d ∈ (lint o lines).diagnostics, d.code ≠ "MF-LINT-0001" ∧ d.code ≠ "MF-LINT-0002") ↔
        Matched (bracketWord lines))) ∧
      ∀ (o : Softcode.Options) (s : Sources) (entry : Text) (out : Output),
        o.linter.level bracketsRule = .error → o.linter.level parensRule = .error →
        compile o s entry = .ok out → Matched (bracketWord out.lines) := by
  constructor
  · intro o lines hbrackets hparens
    rw [matched_iff_lint hbrackets hparens]
    simp [IsUnbalancedCode]
  · intro o s entry out hbrackets hparens h
    have hnotOff : ∀ {rule}, o.linter.level rule = .error → o.linter.level rule ≠ .off := by
      intro rule hrule hoff
      rw [hrule] at hoff
      cases hoff
    refine (matched_iff_lint (hnotOff hbrackets) (hnotOff hparens) out.lines).2 ?_
    rintro ⟨d, hd, hcode⟩
    obtain ⟨f, -, hunbalanced, hseverity⟩ := exists_finding_of_mem_lint hd hcode
    have herror : d.severity = .error := by
      rcases rule_of_isUnbalanced hunbalanced with hrule | hrule
      · rw [hrule, hbrackets] at hseverity
        exact (Option.some.inj hseverity).symm
      · rw [hrule, hparens] at hseverity
        exact (Option.some.inj hseverity).symm
    have hfine := isError_of_compile h d hd
    rw [Diagnostic.isError, herror] at hfine
    cases hfine

/-! ### Brackets over several lines, and brackets that cross -/

/-- A bracket inside quotes that is closed three lines later; what stands in an escape pair, in a
comment or in a line with a marker does not count. -/
def spannedLines : List Line := [
  ⟨"say \"[\" \\( /* ) */".toList, "main", 1⟩, ⟨"@@ (".toList, "main", 2⟩,
  ⟨"(x) // [".toList, "main", 3⟩, ⟨"## ]".toList, "main", 4⟩, ⟨"]".toList, "main", 5⟩]

/-- As many opening as closing brackets of each kind, but not in order. -/
def crossedLines : List Line := [⟨"[(".toList, "main", 1⟩, ⟨"])".toList, "main", 2⟩]

/-- The file `/p` has two pairs of brackets. -/
def pairedEntry : Loaded := rootFile 'p' ['[', '(', 'x', ')', ']']

/-- The file by itself. -/
def pairedSources : Sources where
  tree := ⟨[], [([['p']], .file (Text.toBytes pairedEntry.text))]⟩
  fetcher := .pages []
  stdRoot := none
  ext := ['m', 'u', 's', 'h']
  maxBytes := 100

/-- What loading `/p` gives. -/
theorem resolveEntry_paired :
    Resolver.resolveEntry pairedSources ['/', 'p']
        (({} : Softcode.Options).resolver pairedSources.tree) =
      (.ok [⟨['[', '(', 'x', ')', ']'], "/p", 1⟩],
        ⟨.dir ['/'], [], ["/p"], some ['/', 'p'], false, [], []⟩) := by
  have hgood : Instruction.parse ['[', '(', 'x', ')', ']'] ≠ .badImport := by decide
  have hentry : pairedSources.findEntry (.dir ['/']) ['/', 'p'] = .ok pairedEntry := rfl
  have hstart : ({} : Softcode.Options).resolver pairedSources.tree =
      Resolver.start (.dir ['/']) false := rfl
  rw [hstart]
  unfold Resolver.resolveEntry
  rw [Resolver.start, hentry]
  exact IncludeTree.expand_eq (l := pairedEntry) (.plain rfl hgood (.nil _)) (Nat.zero_le _)
    List.not_mem_nil trivial

theorem lint_matched_iff_spanned :
    Matched (bracketWord spannedLines) ∧
      (∀ d ∈ (lint ⟨[(parensRule, .warning)]⟩ spannedLines).diagnostics,
        d.code ≠ "MF-LINT-0001" ∧ d.code ≠ "MF-LINT-0002") ∧
      (¬ ∀ d ∈ (lint ⟨[(parensRule, .warning)]⟩ crossedLines).diagnostics,
        d.code ≠ "MF-LINT-0001" ∧ d.code ≠ "MF-LINT-0002") ∧
      ∃ out, compile {} pairedSources ['/', 'p'] = .ok out ∧ Matched (bracketWord out.lines) := by
  have hmatched : Matched (bracketWord spannedLines) := by decide +kernel
  have hcrossed : ¬ Matched (bracketWord crossedLines) := by decide +kernel
  obtain ⟨hreports, hcompiles⟩ := lint_matched_iff
  refine ⟨hmatched, (hreports _ _ (by decide) (by decide)).2 hmatched,
    fun h => hcrossed ((hreports _ _ (by decide) (by decide)).1 h), ?_⟩
  obtain ⟨out, hrun⟩ := exists_run resolveEntry_paired
  obtain ⟨lines, r, done, hresolve, hstages, -, hreport, -⟩ := exists_of_run hrun
  obtain ⟨hloaded, rfl⟩ := Prod.mk.inj (resolveEntry_paired.symm.trans hresolve)
  obtain rfl := Except.ok.inj hloaded
  have hok : out.report.ok = true := by
    rw [hreport, ← hstages]
    decide +kernel
  have hcompile := compile_eq_ok_iff.2 ⟨hrun, hok⟩
  exact ⟨out, hcompile, hcompiles {} pairedSources ['/', 'p'] out rfl rfl hcompile⟩

end Lint

end Softcode
