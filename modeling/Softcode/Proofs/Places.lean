/-
**No stage invents a place.**

Every line of a stream has a place: the source it comes from and its number there.  The stages
rewrite texts, leave lines out, repeat them, join them and cut them, but each line that they make
stands at the place of a line they were given, and so does each finding that has a place.  What
holds of all places before a stage therefore holds of all places behind it.  This module says so for
one stage after the other, for any property of places, and then for all stages together.

Main definitions:

* `Softcode.Placed`, `Softcode.Located` — lines and findings whose places have a property;
* `Softcode.Staged.Within`, `Softcode.Macro.Extraction.Within`, `Softcode.Session.Within` — the same
  for what the stages give.

Main results:

* `Softcode.Template.within_expand`, `Softcode.Macro.within_extract` — blocks and definitions;
* `Softcode.compress_within`, `Softcode.Lint.located_lint` — commands, and the linter;
* `Softcode.Session.Within.stages`, `Softcode.Session.Within.report` — **all stages, and the
  report**.
-/

import Softcode.Proofs.Findings
import Softcode.Proofs.StageInvariants

set_option autoImplicit false

namespace Softcode

/-! ### Places with a property -/

/-- Lines whose places have a property. -/
def Placed (P : String → Nat → Prop) (ls : List Line) : Prop := ∀ l ∈ ls, P l.file l.number

/-- Findings whose places, if they have one, have a property. -/
def Located (P : String → Nat → Prop) (ds : List Diagnostic) : Prop :=
  ∀ d ∈ ds, ∀ loc, d.loc = some loc → P loc.file loc.line

variable {P : String → Nat → Prop}

@[simp] theorem placed_nil : Placed P [] := by simp [Placed]

@[simp] theorem placed_cons {l : Line} {ls : List Line} :
    Placed P (l :: ls) ↔ P l.file l.number ∧ Placed P ls := by
  simp [Placed]

@[simp] theorem placed_append {ls ms : List Line} :
    Placed P (ls ++ ms) ↔ Placed P ls ∧ Placed P ms := by
  simp only [Placed, List.forall_mem_append]

@[simp] theorem located_nil : Located P [] := by simp [Located]

@[simp] theorem located_append {ds es : List Diagnostic} :
    Located P (ds ++ es) ↔ Located P ds ∧ Located P es := by
  simp only [Located, List.forall_mem_append]

/-- A finding at the place of a line. -/
theorem located_of_line {d : Diagnostic} {l : Line} (hl : P l.file l.number)
    (hd : d.loc = some l.location) : ∀ loc, d.loc = some loc → P loc.file loc.line := by
  intro loc hloc
  rw [hd] at hloc
  rw [← Option.some.inj hloc]
  exact hl

/-- New texts for lines change no place. -/
theorem Placed.map_withText {ls : List Line} (h : Placed P ls) (f : Line → Text) :
    Placed P (ls.map fun l => l.withText (f l)) :=
  List.forall_mem_map.2 h

/-- Several texts at the place of one line. -/
theorem placed_texts {l : Line} (h : P l.file l.number) (ts : List Text) :
    Placed P (ts.map l.withText) :=
  List.forall_mem_map.2 fun _ _ => h

/-- Lines and findings whose places have a property. -/
abbrev Staged.Within (P : String → Nat → Prop) (r : Staged) : Prop :=
  r.Holds (fun l => P l.file l.number) fun d => ∀ loc, d.loc = some loc → P loc.file loc.line

/-! ### Constants, aliases, checks and blocks -/

theorem Constant.placed_resolve {ls : List Line} (h : Placed P ls) : Placed P (resolve ls) := by
  have hother : Placed P (otherLines ls) := fun l hl => h l (List.mem_filter.1 hl).1
  exact hother.map_withText _

theorem Namespace.placed_apply {ls : List Line} (h : Placed P ls) (label : Text) :
    Placed P (apply ls label) :=
  h.map_withText _

theorem SelfCheck.within_expand {ls : List Line} (h : Placed P ls) : (expand ls).Within P :=
  holds_expandFrom (fun _ _ _ _ hl _ _ => hl) (fun _ hl => located_of_line hl rfl) 0 h

theorem Template.within_expand (debug : Bool) {ls : List Line} (h : Placed P ls) :
    (expand debug ls).Within P := by
  have hchecked := SelfCheck.within_expand h
  have hblocks : (expandBlocks debug (SelfCheck.expand ls).lines).Within P :=
    holds_expandBlocks (fun _ _ _ hl => hl) (fun _ _ hl => located_of_line hl rfl) debug
      hchecked.lines
  exact ⟨hblocks.lines, located_append.2 ⟨hchecked.diagnostics, hblocks.diagnostics⟩⟩

/-! ### Definitions -/

/-- What is left of a stream, and what was found, has places with a property. -/
abbrev Macro.Extraction.Within (P : String → Nat → Prop) (x : Extraction) : Prop :=
  x.Holds (fun l => P l.file l.number) fun d => ∀ loc, d.loc = some loc → P loc.file loc.line

/-- **Definitions are taken out, or put back at their places.** -/
theorem Macro.within_extract {ls : List Line} (h : Placed P ls) : (extract ls).Within P := by
  refine holds_extract (fun _ _ hl _ _ _ => hl) (fun r _ hl => ?_) h
  cases r with
  | invalidPattern trigger message => exact located_of_line hl rfl
  | neverClosed trigger => exact located_of_line hl rfl

/-! ### Commands -/

theorem placed_stripComments {ls : List Line} (h : Placed P ls) : Placed P (stripComments ls) :=
  forall_stripComments (fun _ _ hl => hl) h

theorem placed_joinLines {ls : List Line} (h : Placed P ls) : Placed P (joinLines ls) :=
  forall_joinFrom (fun _ _ hp _ => hp) (fun _ hl => hl) placed_nil h

theorem Macro.placed_applyAll (macros : List Macro) {ls : List Line} (h : Placed P ls) :
    Placed P (applyAll macros ls) := by
  refine List.forall_mem_flatMap.2 fun l hl => ?_
  have hself : Placed P [l] := placed_cons.2 ⟨h l hl, placed_nil⟩
  unfold applyLine
  split
  · exact hself
  · dsimp only
    split
    · exact hself
    · exact placed_texts (h l hl) _

theorem splitCommand_within (limit : Nat) {l : Line} (hl : P l.file l.number) :
    (splitCommand limit l).Within P := by
  have hself : Placed P [l] := placed_cons.2 ⟨hl, placed_nil⟩
  unfold splitCommand
  split
  · exact Staged.holds_quiet hself
  · split
    · exact ⟨hself, List.forall_mem_singleton.2 (located_of_line hl rfl)⟩
    · exact ⟨placed_texts hl _, List.forall_mem_map.2 fun _ _ => located_of_line hl rfl⟩

/-- **The commands of a stream.** -/
theorem compress_within (macros : List Macro) (limit : Nat) {ls : List Line} (h : Placed P ls) :
    (compress macros limit ls).Within P :=
  Staged.holds_each (fun _ hl => splitCommand_within limit hl)
    (Macro.placed_applyAll macros (placed_joinLines (placed_stripComments h)))

/-! ### The linter -/

namespace Lint

/-- What the linter looks at has places with a property. -/
def Visited (P : String → Nat → Prop) (vs : List Visit) : Prop :=
  ∀ v ∈ vs, P v.loc.file v.loc.line

theorem visited_visitsFrom {l : Line} (hl : P l.file l.number) (col : Nat) (t : Text)
    (roles : List Role) : Visited P (visitsFrom l col t roles) := by
  fun_induction visitsFrom l col t roles with
  | case1 col c s r rs more hbracket ih =>
      intro v hv
      rcases List.mem_cons.1 hv with rfl | hv
      · exact hl
      · exact ih v hv
  | case2 col c s r rs more hbracket ih => exact ih
  | case3 => intro v hv; exact absurd hv List.not_mem_nil

theorem visited_visitsIn (mode : Mode) {ls : List Line} (h : Placed P ls) :
    Visited P (visitsIn mode ls) := by
  fun_induction visitsIn mode ls with
  | case1 => intro v hv; exact absurd hv List.not_mem_nil
  | case2 mode l ls hmarked ih => exact ih (placed_cons.1 h).2
  | case3 mode l ls hmarked roles last hscan ih =>
      obtain ⟨hl, hls⟩ := placed_cons.1 h
      intro v hv
      rcases List.mem_append.1 hv with hv | hv
      · exact visited_visitsFrom hl 1 l.text roles v hv
      · exact ih hls v hv

/-- Open brackets and findings so far have places with a property. -/
structure Walk.Within (P : String → Nat → Prop) (s : Walk) : Prop where
  stack : ∀ o ∈ s.stack, P o.2.file o.2.line
  findings : ∀ f ∈ s.findings, P f.2.file f.2.line

theorem Walk.Within.visit {s : Walk} (h : s.Within P) {v : Visit}
    (hv : P v.loc.file v.loc.line) : (s.visit v).Within P := by
  have hfinding : ∀ f : Finding, ∀ g ∈ (f, v.loc) :: s.findings, P g.2.file g.2.line := by
    intro f g hg
    rcases List.mem_cons.1 hg with rfl | hg
    · exact hv
    · exact h.findings g hg
  unfold Walk.visit
  split
  · constructor
    · intro o ho
      rcases List.mem_cons.1 ho with rfl | ho
      · exact hv
      · exact h.stack o ho
    · intro f hf
      rcases List.mem_append.1 hf with hf | hf
      · obtain ⟨call, -, rfl⟩ := List.mem_map.1 (List.mem_reverse.1 hf)
        exact hv
      · exact h.findings f hf
  · split
    · exact ⟨nofun, hfinding _⟩
    · next o stack hstack =>
        have hrest : ∀ o ∈ stack, P o.2.file o.2.line := fun o' ho' =>
          h.stack o' (hstack ▸ List.mem_cons_of_mem o ho')
        split
        · exact ⟨hrest, h.findings⟩
        · exact ⟨hrest, hfinding _⟩

theorem Walk.Within.foldl {s : Walk} (h : s.Within P) {vs : List Visit} (hvs : Visited P vs) :
    (vs.foldl Walk.visit s).Within P := by
  induction vs generalizing s with
  | nil => exact h
  | cons v vs ih =>
      exact ih (h.visit (hvs v List.mem_cons_self)) fun v' hv' =>
        hvs v' (List.mem_cons_of_mem v hv')

theorem findings_within {ls : List Line} (h : Placed P ls) :
    ∀ f ∈ findings ls, P f.2.file f.2.line := by
  have hstart : Walk.Within P ⟨[], []⟩ := ⟨nofun, nofun⟩
  have hdone := hstart.foldl (visited_visitsIn .code h)
  intro f hf
  rcases List.mem_append.1 hf with hf | hf
  · exact hdone.findings f (List.mem_reverse.1 hf)
  · obtain ⟨o, ho, rfl⟩ := List.mem_map.1 hf
    exact hdone.stack o (List.mem_reverse.1 ho)

/-- **What the linter finds is in the stream.** -/
theorem located_lint (o : Options) {ls : List Line} (h : Placed P ls) :
    Located P (lint o ls).diagnostics := by
  intro d hd loc hloc
  rw [lint_eq_findings] at hd
  obtain ⟨f, hf, hdiag⟩ := List.mem_filterMap.1 (List.mem_mergeSort.1 hd)
  obtain ⟨severity, -, rfl⟩ := Option.map_eq_some_iff.1 hdiag
  obtain rfl := Option.some.inj hloc
  exact findings_within h f hf

end Lint

/-! ### All stages -/

namespace Session

/-- The stream and the findings so far have places with a property. -/
structure Within (P : String → Nat → Prop) (s : Session) : Prop where
  lines : Placed P s.lines
  diagnostics : Located P s.diagnostics

/-- What the options begin with has no places. -/
theorem located_start (o : Options) : Located P (start o).diagnostics := by
  have hconfigure : ∀ (defines : List (Text × Text)) (s : Session), Located P s.diagnostics →
      Located P (defines.foldl configure s).diagnostics := by
    intro defines
    induction defines with
    | nil => exact fun s hs => hs
    | cons d defines ih =>
        intro s hs
        refine ih _ ?_
        unfold configure
        split
        · exact hs
        · refine located_append.2 ⟨hs, fun d' hd' loc hloc => ?_⟩
          rw [List.mem_singleton.1 hd'] at hloc
          cases hloc
  exact hconfigure o.defines _ located_nil

theorem Within.take {s : Session} (h : s.Within P) {r : Staged} (hr : r.Within P) :
    (s.take r).Within P :=
  ⟨hr.lines, located_append.2 ⟨h.diagnostics, hr.diagnostics⟩⟩

/-- **All stages behind the loading of sources.** -/
theorem Within.stages {s : Session} (h : s.Within P) (limit : Nat) : (s.stages limit).Within P := by
  have hconstants : s.resolveConstants.Within P := ⟨Constant.placed_resolve h.lines, h.diagnostics⟩
  have htemplates : s.resolveConstants.expandTemplates.Within P :=
    hconstants.take (Template.within_expand _ hconstants.lines)
  have hextract := Macro.within_extract htemplates.lines
  have hmacros : s.resolveConstants.expandTemplates.extractMacros.Within P :=
    ⟨hextract.lines, located_append.2 ⟨htemplates.diagnostics, hextract.diagnostics⟩⟩
  exact hmacros.take (compress_within _ limit hmacros.lines)

/-- **The report.** -/
theorem Within.report {s : Session} (h : s.Within P) (o : Lint.Options) :
    Located P (s.report o).diagnostics := by
  intro d hd
  have hall : Located P (s.diagnostics ++ (Lint.lint o s.lines).diagnostics) :=
    located_append.2 ⟨h.diagnostics, Lint.located_lint o h.lines⟩
  exact hall d (List.mem_mergeSort.1 hd)

end Session

end Softcode
