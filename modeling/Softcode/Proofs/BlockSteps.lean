/-
**The steps of processing.**

Processing reads lines from left to right, and what it does with them is described here as steps that
use them up, a line or a block at a time, and as rounds that a loop runs.  A step says what happens,
not when processing stops; it stops where the bound on the output is met in a block, and else where
the lines are used up.

Whatever is processed, lines are only added to the output: a loop that is left out is cut back to
where it began, and not further.

Main definitions:

* `Softcode.Template.Expander.Extends` — states that come from another by writing;
* `Softcode.Template.Block` — a block that lines begin with;
* `Softcode.Template.Step`, `Softcode.Template.Meets` — **the steps of processing**, and the blocks
  that they come to;
* `Softcode.Template.blockAt` — what a block does at a depth;
* `Softcode.Template.Rounds`, `Softcode.Template.HasRounds` — the rounds of a loop that are run to
  their end, and the bounds of a loop that has rounds.

Main results:

* `Softcode.Template.Expander.Extends.leaveLoop_exhausted` — a loop that has met the bound is cut
  back to where it began;
* `Softcode.Template.steps_walk`, `Softcode.Template.walk_exhausted_iff` — processing takes steps
  until the lines are used up, or a block meets the bound;
* `Softcode.Template.process_extends` — **processing only adds to the output**;
* `Softcode.Template.rounds_cases`, `Softcode.Template.unroll_exhausted_iff` — the rounds of a loop are
  all run to their end, or one is stuck; when a loop meets the bound.
-/

import Mathlib.Logic.Relation
import Softcode.Proofs.BlockExpansion

set_option autoImplicit false

namespace Softcode

namespace Template

/-! ### Output that grows -/

/-- A state comes from another by writing, with the same loops under way. -/
structure Expander.Extends (e e' : Expander) : Prop where
  out : ∃ ls, e'.out = ls ++ e.out ∧ e'.size = e.size + ls.length
  loops : e'.loops = e.loops

namespace Expander

variable {e e₁ e₂ : Expander}

theorem extends_refl (e : Expander) : e.Extends e := ⟨⟨[], rfl, rfl⟩, rfl⟩

theorem extends_push (e : Expander) (l : Line) : e.Extends (e.push l) := ⟨⟨[l], rfl, rfl⟩, rfl⟩

theorem extends_warn (e : Expander) (f : Fault) (l : Line) : e.Extends (e.warn f l) :=
  ⟨⟨[], rfl, rfl⟩, rfl⟩

theorem Extends.trans (h₁ : e.Extends e₁) (h₂ : e₁.Extends e₂) : e.Extends e₂ := by
  obtain ⟨⟨ls₁, hout₁, hsize₁⟩, hloops₁⟩ := h₁
  obtain ⟨⟨ls₂, hout₂, hsize₂⟩, hloops₂⟩ := h₂
  refine ⟨⟨ls₂ ++ ls₁, ?_, ?_⟩, hloops₂.trans hloops₁⟩
  · rw [hout₂, hout₁, List.append_assoc]
  · rw [hsize₂, hsize₁, List.length_append]
    omega

/-- **The output is cut back to what it was.** -/
theorem Extends.truncate (h : e.Extends e₁) :
    e₁.truncate e.size = { e₁ with out := e.out, size := e.size } := by
  obtain ⟨⟨ls, hout, hsize⟩, -⟩ := h
  have hlength : e₁.size - e.size = ls.length := by omega
  have hmin : min e.size e₁.size = e.size := by omega
  rw [Expander.truncate, hlength, hmin, hout, List.drop_left]

/-- A loop that has met the bound leaves its warnings, and the flag unless it is the outermost. -/
theorem Extends.leaveLoop_exhausted (h : e.enterLoop.Extends e₁) (hfull : e₁.exhausted = true) :
    e₁.leaveLoop e.size = { e with exhausted := e.loops != 0, warnings := e₁.warnings } := by
  have hloops : e₁.loops - 1 = e.loops := by rw [h.loops]; rfl
  have hcut : e₁.truncate e.size = { e₁ with out := e.out, size := e.size } := h.truncate
  rw [Expander.leaveLoop, if_pos hfull]
  simp only [Expander.truncate, Expander.mk.injEq] at hcut ⊢
  exact ⟨hcut.1, hcut.2.1, hloops, by rw [hloops], trivial⟩

/-- A loop that has not met the bound leaves what it wrote. -/
theorem Extends.leaveLoop_running (h : e.enterLoop.Extends e₁) (hrun : e₁.exhausted = false) :
    e₁.leaveLoop e.size = { e₁ with loops := e.loops } := by
  have hloops : e₁.loops - 1 = e.loops := by rw [h.loops]; rfl
  rw [Expander.leaveLoop, if_neg (by simp [hrun]), hloops]

/-- Behind a loop the flag is up if it was up in the loop and this is not the outermost one. -/
theorem Extends.exhausted_leaveLoop (h : e.enterLoop.Extends e₁) :
    (e₁.leaveLoop e.size).exhausted = (e₁.exhausted && e.loops != 0) := by
  cases hfull : e₁.exhausted with
  | true => rw [h.leaveLoop_exhausted hfull, Bool.true_and]
  | false =>
      rw [h.leaveLoop_running hfull, Bool.false_and]
      exact hfull

theorem Extends.leaveLoop (h : e.enterLoop.Extends e₁) : e.Extends (e₁.leaveLoop e.size) := by
  cases hfull : e₁.exhausted with
  | true =>
      rw [h.leaveLoop_exhausted hfull]
      exact ⟨⟨[], rfl, rfl⟩, rfl⟩
  | false =>
      rw [h.leaveLoop_running hfull]
      exact ⟨h.out, rfl⟩

end Expander

section Extends

variable {inner : List Line → Expander → Expander}
  (hinner : ∀ body e, Expander.Extends e (inner body e))

include hinner

theorem rounds_extends (var : Text) (body : List Line) (l : Line) (n : Nat) (v : Int)
    (e : Expander) : e.Extends (rounds inner var body l n v e) := by
  induction n generalizing v e with
  | zero => exact e.extends_refl
  | succ n ih =>
      rw [rounds]
      by_cases hroom : maxLines < e.size + body.length
      · simp only [if_pos hroom, if_true]
        exact ⟨⟨[], rfl, rfl⟩, rfl⟩
      · simp only [if_neg hroom]
        split
        · exact e.extends_refl
        · exact (hinner _ e).trans (ih (v + 1) _)

theorem runBlock_extends (debug : Bool) (opener : Opener) (l : Line) (body : List Line)
    (e : Expander) : e.Extends (runBlock debug inner opener l body e) := by
  cases opener with
  | loop var bounds =>
      simp only [runBlock, unroll]
      split
      · exact e.extends_warn _ l
      · split
        · exact e.extends_refl
        · split
          · exact e.extends_warn _ l
          · exact (rounds_extends hinner var body l _ _ e.enterLoop).leaveLoop
  | cond c =>
      simp only [runBlock]
      split
      · exact hinner body e
      · exact e.extends_refl
      · exact e.extends_warn _ l
  | debug =>
      simp only [runBlock]
      split
      · exact hinner body e
      · exact e.extends_refl
  | malformed directive => exact e.extends_refl

end Extends

/-! ### Steps -/

/-- A block that lines begin with: its first line, its body, the line that closes it, and the lines
behind. -/
structure Block where
  first : Line
  opener : Opener
  body : List Line
  closer : Line
  after : List Line
  parse : parseOpener? first.text = some opener
  proper : ∀ directive, opener ≠ .malformed directive
  split : splitBlock? 0 (body ++ closer :: after) = some body
  closes : isCloser closer.text = true

/-- The lines that begin with the block. -/
def Block.lines (b : Block) : List Line := b.first :: (b.body ++ b.closer :: b.after)

/-- A block ends with the line that closes it. -/
theorem exists_closer {depth : Nat} {ls body : List Line} (h : splitBlock? depth ls = some body) :
    ∃ closer after, ls = body ++ closer :: after ∧ isCloser closer.text = true := by
  fun_induction splitBlock? depth ls generalizing body with
  | case1 => cases h
  | case2 depth l ls hopener ih | case5 depth l ls hopener hcloser ih =>
      obtain ⟨more, hmore, rfl⟩ := Option.map_eq_some_iff.1 h
      obtain ⟨closer, after, rfl, hcloses⟩ := ih hmore
      exact ⟨closer, after, rfl, hcloses⟩
  | case3 l ls hopener hcloser =>
      obtain rfl := Option.some.inj h
      exact ⟨l, ls, rfl, hcloser⟩
  | case4 l ls hopener hcloser d ih =>
      obtain ⟨more, hmore, rfl⟩ := Option.map_eq_some_iff.1 h
      obtain ⟨closer, after, rfl, hcloses⟩ := ih hmore
      exact ⟨closer, after, rfl, hcloses⟩

/-- **The steps of processing**, from the lines that are left and a state to those behind.  A step
uses up a line or a block, and there is none where the bound has been met. -/
inductive Step (block : Opener → Line → List Line → Expander → Expander) :
    List Line × Expander → List Line × Expander → Prop where
  | text {l : Line} {ls : List Line} {e : Expander} (hrun : e.exhausted = false)
      (h : parseOpener? l.text = none) : Step block (l :: ls, e) (ls, e.push l)
  | malformed {l : Line} {ls : List Line} {e : Expander} {directive : String}
      (hrun : e.exhausted = false) (h : parseOpener? l.text = some (.malformed directive)) :
      Step block (l :: ls, e) (ls, (e.warn (.malformed directive) l).push l)
  | unclosed {l : Line} {ls : List Line} {e : Expander} {opener : Opener}
      (hrun : e.exhausted = false) (h : parseOpener? l.text = some opener)
      (hproper : ∀ directive, opener ≠ .malformed directive) (hsplit : splitBlock? 0 ls = none) :
      Step block (l :: ls, e) (ls, (e.warn .neverClosed l).push l)
  | block (b : Block) {e : Expander} (hrun : e.exhausted = false) :
      Step block (b.lines, e) (b.after, block b.opener b.first b.body e)

/-- Any number of steps. -/
def Steps (block : Opener → Line → List Line → Expander → Expander) :
    List Line × Expander → List Line × Expander → Prop :=
  Relation.ReflTransGen (Step block)

/-- The blocks that steps come to, each with the state there, in which it is processed. -/
structure Meets (block : Opener → Line → List Line → Expander → Expander) (ls : List Line)
    (e : Expander) (b : Block) (e' : Expander) : Prop where
  steps : Steps block (ls, e) (b.lines, e')
  running : e'.exhausted = false

section Steps

variable {block : Opener → Line → List Line → Expander → Expander} {ls : List Line}
  {e : Expander}

theorem walk_of_exhausted (h : e.exhausted = true) : walk block 0 ls e = e := by
  cases ls with
  | nil => rfl
  | cons l ls => rw [walk, if_pos h]

/-- Processing goes on behind a step. -/
theorem walk_of_step {x y : List Line × Expander} (h : Step block x y) :
    walk block 0 x.1 x.2 = walk block 0 y.1 y.2 := by
  cases h with
  | text hrun h => rw [walk, if_neg (by simp [hrun]), h]
  | malformed hrun h => rw [walk, if_neg (by simp [hrun]), h]
  | @unclosed l ls e opener hrun h hproper hsplit =>
      rw [walk, if_neg (by simp [hrun]), h]
      cases opener with
      | malformed directive => exact absurd rfl (hproper directive)
      | _ => simp only [hsplit]
  | @block b e hrun =>
      have hdrop : (b.body ++ b.closer :: b.after).drop (b.body.length + 1) = b.after := by simp
      rw [Block.lines, walk, if_neg (by simp [hrun]), b.parse]
      cases hopener : b.opener with
      | malformed directive => exact absurd hopener (b.proper directive)
      | _ => simp only [b.split, walk_skip (b.body.length + 1), hdrop]

theorem walk_of_steps {x y : List Line × Expander} (h : Steps block x y) :
    walk block 0 x.1 x.2 = walk block 0 y.1 y.2 := by
  induction h with
  | refl => rfl
  | tail _ hstep ih => exact ih.trans (walk_of_step hstep)

/-- There is a step from every line, unless the bound has been met. -/
theorem exists_step (block : Opener → Line → List Line → Expander → Expander) (l : Line)
    (ls : List Line) (hrun : e.exhausted = false) :
    ∃ ls' e', Step block (l :: ls, e) (ls', e') ∧ ls'.length ≤ ls.length := by
  cases hparse : parseOpener? l.text with
  | none => exact ⟨ls, _, .text hrun hparse, Nat.le_refl _⟩
  | some opener =>
      by_cases hproper : ∀ directive, opener ≠ .malformed directive
      · cases hsplit : splitBlock? 0 ls with
        | none => exact ⟨ls, _, .unclosed hrun hparse hproper hsplit, Nat.le_refl _⟩
        | some body =>
            obtain ⟨closer, after, rfl, hcloses⟩ := exists_closer hsplit
            let b : Block := ⟨l, opener, body, closer, after, hparse, hproper, hsplit, hcloses⟩
            refine ⟨after, _, .block b hrun, ?_⟩
            rw [List.length_append, List.length_cons]
            omega
      · obtain ⟨directive, hmalformed⟩ := not_forall.1 hproper
        obtain rfl := not_not.1 hmalformed
        exact ⟨ls, _, .malformed hrun hparse, Nat.le_refl _⟩

/-- **Processing takes steps** until the bound is met or the lines are used up. -/
theorem steps_walk (block : Opener → Line → List Line → Expander → Expander) (ls : List Line)
    (e : Expander) :
    ∃ rest, Steps block (ls, e) (rest, walk block 0 ls e) ∧
      ((walk block 0 ls e).exhausted = false → rest = []) := by
  induction hn : ls.length using Nat.strong_induction_on generalizing ls e with
  | _ n ih =>
      cases hrun : e.exhausted with
      | true =>
          rw [walk_of_exhausted hrun]
          exact ⟨ls, .refl, fun h => absurd (hrun.symm.trans h) (by decide)⟩
      | false =>
          cases ls with
          | nil => exact ⟨[], .refl, fun _ => rfl⟩
          | cons l ls =>
              obtain ⟨ls', e', hstep, hlength⟩ := exists_step block l ls hrun
              have hlt : ls'.length < n := by
                rw [← hn, List.length_cons]
                omega
              obtain ⟨rest, hsteps, hrest⟩ := ih ls'.length hlt ls' e' rfl
              rw [walk_of_step hstep]
              exact ⟨rest, .head hstep hsteps, hrest⟩

/-- Steps write, if blocks do. -/
theorem Steps.extends (hblock : ∀ opener l body e, Expander.Extends e (block opener l body e))
    {x y : List Line × Expander} (h : Steps block x y) : x.2.Extends y.2 := by
  induction h with
  | refl => exact x.2.extends_refl
  | tail _ hstep ih =>
      refine ih.trans ?_
      cases hstep with
      | text => exact Expander.extends_push _ _
      | malformed => exact (Expander.extends_warn _ _ _).trans (Expander.extends_push _ _)
      | unclosed => exact (Expander.extends_warn _ _ _).trans (Expander.extends_push _ _)
      | block => exact hblock _ _ _ _

theorem walk_extends (hblock : ∀ opener l body e, Expander.Extends e (block opener l body e))
    (ls : List Line) (e : Expander) : e.Extends (walk block 0 ls e) := by
  obtain ⟨rest, hsteps, -⟩ := steps_walk block ls e
  exact hsteps.extends hblock

/-- **The bound is met in a block** that processing comes to. -/
theorem walk_exhausted_iff (hrun : e.exhausted = false) :
    (walk block 0 ls e).exhausted = true ↔
      ∃ b e', Meets block ls e b e' ∧ (block b.opener b.first b.body e').exhausted = true := by
  constructor
  · intro hfull
    obtain ⟨rest, hsteps, -⟩ := steps_walk block ls e
    generalize walk block 0 ls e = e' at hfull hsteps
    -- only the last step can have raised the flag, and only if it was a block
    cases hsteps with
    | refl => exact absurd (hrun.symm.trans hfull) Bool.false_ne_true
    | tail hsteps hstep =>
        cases hstep with
        | text hrun' | malformed hrun' | unclosed hrun' =>
            exact absurd (hrun'.symm.trans hfull) Bool.false_ne_true
        | block b hrun' => exact ⟨b, _, ⟨hsteps, hrun'⟩, hfull⟩
  · rintro ⟨b, e', ⟨hsteps, hrun'⟩, hfull⟩
    have hwalk := walk_of_steps (hsteps.tail (.block b hrun'))
    rw [walk_of_exhausted hfull] at hwalk
    exact (congrArg Expander.exhausted hwalk).trans hfull

end Steps

/-! ### Processing at any depth -/

/-- What a block does where blocks may nest `depth` levels. -/
def blockAt (debug : Bool) : Nat → Opener → Line → List Line → Expander → Expander
  | 0 => fun _ l _ e => e.warn .tooDeep l
  | depth + 1 => runBlock debug (process debug depth)

theorem process_eq_walk (debug : Bool) (depth : Nat) :
    process debug depth = walk (blockAt debug depth) 0 := by
  cases depth <;> rfl

theorem blockAt_extends (debug : Bool) (depth : Nat) (opener : Opener) (l : Line)
    (body : List Line) (e : Expander) : e.Extends (blockAt debug depth opener l body e) := by
  induction depth generalizing opener l body e with
  | zero => exact e.extends_warn .tooDeep l
  | succ depth ih =>
      refine runBlock_extends (fun body e => ?_) debug opener l body e
      rw [process_eq_walk]
      exact walk_extends ih body e

/-- **Processing only adds to the output.** -/
theorem process_extends (debug : Bool) (depth : Nat) (ls : List Line) (e : Expander) :
    e.Extends (process debug depth ls e) := by
  rw [process_eq_walk]
  exact walk_extends (blockAt_extends debug depth) ls e

/-! ### Rounds -/

/-- The rounds of a loop that are run to their end: each begins with room for the body, and does not
meet the bound.  They lead from a number and a state to those behind. -/
inductive Rounds (inner : List Line → Expander → Expander) (var : Text) (body : List Line) :
    Int → Expander → Int → Expander → Prop where
  | refl (v : Int) (e : Expander) : Rounds inner var body v e v e
  | head {v v' : Int} {e e' : Expander} (hroom : e.size + body.length ≤ maxLines)
      (hrun : (inner (instantiate var v body) e).exhausted = false)
      (h : Rounds inner var body (v + 1) (inner (instantiate var v body) e) v' e') :
      Rounds inner var body v e v' e'

section Rounds

variable {inner : List Line → Expander → Expander} {var : Text} {body : List Line} {v v' : Int}
  {e e' : Expander}

theorem Rounds.le (h : Rounds inner var body v e v' e') : v ≤ v' := by
  induction h with
  | refl => exact Int.le_refl _
  | head _ _ _ ih => omega

theorem Rounds.running (h : Rounds inner var body v e v' e') (hrun : e.exhausted = false) :
    e'.exhausted = false := by
  induction h with
  | refl => exact hrun
  | head _ hrun' _ ih => exact ih hrun'

theorem Rounds.extends (hinner : ∀ body e, Expander.Extends e (inner body e))
    (h : Rounds inner var body v e v' e') : e.Extends e' := by
  induction h with
  | refl => exact Expander.extends_refl _
  | head _ _ _ ih => exact (hinner _ _).trans ih

/-- A round that is not run to its end: it has no room for the body, or meets the bound in it. -/
def Stuck (inner : List Line → Expander → Expander) (var : Text) (body : List Line) (v : Int)
    (e : Expander) : Prop :=
  maxLines < e.size + body.length ∨ (inner (instantiate var v body) e).exhausted = true

theorem rounds_full (l : Line) (n : Nat) (hfull : maxLines < e.size + body.length) :
    (rounds inner var body l (n + 1) v e).exhausted = true := by
  simp [rounds, hfull]

theorem rounds_room (l : Line) (n : Nat) (hroom : e.size + body.length ≤ maxLines)
    (hrun : e.exhausted = false) : rounds inner var body l (n + 1) v e =
      rounds inner var body l n (v + 1) (inner (instantiate var v body) e) := by
  simp [rounds, Nat.not_lt.2 hroom, hrun]

theorem rounds_exhausted (l : Line) (n : Nat) (hfull : e.exhausted = true) :
    (rounds inner var body l n v e).exhausted = true := by
  cases n with
  | zero => exact hfull
  | succ n =>
      rw [rounds]
      split <;> simp [hfull]

/-- A loop is stopped by a round that is stuck, if it comes to it. -/
theorem rounds_of_stuck (h : Rounds inner var body v e v' e') (hrun : e.exhausted = false)
    (hstuck : Stuck inner var body v' e') (l : Line) (n : Nat) (hn : v' < v + n) :
    (rounds inner var body l n v e).exhausted = true := by
  induction h generalizing n with
  | refl v e =>
      obtain ⟨m, rfl⟩ : ∃ m, n = m + 1 := ⟨n - 1, by omega⟩
      by_cases hroom : e.size + body.length ≤ maxLines
      · rw [rounds_room l m hroom hrun]
        exact rounds_exhausted l m (hstuck.resolve_left (Nat.not_lt.2 hroom))
      · exact rounds_full l m (Nat.not_le.1 hroom)
  | @head v v' e e' hroom hrun' h ih =>
      have hle := h.le
      obtain ⟨m, rfl⟩ : ∃ m, n = m + 1 := ⟨n - 1, by omega⟩
      rw [rounds_room l m hroom hrun]
      exact ih hrun' hstuck m (by omega)

/-- **The rounds of a loop** are all run to their end, or one of them is stuck. -/
theorem rounds_cases (l : Line) (n : Nat) (v : Int) (hrun : e.exhausted = false) :
    Rounds inner var body v e (v + n) (rounds inner var body l n v e) ∨
      ∃ v' e', Rounds inner var body v e v' e' ∧ v' < v + n ∧ Stuck inner var body v' e' := by
  induction n generalizing v e with
  | zero =>
      have hnone : Rounds inner var body v e v e := .refl v e
      left
      simpa [rounds] using hnone
  | succ n ih =>
      by_cases hstuck : Stuck inner var body v e
      · exact Or.inr ⟨v, e, .refl v e, by omega, hstuck⟩
      · obtain ⟨hroom, hrun'⟩ := not_or.1 hstuck
        have hroom' := Nat.not_lt.1 hroom
        have hrun'' := Bool.eq_false_iff.2 hrun'
        rw [rounds_room l n hroom' hrun]
        rcases ih (v + 1) hrun'' with h | ⟨v', e', h, hlt, hstuck'⟩
        · left
          have hall := Rounds.head hroom' hrun'' h
          rwa [show v + 1 + (n : Int) = v + ((n + 1 : Nat) : Int) by omega] at hall
        · exact Or.inr ⟨v', e', .head hroom' hrun'' h, by omega, hstuck'⟩

end Rounds

/-- What is wrong with bounds is said of them. -/
theorem exists_reason_of_evalBounds {bounds : Text} {f : Fault} (h : evalBounds bounds = .error f) :
    ∃ reason, f = .bounds bounds reason := by
  unfold evalBounds at h
  split at h
  · exact ⟨_, (Except.error.inj h).symm⟩
  · split at h
    · exact ⟨_, (Except.error.inj h).symm⟩
    · split at h
      · exact ⟨_, (Except.error.inj h).symm⟩
      · cases h

/-- The bounds of a loop that has rounds, and not too many. -/
structure HasRounds (bounds : Text) (first last : Int) : Prop where
  eval : evalBounds bounds = .ok (first, last)
  le : first ≤ last
  few : last - first + 1 ≤ maxRounds

theorem HasRounds.unique {bounds : Text} {first last first' last' : Int}
    (h : HasRounds bounds first last) (h' : HasRounds bounds first' last') :
    first = first' ∧ last = last' :=
  Prod.mk.inj (Except.ok.inj (h.eval.symm.trans h'.eval))

theorem unroll_of_hasRounds {bounds : Text} {first last : Int} (h : HasRounds bounds first last)
    (inner : List Line → Expander → Expander) (var : Text) (body : List Line) (l : Line)
    (e : Expander) : unroll inner var bounds body l e =
      (rounds inner var body l (last - first + 1).toNat first e.enterLoop).leaveLoop e.size := by
  rw [unroll, h.eval]
  simp only [if_neg (Int.not_lt.2 h.le), if_neg (Int.not_lt.2 h.few)]

/-- A loop without rounds does not meet the bound. -/
theorem unroll_of_not_hasRounds {bounds : Text}
    (h : ∀ first last, ¬ HasRounds bounds first last) (inner : List Line → Expander → Expander)
    (var : Text) (body : List Line) (l : Line) (e : Expander) :
    (unroll inner var bounds body l e).exhausted = e.exhausted := by
  rw [unroll]
  split
  · rfl
  · next first last hbounds =>
      split
      · rfl
      · next hle =>
          have hmany : maxRounds < last - first + 1 := by
            by_contra hfew
            exact h first last ⟨hbounds, Int.not_lt.1 hle, Int.not_lt.1 hfew⟩
          rw [if_pos hmany]
          rfl

/-- **A loop meets the bound** if it has rounds that do, and it is not the outermost one. -/
theorem unroll_exhausted_iff {inner : List Line → Expander → Expander}
    (hinner : ∀ body e, Expander.Extends e (inner body e)) (var bounds : Text) (body : List Line)
    (l : Line) {e : Expander} (hrun : e.exhausted = false) :
    (unroll inner var bounds body l e).exhausted = true ↔
      e.loops ≠ 0 ∧ ∃ first last, HasRounds bounds first last ∧
        (rounds inner var body l (last - first + 1).toNat first e.enterLoop).exhausted = true := by
  by_cases hrounds : ∃ first last, HasRounds bounds first last
  · obtain ⟨first, last, hbounds⟩ := hrounds
    have hleave := (rounds_extends hinner var body l (last - first + 1).toNat first
      e.enterLoop).exhausted_leaveLoop
    rw [unroll_of_hasRounds hbounds, hleave, Bool.and_eq_true, bne_iff_ne]
    constructor
    · rintro ⟨h, hloops⟩
      exact ⟨hloops, first, last, hbounds, h⟩
    · rintro ⟨hloops, first', last', hbounds', h⟩
      obtain ⟨rfl, rfl⟩ := hbounds.unique hbounds'
      exact ⟨h, hloops⟩
  · rw [unroll_of_not_hasRounds fun first last h => hrounds ⟨first, last, h⟩, hrun]
    refine iff_of_false Bool.false_ne_true ?_
    rintro ⟨-, first, last, hbounds, -⟩
    exact hrounds ⟨first, last, hbounds⟩

end Template

end Softcode
