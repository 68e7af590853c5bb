/-
**How often a loop that is left out is reported.**

A loop that comes to a round for which the output has no room warns of it and is dropped, and so
are all the loops around it.  A single warning would be enough, but a loop around asks for room
again: it has the next round to begin, and the question comes before the look at the flag that
stops it.  By then the output is cut back to where the loop inside began, so the answer depends on
how much the loop around had written up to there.  If that leaves no room for its body, it warns a
second time, and the loops further out may do the same.

The loops that are under way where the output overruns are listed here from the outside in, with
what the question depends on: how long the output was when the loop began, how long its body is,
and whether it has a further round.  The warnings that an outermost loop adds are then one, and
one more for each loop of the list that has a further round and finds no room for it behind the
output as it was when the next loop began.

Main definitions:

* `Softcode.Template.Expander.tooLongs` — the number of warnings about an output that is too long;
* `Softcode.Template.Level`, `Softcode.Template.repeats` — the loops under way, and the warnings
  that are given again;
* `Softcode.Template.OverrunsBy` — **the loops under way where a block overruns**;
* `Softcode.Template.outermost` — the outermost loops that processing comes to.

Main results:

* `Softcode.Template.blockAt_quiet` — a block that does not overrun adds no warning;
* `Softcode.Template.OverrunsBy.outcome` — the warnings of a loop that overruns, and where it is cut
  back to;
* `Softcode.Template.blocksAccount` — every warning comes from an outermost loop;
* `Softcode.Template.expand_tooLongs` — **the warnings of a run, loop by loop**, and
  `Softcode.Template.expand_warns_twice` — a single loop that is left out with two warnings.
-/

import Softcode.Proofs.LoopRollback
import Softcode.Proofs.StageInvariants

set_option autoImplicit false

namespace Softcode

namespace Template

/-! ### Warnings -/

/-- Whether a finding is about an output that is too long. -/
def isTooLong (d : Diagnostic) : Bool := d.code == Fault.tooLong.code

/-- The number of warnings about an output that is too long. -/
def Expander.tooLongs (e : Expander) : Nat := e.warnings.countP isTooLong

section Warnings

variable (e : Expander) (l : Line)

@[simp] theorem tooLongs_enterLoop : e.enterLoop.tooLongs = e.tooLongs := rfl

@[simp] theorem tooLongs_leaveLoop (mark : Nat) : (e.leaveLoop mark).tooLongs = e.tooLongs := by
  rw [Expander.leaveLoop]
  split <;> rfl

theorem tooLongs_warn {f : Fault} (hf : f ≠ .tooLong) : (e.warn f l).tooLongs = e.tooLongs := by
  refine List.countP_cons_of_neg ?_
  cases f with
  | tooLong => exact absurd rfl hf
  | _ => exact Bool.false_ne_true

theorem tooLongs_warn_tooLong : (e.warn .tooLong l).tooLongs = e.tooLongs + 1 :=
  List.countP_cons_of_pos rfl

end Warnings

/-! ### What a block does -/

/-- All that a block can do: run the rounds of a loop, process its body as it is, or nothing but
perhaps warn. -/
inductive BlockRun (debug : Bool) (inner : List Line → Expander → Expander) (l : Line)
    (body : List Line) (e : Expander) : Opener → Expander → Prop where
  | loop {var bounds : Text} {first last : Int} (hbounds : HasRounds bounds first last) :
      BlockRun debug inner l body e (.loop var bounds)
        ((rounds inner var body l (last - first + 1).toNat first e.enterLoop).leaveLoop e.size)
  | body {opener : Opener} (hplain : ∀ var bounds, opener ≠ .loop var bounds)
      (henters : Enters debug inner opener body e body e) :
      BlockRun debug inner l body e opener (inner body e)
  | passed {opener : Opener} : BlockRun debug inner l body e opener e
  | warned {opener : Opener} {f : Fault} (hf : f ≠ .tooLong) :
      BlockRun debug inner l body e opener (e.warn f l)

theorem runBlock_spec (debug : Bool) (inner : List Line → Expander → Expander) (opener : Opener)
    (l : Line) (body : List Line) (e : Expander) :
    BlockRun debug inner l body e opener (runBlock debug inner opener l body e) := by
  cases opener with
  | loop var bounds =>
      rw [runBlock, unroll]
      split
      · next f hf =>
          obtain ⟨reason, rfl⟩ := exists_reason_of_evalBounds hf
          exact .warned (by simp)
      · next first last hbounds =>
          split
          · exact .passed
          · next hle =>
              split
              · exact .warned (by simp)
              · next hfew => exact .loop ⟨hbounds, Int.not_lt.1 hle, Int.not_lt.1 hfew⟩
  | cond c =>
      rw [runBlock]
      split
      · next h => exact .body (by simp) (.cond h)
      · exact .passed
      · exact .warned (by simp)
  | debug =>
      rw [runBlock]
      split
      · next h => exact .body (by simp) (.debug h)
      · exact .passed
  | malformed directive => exact .passed

/-! ### Blocks that do not overrun -/

section Quiet

variable {debug : Bool} {depth : Nat}

/-- Within a loop, the blocks of a depth that do not meet the bound do not warn of it. -/
def Quiet (debug : Bool) (depth : Nat) : Prop :=
  ∀ opener l body (e : Expander), e.exhausted = false → 0 < e.loops →
    (blockAt debug depth opener l body e).exhausted = false →
      (blockAt debug depth opener l body e).tooLongs = e.tooLongs

theorem Quiet.steps (hblock : Quiet debug depth) {x y : List Line × Expander}
    (h : Steps (blockAt debug depth) x y) (hloops : 0 < x.2.loops) (hrun : y.2.exhausted = false) :
    y.2.tooLongs = x.2.tooLongs := by
  induction h with
  | refl => rfl
  | tail hsteps hstep ih =>
      have hloops' := (Steps.extends (blockAt_extends debug depth) hsteps).loops
      cases hstep with
      | text hrun' => exact ih hrun'
      | malformed hrun' => exact (tooLongs_warn _ _ (by simp)).trans (ih hrun')
      | unclosed hrun' => exact (tooLongs_warn _ _ (by simp)).trans (ih hrun')
      | block b hrun' =>
          exact (hblock b.opener b.first b.body _ hrun' (hloops' ▸ hloops) hrun).trans (ih hrun')

theorem Quiet.process (hblock : Quiet debug depth) {ls : List Line} {e : Expander}
    (hloops : 0 < e.loops) (hrun : (process debug depth ls e).exhausted = false) :
    (Template.process debug depth ls e).tooLongs = e.tooLongs := by
  obtain ⟨rest, hsteps, -⟩ := steps_walk (blockAt debug depth) ls e
  rw [← process_eq_walk] at hsteps
  exact hblock.steps hsteps hloops hrun

theorem Quiet.rounds (hblock : Quiet debug depth) {var : Text} {body : List Line} {v v' : Int}
    {e e' : Expander} (h : Rounds (Template.process debug depth) var body v e v' e')
    (hloops : 0 < e.loops) : e'.tooLongs = e.tooLongs := by
  induction h with
  | refl => rfl
  | @head v v' e e' hroom hrun h ih =>
      have hloops' := (process_extends debug depth (instantiate var v body) e).loops
      exact (ih (hloops' ▸ hloops)).trans (hblock.process hloops hrun)

theorem Quiet.rounds_enterLoop (hblock : Quiet debug depth) {var : Text} {body : List Line}
    {v v' : Int} {e e' : Expander}
    (h : Rounds (Template.process debug depth) var body v e.enterLoop v' e') :
    e'.tooLongs = e.tooLongs := by
  have hsame := hblock.rounds h (Nat.succ_pos e.loops)
  rwa [tooLongs_enterLoop] at hsame

/-- A loop that does not overrun adds no warning. -/
theorem Quiet.loop (hblock : Quiet debug depth) {var bounds : Text} {body : List Line}
    {e : Expander} (hrun : e.exhausted = false)
    (h : ¬ Overruns debug (depth + 1) (.loop var bounds) body e) (l : Line) :
    (blockAt debug (depth + 1) (.loop var bounds) l body e).tooLongs = e.tooLongs := by
  by_cases hrounds : ∃ first last, HasRounds bounds first last
  · obtain ⟨first, last, hbounds⟩ := hrounds
    obtain ⟨e', hall, hkept⟩ := exists_rounds_of_not_overruns hbounds hrun h l
    have hquiet := hblock.rounds_enterLoop hall
    rw [hkept]
    exact hquiet
  · have hrun' := runBlock_spec debug (Template.process debug depth) (.loop var bounds) l body e
    change (runBlock debug (Template.process debug depth) (.loop var bounds) l body e).tooLongs = _
    generalize runBlock debug (Template.process debug depth) (.loop var bounds) l body e = e'
      at hrun'
    cases hrun' with
    | loop hbounds => exact absurd ⟨_, _, hbounds⟩ hrounds
    | body hplain => exact absurd rfl (hplain var bounds)
    | passed => rfl
    | warned hf => exact tooLongs_warn e l hf

/-- **Within a loop, a block that does not meet the bound does not warn of it.** -/
theorem blockAt_quiet (debug : Bool) (depth : Nat) : Quiet debug depth := by
  induction depth with
  | zero => exact fun opener l body e _ _ _ => tooLongs_warn e l (by simp)
  | succ depth ih =>
      intro opener l body e hrun hloops hend
      have hnot : ¬ Overruns debug (depth + 1) opener body e := by
        rw [← blockAt_exhausted_iff debug (depth + 1) opener l body e hrun hloops, hend]
        exact Bool.false_ne_true
      have hblock := runBlock_spec debug (process debug depth) opener l body e
      change (runBlock debug (process debug depth) opener l body e).exhausted = false at hend
      change (runBlock debug (process debug depth) opener l body e).tooLongs = _
      cases opener with
      | loop var bounds => exact ih.loop hrun hnot l
      | _ =>
          generalize runBlock debug (process debug depth) _ l body e = e' at hblock hend
          cases hblock with
          | body => exact ih.process hloops hend
          | passed => rfl
          | warned hf => exact tooLongs_warn e l hf

end Quiet

/-! ### Blocks that overrun -/

/-- A loop under way: how long the output was when it began, the number of lines of its body, and
whether it has a further round. -/
structure Level where
  mark : Nat
  width : Nat
  further : Bool

/-- The warnings that are given again by loops that are under way, from the outside in: a loop that
has a further round warns if there is no room for it behind the output as it was when the next loop
began. -/
def repeats : List Level → Nat
  | [] => 0
  | [_] => 0
  | outer :: next :: levels =>
      (if outer.further = true ∧ maxLines < next.mark + outer.width then 1 else 0) +
        repeats (next :: levels)

/-- **The loops under way where a block overruns**, from the outside in: the last one comes to a
round for which there is no room, each of the others to a body in which the next one overruns. -/
inductive OverrunsBy (debug : Bool) : Nat → Opener → List Line → Expander → List Level → Prop where
  | round {depth : Nat} {var bounds : Text} {body : List Line} {e e' : Expander}
      {first last v : Int} (hbounds : HasRounds bounds first last)
      (h : Rounds (process debug depth) var body first e.enterLoop v e') (hlast : v ≤ last)
      (hfull : maxLines < e'.size + body.length) :
      OverrunsBy debug (depth + 1) (.loop var bounds) body e [⟨e.size, body.length, v < last⟩]
  | loop {depth : Nat} {var bounds : Text} {body : List Line} {e e' e'' : Expander}
      {first last v : Int} {b : Block} {levels : List Level} (hbounds : HasRounds bounds first last)
      (h : Rounds (process debug depth) var body first e.enterLoop v e') (hlast : v ≤ last)
      (hroom : e'.size + body.length ≤ maxLines)
      (hmeets : Meets (blockAt debug depth) (instantiate var v body) e' b e'')
      (hinner : OverrunsBy debug depth b.opener b.body e'' levels) :
      OverrunsBy debug (depth + 1) (.loop var bounds) body e
        (⟨e.size, body.length, v < last⟩ :: levels)
  | plain {depth : Nat} {opener : Opener} {body : List Line} {e e' : Expander} {b : Block}
      {levels : List Level} (hplain : ∀ var bounds, opener ≠ .loop var bounds)
      (henters : Enters debug (process debug depth) opener body e body e)
      (hmeets : Meets (blockAt debug depth) body e b e')
      (hinner : OverrunsBy debug depth b.opener b.body e' levels) :
      OverrunsBy debug (depth + 1) opener body e levels

section OverrunsBy

variable {debug : Bool} {depth : Nat} {opener : Opener} {body : List Line} {e : Expander}

theorem overruns_iff_exists_levels :
    Overruns debug depth opener body e ↔ ∃ levels, OverrunsBy debug depth opener body e levels := by
  constructor
  · intro h
    induction h with
    | round hbounds h hlast hfull => exact ⟨_, .round hbounds h hlast hfull⟩
    | within henters hmeets _ ih =>
        obtain ⟨levels, hinner⟩ := ih
        cases henters with
        | round hbounds h hlast hroom => exact ⟨_, .loop hbounds h hlast hroom hmeets hinner⟩
        | cond h => exact ⟨levels, .plain (by simp) (.cond h) hmeets hinner⟩
        | debug h => exact ⟨levels, .plain (by simp) (.debug h) hmeets hinner⟩
  · rintro ⟨levels, h⟩
    induction h with
    | round hbounds h hlast hfull => exact .round hbounds h hlast hfull
    | loop hbounds h hlast hroom hmeets _ ih =>
        exact .within (.round hbounds h hlast hroom) hmeets ih
    | plain _ henters hmeets _ ih => exact .within henters hmeets ih

/-- The rounds behind those that are run to their end. -/
theorem rounds_of_rounds {inner : List Line → Expander → Expander} {var : Text} {v v' : Int}
    {e' : Expander} (h : Rounds inner var body v e v' e') (hrun : e.exhausted = false) (l : Line)
    {n m : Nat} (hn : v + n = v' + m) :
    rounds inner var body l n v e = rounds inner var body l m v' e' := by
  induction h generalizing n with
  | refl v e =>
      obtain rfl : n = m := by omega
      rfl
  | @head v v' e e' hroom hrun' h ih =>
      have hle := h.le
      obtain ⟨k, rfl⟩ : ∃ k, n = k + 1 := ⟨n - 1, by omega⟩
      rw [rounds_room l k hroom hrun]
      exact ih hrun' (by omega)

/-- A loop that is stopped warns again if it has a further round and no room for it. -/
theorem tooLongs_rounds_exhausted {inner : List Line → Expander → Expander} {var : Text}
    (hfull : e.exhausted = true) (l : Line) (m : Nat) (v : Int) :
    (rounds inner var body l m v e).tooLongs =
      e.tooLongs + if 0 < m ∧ maxLines < e.size + body.length then 1 else 0 := by
  cases m with
  | zero => simp [rounds]
  | succ m =>
      by_cases hroom : maxLines < e.size + body.length
      · rw [if_pos ⟨Nat.succ_pos m, hroom⟩]
        simp only [rounds, if_pos hroom, if_true]
        exact tooLongs_warn_tooLong e l
      · rw [if_neg (fun h => hroom h.2)]
        simp only [rounds, if_neg hroom, if_pos hfull]
        rfl

/-- The lines of a body are read up to a block that meets the bound. -/
theorem Meets.process_eq {ls : List Line} {b : Block} {e' : Expander}
    (h : Meets (blockAt debug depth) ls e b e')
    (hfull : (blockAt debug depth b.opener b.first b.body e').exhausted = true) :
    process debug depth ls e = blockAt debug depth b.opener b.first b.body e' := by
  have hwalk := walk_of_steps (h.steps.tail (.block b h.running))
  rw [walk_of_exhausted hfull] at hwalk
  rw [process_eq_walk]
  exact hwalk

theorem Overruns.size_eq {var bounds : Text}
    (h : Overruns debug depth (.loop var bounds) body e) (hrun : e.exhausted = false) (l : Line) :
    (blockAt debug depth (.loop var bounds) l body e).size = e.size := by
  obtain ⟨warnings, hcut⟩ := h.cutBack hrun l
  rw [hcut]

/-- A loop from the round for the number `v` on, when the rounds before are run to their end. -/
theorem tooLongs_loop_of_rounds {var bounds : Text} {first last v : Int} {e' : Expander}
    (hbounds : HasRounds bounds first last)
    (h : Rounds (process debug depth) var body first e.enterLoop v e') (hlast : v ≤ last)
    (hrun : e.exhausted = false) (l : Line) :
    (blockAt debug (depth + 1) (.loop var bounds) l body e).tooLongs =
      (rounds (process debug depth) var body l ((last - v).toNat + 1) v e').tooLongs := by
  have hle := h.le
  have hrun' : e.enterLoop.exhausted = false := hrun
  have hrest : rounds (process debug depth) var body l (last - first + 1).toNat first e.enterLoop =
      rounds (process debug depth) var body l ((last - v).toNat + 1) v e' :=
    rounds_of_rounds h hrun' l (by omega)
  have hblock : blockAt debug (depth + 1) (.loop var bounds) l body e = _ :=
    unroll_of_hasRounds hbounds (process debug depth) var body l e
  rw [hblock, tooLongs_leaveLoop, hrest]

/-- **The warnings of a loop that overruns**, or of a block that overruns within a loop: there is
one, and those that are given again.  The output is cut back to where the outermost of the loops
under way began. -/
theorem OverrunsBy.outcome {levels : List Level} (h : OverrunsBy debug depth opener body e levels)
    (hrun : e.exhausted = false)
    (hloops : 0 < e.loops ∨ ∃ var bounds, opener = .loop var bounds) (l : Line) :
    (blockAt debug depth opener l body e).tooLongs = e.tooLongs + 1 + repeats levels ∧
      ∃ outer inner, levels = outer :: inner ∧
        (blockAt debug depth opener l body e).size = outer.mark := by
  induction h generalizing l with
  | @round depth var bounds body e e' first last v hbounds h hlast hfull =>
      have hquiet := (blockAt_quiet debug depth).rounds_enterLoop h
      refine ⟨?_, _, _, rfl, Overruns.size_eq (.round hbounds h hlast hfull) hrun l⟩
      rw [tooLongs_loop_of_rounds hbounds h hlast hrun l, ← hquiet]
      simp only [rounds, if_pos hfull, if_true]
      exact tooLongs_warn_tooLong e' l
  | @loop depth var bounds body e e' e₁ first last v b levels hbounds h hlast hroom hmeets hinner
      ih =>
      have hover : Overruns debug depth b.opener b.body e₁ :=
        overruns_iff_exists_levels.2 ⟨levels, hinner⟩
      have hloops' : 0 < e'.loops := by
        rw [(h.extends (process_extends debug depth)).loops]
        exact Nat.succ_pos e.loops
      have hloops₁ : 0 < e₁.loops := by
        rw [hmeets.extends.loops]
        exact hloops'
      have hfull := (blockAt_exhausted_iff debug depth b.opener b.first b.body e₁ hmeets.running
        hloops₁).2 hover
      have hquiet : e₁.tooLongs = e.tooLongs :=
        ((blockAt_quiet debug depth).steps hmeets.steps hloops' hmeets.running).trans
          ((blockAt_quiet debug depth).rounds_enterLoop h)
      obtain ⟨hcount, outer, inner, rfl, hsize⟩ := ih hmeets.running (Or.inl hloops₁) b.first
      refine ⟨?_, _, _, rfl,
        Overruns.size_eq (.within (.round hbounds h hlast hroom) hmeets hover) hrun l⟩
      -- the next round, if there is one, begins where the loop inside was cut back to
      have hfurther : 0 < (last - v).toNat ↔ decide (v < last) = true := by
        rw [decide_eq_true_iff]
        omega
      rw [tooLongs_loop_of_rounds hbounds h hlast hrun l,
        rounds_room l _ hroom (h.running (show e.enterLoop.exhausted = false from hrun)),
        hmeets.process_eq hfull, tooLongs_rounds_exhausted hfull, hcount, hquiet, hsize, repeats]
      simp only [hfurther]
      omega
  | @plain depth opener body e e' b levels hplain henters hmeets hinner ih =>
      have hloops₀ : 0 < e.loops := by
        rcases hloops with hloops | ⟨var, bounds, rfl⟩
        · exact hloops
        · exact absurd rfl (hplain var bounds)
      have hloops' : 0 < e'.loops := by
        rw [hmeets.extends.loops]
        exact hloops₀
      have hfull := (blockAt_exhausted_iff debug depth b.opener b.first b.body e' hmeets.running
        hloops').2 (overruns_iff_exists_levels.2 ⟨levels, hinner⟩)
      have hquiet := (blockAt_quiet debug depth).steps hmeets.steps hloops₀ hmeets.running
      have hblock : blockAt debug (depth + 1) opener l body e =
          blockAt debug depth b.opener b.first b.body e' :=
        ((henters.plain hplain).2.2 l).trans (hmeets.process_eq hfull)
      rw [hblock, ← show e'.tooLongs = e.tooLongs from hquiet]
      exact ih hmeets.running (Or.inl hloops') b.first

theorem OverrunsBy.tooLongs {var bounds : Text} {levels : List Level}
    (h : OverrunsBy debug depth (.loop var bounds) body e levels) (hrun : e.exhausted = false)
    (l : Line) :
    (blockAt debug depth (.loop var bounds) l body e).tooLongs = e.tooLongs + 1 + repeats levels :=
  (h.outcome hrun (Or.inr ⟨var, bounds, rfl⟩) l).1

theorem tooLongs_of_not_overruns {var bounds : Text} (hrun : e.exhausted = false)
    (h : ¬ Overruns debug depth (.loop var bounds) body e) (l : Line) :
    (blockAt debug depth (.loop var bounds) l body e).tooLongs = e.tooLongs := by
  cases depth with
  | zero => exact tooLongs_warn e l (by simp)
  | succ depth => exact (blockAt_quiet debug depth).loop hrun h l

end OverrunsBy

/-! ### Outermost loops -/

/-- What is found in the blocks that processing comes to, in order. -/
def gather {α : Type} (block : Opener → Line → List Line → Expander → Expander)
    (found : Opener → Line → List Line → Expander → List α) : Nat → List Line → Expander → List α
  | _, [], _ => []
  | skip + 1, _ :: ls, e => gather block found skip ls e
  | 0, l :: ls, e =>
      if e.exhausted then []
      else
        match parseOpener? l.text with
        | none => gather block found 0 ls (e.push l)
        | some (.malformed directive) =>
            gather block found 0 ls ((e.warn (.malformed directive) l).push l)
        | some opener =>
            match splitBlock? 0 ls with
            | none => gather block found 0 ls ((e.warn .neverClosed l).push l)
            | some body =>
                found opener l body e ++
                  gather block found (body.length + 1) ls (block opener l body e)

/-- A loop that processing comes to where blocks may nest `depth` levels, with the state there. -/
structure LoopStart where
  depth : Nat
  var : Text
  bounds : Text
  line : Line
  body : List Line
  state : Expander

/-- The first line of the loop. -/
def LoopStart.opener (s : LoopStart) : Opener := .loop s.var s.bounds

/-- The outermost loops of a block: the block itself, or those that its body comes to. -/
def outermostOf (debug : Bool) : Nat → Opener → Line → List Line → Expander → List LoopStart
  | 0, _, _, _, _ => []
  | depth + 1, opener, l, body, e =>
      match opener with
      | .loop var bounds => [⟨depth + 1, var, bounds, l, body, e⟩]
      | .cond c =>
          match Expr.evalBool c with
          | .ok true => gather (blockAt debug depth) (outermostOf debug depth) 0 body e
          | _ => []
      | .debug =>
          if debug then gather (blockAt debug depth) (outermostOf debug depth) 0 body e else []
      | .malformed _ => []

/-- **The outermost loops that processing comes to**, in order. -/
def outermost (debug : Bool) (depth : Nat) (lines : List Line) (e : Expander) : List LoopStart :=
  gather (blockAt debug depth) (outermostOf debug depth) 0 lines e

/-- The number of warnings about an output that is too long that a loop adds. -/
def LoopStart.added (debug : Bool) (s : LoopStart) : Nat :=
  (blockAt debug s.depth s.opener s.line s.body s.state).tooLongs - s.state.tooLongs

/-- The number that loops add together. -/
def totalAdded (debug : Bool) : List LoopStart → Nat
  | [] => 0
  | s :: starts => s.added debug + totalAdded debug starts

theorem totalAdded_append (debug : Bool) (xs ys : List LoopStart) :
    totalAdded debug (xs ++ ys) = totalAdded debug xs + totalAdded debug ys := by
  induction xs with
  | nil => exact (Nat.zero_add _).symm
  | cons s xs ih => rw [List.cons_append, totalAdded, totalAdded, ih, Nat.add_assoc]

section Gather

variable {α : Type} {block : Opener → Line → List Line → Expander → Expander}
  {found : Opener → Line → List Line → Expander → List α}

theorem gather_skip (skip : Nat) (ls : List Line) (e : Expander) :
    gather block found skip ls e = gather block found 0 (ls.drop skip) e := by
  induction skip generalizing ls with
  | zero => rfl
  | succ skip ih =>
      cases ls with
      | nil => rfl
      | cons l ls => exact ih ls

theorem gather_block (b : Block) {e : Expander} (hrun : e.exhausted = false) :
    gather block found 0 b.lines e =
      found b.opener b.first b.body e ++
        gather block found 0 b.after (block b.opener b.first b.body e) := by
  have hdrop : (b.body ++ b.closer :: b.after).drop (b.body.length + 1) = b.after := by simp
  rw [Block.lines, gather, if_neg (by simp [hrun]), b.parse]
  cases hopener : b.opener with
  | malformed directive => exact absurd hopener (b.proper directive)
  | _ => simp only [b.split, gather_skip (b.body.length + 1), hdrop]

end Gather

/-- Loops account for the warnings between two states: they add as many as there are more, and no
loop is under way where they begin. -/
structure Accounts (debug : Bool) (starts : List LoopStart) (e e' : Expander) : Prop where
  tooLongs : e'.tooLongs = e.tooLongs + totalAdded debug starts
  outermost : ∀ s ∈ starts, s.state.loops = 0 ∧ s.state.exhausted = false

section Accounts

variable {debug : Bool} {depth : Nat} {e e₁ e₂ : Expander}

theorem accounts_nil (h : e₁.tooLongs = e.tooLongs) : Accounts debug [] e e₁ :=
  ⟨h, List.forall_mem_nil _⟩

theorem Accounts.trans {xs ys : List LoopStart} (h₁ : Accounts debug xs e e₁)
    (h₂ : Accounts debug ys e₁ e₂) : Accounts debug (xs ++ ys) e e₂ where
  tooLongs := by rw [h₂.tooLongs, h₁.tooLongs, totalAdded_append, Nat.add_assoc]
  outermost := List.forall_mem_append.2 ⟨h₁.outermost, h₂.outermost⟩

/-- The blocks of a depth are accounted for by their outermost loops, where no loop is under way. -/
def BlocksAccount (debug : Bool) (depth : Nat) : Prop :=
  ∀ opener l body (e : Expander), e.loops = 0 → e.exhausted = false →
    Accounts debug (outermostOf debug depth opener l body e) e (blockAt debug depth opener l body e)

/-- **A step** is accounted for by the outermost loops that it comes to. -/
theorem BlocksAccount.step (hblock : BlocksAccount debug depth) {x y : List Line × Expander}
    (h : Step (blockAt debug depth) x y) (hloops : x.2.loops = 0) :
    ∃ starts, outermost debug depth x.1 x.2 = starts ++ outermost debug depth y.1 y.2 ∧
      Accounts debug starts x.2 y.2 := by
  cases h with
  | text hrun h =>
      refine ⟨[], ?_, accounts_nil rfl⟩
      rw [outermost, gather, if_neg (by simp [hrun]), h]
      rfl
  | malformed hrun h =>
      refine ⟨[], ?_, accounts_nil (tooLongs_warn _ _ (by simp))⟩
      rw [outermost, gather, if_neg (by simp [hrun]), h]
      rfl
  | @unclosed l ls e opener hrun h hproper hsplit =>
      refine ⟨[], ?_, accounts_nil (tooLongs_warn _ _ (by simp))⟩
      rw [outermost, gather, if_neg (by simp [hrun]), h]
      cases opener with
      | malformed directive => exact absurd rfl (hproper directive)
      | _ => simp only [hsplit]; rfl
  | block b hrun =>
      exact ⟨_, gather_block b hrun, hblock b.opener b.first b.body _ hloops hrun⟩

/-- **Processing** is accounted for by the outermost loops that it comes to. -/
theorem BlocksAccount.process (hblock : BlocksAccount debug depth) (ls : List Line)
    (hloops : e.loops = 0) (hrun : e.exhausted = false) :
    Accounts debug (Template.outermost debug depth ls e) e (Template.process debug depth ls e) := by
  have hsteps := steps_process debug depth ls hloops hrun
  generalize Template.process debug depth ls e = e' at hsteps
  generalize hx : (ls, e) = x at hsteps
  have haccounts : x.2.loops = 0 →
      Accounts debug (Template.outermost debug depth x.1 x.2) x.2 e' := by
    clear hx
    induction hsteps using Relation.ReflTransGen.head_induction_on with
    | refl => exact fun _ => accounts_nil rfl
    | head hstep _ ih =>
        intro hloops
        obtain ⟨starts, hstarts, haccount⟩ := hblock.step hstep hloops
        have hkept := (Steps.extends (blockAt_extends debug depth) (.single hstep)).loops
        rw [hstarts]
        exact haccount.trans (ih (hkept.trans hloops))
  subst hx
  exact haccounts hloops

/-- **Every block is accounted for by its outermost loops**, where no loop is under way. -/
theorem blocksAccount (debug : Bool) (depth : Nat) : BlocksAccount debug depth := by
  induction depth with
  | zero => exact fun opener l body e _ _ => accounts_nil (tooLongs_warn e l (by simp))
  | succ depth ih =>
      intro opener l body e hloops hrun
      cases opener with
      | loop var bounds =>
          have hle : e.tooLongs ≤
              (blockAt debug (depth + 1) (.loop var bounds) l body e).tooLongs := by
            by_cases hover : Overruns debug (depth + 1) (.loop var bounds) body e
            · obtain ⟨levels, hlevels⟩ := overruns_iff_exists_levels.1 hover
              rw [hlevels.tooLongs hrun l]
              omega
            · exact Nat.le_of_eq (tooLongs_of_not_overruns hrun hover l).symm
          exact ⟨(Nat.add_sub_of_le hle).symm, List.forall_mem_singleton.2 ⟨hloops, hrun⟩⟩
      | cond c =>
          simp only [blockAt, runBlock, outermostOf]
          cases Expr.evalBool c with
          | error err => exact accounts_nil (tooLongs_warn e l (by simp))
          | ok value =>
              cases value with
              | false => exact accounts_nil rfl
              | true => exact ih.process body hloops hrun
      | debug =>
          simp only [blockAt, runBlock, outermostOf]
          split
          · exact ih.process body hloops hrun
          · exact accounts_nil rfl
      | malformed directive => exact accounts_nil rfl

end Accounts

theorem LoopStart.added_of_overrunsBy {debug : Bool} {s : LoopStart} {levels : List Level}
    (h : OverrunsBy debug s.depth s.opener s.body s.state levels)
    (hrun : s.state.exhausted = false) : s.added debug = 1 + repeats levels := by
  have hcount := OverrunsBy.tooLongs h hrun s.line
  rw [added, opener, hcount]
  omega

theorem isTooLong_of_mem_checks {lines : List Line} :
    ∀ d ∈ (SelfCheck.expand lines).diagnostics, ¬ isTooLong d = true := by
  have hchecks : (SelfCheck.expandFrom 0 lines).Holds (fun _ => True) (¬ isTooLong · = true) :=
    SelfCheck.holds_expandFrom (fun _ _ _ _ _ _ _ => trivial) (fun _ _ => Bool.false_ne_true) 0
      fun _ _ => trivial
  exact hchecks.diagnostics

/-- All warnings of a run about an output that is too long come from outermost loops. -/
theorem countP_isTooLong_expand (debug : Bool) (lines : List Line) :
    (expand debug lines).diagnostics.countP isTooLong =
      totalAdded debug (outermost debug maxDepth (SelfCheck.expand lines).lines .start) := by
  have hchecks : (SelfCheck.expand lines).diagnostics.countP isTooLong = 0 :=
    List.countP_eq_zero.2 isTooLong_of_mem_checks
  have haccounts := (blocksAccount debug maxDepth).process (SelfCheck.expand lines).lines
    (e := .start) rfl rfl
  rw [expand, expandBlocks, List.countP_append, hchecks, List.countP_reverse, Nat.zero_add]
  exact haccounts.tooLongs.trans (Nat.zero_add _)

/-- **The warnings of a run about an output that is too long, loop by loop.**  There are as many
as the outermost loops add that processing comes to.  One that does not overrun adds none.  One
that overruns is left out and adds one, and one more for each of the loops under way there that has
a further round and no room for it behind the output as it was when the next of them began. -/
theorem expand_tooLongs (debug : Bool) (lines : List Line) :
    (expand debug lines).diagnostics.countP isTooLong =
        totalAdded debug (outermost debug maxDepth (SelfCheck.expand lines).lines .start) ∧
      ∀ s ∈ outermost debug maxDepth (SelfCheck.expand lines).lines .start,
        s.state.loops = 0 ∧
          (¬ Overruns debug s.depth s.opener s.body s.state → s.added debug = 0) ∧
          (Overruns debug s.depth s.opener s.body s.state →
            (blockAt debug s.depth s.opener s.line s.body s.state).out = s.state.out ∧
              ∃ levels, OverrunsBy debug s.depth s.opener s.body s.state levels) ∧
          ∀ levels, OverrunsBy debug s.depth s.opener s.body s.state levels →
            s.added debug = 1 + repeats levels := by
  refine ⟨countP_isTooLong_expand debug lines, fun s hs => ?_⟩
  have haccounts := (blocksAccount debug maxDepth).process (SelfCheck.expand lines).lines
    (e := .start) rfl rfl
  obtain ⟨hloops, hrun⟩ := haccounts.outermost s hs
  refine ⟨hloops, fun hnot => ?_, fun hover => ?_, fun levels hlevels => ?_⟩
  · exact Nat.sub_eq_zero_of_le (Nat.le_of_eq (tooLongs_of_not_overruns hrun hnot s.line))
  · obtain ⟨warnings, hcut⟩ := hover.cutBack hrun s.line
    refine ⟨?_, overruns_iff_exists_levels.1 hover⟩
    rw [LoopStart.opener, hcut]
  · exact LoopStart.added_of_overrunsBy hlevels hrun

/-! ### A loop that is left out with two warnings -/

/-- A loop whose bodies are written as they are. -/
theorem rounds_fill {inner : List Line → Expander → Expander} {var : Text} {body : List Line}
    (hfill : ∀ v e, e.exhausted = false →
      (inner (instantiate var v body) e).exhausted = false ∧
        (inner (instantiate var v body) e).size = e.size + body.length)
    (l : Line) (n : Nat) (v : Int) {e : Expander} (hrun : e.exhausted = false)
    (hroom : e.size + n * body.length ≤ maxLines) :
    (rounds inner var body l n v e).exhausted = false ∧
      (rounds inner var body l n v e).size = e.size + n * body.length := by
  induction n generalizing v e with
  | zero => exact ⟨hrun, by rw [rounds, Nat.zero_mul, Nat.add_zero]⟩
  | succ n ih =>
      obtain ⟨hrun', hsize⟩ := hfill v e hrun
      rw [Nat.succ_mul] at hroom ⊢
      rw [rounds_room l n (by omega) hrun]
      obtain ⟨hend, hsize'⟩ := ih (v + 1) hrun' (by rw [hsize]; omega)
      exact ⟨hend, by rw [hsize', hsize]; omega⟩

theorem blockAt_fill {debug : Bool} {depth : Nat} {var bounds : Text} {body : List Line}
    {first last : Int} (hbounds : HasRounds bounds first last)
    (hfill : ∀ v e, e.exhausted = false →
      (process debug depth (instantiate var v body) e).exhausted = false ∧
        (process debug depth (instantiate var v body) e).size = e.size + body.length)
    {e : Expander} (hrun : e.exhausted = false)
    (hroom : e.size + (last - first + 1).toNat * body.length ≤ maxLines) (l : Line) :
    (blockAt debug (depth + 1) (.loop var bounds) l body e).exhausted = false ∧
      (blockAt debug (depth + 1) (.loop var bounds) l body e).size =
        e.size + (last - first + 1).toNat * body.length := by
  have hrun' : e.enterLoop.exhausted = false := hrun
  obtain ⟨hend, hsize⟩ := rounds_fill hfill l (last - first + 1).toNat first hrun' hroom
  have hleave := (rounds_extends (process_extends debug depth) var body l
    (last - first + 1).toNat first e.enterLoop).leaveLoop_running hend
  have hblock : blockAt debug (depth + 1) (.loop var bounds) l body e = _ :=
    (unroll_of_hasRounds hbounds (process debug depth) var body l e).trans hleave
  rw [hblock]
  exact ⟨hend, hsize⟩

/-- A loop with a single round of a single line. -/
def shortLoop : Block where
  first := ⟨"#for b in range(1, 1) \x7b".toList, "main", 14⟩
  opener := .loop ['b'] ['1', ',', ' ', '1']
  body := [⟨['x'], "main", 15⟩]
  closer := closerLine 16
  after := []
  parse := by decide +kernel
  proper := nofun
  split := by decide +kernel
  closes := by decide

/-- A loop that fills the output, in front of it. -/
def longLoop : Block where
  first := ⟨"#for a in range(1, 100000) \x7b".toList, "main", 2⟩
  opener := .loop ['a'] ['1', ',', ' ', '1', '0', '0', '0', '0', '0']
  body := [3, 4, 5, 6, 7, 8, 9, 10, 11, 12].map fun n => ⟨['x'], "main", n⟩
  closer := closerLine 13
  after := shortLoop.lines
  parse := by decide +kernel
  proper := nofun
  split := by decide +kernel
  closes := by decide

/-- The two in a loop with two rounds:

    #for i in range(1, 2) {
    #for a in range(1, 100000) {
    x
    x
    x
    x
    x
    x
    x
    x
    x
    x
    }
    #for b in range(1, 1) {
    x
    }
    }
-/
def twiceLoop : Block where
  first := oneToTwoLine 'i' 1
  opener := .loop ['i'] oneToTwo
  body := longLoop.lines
  closer := closerLine 17
  after := []
  parse := outerLoop.parse
  proper := outerLoop.proper
  split := by decide +kernel
  closes := by decide

theorem process_longLoop (v : Int) {e : Expander} (hrun : e.exhausted = false) :
    (process false 62 (instantiate ['a'] v longLoop.body) e).exhausted = false ∧
      (process false 62 (instantiate ['a'] v longLoop.body) e).size =
        e.size + longLoop.body.length := by
  obtain ⟨out, size, loops, exhausted, warnings⟩ := e
  obtain rfl : exhausted = false := hrun
  exact ⟨rfl, rfl⟩

/-- The long loop leaves no room for another line. -/
theorem blockAt_longLoop {e : Expander} (hrun : e.exhausted = false) (hsize : e.size = 0) :
    (blockAt false 63 longLoop.opener longLoop.first longLoop.body e).exhausted = false ∧
      (blockAt false 63 longLoop.opener longLoop.first longLoop.body e).size = maxLines := by
  have hbounds : HasRounds ['1', ',', ' ', '1', '0', '0', '0', '0', '0'] 1 100000 :=
    ⟨rfl, by decide, by decide⟩
  obtain ⟨hend, hlength⟩ := blockAt_fill hbounds (fun v _ => process_longLoop v) hrun
    (by rw [hsize]; decide) longLoop.first
  rw [hsize] at hlength
  exact ⟨hend, hlength⟩

theorem overrunsBy_shortLoop {e : Expander} (hsize : e.size = maxLines) :
    OverrunsBy false 63 shortLoop.opener shortLoop.body e [⟨maxLines, 1, false⟩] := by
  have hbounds : HasRounds ['1', ',', ' ', '1'] 1 1 := ⟨rfl, by decide, by decide⟩
  have hfull : maxLines < e.enterLoop.size + shortLoop.body.length :=
    Nat.lt_add_one_of_le (Nat.le_of_eq hsize.symm)
  rw [← hsize]
  exact .round hbounds (.refl 1 _) (by decide) hfull

theorem overrunsBy_twiceLoop :
    OverrunsBy false maxDepth twiceLoop.opener twiceLoop.body .start
      [⟨0, 15, true⟩, ⟨maxLines, 1, false⟩] := by
  obtain ⟨hrun, hsize⟩ := blockAt_longLoop (e := Expander.start.enterLoop) rfl rfl
  have hbody : instantiate ['i'] 1 twiceLoop.body = longLoop.lines := rfl
  have hmeets : Meets (blockAt false 63) (instantiate ['i'] 1 twiceLoop.body)
      Expander.start.enterLoop shortLoop
      (blockAt false 63 longLoop.opener longLoop.first longLoop.body Expander.start.enterLoop) := by
    rw [hbody]
    exact ⟨.single (.block longLoop rfl), hrun⟩
  exact .loop hasRounds_oneToTwo (.refl 1 _) (by decide) (by decide) hmeets
    (overrunsBy_shortLoop hsize)

/-- There is one outermost loop, it overruns, and there are two warnings: the short loop has no
room in the first round, and there is none either for the second round behind what the long loop
wrote. -/
theorem expand_warns_twice :
    (∃ s, outermost false maxDepth (SelfCheck.expand twiceLoop.lines).lines .start = [s] ∧
        Overruns false s.depth s.opener s.body s.state) ∧
      (expand false twiceLoop.lines).diagnostics.countP isTooLong = 2 := by
  let start : LoopStart := ⟨maxDepth, ['i'], oneToTwo, twiceLoop.first, twiceLoop.body, .start⟩
  have hchecks : (SelfCheck.expand twiceLoop.lines).lines = twiceLoop.lines := rfl
  have hstarts : outermost false maxDepth twiceLoop.lines .start = [start] :=
    gather_block twiceLoop rfl
  have hadded : start.added false = 2 :=
    LoopStart.added_of_overrunsBy (s := start) overrunsBy_twiceLoop rfl
  rw [countP_isTooLong_expand, hchecks, hstarts, totalAdded, hadded]
  exact ⟨⟨start, rfl, overruns_iff_exists_levels.2 ⟨_, overrunsBy_twiceLoop⟩⟩, rfl⟩

end Template

end Softcode
