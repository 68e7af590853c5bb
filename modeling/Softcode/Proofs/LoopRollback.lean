/-
**Loops that are left out.**

Before each round of a loop processing looks at how long the output is.  Where there is no room for
the body, a flag goes up, every loop around drops what it wrote, and the outermost one takes the flag
down again.  The flag stops all that is under way: the lines of a body, and the rounds of a loop.

The loops that overrun are described here without the flag, by following processing inwards: a loop
overruns if it comes to a round for which there is no room, or if a block overruns in one of the
bodies that it processes.  Within a loop the flag is up behind a block exactly if the block overruns;
where no loop is under way it is never up.  So a loop that overruns leaves nothing behind but
warnings, and processing goes on until all lines are used up.

Main definitions:

* `Softcode.Template.Enters` — the bodies that a block processes;
* `Softcode.Template.Overruns` — **the blocks that overrun**.

Main results:

* `Softcode.Template.blockAt_exhausted_iff` — within a loop, a block meets the bound exactly if it
  overruns;
* `Softcode.Template.steps_process` — where no loop is under way, all lines are used up;
* `Softcode.Template.Overruns.cutBack` — a loop that overruns is cut back to where it began;
* `Softcode.Template.process_drops_overruns` — **a loop that overruns is dropped, and processing goes
  on behind it**.
-/

import Softcode.Proofs.BlockSteps

set_option autoImplicit false

namespace Softcode

namespace Template

/-! ### Blocks that overrun -/

/-- The bodies that a block processes, each with the state in which it does: those of the rounds of a
loop, the body of a condition that is true, and the body of a debug section in debug mode. -/
inductive Enters (debug : Bool) (inner : List Line → Expander → Expander) :
    Opener → List Line → Expander → List Line → Expander → Prop where
  | round {var bounds : Text} {body : List Line} {e e' : Expander} {first last v : Int}
      (hbounds : HasRounds bounds first last)
      (h : Rounds inner var body first e.enterLoop v e') (hlast : v ≤ last)
      (hroom : e'.size + body.length ≤ maxLines) :
      Enters debug inner (.loop var bounds) body e (instantiate var v body) e'
  | cond {c : Text} {body : List Line} {e : Expander} (h : Expr.evalBool c = .ok true) :
      Enters debug inner (.cond c) body e body e
  | debug {body : List Line} {e : Expander} (h : debug = true) :
      Enters debug inner .debug body e body e

section Plain

variable {debug : Bool} {inner : List Line → Expander → Expander} {opener : Opener}
  (hplain : ∀ var bounds, opener ≠ .loop var bounds)

include hplain

/-- A block that is no loop processes its body as it is, if at all. -/
theorem Enters.plain {body ls : List Line} {e e' : Expander}
    (h : Enters debug inner opener body e ls e') :
    ls = body ∧ e' = e ∧ ∀ l, runBlock debug inner opener l body e = inner body e := by
  cases h with
  | round => exact absurd rfl (hplain _ _)
  | cond h => exact ⟨rfl, rfl, fun l => by simp only [runBlock, h]⟩
  | debug h => exact ⟨rfl, rfl, fun l => by simp only [runBlock, if_pos h]⟩

theorem runBlock_plain (l : Line) (body : List Line) (e : Expander) :
    (Enters debug inner opener body e body e ∧
        runBlock debug inner opener l body e = inner body e) ∨
      (runBlock debug inner opener l body e).exhausted = e.exhausted := by
  cases opener with
  | loop var bounds => exact absurd rfl (hplain var bounds)
  | cond c =>
      simp only [runBlock]
      split
      · next h => exact Or.inl ⟨.cond h, rfl⟩
      · exact Or.inr rfl
      · exact Or.inr rfl
  | debug =>
      simp only [runBlock]
      split
      · next h => exact Or.inl ⟨.debug h, rfl⟩
      · exact Or.inr rfl
  | malformed directive => exact Or.inr rfl

end Plain

/-- **The blocks that overrun**, where blocks may nest `depth` levels: a loop that comes to a round
for which there is no room, and a block that processes a body in which a block overruns. -/
inductive Overruns (debug : Bool) : Nat → Opener → List Line → Expander → Prop where
  | round {depth : Nat} {var bounds : Text} {body : List Line} {e e' : Expander}
      {first last v : Int} (hbounds : HasRounds bounds first last)
      (h : Rounds (process debug depth) var body first e.enterLoop v e') (hlast : v ≤ last)
      (hfull : maxLines < e'.size + body.length) :
      Overruns debug (depth + 1) (.loop var bounds) body e
  | within {depth : Nat} {opener : Opener} {body ls : List Line} {e e' e'' : Expander} {b : Block}
      (henters : Enters debug (process debug depth) opener body e ls e')
      (hmeets : Meets (blockAt debug depth) ls e' b e'')
      (h : Overruns debug depth b.opener b.body e'') : Overruns debug (depth + 1) opener body e

section Overruns

variable {debug : Bool} {depth : Nat}

theorem Meets.extends {ls : List Line} {e e' : Expander} {b : Block}
    (h : Meets (blockAt debug depth) ls e b e') : e.Extends e' :=
  Steps.extends (blockAt_extends debug depth) h.steps

/-- Within a loop, the blocks of a depth meet the bound exactly if they overrun. -/
def FlagsOverruns (debug : Bool) (depth : Nat) : Prop :=
  ∀ opener l body (e : Expander), e.exhausted = false → 0 < e.loops →
    ((blockAt debug depth opener l body e).exhausted = true ↔ Overruns debug depth opener body e)

theorem FlagsOverruns.process (hblock : FlagsOverruns debug depth) {ls : List Line} {e : Expander}
    (hrun : e.exhausted = false) (hloops : 0 < e.loops) :
    (process debug depth ls e).exhausted = true ↔
      ∃ b e', Meets (blockAt debug depth) ls e b e' ∧ Overruns debug depth b.opener b.body e' := by
  rw [process_eq_walk, walk_exhausted_iff hrun]
  refine exists_congr fun b => exists_congr fun e' => and_congr_right fun hmeets => ?_
  refine hblock b.opener b.first b.body e' hmeets.running ?_
  rw [hmeets.extends.loops]
  exact hloops

/-- A loop overruns exactly if it has rounds and these meet the bound. -/
theorem FlagsOverruns.loop (hblock : FlagsOverruns debug depth) (var bounds : Text)
    (body : List Line) (l : Line) {e : Expander} (hrun : e.exhausted = false) :
    Overruns debug (depth + 1) (.loop var bounds) body e ↔
      ∃ first last, HasRounds bounds first last ∧ (rounds (Template.process debug depth) var body l
        (last - first + 1).toNat first e.enterLoop).exhausted = true := by
  have hrun' : e.enterLoop.exhausted = false := hrun
  constructor
  · rintro (⟨hbounds, h, hlast, hfull⟩ | ⟨henters, hmeets, hover⟩)
    · have hle := hbounds.le
      exact ⟨_, _, hbounds, rounds_of_stuck h hrun' (Or.inl hfull) l _ (by omega)⟩
    · cases henters with
      | round hbounds h hlast hroom =>
          have hle := hbounds.le
          have hloops := (h.extends (process_extends debug depth)).loops
          have hstuck := (hblock.process (h.running hrun') (hloops ▸ Nat.succ_pos e.loops)).2
            ⟨_, _, hmeets, hover⟩
          exact ⟨_, _, hbounds, rounds_of_stuck h hrun' (Or.inr hstuck) l _ (by omega)⟩
  · rintro ⟨first, last, hbounds, hfull⟩
    have hle := hbounds.le
    rcases rounds_cases l (last - first + 1).toNat first hrun' with h | ⟨v, e', h, hlt, hstuck⟩
    · exact absurd ((h.running hrun').symm.trans hfull) Bool.false_ne_true
    · have hlast : v ≤ last := by omega
      by_cases hroom : e'.size + body.length ≤ maxLines
      · have hloops := (h.extends (process_extends debug depth)).loops
        obtain ⟨b, e'', hmeets, hover⟩ :=
          (hblock.process (h.running hrun') (hloops ▸ Nat.succ_pos e.loops)).1
            (hstuck.resolve_left (Nat.not_lt.2 hroom))
        exact .within (.round hbounds h hlast hroom) hmeets hover
      · exact .round hbounds h hlast (Nat.not_le.1 hroom)

/-- **Within a loop, a block meets the bound exactly if it overruns.** -/
theorem blockAt_exhausted_iff (debug : Bool) (depth : Nat) : FlagsOverruns debug depth := by
  induction depth with
  | zero =>
      intro opener l body e hrun _
      refine iff_of_false (fun h => ?_) (fun h => by cases h)
      exact absurd (hrun.symm.trans h) Bool.false_ne_true
  | succ depth ih =>
      intro opener l body e hrun hloops
      by_cases hloop : ∃ var bounds, opener = .loop var bounds
      · obtain ⟨var, bounds, rfl⟩ := hloop
        change (unroll (process debug depth) var bounds body l e).exhausted = true ↔ _
        rw [unroll_exhausted_iff (process_extends debug depth) var bounds body l hrun,
          ih.loop var bounds body l hrun]
        exact and_iff_right (Nat.ne_of_gt hloops)
      · have hplain : ∀ var bounds, opener ≠ .loop var bounds := fun var bounds h =>
          hloop ⟨var, bounds, h⟩
        change (runBlock debug (process debug depth) opener l body e).exhausted = true ↔ _
        constructor
        · intro h
          rcases runBlock_plain hplain l body e with ⟨henters, hbody⟩ | hquiet
          · rw [hbody] at h
            obtain ⟨b, e', hmeets, hover⟩ := (ih.process hrun hloops).1 h
            exact .within henters hmeets hover
          · exact absurd ((hquiet.trans hrun).symm.trans h) Bool.false_ne_true
        · intro h
          cases h with
          | round => exact absurd rfl (hplain _ _)
          | within henters hmeets hover =>
              obtain ⟨rfl, rfl, hbody⟩ := henters.plain hplain
              rw [hbody]
              exact (ih.process hrun hloops).2 ⟨_, _, hmeets, hover⟩

/-- Where no loop is under way, processing leaves the flag down, if blocks do. -/
theorem process_idle_of
    (hblock : ∀ opener l body {e : Expander}, e.loops = 0 → e.exhausted = false →
      (blockAt debug depth opener l body e).exhausted = false)
    (ls : List Line) {e : Expander} (hloops : e.loops = 0) (hrun : e.exhausted = false) :
    (process debug depth ls e).exhausted = false := by
  rw [process_eq_walk, Bool.eq_false_iff]
  intro hfull
  obtain ⟨b, e', hmeets, hfull'⟩ := (walk_exhausted_iff hrun).1 hfull
  have hidle := hblock b.opener b.first b.body (hmeets.extends.loops.trans hloops) hmeets.running
  exact absurd (hidle.symm.trans hfull') Bool.false_ne_true

/-- Where no loop is under way, no block leaves the flag up. -/
theorem blockAt_idle (debug : Bool) (depth : Nat) (opener : Opener) (l : Line) (body : List Line)
    {e : Expander} (hloops : e.loops = 0) (hrun : e.exhausted = false) :
    (blockAt debug depth opener l body e).exhausted = false := by
  induction depth generalizing opener l body e with
  | zero => exact hrun
  | succ depth ih =>
      by_cases hloop : ∃ var bounds, opener = .loop var bounds
      · obtain ⟨var, bounds, rfl⟩ := hloop
        change (unroll (process debug depth) var bounds body l e).exhausted = false
        rw [Bool.eq_false_iff, Ne,
          unroll_exhausted_iff (process_extends debug depth) var bounds body l hrun]
        rintro ⟨houtermost, -⟩
        exact houtermost hloops
      · change (runBlock debug (process debug depth) opener l body e).exhausted = false
        rcases runBlock_plain (fun var bounds h => hloop ⟨var, bounds, h⟩) l body e with
          ⟨-, hbody⟩ | hquiet
        · rw [hbody]
          exact process_idle_of ih body hloops hrun
        · rw [hquiet, hrun]

/-- **Where no loop is under way, all lines are used up.** -/
theorem steps_process (debug : Bool) (depth : Nat) (ls : List Line) {e : Expander}
    (hloops : e.loops = 0) (hrun : e.exhausted = false) :
    Steps (blockAt debug depth) (ls, e) ([], process debug depth ls e) := by
  have hidle := process_idle_of (blockAt_idle debug depth) ls hloops hrun
  obtain ⟨rest, hsteps, hrest⟩ := steps_walk (blockAt debug depth) ls e
  rw [← process_eq_walk] at hsteps hrest
  rwa [hrest hidle] at hsteps

/-- **A loop that overruns is cut back to where it began.**  It leaves warnings, and the flag unless
it is the outermost. -/
theorem Overruns.cutBack {var bounds : Text} {body : List Line} {e : Expander}
    (h : Overruns debug depth (.loop var bounds) body e) (hrun : e.exhausted = false) (l : Line) :
    ∃ warnings, blockAt debug depth (.loop var bounds) l body e =
      ⟨e.out, e.size, e.loops, e.loops != 0, warnings⟩ := by
  obtain ⟨d, rfl⟩ : ∃ d, depth = d + 1 := by cases h <;> exact ⟨_, rfl⟩
  obtain ⟨first, last, hbounds, hfull⟩ :=
    ((blockAt_exhausted_iff debug d).loop var bounds body l hrun).1 h
  have hleave := (rounds_extends (process_extends debug d) var body l
    (last - first + 1).toNat first e.enterLoop).leaveLoop_exhausted hfull
  exact ⟨_, (unroll_of_hasRounds hbounds (process debug d) var body l e).trans hleave⟩

/-- An outermost loop that overruns leaves nothing behind but warnings. -/
theorem Overruns.dropped {var bounds : Text} {body : List Line} {e : Expander}
    (h : Overruns debug depth (.loop var bounds) body e) (hloops : e.loops = 0)
    (hrun : e.exhausted = false) (l : Line) :
    ∃ warnings, blockAt debug depth (.loop var bounds) l body e =
      ⟨e.out, e.size, 0, false, warnings⟩ := by
  have hcut := h.cutBack hrun l
  rwa [hloops] at hcut

/-- A loop that does not overrun runs all its rounds, and what they wrote stays. -/
theorem exists_rounds_of_not_overruns {var bounds : Text} {body : List Line} {e : Expander}
    {first last : Int} (hbounds : HasRounds bounds first last) (hrun : e.exhausted = false)
    (h : ¬ Overruns debug (depth + 1) (.loop var bounds) body e) (l : Line) :
    ∃ e', Rounds (process debug depth) var body first e.enterLoop (last + 1) e' ∧
      blockAt debug (depth + 1) (.loop var bounds) l body e = { e' with loops := e.loops } := by
  have hle := hbounds.le
  have hrun' : e.enterLoop.exhausted = false := hrun
  have hcount : first + ((last - first + 1).toNat : Int) = last + 1 := by omega
  rw [(blockAt_exhausted_iff debug depth).loop var bounds body l hrun] at h
  rcases rounds_cases l (last - first + 1).toNat first hrun' with hall | ⟨v, e', hv, hlt, hstuck⟩
  · rw [hcount] at hall
    have hleave := (rounds_extends (process_extends debug depth) var body l
      (last - first + 1).toNat first e.enterLoop).leaveLoop_running (hall.running hrun')
    exact ⟨_, hall, (unroll_of_hasRounds hbounds (process debug depth) var body l e).trans hleave⟩
  · exact absurd ⟨first, last, hbounds, rounds_of_stuck hv hrun' hstuck l _ hlt⟩ h

end Overruns

/-- **A loop that overruns is dropped, and processing goes on behind it.**  Where no loop is under
way, processing uses up all lines.  A loop that it comes to and that overruns, in one of its rounds or
in any block further in, is one step to the lines behind its last one: the output is what it was, no
loop is under way and the flag is down.  A loop that does not overrun runs all its rounds, and what
they wrote stays. -/
theorem process_drops_overruns (debug : Bool) (depth : Nat) (lines : List Line) {e : Expander}
    (hloops : e.loops = 0) (hrun : e.exhausted = false) :
    Steps (blockAt debug depth) (lines, e) ([], process debug depth lines e) ∧
      ∀ (b : Block) (e₁ : Expander) (var bounds : Text),
        Meets (blockAt debug depth) lines e b e₁ → b.opener = .loop var bounds →
          (Overruns debug depth b.opener b.body e₁ →
            ∃ warnings, Step (blockAt debug depth) (b.lines, e₁)
                (b.after, ⟨e₁.out, e₁.size, 0, false, warnings⟩) ∧
              Steps (blockAt debug depth) (b.after, ⟨e₁.out, e₁.size, 0, false, warnings⟩)
                ([], process debug depth lines e)) ∧
          (∀ d first last, depth = d + 1 → HasRounds bounds first last →
            ¬ Overruns debug depth b.opener b.body e₁ →
              ∃ e₂, Rounds (process debug d) var b.body first e₁.enterLoop (last + 1) e₂ ∧
                Step (blockAt debug depth) (b.lines, e₁) (b.after, { e₂ with loops := 0 })) := by
  refine ⟨steps_process debug depth lines hloops hrun, ?_⟩
  intro b e₁ var bounds hmeets hopener
  have hloops₁ : e₁.loops = 0 := hmeets.extends.loops.trans hloops
  have hstep : Step (blockAt debug depth) (b.lines, e₁)
      (b.after, blockAt debug depth b.opener b.first b.body e₁) := .block b hmeets.running
  rw [hopener] at hstep ⊢
  constructor
  · intro hover
    obtain ⟨warnings, hdropped⟩ := hover.dropped hloops₁ hmeets.running b.first
    rw [hdropped] at hstep
    refine ⟨warnings, hstep, ?_⟩
    -- what is done behind the loop is what is done from the beginning
    have hrest := walk_of_steps (hmeets.steps.tail hstep)
    rw [← process_eq_walk] at hrest
    rw [hrest]
    exact steps_process debug depth b.after rfl rfl
  · rintro d first last rfl hbounds hnot
    obtain ⟨e₂, hrounds, hkept⟩ :=
      exists_rounds_of_not_overruns hbounds hmeets.running hnot b.first
    rw [hkept, hloops₁] at hstep
    exact ⟨e₂, hrounds, hstep⟩

/-! ### A loop in a condition in a loop -/

/-- The line that closes a block. -/
def closerLine (n : Nat) : Line := ⟨['\x7d'], "main", n⟩

/-- The bounds one and two. -/
def oneToTwo : Text := ['1', ',', ' ', '2']

/-- The first line of a loop over a variable from one to two. -/
def oneToTwoLine (var : Char) (n : Nat) : Line :=
  ⟨['#', 'f', 'o', 'r', ' ', var, ' ', 'i', 'n', ' ', 'r', 'a', 'n', 'g', 'e', '('] ++ oneToTwo ++
    [')', ' ', '\x7b'], "main", n⟩

/-- A loop over five lines. -/
def innerLoop : Block where
  first := oneToTwoLine 'j' 3
  opener := .loop ['j'] oneToTwo
  body := [4, 5, 6, 7, 8].map fun n => ⟨['a'], "main", n⟩
  closer := closerLine 9
  after := []
  parse := by decide +kernel
  proper := nofun
  split := by decide +kernel
  closes := by decide

/-- The condition around it, in the first round of the loop around that. -/
def middleBlock : Block where
  first := ⟨['#', 'i', 'f', ' ', '1', ' ', '\x7b'], "main", 2⟩
  opener := .cond ['1']
  body := innerLoop.lines
  closer := closerLine 10
  after := []
  parse := by decide +kernel
  proper := nofun
  split := by decide +kernel
  closes := by decide

/-- The loop around both, and a line behind it:

    #for i in range(1, 2) {
    #if {{i}} {
    #for j in range(1, 2) {
    a
    a
    a
    a
    a
    }
    }
    }
    z
-/
def outerLoop : Block where
  first := oneToTwoLine 'i' 1
  opener := .loop ['i'] oneToTwo
  body := ⟨['#', 'i', 'f', ' '] ++ placeholder ['i'] ++ [' ', '\x7b'], "main", 2⟩ ::
    (innerLoop.lines ++ [closerLine 10])
  closer := closerLine 11
  after := [⟨['z'], "main", 12⟩]
  parse := by decide +kernel
  proper := nofun
  split := by decide +kernel
  closes := by decide

/-- An output that has just room for the nine lines of its body. -/
def nearlyFull : Expander := ⟨List.replicate 999991 ⟨[], "main", 0⟩, 999991, 0, false, []⟩

theorem hasRounds_oneToTwo : HasRounds oneToTwo 1 2 := ⟨rfl, by decide, by decide⟩

/-- The first round of the inner loop writes five lines, and there is no room for five more. -/
theorem overruns_innerLoop :
    Overruns false 62 innerLoop.opener innerLoop.body nearlyFull.enterLoop :=
  .round hasRounds_oneToTwo (.head (by decide) rfl (.refl _ _)) (by decide) (by decide)

theorem overruns_outerLoop : Overruns false 64 outerLoop.opener outerLoop.body nearlyFull := by
  have hbody : instantiate ['i'] 1 outerLoop.body = middleBlock.lines := rfl
  have hmiddle : Meets (blockAt false 63) (instantiate ['i'] 1 outerLoop.body)
      nearlyFull.enterLoop middleBlock nearlyFull.enterLoop := by
    rw [hbody]
    exact ⟨.refl, rfl⟩
  have hinner : Meets (blockAt false 62) middleBlock.body nearlyFull.enterLoop innerLoop
      nearlyFull.enterLoop := ⟨.refl, rfl⟩
  have hround : Enters false (process false 63) outerLoop.opener outerLoop.body nearlyFull
      (instantiate ['i'] 1 outerLoop.body) nearlyFull.enterLoop :=
    .round hasRounds_oneToTwo (.refl _ _) (by decide) (by decide)
  exact .within hround hmiddle (.within (.cond rfl) hinner overruns_innerLoop)

theorem process_drops_overruns_nested :
    ∃ warnings, process false maxDepth outerLoop.lines nearlyFull =
      ⟨⟨['z'], "main", 12⟩ :: nearlyFull.out, 999992, 0, false, warnings⟩ := by
  obtain ⟨-, hloops⟩ :=
    process_drops_overruns false maxDepth outerLoop.lines (e := nearlyFull) rfl rfl
  obtain ⟨warnings, -, hsteps⟩ :=
    (hloops outerLoop nearlyFull ['i'] oneToTwo ⟨.refl, rfl⟩ rfl).1 overruns_outerLoop
  exact ⟨warnings, (walk_of_steps hsteps).symm⟩

end Template

end Softcode
