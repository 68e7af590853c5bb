/-
**Processing as a machine.**

Processing is defined by recursion, so what it does between its beginning and its end is not an
object of its own.  Here it becomes one: a machine with a stack of what is under way — lines that
are left, and loops with rounds to go — and the state of processing.  Each step looks at the top
of the stack only, and does one thing: it writes a line, passes over a block, enters a body,
begins a round, or leaves a loop.  The machine stops with an empty stack and the state that
processing computes, so the states that it runs through are those that processing runs through.

Main definitions:

* `Softcode.Template.Frame`, `Softcode.Template.Config` — what is under way, and the
  configurations of the machine;
* `Softcode.Template.Frame.work`, `Softcode.Template.Config.step` — **the steps of the machine**;
* `Softcode.Template.Work` — all that a step can do, case by case;
* `Softcode.Template.Reaches` — configurations that are reached from another.

Main results:

* `Softcode.Template.Frame.work_spec` — the cases of a step are complete;
* `Softcode.Template.Config.iterate_induction` — what every step keeps holds in the whole run;
* `Softcode.Template.reaches_process` — **the machine stops with what processing computes**.
-/

import Mathlib.Logic.Function.Iterate
import Softcode.Proofs.BlockSteps

set_option autoImplicit false

namespace Softcode

namespace Template

/-! ### The machine -/

/-- What is under way: lines that are left, where blocks may nest `depth` levels; and a loop with
`left` rounds to go, the next one for the number `value`, that began when the output had `mark`
lines. -/
inductive Frame where
  | lines (depth : Nat) (rest : List Line)
  | loop (depth : Nat) (var : Text) (body : List Line) (opener : Line) (left : Nat) (value : Int)
      (mark : Nat)

/-- What is under way, the innermost first, and the state of processing. -/
structure Config where
  frames : List Frame
  state : Expander

/-- What is under way once a block has begun whose body may nest `depth` levels, and the state
then. -/
def openBlock (debug : Bool) (depth : Nat) (opener : Opener) (l : Line) (body : List Line)
    (e : Expander) : List Frame × Expander :=
  match opener with
  | .loop var bounds =>
      match evalBounds bounds with
      | .error f => ([], e.warn f l)
      | .ok (first, last) =>
          if last < first then ([], e)
          else if maxRounds < last - first + 1 then ([], e.warn (.tooManyRounds first last) l)
          else ([.loop depth var body l (last - first + 1).toNat first e.size], e.enterLoop)
  | .cond c =>
      match Expr.evalBool c with
      | .ok true => ([.lines depth body], e)
      | .ok false => ([], e)
      | .error err => ([], e.warn (.condition c err) l)
  | .debug => if debug then ([.lines depth body], e) else ([], e)
  | .malformed _ => ([], e)

/-- The same where blocks may nest `depth` levels, which is nowhere below the last one. -/
def openAt (debug : Bool) : Nat → Opener → Line → List Line → Expander → List Frame × Expander
  | 0, _, l, _, e => ([], e.warn .tooDeep l)
  | depth + 1, opener, l, body, e => openBlock debug depth opener l body e

/-- A line read, with the lines behind it. -/
def readLine (debug : Bool) (depth : Nat) (l : Line) (ls : List Line) (e : Expander) :
    List Frame × Expander :=
  match parseOpener? l.text with
  | none => ([.lines depth ls], e.push l)
  | some (.malformed directive) => ([.lines depth ls], (e.warn (.malformed directive) l).push l)
  | some opener =>
      match splitBlock? 0 ls with
      | none => ([.lines depth ls], (e.warn .neverClosed l).push l)
      | some body =>
          let (fs, e') := openAt debug depth opener l body e
          (fs ++ [.lines depth (ls.drop (body.length + 1))], e')

/-- What becomes of the top of the stack, and of the state. -/
def Frame.work (debug : Bool) : Frame → Expander → List Frame × Expander
  | .lines _ [], e => ([], e)
  | .lines depth (l :: ls), e => if e.exhausted then ([], e) else readLine debug depth l ls e
  | .loop _ _ _ _ 0 _ mark, e => ([], e.leaveLoop mark)
  | .loop depth var body opener (n + 1) value mark, e =>
      if maxLines < e.size + body.length then
        ([], { e.warn .tooLong opener with exhausted := true }.leaveLoop mark)
      else if e.exhausted then ([], e.leaveLoop mark)
      else
        ([.lines depth (instantiate var value body),
          .loop depth var body opener n (value + 1) mark], e)

/-- **A step of the machine**; with an empty stack it has stopped. -/
def Config.step (debug : Bool) (c : Config) : Config :=
  match c.frames with
  | [] => c
  | f :: fs =>
      let (gs, e) := f.work debug c.state
      ⟨gs ++ fs, e⟩

/-! ### What a step can do -/

/-- **All that a step can do** to the top of the stack and to the state. -/
inductive Work (debug : Bool) : Frame → Expander → List Frame → Expander → Prop where
  | done {depth : Nat} {rest : List Line} {e : Expander}
      (h : rest = [] ∨ e.exhausted = true) : Work debug (.lines depth rest) e [] e
  | text {depth : Nat} {l : Line} {ls : List Line} {e : Expander} (h : parseOpener? l.text = none) :
      Work debug (.lines depth (l :: ls)) e [.lines depth ls] (e.push l)
  | malformed {depth : Nat} {l : Line} {ls : List Line} {e : Expander} (directive : String)
      (h : parseOpener? l.text = some (.malformed directive)) :
      Work debug (.lines depth (l :: ls)) e [.lines depth ls]
        ((e.warn (.malformed directive) l).push l)
  | unclosed {depth : Nat} {l : Line} {ls : List Line} {e : Expander} {opener : Opener}
      (h : parseOpener? l.text = some opener) (hsplit : splitBlock? 0 ls = none) :
      Work debug (.lines depth (l :: ls)) e [.lines depth ls] ((e.warn .neverClosed l).push l)
  | passed {depth : Nat} (b : Block) {e : Expander} :
      Work debug (.lines depth b.lines) e [.lines depth b.after] e
  | excluded {depth : Nat} (b : Block) {e : Expander} {f : Fault} (hf : f ≠ .neverClosed) :
      Work debug (.lines depth b.lines) e [.lines depth b.after] (e.warn f b.first)
  | body {depth : Nat} (b : Block) {e : Expander} :
      Work debug (.lines (depth + 1) b.lines) e
        [.lines depth b.body, .lines (depth + 1) b.after] e
  | loop {depth : Nat} (b : Block) {e : Expander} {var : Text} {n : Nat} {first : Int} :
      Work debug (.lines (depth + 1) b.lines) e
        [.loop depth var b.body b.first n first e.size, .lines (depth + 1) b.after] e.enterLoop
  | round {depth : Nat} {var : Text} {body : List Line} {opener : Line} {n : Nat} {value : Int}
      {mark : Nat} {e : Expander} (hroom : e.size + body.length ≤ maxLines) :
      Work debug (.loop depth var body opener (n + 1) value mark) e
        [.lines depth (instantiate var value body),
          .loop depth var body opener n (value + 1) mark] e
  | left {depth : Nat} {var : Text} {body : List Line} {opener : Line} {n : Nat} {value : Int}
      {mark : Nat} {e : Expander} :
      Work debug (.loop depth var body opener n value mark) e [] (e.leaveLoop mark)
  | full {depth : Nat} {var : Text} {body : List Line} {opener : Line} {n : Nat} {value : Int}
      {mark : Nat} {e : Expander} :
      Work debug (.loop depth var body opener n value mark) e []
        ({ e.warn .tooLong opener with exhausted := true }.leaveLoop mark)

section Work

variable {debug : Bool}

/-- What the opening of a block does, with the lines behind it. -/
theorem openBlock_spec (depth : Nat) (b : Block) (e : Expander) :
    Work debug (.lines (depth + 1) b.lines) e
      ((openBlock debug depth b.opener b.first b.body e).1 ++ [.lines (depth + 1) b.after])
      (openBlock debug depth b.opener b.first b.body e).2 := by
  unfold openBlock
  split
  · split
    · next f hf =>
        obtain ⟨reason, rfl⟩ := exists_reason_of_evalBounds hf
        exact .excluded b (by simp)
    · split
      · exact .passed b
      · split
        · exact .excluded b (by simp)
        · exact .loop b
  · split
    · exact .body b
    · exact .passed b
    · exact .excluded b (by simp)
  · split
    · exact .body b
    · exact .passed b
  · exact .passed b

theorem openAt_spec (depth : Nat) (b : Block) (e : Expander) :
    Work debug (.lines depth b.lines) e
      ((openAt debug depth b.opener b.first b.body e).1 ++ [.lines depth b.after])
      (openAt debug depth b.opener b.first b.body e).2 := by
  cases depth with
  | zero => exact .excluded b (by simp)
  | succ depth => exact openBlock_spec depth b e

/-- The block that lines begin with is handed over. -/
theorem readLine_block (depth : Nat) (b : Block) (e : Expander) :
    readLine debug depth b.first (b.body ++ b.closer :: b.after) e =
      ((openAt debug depth b.opener b.first b.body e).1 ++ [.lines depth b.after],
        (openAt debug depth b.opener b.first b.body e).2) := by
  have hdrop : (b.body ++ b.closer :: b.after).drop (b.body.length + 1) = b.after := by simp
  rw [readLine, b.parse]
  cases hopener : b.opener with
  | malformed directive => exact absurd hopener (b.proper directive)
  | _ => simp only [b.split, hdrop]

theorem readLine_spec (depth : Nat) (l : Line) (ls : List Line) (e : Expander) :
    Work debug (.lines depth (l :: ls)) e (readLine debug depth l ls e).1
      (readLine debug depth l ls e).2 := by
  cases hparse : parseOpener? l.text with
  | none =>
      rw [readLine, hparse]
      exact .text hparse
  | some opener =>
      by_cases hproper : ∀ directive, opener ≠ .malformed directive
      · cases hsplit : splitBlock? 0 ls with
        | none =>
            have hread : readLine debug depth l ls e =
                ([.lines depth ls], (e.warn .neverClosed l).push l) := by
              rw [readLine, hparse]
              cases opener with
              | malformed directive => exact absurd rfl (hproper directive)
              | _ => simp only [hsplit]
            rw [hread]
            exact .unclosed hparse hsplit
        | some body =>
            obtain ⟨closer, after, rfl, hcloses⟩ := exists_closer hsplit
            let b : Block := ⟨l, opener, body, closer, after, hparse, hproper, hsplit, hcloses⟩
            have hread : readLine debug depth l (body ++ closer :: after) e = _ :=
              readLine_block depth b e
            rw [hread]
            exact openAt_spec depth b e
      · obtain ⟨directive, hmalformed⟩ := not_forall.1 hproper
        obtain rfl := not_not.1 hmalformed
        rw [readLine, hparse]
        exact .malformed directive hparse

/-- **The cases of a step are complete.** -/
theorem Frame.work_spec (debug : Bool) (f : Frame) (e : Expander) :
    Work debug f e (f.work debug e).1 (f.work debug e).2 := by
  unfold Frame.work
  split
  · exact .done (Or.inl rfl)
  · split
    · next h => exact .done (Or.inr h)
    · exact readLine_spec _ _ _ _
  · exact .left
  · split
    · exact .full
    · next hroom =>
        split
        · exact .left
        · exact .round (Nat.not_lt.1 hroom)

end Work

/-! ### Runs -/

/-- **What every step keeps holds in the whole run.** -/
theorem Config.iterate_induction {debug : Bool} {P : Config → Prop} {c : Config} (hstart : P c)
    (hstep : ∀ f fs gs e e', P ⟨f :: fs, e⟩ → Work debug f e gs e' → P ⟨gs ++ fs, e'⟩) (n : Nat) :
    P ((Config.step debug)^[n] c) := by
  induction n with
  | zero => exact hstart
  | succ n ih =>
      rw [Function.iterate_succ_apply']
      generalize (Config.step debug)^[n] c = d at ih
      obtain ⟨frames, e⟩ := d
      cases frames with
      | nil => exact ih
      | cons f fs => exact hstep f fs _ e _ ih (f.work_spec debug e)

/-- Configurations that are reached from another. -/
def Reaches (debug : Bool) (c c' : Config) : Prop := ∃ n, (Config.step debug)^[n] c = c'

namespace Reaches

variable {debug : Bool} {c c₁ c₂ : Config}

theorem refl (c : Config) : Reaches debug c c := ⟨0, rfl⟩

theorem trans (h₁ : Reaches debug c c₁) (h₂ : Reaches debug c₁ c₂) : Reaches debug c c₂ := by
  obtain ⟨m, rfl⟩ := h₁
  obtain ⟨n, rfl⟩ := h₂
  exact ⟨n + m, Function.iterate_add_apply _ n m c⟩

theorem head {f : Frame} {fs : List Frame} {e e' : Expander} (gs : List Frame)
    (hstep : f.work debug e = (gs, e')) (h : Reaches debug ⟨gs ++ fs, e'⟩ c) :
    Reaches debug ⟨f :: fs, e⟩ c := by
  refine trans ⟨1, ?_⟩ h
  rw [Function.iterate_one, Config.step]
  simp only [hstep]

end Reaches

/-! ### The machine computes what processing does -/

section Process

variable {debug : Bool} {depth : Nat}

section Lines

variable
  (hblock : ∀ (opener : Opener) (l : Line) (body : List Line) (e : Expander) (fs : List Frame),
    Reaches debug ⟨(openAt debug depth opener l body e).1 ++ fs,
      (openAt debug depth opener l body e).2⟩ ⟨fs, blockAt debug depth opener l body e⟩)

include hblock

/-- The machine does what steps of processing do, if it does what blocks do. -/
theorem reaches_of_step (fs : List Frame) {x y : List Line × Expander}
    (h : Step (blockAt debug depth) x y) :
    Reaches debug ⟨.lines depth x.1 :: fs, x.2⟩ ⟨.lines depth y.1 :: fs, y.2⟩ := by
  have hread : ∀ (l : Line) (ls : List Line) (e : Expander), e.exhausted = false →
      (Frame.lines depth (l :: ls)).work debug e = readLine debug depth l ls e :=
    fun l ls e hrun => by rw [Frame.work, if_neg (by simp [hrun])]
  cases h with
  | @text l ls e hrun h =>
      exact .head [.lines depth ls] (by rw [hread l ls e hrun, readLine, h]) (.refl _)
  | @malformed l ls e directive hrun h =>
      exact .head [.lines depth ls] (by rw [hread l ls e hrun, readLine, h]) (.refl _)
  | @unclosed l ls e opener hrun h hproper hsplit =>
      refine .head [.lines depth ls] ?_ (.refl _)
      rw [hread l ls e hrun, readLine, h]
      cases opener with
      | malformed directive => exact absurd rfl (hproper directive)
      | _ => simp only [hsplit]
  | @block b e hrun =>
      refine .head _ ((hread _ _ e hrun).trans (readLine_block depth b e)) ?_
      rw [List.append_assoc]
      exact hblock b.opener b.first b.body e (.lines depth b.after :: fs)

theorem reaches_of_steps (fs : List Frame) {x y : List Line × Expander}
    (h : Steps (blockAt debug depth) x y) :
    Reaches debug ⟨.lines depth x.1 :: fs, x.2⟩ ⟨.lines depth y.1 :: fs, y.2⟩ := by
  induction h with
  | refl => exact .refl _
  | tail _ hstep ih => exact ih.trans (reaches_of_step hblock fs hstep)

/-- The machine stops reading lines where processing does. -/
theorem reaches_walk (ls : List Line) (e : Expander) (fs : List Frame) :
    Reaches debug ⟨.lines depth ls :: fs, e⟩ ⟨fs, process debug depth ls e⟩ := by
  obtain ⟨rest, hsteps, hrest⟩ := steps_walk (blockAt debug depth) ls e
  rw [← process_eq_walk] at hsteps hrest
  generalize process debug depth ls e = e' at hsteps hrest
  refine (reaches_of_steps hblock fs hsteps).trans (.head [] ?_ (.refl _))
  cases rest with
  | nil => rfl
  | cons l rest =>
      have hfull : e'.exhausted = true := by
        by_contra hrun
        exact List.cons_ne_nil l rest (hrest (Bool.eq_false_iff.2 hrun))
      rw [Frame.work, if_pos hfull]

end Lines

section Bodies

variable
  (hinner : ∀ (ls : List Line) (e : Expander) (fs : List Frame),
    Reaches debug ⟨.lines depth ls :: fs, e⟩ ⟨fs, process debug depth ls e⟩)

include hinner

/-- The machine runs the rounds of a loop, if it processes bodies. -/
theorem reaches_rounds (var : Text) (body : List Line) (l : Line) (n : Nat) (v : Int) (mark : Nat)
    (e : Expander) (fs : List Frame) :
    Reaches debug ⟨.loop depth var body l n v mark :: fs, e⟩
      ⟨fs, (rounds (process debug depth) var body l n v e).leaveLoop mark⟩ := by
  induction n generalizing v e with
  | zero => exact .head [] rfl (.refl _)
  | succ n ih =>
      by_cases hroom : maxLines < e.size + body.length
      · refine .head [] ?_ (.refl _)
        simp only [Frame.work, rounds, if_pos hroom, if_true]
      · by_cases hfull : e.exhausted = true
        · refine .head [] ?_ (.refl _)
          simp only [Frame.work, rounds, if_neg hroom, if_pos hfull]
        · have hround : (Frame.loop depth var body l (n + 1) v mark).work debug e =
              ([.lines depth (instantiate var v body),
                .loop depth var body l n (v + 1) mark], e) := by
            simp only [Frame.work, if_neg hroom, if_neg hfull]
          have hrounds : rounds (process debug depth) var body l (n + 1) v e =
              rounds (process debug depth) var body l n (v + 1)
                (process debug depth (instantiate var v body) e) := by
            simp only [rounds, if_neg hroom, if_neg hfull]
          rw [hrounds]
          exact .head _ hround ((hinner _ e _).trans (ih (v + 1) _))

/-- The machine does what a block does, if it processes bodies. -/
theorem reaches_runBlock (opener : Opener) (l : Line) (body : List Line) (e : Expander)
    (fs : List Frame) :
    Reaches debug ⟨(openBlock debug depth opener l body e).1 ++ fs,
      (openBlock debug depth opener l body e).2⟩
      ⟨fs, runBlock debug (process debug depth) opener l body e⟩ := by
  cases opener with
  | loop var bounds =>
      simp only [openBlock, runBlock, unroll]
      cases evalBounds bounds with
      | error f => exact .refl _
      | ok ends =>
          obtain ⟨first, last⟩ := ends
          by_cases hlt : last < first
          · simp only [if_pos hlt]
            exact .refl _
          · by_cases hmany : maxRounds < last - first + 1
            · simp only [if_neg hlt, if_pos hmany]
              exact .refl _
            · simp only [if_neg hlt, if_neg hmany]
              exact reaches_rounds hinner var body l _ _ e.size e.enterLoop fs
  | cond c =>
      simp only [openBlock, runBlock]
      cases Expr.evalBool c with
      | error err => exact .refl _
      | ok value =>
          cases value with
          | false => exact .refl _
          | true => exact hinner body e fs
  | debug =>
      simp only [openBlock, runBlock]
      cases debug with
      | false => exact .refl _
      | true => exact hinner body e fs
  | malformed directive => exact .refl _

end Bodies

/-- **The machine stops with what processing computes**, whatever else is under way. -/
theorem reaches_process (debug : Bool) (depth : Nat) (ls : List Line) (e : Expander)
    (fs : List Frame) :
    Reaches debug ⟨.lines depth ls :: fs, e⟩ ⟨fs, process debug depth ls e⟩ := by
  induction depth generalizing ls e fs with
  | zero => exact reaches_walk (fun _ _ _ _ fs => .refl _) ls e fs
  | succ depth ih => exact reaches_walk (reaches_runBlock ih) ls e fs

end Process

end Template

end Softcode
