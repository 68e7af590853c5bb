/-
**Processing computes what a forest means.**

Processing reads lines from left to right: it recognises the first line of a block by its text,
looks for the end of the block by counting, and instantiates the body of a loop as text.  None of
this is visible in the outcome: on the lines of a forest that stays within the limits, what is
written is what the forest means.

Processing is followed through its state.  The relation `Softcode.Template.Expander.Wrote` says that
one state comes from another by writing lines, with no loop left open and the bound on the output
not met; each step of processing is shown to be of this kind, and the induction is on the way in
which the forest stays within the limits, which meets the bodies of a block in the order in which
processing does.

Main definitions:

* `Softcode.Template.Expander.Wrote` — what processing does to its state.

Main results:

* `Softcode.Template.rounds_wrote`, `Softcode.Template.runBlock_wrote` — the rounds of a loop, and a
  block;
* `Softcode.Template.Forest.process_wrote` — processing at any depth, in any state;
* `Softcode.Template.expandBlocks_lines` — **the expansion of a printed forest is what it means**.
-/

import Softcode.Proofs.BlockForest

set_option autoImplicit false

namespace Softcode

namespace Template

/-! ### Writing -/

/-- A state comes from another by writing lines, and processing goes on. -/
structure Expander.Wrote (e : Expander) (ls : List Line) (e' : Expander) : Prop where
  out : e'.out = ls.reverse ++ e.out
  size : e'.size = e.size + ls.length
  loops : e'.loops = e.loops
  running : e'.exhausted = false

namespace Expander

variable {e e₁ e₂ : Expander}

theorem wrote_nil (h : e.exhausted = false) : e.Wrote [] e := ⟨rfl, rfl, rfl, h⟩

theorem wrote_push (h : e.exhausted = false) (l : Line) : e.Wrote [l] (e.push l) :=
  ⟨rfl, rfl, rfl, h⟩

theorem wrote_warn (h : e.exhausted = false) (f : Fault) (l : Line) : e.Wrote [] (e.warn f l) :=
  ⟨rfl, rfl, rfl, h⟩

/-- What is written in two steps stands one behind the other. -/
theorem Wrote.trans {ls₁ ls₂ : List Line} (h₁ : e.Wrote ls₁ e₁) (h₂ : e₁.Wrote ls₂ e₂) :
    e.Wrote (ls₁ ++ ls₂) e₂ where
  out := by rw [h₂.out, h₁.out, List.reverse_append, List.append_assoc]
  size := by rw [h₂.size, h₁.size, List.length_append, Nat.add_assoc]
  loops := h₂.loops.trans h₁.loops
  running := h₂.running

/-- A loop that was not stopped is left with the loops around it open. -/
theorem Wrote.leaveLoop {ls : List Line} (h : e.enterLoop.Wrote ls e₁) :
    e.Wrote ls (e₁.leaveLoop e.size) := by
  rw [Expander.leaveLoop, if_neg (by simp [h.running])]
  exact ⟨h.out, h.size, congrArg (· - 1) h.loops, h.running⟩

end Expander

/-! ### Bodies, one after the other -/

theorem inTurn_nil {debug : Bool} {p : Nat → Forest → Prop} {size : Nat} :
    InTurn debug p size [] := by
  intro pre f post h
  cases pre <;> cases h

theorem inTurn_cons {debug : Bool} {p : Nat → Forest → Prop} {size : Nat} {f : Forest}
    {fs : List Forest} :
    InTurn debug p size (f :: fs) ↔
      p size f ∧ InTurn debug p (size + (f.expansion debug).length) fs := by
  constructor
  · intro h
    refine ⟨h [] f fs rfl, fun pre g post hfs => ?_⟩
    have := h (f :: pre) g post (by rw [hfs, List.cons_append])
    rwa [List.flatMap_cons, List.length_append, ← Nat.add_assoc] at this
  · rintro ⟨hf, hfs⟩ pre g post hcut
    cases pre with
    | nil =>
        obtain ⟨rfl, -⟩ := List.cons_eq_cons.1 hcut
        exact hf
    | cons f' pre =>
        obtain ⟨rfl, hrest⟩ := List.cons_eq_cons.1 hcut
        rw [List.flatMap_cons, List.length_append, ← Nat.add_assoc]
        exact hfs pre g post hrest

/-- What the processing of bodies does for each, in a state with the right number of lines. -/
def Writes (debug : Bool) (inner : List Line → Expander → Expander) (size : Nat) (f : Forest) :
    Prop :=
  ∀ e : Expander, e.exhausted = false → e.size = size →
    e.Wrote (f.expansion debug) (inner f.lines e)

variable {debug : Bool} {inner : List Line → Expander → Expander}

theorem numbersFrom_succ (value : Int) (count : Nat) :
    numbersFrom value (count + 1) = value :: numbersFrom (value + 1) count := by
  simp only [numbersFrom, List.range_succ_eq_map, List.map_cons, List.map_map, Int.natCast_zero,
    Int.add_zero, List.cons.injEq, true_and]
  refine List.map_congr_left fun k _ => ?_
  simp only [Function.comp_apply, Nat.succ_eq_add_one, Int.natCast_add, Int.natCast_one]
  omega

/-- **The rounds of a loop** write its bodies, as long as there is room for each. -/
theorem rounds_wrote (v : LoopVar) (children : Forest) (l : Line) (count : Nat) (value : Int)
    (e : Expander) (hrun : e.exhausted = false)
    (hroom : InTurn debug (fun before _ => before + children.lines.length ≤ maxLines) e.size
      ((numbersFrom value count).map fun n => children.put v n))
    (hinner : InTurn debug (Writes debug inner) e.size
      ((numbersFrom value count).map fun n => children.put v n)) :
    e.Wrote (((numbersFrom value count).map fun n => children.put v n).flatMap
      (Forest.expansion debug)) (rounds inner v.name children.lines l count value e) := by
  induction count generalizing value e with
  | zero => exact Expander.wrote_nil hrun
  | succ count ih =>
      rw [numbersFrom_succ, List.map_cons, inTurn_cons] at hroom hinner
      have hbound : ¬ maxLines < e.size + children.lines.length := Nat.not_lt.2 hroom.1
      have hfirst := hinner.1 e hrun rfl
      rw [numbersFrom_succ, List.map_cons, List.flatMap_cons, rounds, if_neg hbound]
      simp only [hrun, Bool.false_eq_true, if_false]
      rw [Forest.instantiate_lines]
      refine hfirst.trans (ih (value + 1) _ hfirst.running ?_ ?_)
      · rw [hfirst.size]
        exact hroom.2
      · rw [hfirst.size]
        exact hinner.2

/-! ### Bounds -/

theorem Bound.value?_eq_some {b : Bound} {n : Int} :
    b.value? = some n ↔ Expr.evalInt (Text.trim b.text) = .ok n := by
  rw [value?]
  cases Expr.evalInt (Text.trim b.text) <;> simp [Except.toOption]

theorem splitComma?_boundsText (first last : Bound) :
    splitComma? (boundsText first last) =
      if parenNet first.text = 0 then some (first.text, ' ' :: last.text) else none :=
  splitComma?_one first.no_comma fun h => by
    rcases List.mem_cons.1 h with h | h
    · cases h
    · exact last.no_comma h

theorem trim_space_cons (s : Text) : Text.trim (' ' :: s) = Text.trim s := rfl

/-- Two bounds with values are read as these. -/
theorem evalBounds_of_values {first last : Bound} {a b : Int} (ha : first.value? = some a)
    (hb : last.value? = some b) : evalBounds (boundsText first last) = .ok (a, b) := by
  rw [Bound.value?_eq_some] at ha hb
  have hnet : parenNet first.text = 0 := by
    rw [← parenNet_trim]
    exact Expr.parenNet_of_evalInt ha
  rw [evalBounds, splitComma?_boundsText, if_pos hnet]
  simp only [trim_space_cons, ha, hb]

/-- If one of two bounds has no value, they are not read. -/
theorem exists_fault_of_no_value (first last : Bound)
    (h : ∀ a b, first.value? = some a → last.value? ≠ some b) :
    ∃ fault, evalBounds (boundsText first last) = .error fault := by
  rw [evalBounds, splitComma?_boundsText]
  by_cases hnet : parenNet first.text = 0
  · simp only [if_pos hnet, trim_space_cons]
    cases ha : Expr.evalInt (Text.trim first.text) with
    | error err => exact ⟨_, rfl⟩
    | ok a =>
        cases hb : Expr.evalInt (Text.trim last.text) with
        | error err => exact ⟨_, rfl⟩
        | ok b => exact absurd (Bound.value?_eq_some.2 hb) (h a b (Bound.value?_eq_some.2 ha))
  · rw [if_neg hnet]
    exact ⟨_, rfl⟩

/-! ### A block -/

/-- **A block** writes its bodies. -/
theorem runBlock_wrote (h : Header) (l : Line) (children : Forest) (e : Expander)
    (hrun : e.exhausted = false) (hrounds : h.FewRounds)
    (hroom : h.isLoop = true →
      InTurn debug (fun before _ => before + children.lines.length ≤ maxLines) e.size
        (h.bodies debug children))
    (hinner : InTurn debug (Writes debug inner) e.size (h.bodies debug children)) :
    e.Wrote ((h.bodies debug children).flatMap (Forest.expansion debug))
      (runBlock debug inner h.opener l children.lines e) := by
  have hone : InTurn debug (Writes debug inner) e.size [children] →
      e.Wrote ([children].flatMap (Forest.expansion debug)) (inner children.lines e) := by
    intro h
    simpa using (inTurn_cons.1 h).1 e hrun rfl
  cases h with
  | loop v first last =>
      by_cases hvalues : ∃ a b, first.value? = some a ∧ last.value? = some b
      · obtain ⟨a, b, ha, hb⟩ := hvalues
        have hbodies : (Header.loop v first last).bodies debug children =
            (numbers a b).map fun n => children.put v n := by
          simp only [Header.bodies, ha, hb]
        have hfew : b - a + 1 ≤ maxRounds := hrounds a b ha hb
        rw [hbodies] at hroom hinner ⊢
        rw [Header.opener, runBlock, unroll, evalBounds_of_values ha hb]
        dsimp only
        by_cases hlt : b < a
        · have hnone : (b - a + 1).toNat = 0 := by omega
          rw [if_pos hlt, numbers, hnone]
          exact Expander.wrote_nil hrun
        · rw [if_neg hlt, if_neg (by omega)]
          exact (rounds_wrote v children l _ a e.enterLoop hrun (hroom rfl) hinner).leaveLoop
      · have hbodies : (Header.loop v first last).bodies debug children = [] := by
          simp only [Header.bodies]
          split
          · next a b ha hb => exact absurd ⟨a, b, ha, hb⟩ hvalues
          · rfl
        obtain ⟨fault, hfault⟩ := exists_fault_of_no_value first last
          fun a b ha hb => hvalues ⟨a, b, ha, hb⟩
        rw [hbodies, Header.opener, runBlock, unroll, hfault]
        exact Expander.wrote_warn hrun fault l
  | cond c =>
      simp only [Header.bodies, Header.opener, runBlock] at hinner ⊢
      cases hc : Expr.evalBool (Text.trim c.text) with
      | error err => exact Expander.wrote_warn hrun _ l
      | ok value =>
          cases value with
          | false => exact Expander.wrote_nil hrun
          | true =>
              rw [hc] at hinner
              exact hone hinner
  | debug =>
      simp only [Header.bodies, Header.opener, runBlock] at hinner ⊢
      cases debug with
      | false => exact Expander.wrote_nil hrun
      | true => exact hone hinner

/-! ### Streams -/

variable {block : Opener → Line → List Line → Expander → Expander}

/-- Lines of a block that is done are passed over. -/
theorem walk_skip (skip : Nat) (ls : List Line) (e : Expander) :
    walk block skip ls e = walk block 0 (ls.drop skip) e := by
  induction skip generalizing ls with
  | zero => rfl
  | succ skip ih =>
      cases ls with
      | nil => rfl
      | cons l ls => exact ih ls

theorem PlainLine.parseOpener?_text (l : PlainLine) : parseOpener? l.line.text = none := by
  cases h : parseOpener? l.line.text with
  | none => rfl
  | some o =>
      have := isBlockOpener_of_parseOpener? h
      rw [l.not_opener] at this
      cases this

theorem walk_text (l : PlainLine) (ls : List Line) {e : Expander} (hrun : e.exhausted = false) :
    walk block 0 (l.line :: ls) e = walk block 0 ls (e.push l.line) := by
  rw [walk, hrun, l.parseOpener?_text]
  rfl

/-- A printed block is handed over with its body, and reading goes on behind it. -/
theorem walk_block (h : Header) (opener closer : Place) (children rest : Forest) {e : Expander}
    (hrun : e.exhausted = false) :
    walk block 0 (Forest.block h opener closer children rest).lines e =
      walk block 0 rest.lines (block h.opener (opener.line h.text) children.lines e) := by
  have hparse : parseOpener? (opener.line h.text).text = some h.opener := h.parseOpener?_text
  have hdrop : (children.lines ++ closer.line ['\x7d'] :: rest.lines).drop
      (children.lines.length + 1) = rest.lines := by simp
  rw [Forest.lines, walk, hrun, hparse, if_neg Bool.false_ne_true]
  cases h <;> simp only [Header.opener, children.splitBlock?_body] <;> rw [walk_skip, hdrop]

theorem process_text (depth : Nat) (l : PlainLine) (ls : List Line) {e : Expander}
    (hrun : e.exhausted = false) :
    process debug depth (l.line :: ls) e = process debug depth ls (e.push l.line) := by
  cases depth with
  | zero => exact walk_text l ls hrun
  | succ depth => exact walk_text l ls hrun

theorem process_nil (depth : Nat) (e : Expander) : process debug depth [] e = e := by
  cases depth <;> rfl

/-- **Processing writes what a forest means**, in any state and at any depth that is enough. -/
theorem Forest.process_wrote {size : Nat} {f : Forest} (hfits : f.Fits debug size) (depth : Nat)
    (hdepth : f.depth ≤ depth) : Writes debug (process debug depth) size f := by
  induction hfits generalizing depth with
  | nil size =>
      intro e hrun _
      rw [lines, process_nil, expansion]
      exact Expander.wrote_nil hrun
  | text l hrest ih =>
      intro e hrun hsize
      rw [lines, process_text depth l _ hrun, expansion]
      have hl := Expander.wrote_push hrun l.line
      exact hl.trans (ih depth hdepth _ hl.running (by rw [hl.size, hsize]; rfl))
  | @block size h opener closer children rest hrounds hroom hbodies hrest ihb ihr =>
      intro e hrun hsize
      have hdepth' : children.depth + 1 ≤ depth ∧ rest.depth ≤ depth := Nat.max_le.1 hdepth
      -- the depth is that of the children and one more, so it is not used up here
      obtain ⟨d, rfl⟩ : ∃ d, depth = d + 1 := ⟨depth - 1, by omega⟩
      have hinner : InTurn debug (Writes debug (process debug d)) e.size
          (h.bodies debug children) := by
        intro pre f post hcut
        rw [hsize]
        refine ihb pre f post hcut d ?_
        have hmem : f ∈ h.bodies debug children := by rw [hcut]; simp
        have := Header.depth_of_mem_bodies hmem
        omega
      have hblock := runBlock_wrote h (opener.line h.text) children e hrun hrounds
        (hsize ▸ hroom) hinner
      rw [expansion_block]
      refine hblock.trans ?_
      have hrest' := ihr (d + 1) hdepth'.2 _ hblock.running (by rw [hblock.size, hsize])
      rw [process, walk_block h opener closer children rest hrun]
      exact hrest'

/-- **The expansion of a printed forest is what it means**, if its blocks are not nested too deeply
and it stays within the limits. -/
theorem expandBlocks_lines (debug : Bool) (f : Forest) (hdepth : f.depth ≤ maxDepth)
    (hfits : f.Fits debug 0) : (expandBlocks debug f.lines).lines = f.expansion debug := by
  have hwrote := Forest.process_wrote hfits maxDepth hdepth Expander.start rfl rfl
  calc (expandBlocks debug f.lines).lines
      = (process debug maxDepth f.lines .start).out.reverse := rfl
    _ = ((f.expansion debug).reverse ++ []).reverse := by rw [hwrote.out]; rfl
    _ = f.expansion debug := by simp

/-! ### A loop over a condition -/

/-- A line of text under a condition. -/
def guarded (c : Condition) (l : PlainLine) : Forest :=
  .block (.cond c) ⟨"main", 2⟩ ⟨"main", 4⟩ (.text l .nil) .nil

theorem expansion_guarded (c : Condition) (l : PlainLine) :
    (guarded c l).expansion false =
      match Expr.evalBool (Text.trim c.text) with
      | .ok true => [l.line]
      | _ => [] := by
  rw [guarded, Forest.expansion_block, Header.bodies]
  cases Expr.evalBool (Text.trim c.text) with
  | error err => simp [Forest.expansion]
  | ok value => cases value <;> simp [Forest.expansion]

theorem fits_guarded (c : Condition) (l : PlainLine) (size : Nat) :
    (guarded c l).Fits false size := by
  refine .block _ _ trivial (fun h => by cases h) ?_ (.nil _)
  rw [Header.bodies]
  split
  · exact inTurn_cons.2 ⟨.text l (.nil _), inTurn_nil⟩
  · exact inTurn_nil

/-- A loop from one to two over a line under a condition on its variable:

    #for i in range(1, 2) {
    #if {{i}} > 1 {
    x{{i}}
    }
    }
-/
def guardedLoop : Forest :=
  .block
    (.loop ⟨['i'], by simp, List.all_eq_true.1 (by decide +kernel)⟩ ⟨['1'], by decide⟩
      ⟨['2'], by decide⟩)
    ⟨"main", 1⟩ ⟨"main", 5⟩
    (guarded ⟨placeholder ['i'] ++ [' ', '>', ' ', '1'], by decide⟩
      ⟨⟨'x' :: placeholder ['i'], "main", 3⟩, by decide, by decide⟩)
    .nil

/-- Its two bodies, of which the first has a false condition. -/
def guardedBodies : List Forest :=
  [guarded ⟨['1', ' ', '>', ' ', '1'], by decide⟩ ⟨⟨['x', '1'], "main", 3⟩, by decide, by decide⟩,
   guarded ⟨['2', ' ', '>', ' ', '1'], by decide⟩ ⟨⟨['x', '2'], "main", 3⟩, by decide, by decide⟩]

theorem fits_guardedLoop : guardedLoop.Fits false 0 := by
  refine .block _ _ ?_ (fun _ => ?_) ?_ (.nil _)
  · intro a b ha hb
    obtain rfl : 1 = a := Option.some.inj ha
    obtain rfl : 2 = b := Option.some.inj hb
    decide
  · change InTurn false _ 0 guardedBodies
    refine inTurn_cons.2 ⟨by decide, inTurn_cons.2 ⟨?_, inTurn_nil⟩⟩
    rw [expansion_guarded]
    decide
  · exact inTurn_cons.2 ⟨fits_guarded _ _ _, inTurn_cons.2 ⟨fits_guarded _ _ _, inTurn_nil⟩⟩

theorem expandBlocks_lines_guardedLoop :
    (expandBlocks false guardedLoop.lines).lines = [⟨['x', '2'], "main", 3⟩] := by
  rw [expandBlocks_lines false guardedLoop (by decide) fits_guardedLoop, guardedLoop,
    Forest.expansion_block]
  change guardedBodies.flatMap (Forest.expansion false) ++ _ = _
  rw [guardedBodies, List.flatMap_cons, List.flatMap_cons, expansion_guarded, expansion_guarded]
  simp only [Forest.expansion]
  decide

end Template

end Softcode
