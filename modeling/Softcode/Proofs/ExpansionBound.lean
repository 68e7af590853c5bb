/-
**Expansion is bounded.**

Before a round of a loop processing asks whether the output has room for the body as it stands in
the stream.  Nothing else is asked: lines of text are written without a question, those in a body
and those behind an inner loop too, and the body of a round can become longer than it was.  So the
output can go beyond the limit of loops, and the question is how far.

The answer comes from what is under way.  Lines that are left reserve as many lines of output as
they are, on top of the output so far or of the limit, whichever is greater; a loop reserves the
limit and its body, which is as far as its last round can go.  What the frames of a stack reserve
together, from the innermost out, is never less than the output, and no step makes it more: a
round takes what it needs from the reserve of its loop, and a loop from that of the lines of its
block.  At the beginning it is the limit and the number of lines.

Main definitions:

* `Softcode.Template.Frame.reserve`, `Softcode.Template.Config.reserve` — **how long the output can
  become** by what is under way.

Main results:

* `Softcode.Template.Work.reserve_le` — no step reserves more;
* `Softcode.Template.Config.out_length_le` — the output is within the reserve of the beginning;
* `Softcode.SelfCheck.length_expand` — replacing checks gives no more lines;
* `Softcode.Template.expand_bounded` — **expansion ends, and its output is never longer than the
  limit and the number of lines**.
-/

import Softcode.Proofs.BlockMachine

set_option autoImplicit false

namespace Softcode

namespace Template

/-! ### The length of the output -/

/-- The length that is kept is that of the output. -/
def Expander.Counted (e : Expander) : Prop := e.size = e.out.length

namespace Expander

variable {e : Expander}

theorem Counted.push (h : e.Counted) (l : Line) : (e.push l).Counted := by
  rw [Counted, Expander.push, List.length_cons, ← h]

theorem Counted.leaveLoop (h : e.Counted) (mark : Nat) : (e.leaveLoop mark).Counted := by
  rw [Counted] at h
  rw [Expander.leaveLoop]
  split
  · simp only [Counted, Expander.truncate, List.length_drop, ← h]
    omega
  · exact h

theorem size_leaveLoop_le (e : Expander) (mark : Nat) : (e.leaveLoop mark).size ≤ e.size := by
  rw [Expander.leaveLoop]
  split
  · exact Nat.min_le_right mark e.size
  · exact Nat.le_refl _

end Expander

/-- Every step keeps count. -/
theorem Work.counted {debug : Bool} {f : Frame} {gs : List Frame} {e e' : Expander}
    (h : Work debug f e gs e') (he : e.Counted) : e'.Counted := by
  cases h with
  | done | passed | excluded | body | loop | round => exact he
  | text | malformed | unclosed => exact Expander.Counted.push (e := e) he _
  | left => exact he.leaveLoop _
  | full =>
      refine Expander.Counted.leaveLoop ?_ _
      exact he

/-! ### Reserves -/

/-- **How long an output of `size` lines can become** by what is under way: lines that are left
are written behind what there is, or behind the last round of a loop among them; the last round of
a loop begins within the limit. -/
def Frame.reserve : Frame → Nat → Nat
  | .lines _ rest, size => max size maxLines + rest.length
  | .loop _ _ body _ _ _ _, size => max size (maxLines + body.length)

/-- How long an output can become by all that is under way, the innermost first. -/
def reserves (fs : List Frame) (size : Nat) : Nat := fs.foldl (fun size f => f.reserve size) size

/-- How long the output can become. -/
def Config.reserve (c : Config) : Nat := reserves c.frames c.state.size

theorem reserves_append (fs gs : List Frame) (size : Nat) :
    reserves (fs ++ gs) size = reserves gs (reserves fs size) := List.foldl_append

theorem Frame.le_reserve (f : Frame) (size : Nat) : size ≤ f.reserve size := by
  cases f <;> simp only [Frame.reserve] <;> omega

theorem Frame.reserve_mono (f : Frame) {m n : Nat} (h : m ≤ n) : f.reserve m ≤ f.reserve n := by
  cases f <;> simp only [Frame.reserve] <;> omega

theorem le_reserves (fs : List Frame) (size : Nat) : size ≤ reserves fs size := by
  induction fs generalizing size with
  | nil => exact Nat.le_refl size
  | cons f fs ih => exact Nat.le_trans (f.le_reserve size) (ih _)

theorem reserves_mono (fs : List Frame) {m n : Nat} (h : m ≤ n) :
    reserves fs m ≤ reserves fs n := by
  induction fs generalizing m n with
  | nil => exact h
  | cons f fs ih => exact ih (f.reserve_mono h)

@[simp] theorem length_instantiate (var : Text) (value : Int) (body : List Line) :
    (instantiate var value body).length = body.length := List.length_map _

theorem Block.length_lines (b : Block) :
    b.lines.length = b.body.length + b.after.length + 2 := by
  rw [Block.lines, List.length_cons, List.length_append, List.length_cons]
  omega

/-- **No step reserves more.** -/
theorem Work.reserve_le {debug : Bool} {f : Frame} {gs : List Frame} {e e' : Expander}
    (h : Work debug f e gs e') : reserves gs e'.size ≤ f.reserve e.size := by
  cases h with
  | done => exact Frame.le_reserve _ e.size
  | text | malformed | unclosed =>
      change max (e.size + 1) maxLines + _ ≤ max e.size maxLines + (_ + 1)
      omega
  | passed b | excluded b =>
      have hlength := b.length_lines
      change max e.size maxLines + b.after.length ≤ max e.size maxLines + b.lines.length
      omega
  | body b =>
      have hlength := b.length_lines
      change max (max e.size maxLines + b.body.length) maxLines + b.after.length ≤
        max e.size maxLines + b.lines.length
      omega
  | loop b =>
      have hlength := b.length_lines
      change max (max e.size (maxLines + b.body.length)) maxLines + b.after.length ≤
        max e.size maxLines + b.lines.length
      omega
  | @round depth var body opener n value mark e hroom =>
      -- the round begins within the limit, so it ends within the reserve of its loop
      have hlength := length_instantiate var value body
      change max (max e.size maxLines + (instantiate var value body).length)
        (maxLines + body.length) ≤ max e.size (maxLines + body.length)
      omega
  | left => exact Nat.le_trans (e.size_leaveLoop_le _) (Frame.le_reserve _ _)
  | full => exact Nat.le_trans (Expander.size_leaveLoop_le _ _) (Frame.le_reserve _ e.size)

/-- **The output stays within the reserve of the beginning**, in the whole run. -/
theorem Config.out_length_le (debug : Bool) {c : Config} (hc : c.state.Counted) (n : Nat) :
    ((Config.step debug)^[n] c).state.out.length ≤ c.reserve := by
  have hrun : ((Config.step debug)^[n] c).state.Counted ∧
      ((Config.step debug)^[n] c).reserve ≤ c.reserve := by
    refine Config.iterate_induction (P := fun d => d.state.Counted ∧ d.reserve ≤ c.reserve)
      ⟨hc, Nat.le_refl _⟩ ?_ n
    rintro f fs gs e e' ⟨hcount, hle⟩ hwork
    refine ⟨hwork.counted hcount, Nat.le_trans ?_ hle⟩
    change reserves (gs ++ fs) e'.size ≤ reserves fs (f.reserve e.size)
    rw [reserves_append]
    exact reserves_mono fs hwork.reserve_le
  rw [← hrun.1]
  exact Nat.le_trans (le_reserves _ _) hrun.2

end Template

/-! ### Checks -/

theorem SelfCheck.length_expandFrom (skip : Nat) (ls : List Line) :
    (SelfCheck.expandFrom skip ls).lines.length ≤ ls.length := by
  fun_induction SelfCheck.expandFrom skip ls with
  | case1 => exact Nat.le_refl _
  | case2 skip l ls ih => exact Nat.le_succ_of_le ih
  | case3 l ls hopens t n hparse ih | case4 l ls hopens hparse ih | case5 l ls hopens ih =>
      rw [Staged.lines_append, List.length_append, List.length_cons, Nat.add_comm]
      exact Nat.succ_le_succ ih

/-- Replacing checks gives no more lines. -/
theorem SelfCheck.length_expand (ls : List Line) :
    (SelfCheck.expand ls).lines.length ≤ ls.length :=
  SelfCheck.length_expandFrom 0 ls

namespace Template

/-- The machine before the first step of the expansion of a stream. -/
def Config.ofStream (ls : List Line) : Config := ⟨[.lines maxDepth ls], .start⟩

/-- **Expansion ends, and its output is never longer than the limit and the number of lines.**
Whatever the loops of a stream are, how deep they nest and what their bounds are, the machine that
expands it stops, and its output then is the expansion; and from the first step to the last the
output has at most as many lines as the limit and the stream have together. -/
theorem expand_bounded (debug : Bool) (lines : List Line) :
    (∃ n, ((Config.step debug)^[n] (.ofStream (SelfCheck.expand lines).lines)).frames = [] ∧
      (expand debug lines).lines =
        ((Config.step debug)^[n] (.ofStream (SelfCheck.expand lines).lines)).state.out.reverse) ∧
    (∀ n, ((Config.step debug)^[n] (.ofStream (SelfCheck.expand lines).lines)).state.out.length ≤
      maxLines + lines.length) ∧
    (expand debug lines).lines.length ≤ maxLines + lines.length := by
  have hbound : ∀ n, ((Config.step debug)^[n]
      (.ofStream (SelfCheck.expand lines).lines)).state.out.length ≤ maxLines + lines.length := by
    intro n
    have hreserve : (Config.ofStream (SelfCheck.expand lines).lines).reserve =
        maxLines + (SelfCheck.expand lines).lines.length := rfl
    have hlines := SelfCheck.length_expand lines
    have hle := Config.out_length_le debug
      (c := .ofStream (SelfCheck.expand lines).lines) rfl n
    omega
  obtain ⟨n, hn⟩ := reaches_process debug maxDepth (SelfCheck.expand lines).lines .start []
  have hstop : (Config.step debug)^[n] (.ofStream (SelfCheck.expand lines).lines) =
      ⟨[], process debug maxDepth (SelfCheck.expand lines).lines .start⟩ := hn
  refine ⟨⟨n, by rw [hstop], by rw [hstop]; rfl⟩, hbound, ?_⟩
  have hlast := hbound n
  rw [hstop, ← List.length_reverse] at hlast
  exact hlast

end Template

end Softcode
