/-
**No command is too long in silence.**

A command that is longer than the limit is split, and a part of it that cannot be split any further
stays too long.  This module ties the warnings of compression to the commands that come out of it:
the warnings are exactly those of the oversized commands, one for each, in the order of the commands
and at their places.  A warning can be computed from the command that it is about, which alone says
how long it is and why it was not split.

The bound behind it is that of a cut: the commands in front of the last one of an assignment end at
a cut, and a cut lies within the limit, whatever the limit is.  The last one is the only one that
can be too long, and it is never raw, because a continuation begins with `@wait`.

Main definitions:

* `Softcode.isOversized` — commands that are too long;
* `Softcode.oversizeWarning`, `Softcode.oversizeWarnings` — the warning that such a command gets,
  and those of a stream.

Main results:

* `Softcode.Assignment.pieces_fit` — all commands of an assignment but the last one are within the
  limit;
* `Softcode.splitCommand_diagnostics` — the warnings about a line are those of its commands;
* `Softcode.compress_diagnostics` — the same for a stream;
* `Softcode.Session.compress_warns` — **every oversized command has a warning of its own**.
-/

import Softcode.Proofs.Splitting
import Softcode.Session

set_option autoImplicit false

namespace Softcode

/-! ### Oversized commands -/

/-- A command that is too long: it has more characters than the limit and is not raw. -/
def isOversized (limit : Nat) (l : Line) : Bool := limit < l.text.length && !isRawText l.text

/-- Why an oversized command was not split: it is no assignment, or it has no place for a cut. -/
def Unsplit.reason (l : Line) : Unsplit :=
  if (Assignment.parse? l.text).isSome then .noSplitPoint else .notAssignment

/-- **The warning that an oversized command gets**, with its own length and at its own place. -/
def oversizeWarning (limit : Nat) (l : Line) : Diagnostic :=
  (Unsplit.reason l).diagnostic l.text.length limit l.location

/-- The warnings of the oversized commands among some lines, in order. -/
def oversizeWarnings (limit : Nat) (ls : List Line) : List Diagnostic :=
  (ls.filter (isOversized limit)).map (oversizeWarning limit)

section OversizeWarnings

variable {limit : Nat} {l : Line} {ls : List Line}

@[simp] theorem oversizeWarnings_nil : oversizeWarnings limit [] = [] := rfl

theorem oversizeWarnings_cons_fit (h : isOversized limit l = false) :
    oversizeWarnings limit (l :: ls) = oversizeWarnings limit ls := by
  simp [oversizeWarnings, h]

theorem oversizeWarnings_cons_oversized (h : isOversized limit l = true) :
    oversizeWarnings limit (l :: ls) = oversizeWarning limit l :: oversizeWarnings limit ls := by
  simp [oversizeWarnings, h]

theorem oversizeWarnings_append (ls ms : List Line) :
    oversizeWarnings limit (ls ++ ms) = oversizeWarnings limit ls ++ oversizeWarnings limit ms := by
  simp [oversizeWarnings]

theorem isOversized_of_le (h : l.text.length ≤ limit) : isOversized limit l = false := by
  have : ¬ limit < l.text.length := Nat.not_lt.2 h
  simp [isOversized, this]

end OversizeWarnings

/-! ### The commands of an assignment -/

/-- A text that begins with an at sign and a letter is not raw. -/
theorem isRawText_wait (t : Text) : isRawText ('@' :: 'w' :: t) = false := rfl

namespace Assignment

/-- A continuation is not raw. -/
theorem isRawText_continuation (a : Assignment) (t : Text) :
    isRawText (a.continuationHead ++ t) = false := by
  obtain ⟨u, hu⟩ : ∃ u, a.continuationHead ++ t = '@' :: 'w' :: u := ⟨_, rfl⟩
  rw [hu, isRawText_wait]

/-- What stands before a cut is within the limit. -/
theorem length_before_cut {limit n : Nat} {head wrap rest : Text}
    (h : cutPlace? limit head wrap rest = some n) :
    (head ++ (wrap ++ rest).take n).length ≤ limit := by
  obtain ⟨-, hlimit⟩ := cutPlace?_bounds h
  have hle : ((wrap ++ rest).take n).length ≤ n := List.length_take_le n (wrap ++ rest)
  rw [List.length_append]
  omega

/-- **All commands of an assignment but the last one are within the limit.** -/
theorem pieces_fit (a : Assignment) (limit : Nat) (head wrap rest : Text) :
    ∀ t ∈ (a.pieces limit head wrap rest).1.dropLast, t.length ≤ limit := by
  fun_induction Assignment.pieces a limit head wrap rest with
  | case1 head wrap rest total htotal => simp
  | case2 head wrap rest total htotal hcut => simp
  | case3 head wrap rest total htotal n hcut more tooLong hmore ih =>
      intro t ht
      rw [hmore] at ih
      cases more with
      | nil => simp at ht
      | cons u more =>
          rw [List.dropLast_cons_of_ne_nil (List.cons_ne_nil u more)] at ht
          rcases List.mem_cons.1 ht with rfl | ht
          · exact length_before_cut hcut
          · exact ih t ht

/-- The length that is reported for an assignment is that of its only oversized command, if it has
one. -/
theorem pieces_warnings (a : Assignment) (limit : Nat) (head wrap rest : Text) (l : Line)
    (hhead : IsHead a.delay a.attr a.obj head) (hraw : isRawText (head ++ wrap ++ rest) = false) :
    ((a.pieces limit head wrap rest).2.toList.map fun total =>
        Unsplit.noSplitPoint.diagnostic total limit l.location) =
      oversizeWarnings limit ((a.pieces limit head wrap rest).1.map l.withText) := by
  fun_induction Assignment.pieces a limit head wrap rest with
  | case1 head wrap rest total htotal =>
      have hfit : (l.withText (head ++ wrap ++ rest)).text.length ≤ limit := by
        simp only [Line.withText_text, List.length_append]
        exact htotal
      rw [List.map_singleton, oversizeWarnings_cons_fit (isOversized_of_le hfit)]
      rfl
  | case2 head wrap rest total htotal hcut =>
      -- the command is an assignment, so the reason is that it has no place for a cut
      have hparse : parse? (head ++ wrap ++ rest) =
          some ⟨head, a.delay, a.attr, a.obj, wrap ++ rest⟩ :=
        parse?_eq_some_iff.2 ⟨hhead, List.append_assoc head wrap rest⟩
      have hlength : (head ++ wrap ++ rest).length = total := by
        simp only [List.length_append, total]
      have hover : isOversized limit (l.withText (head ++ wrap ++ rest)) = true := by
        simp only [isOversized, Line.withText_text, hraw, hlength]
        simpa using htotal
      rw [List.map_singleton, oversizeWarnings_cons_oversized hover, oversizeWarning,
        Unsplit.reason, Line.withText_text, hparse, hlength]
      rfl
  | case3 head wrap rest total htotal n hcut more tooLong hmore ih =>
      have hrest := ih (isHead_continuationHead hhead.names)
        (by rw [List.append_assoc]; exact a.isRawText_continuation _)
      rw [hmore] at hrest
      rw [List.map_cons, oversizeWarnings_cons_fit (isOversized_of_le (length_before_cut hcut))]
      exact hrest

end Assignment

/-! ### The commands of a line and of a stream -/

/-- **The warnings about a line are those of its commands.** -/
theorem splitCommand_diagnostics (limit : Nat) (l : Line) :
    (splitCommand limit l).diagnostics = oversizeWarnings limit (splitCommand limit l).lines := by
  unfold splitCommand
  split
  · next h =>
      have hfit : isOversized limit l = false := by
        rcases Bool.or_eq_true_iff.1 h with hle | hraw
        · exact isOversized_of_le (of_decide_eq_true hle)
        · simp [isOversized, hraw]
      have hnone : oversizeWarnings limit [l] = [] := oversizeWarnings_cons_fit hfit
      exact hnone.symm
  · next h =>
      obtain ⟨hlong, hraw⟩ : limit < l.text.length ∧ isRawText l.text = false := by
        simpa using h
      have hover : isOversized limit l = true := by simp [isOversized, hlong, hraw]
      cases hparse : Assignment.parse? l.text with
      | none =>
          have hreason : Unsplit.reason l = .notAssignment := by simp [Unsplit.reason, hparse]
          dsimp only
          rw [oversizeWarnings_cons_oversized hover, oversizeWarning, hreason]
          rfl
      | some a =>
          obtain ⟨hhead, htext⟩ := Assignment.parse?_eq_some_iff.1 hparse
          refine a.pieces_warnings limit a.head [] a.value l hhead ?_
          rw [List.append_nil, ← htext]
          exact hraw

/-- Of the commands that one line becomes only the last one can be too long. -/
theorem splitCommand_fit (limit : Nat) (l : Line) :
    ∀ m ∈ (splitCommand limit l).lines.dropLast, m.text.length ≤ limit := by
  unfold splitCommand
  split
  · simp [Staged.quiet]
  · split
    · simp
    · next a _ =>
        intro m hm
        dsimp only at hm
        rw [← List.map_dropLast] at hm
        obtain ⟨t, ht, rfl⟩ := List.mem_map.1 hm
        exact a.pieces_fit limit a.head [] a.value t ht

/-- **The warnings of compression are those of the commands that come out of it.** -/
theorem compress_diagnostics (macros : List Macro) (limit : Nat) (ls : List Line) :
    (compress macros limit ls).diagnostics =
      oversizeWarnings limit (compress macros limit ls).lines := by
  unfold compress
  generalize Macro.applyAll macros (joinLines (stripComments ls)) = commands
  induction commands with
  | nil => rfl
  | cons l commands ih =>
      rw [Staged.each_cons, Staged.diagnostics_append, Staged.lines_append,
        oversizeWarnings_append, splitCommand_diagnostics, ih]

theorem countP_oversizeWarnings (limit : Nat) (ls : List Line) :
    (oversizeWarnings limit ls).countP (·.code == "MF-CMP-0001") =
      ls.countP (isOversized limit) := by
  have hall : ∀ d ∈ oversizeWarnings limit ls, (d.code == "MF-CMP-0001") = true := by
    intro d hd
    obtain ⟨l, -, rfl⟩ := List.mem_map.1 hd
    rfl
  rw [List.countP_eq_length.2 hall, oversizeWarnings, List.length_map,
    List.countP_eq_length_filter]

/-- **Every oversized command has a warning of its own.**  Whatever a session holds and whatever the
limit is, compression adds the warnings of the commands that are longer than the limit and not raw:
one for each of them, in their order, with the place and the length of the command.  So the number
of these warnings grows by the number of oversized commands.  The commands are those that the lines
are split into, one line after the other, and of the commands of one line only the last one can be
longer than the limit. -/
theorem Session.compress_warns (s : Session) (limit : Nat) :
    (s.compress limit).diagnostics =
      s.diagnostics ++ ((s.compress limit).lines.filter (isOversized limit)).map
        (oversizeWarning limit) ∧
    (∀ l, (oversizeWarning limit l).code = "MF-CMP-0001" ∧
      (oversizeWarning limit l).loc = some l.location) ∧
    (s.compress limit).diagnostics.countP (·.code == "MF-CMP-0001") =
      s.diagnostics.countP (·.code == "MF-CMP-0001") +
        (s.compress limit).lines.countP (isOversized limit) ∧
    (s.compress limit).lines =
      (Macro.applyAll s.macros (joinLines (stripComments s.lines))).flatMap
        (fun l => (splitCommand limit l).lines) ∧
    ∀ l, ∀ m ∈ (splitCommand limit l).lines.dropLast, m.text.length ≤ limit := by
  have hadded : (s.compress limit).diagnostics =
      s.diagnostics ++ oversizeWarnings limit (s.compress limit).lines :=
    congrArg (s.diagnostics ++ ·) (compress_diagnostics s.macros limit s.lines)
  refine ⟨hadded, fun l => ⟨rfl, rfl⟩, ?_, ?_, splitCommand_fit limit⟩
  · rw [hadded, List.countP_append, countP_oversizeWarnings]
  · exact List.flatMap_map (splitCommand limit) Staged.lines _

/-- An assignment whose last command is too long: behind a cut its value is one pair of brackets. -/
theorem Session.compress_warns_lastCommand :
    let text := "&X me=".toList ++ List.replicate 120 'A' ++ '[' :: List.replicate 200 'c' ++ [']']
    let s : Session := ⟨[⟨text, "main", 4⟩], false, [], [], [], []⟩
    (s.compress 150).lines.length = 2 ∧
      (s.compress 150).diagnostics.countP (·.code == "MF-CMP-0001") = 1 := by
  intro text s
  refine ⟨by decide +kernel, ?_⟩
  rw [(Session.compress_warns s 150).2.2.1]
  decide +kernel

end Softcode
