/-
**Stripping, line by line.**

Comments are taken out of every line by itself; the only thing that a line tells the next one is
whether a block comment is open.  This module says what is left of one line and which mode the next
one begins in, so that a stream is stripped by a fold of the one over the other.  A stream in two
parts is then stripped part by part, and every line that is left can be followed back to the line it
comes from.

Main definitions:

* `Softcode.Mode.behind`, `Softcode.Mode.after` — **the mode behind a line**, and behind lines;
* `Softcode.strippedLine?` — what is left of a line.

Main results:

* `Softcode.stripFrom_cons`, `Softcode.stripFrom_append` — stripping goes line by line, and part by
  part;
* `Softcode.mem_stripFrom_iff` — where the lines that are left come from;
* `Softcode.Mode.after_code` — a line begins in code or in a block comment;
* `Softcode.stripComments_append_raw` — **a raw line outside a block comment separates the lines
  before it from those behind it**.
-/

import Softcode.Comment

set_option autoImplicit false

namespace Softcode

/-! ### One line -/

/-- **The mode behind a line**: lines with a marker are not read, unless a block comment is open. -/
def Mode.behind (mode : Mode) (l : Line) : Mode :=
  if mode ≠ .block ∧ (isDroppedText l.text ∨ isRawText l.text) then mode
  else (stripLine mode l.text).2.nextLine

/-- The mode behind lines. -/
def Mode.after (mode : Mode) (ls : List Line) : Mode := ls.foldl Mode.behind mode

@[simp] theorem Mode.after_nil (mode : Mode) : mode.after [] = mode := rfl

@[simp] theorem Mode.after_cons (mode : Mode) (l : Line) (ls : List Line) :
    mode.after (l :: ls) = (mode.behind l).after ls := rfl

/-- What is left of a line that begins in the given mode. -/
def strippedLine? (mode : Mode) (l : Line) : Option Line :=
  if mode ≠ .block ∧ isDroppedText l.text then none
  else if mode ≠ .block ∧ isRawText l.text then some l
  else if Text.isBlankText (stripLine mode l.text).1 then none
  else some (l.withText (stripLine mode l.text).1)

/-- A line that is left and is no raw line has been read. -/
theorem eq_of_strippedLine? {mode : Mode} {l m : Line} (h : strippedLine? mode l = some m)
    (hraw : isRawText m.text = false) : m = l.withText (stripLine mode l.text).1 := by
  unfold strippedLine? at h
  split at h
  · cases h
  · split at h
    · next hl =>
        cases h
        rw [hl.2] at hraw
        cases hraw
    · split at h
      · cases h
      · exact (Option.some.inj h).symm

/-! ### Streams -/

/-- **Stripping goes line by line.** -/
theorem stripFrom_cons (mode : Mode) (l : Line) (ls : List Line) :
    stripFrom mode (l :: ls) =
      (strippedLine? mode l).toList ++ stripFrom (mode.behind l) ls := by
  rw [stripFrom]
  by_cases hdropped : mode ≠ .block ∧ isDroppedText l.text = true
  · simp [strippedLine?, Mode.behind, hdropped]
  · rw [if_neg hdropped]
    by_cases hraw : mode ≠ .block ∧ isRawText l.text = true
    · rw [if_pos hraw, strippedLine?, if_neg hdropped, if_pos hraw, Mode.behind,
        if_pos ⟨hraw.1, Or.inr hraw.2⟩]
      rfl
    · have hread : ¬ (mode ≠ .block ∧ (isDroppedText l.text = true ∨ isRawText l.text = true)) := by
        rintro ⟨hmode, h | h⟩
        · exact hdropped ⟨hmode, h⟩
        · exact hraw ⟨hmode, h⟩
      simp only [strippedLine?, Mode.behind, if_neg hdropped, if_neg hraw, if_neg hread]
      split <;> rfl

/-- **Stripping goes part by part**, each part in the mode that the one before it ends in. -/
theorem stripFrom_append (mode : Mode) (ls ms : List Line) :
    stripFrom mode (ls ++ ms) = stripFrom mode ls ++ stripFrom (mode.after ls) ms := by
  induction ls generalizing mode with
  | nil => rfl
  | cons l ls ih =>
      rw [List.cons_append, stripFrom_cons, ih, stripFrom_cons, List.append_assoc, Mode.after_cons]

/-- **Where the lines that are left come from**: each of them is what is left of one line, which is
read in the mode that the lines before it end in. -/
theorem mem_stripFrom_iff {mode : Mode} {ls : List Line} {m : Line} :
    m ∈ stripFrom mode ls ↔
      ∃ before l after, ls = before ++ l :: after ∧
        strippedLine? (mode.after before) l = some m := by
  constructor
  · intro h
    induction ls generalizing mode with
    | nil => exact absurd h List.not_mem_nil
    | cons l ls ih =>
        rw [stripFrom_cons] at h
        rcases List.mem_append.1 h with h | h
        · exact ⟨[], l, ls, rfl, Option.mem_toList.1 h⟩
        · obtain ⟨before, l', after, rfl, hm⟩ := ih h
          exact ⟨l :: before, l', after, rfl, hm⟩
  · rintro ⟨before, l, after, rfl, hm⟩
    rw [stripFrom_append, stripFrom_cons, hm]
    simp

/-! ### The modes that lines begin in -/

/-- A mode that a line can begin in: code, or a block comment. -/
def Mode.IsStart (mode : Mode) : Prop := mode = .code ∨ mode = .block

theorem Mode.isStart_nextLine (mode : Mode) : mode.nextLine.IsStart := by
  cases mode with
  | block => exact Or.inr rfl
  | code | quoted | lineComment => exact Or.inl rfl

theorem Mode.IsStart.behind {mode : Mode} (h : mode.IsStart) (l : Line) :
    (mode.behind l).IsStart := by
  unfold Mode.behind
  split
  · exact h
  · exact Mode.isStart_nextLine _

/-- A line begins in code or in a block comment. -/
theorem Mode.IsStart.after {mode : Mode} (h : mode.IsStart) (ls : List Line) :
    (mode.after ls).IsStart := by
  induction ls generalizing mode with
  | nil => exact h
  | cons l ls ih => exact ih (h.behind l)

/-- The mode behind lines that begin in code: code again, unless a block comment is open. -/
theorem Mode.after_code (ls : List Line) : (Mode.code.after ls).IsStart :=
  Mode.IsStart.after (Or.inl rfl) ls

/-! ### Raw lines -/

/-- A raw line has no other marker. -/
theorem isDroppedText_of_isRawText {t : Text} (h : isRawText t = true) :
    isDroppedText t = false := by
  unfold isRawText Text.startsWith at h
  obtain ⟨rest, hrest⟩ := Option.isSome_iff_exists.1 h
  unfold isDroppedText
  rw [Text.dropPrefix?_eq_some_iff.1 hrest]
  rfl

/-- A raw line outside a block comment is kept. -/
theorem strippedLine?_raw {mode : Mode} {l : Line} (hmode : mode ≠ .block)
    (h : isRawText l.text = true) : strippedLine? mode l = some l := by
  simp [strippedLine?, hmode, h, isDroppedText_of_isRawText h]

/-- A raw line outside a block comment changes no mode. -/
theorem Mode.behind_raw {mode : Mode} {l : Line} (hmode : mode ≠ .block)
    (h : isRawText l.text = true) : mode.behind l = mode := by
  simp [Mode.behind, hmode, h]

/-- **A raw line outside a block comment separates** the lines before it from those behind it. -/
theorem stripComments_append_raw {ls ms : List Line} {r : Line} (hr : isRawText r.text = true)
    (hopen : Mode.code.after ls ≠ .block) :
    stripComments (ls ++ r :: ms) = stripComments ls ++ r :: stripComments ms := by
  have hcode : Mode.code.after ls = .code := (Mode.after_code ls).resolve_right hopen
  have hmode : Mode.code ≠ .block := nofun
  unfold stripComments
  rw [stripFrom_append, hcode, stripFrom_cons, strippedLine?_raw hmode hr, Mode.behind_raw hmode hr]
  rfl

end Softcode
