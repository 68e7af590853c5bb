/-
**Raw lines are barriers.**

Compression passes over a stream four times, and each pass has something that it carries from one
line to the next: an open block comment, a line that may be continued, the macros, what is left of a
command.  A raw line outside a block comment stops all of it.  The lines before it and the lines
behind it are compressed as if they were streams of their own, and the raw line stands between them
as it was.

Joining comes to a fresh line in two ways, at the beginning of a stream and behind a raw line.  That
they are the same is the reason why the part behind the barrier can be taken for a stream.

Main results:

* `Softcode.joinLines_append_raw` — nothing is joined across a raw line;
* `Softcode.joinLines_indented` — an indented line at the beginning of a stream is joined to
  nothing;
* `Softcode.Staged.each_append` — a stage that treats each line by itself goes part by part;
* `Softcode.compress_append_raw` — **compression goes part by part at a raw line**.
-/

import Mathlib.Data.List.DropRight
import Softcode.Compress
import Softcode.Proofs.Stripping
import Softcode.Proofs.Text

set_option autoImplicit false

namespace Softcode

/-! ### Joining -/

/-- A raw line ends what is being joined, and joining begins again behind it. -/
theorem joinFrom_append_raw (current : Option Line) (ls ms : List Line) {r : Line}
    (hr : isRawText r.text = true) :
    joinFrom current (ls ++ r :: ms) = joinFrom current ls ++ r :: joinFrom none ms := by
  induction ls generalizing current with
  | nil => simp [joinFrom, hr]
  | cons l ls ih =>
      by_cases hraw : isRawText l.text = true
      · simp [joinFrom, hraw, ih]
      · by_cases hindent : isIndented l.text = true
        · cases current with
          | none => simp [joinFrom, hraw, hindent, ih]
          | some p => simp [joinFrom, hraw, hindent, ih]
        · simp [joinFrom, hraw, hindent, ih]

/-- **Nothing is joined across a raw line.** -/
theorem joinLines_append_raw (ls ms : List Line) {r : Line} (hr : isRawText r.text = true) :
    joinLines (ls ++ r :: ms) = joinLines ls ++ r :: joinLines ms :=
  joinFrom_append_raw none ls ms hr

theorem isIndented_trimStart (t : Text) : isIndented (Text.trimStart t) = false := by
  cases ht : Text.trimStart t with
  | nil => rfl
  | cons c s =>
      have hc : isBlank c = false := Text.head?_trimStart (by rw [ht]; rfl)
      have hne : c ≠ ' ' ∧ c ≠ '\t' := by
        constructor
        · rintro rfl
          exact absurd hc (by decide)
        · rintro rfl
          exact absurd hc (by decide)
      simp [isIndented, hne]

theorem isRawText_trimStart (t : Text) : isRawText (Text.trimStart t) = isRawText t := by
  unfold isRawText Text.trimStart
  rw [List.dropWhile_idempotent]

/-- **An indented line at the beginning of a stream is joined to nothing**: it begins a line,
without the blanks in front of it. -/
theorem joinLines_indented {l : Line} {ls : List Line} (hraw : isRawText l.text = false)
    (hindent : isIndented l.text = true) :
    joinLines (l :: ls) = joinLines (l.withText (Text.trimStart l.text) :: ls) := by
  have hraw' : isRawText (Text.trimStart l.text) = false := by rw [isRawText_trimStart, hraw]
  simp [joinLines, joinFrom, hraw, hindent, hraw', isIndented_trimStart]

/-! ### Stages that treat each line by itself -/

/-- Such a stage goes part by part. -/
theorem Staged.each_append (f : Line → Staged) (ls ms : List Line) :
    Staged.each f (ls ++ ms) = Staged.each f ls ++ Staged.each f ms := by
  change _ = Staged.append _ _
  simp [Staged.each, Staged.append]

/-- Macros are applied part by part. -/
theorem Macro.applyAll_append (macros : List Macro) (ls ms : List Line) :
    Macro.applyAll macros (ls ++ ms) = Macro.applyAll macros ls ++ Macro.applyAll macros ms :=
  List.flatMap_append

/-- No macro is applied to a raw line. -/
theorem Macro.applyAll_cons_raw (macros : List Macro) {r : Line} (hr : isRawText r.text = true)
    (ls : List Line) : Macro.applyAll macros (r :: ls) = r :: Macro.applyAll macros ls := by
  simp [Macro.applyAll, Macro.applyLine, hr]

/-- A raw line is not split. -/
theorem splitCommand_raw (limit : Nat) {r : Line} (hr : isRawText r.text = true) :
    splitCommand limit r = .quiet [r] := by
  simp [splitCommand, hr]

/-! ### The barrier -/

/-- **Compression goes part by part at a raw line.**  If no block comment is open behind the lines
before it, a raw line stands as it is between what these lines are compressed to and what the lines
behind it are compressed to, and the findings are those of the two parts, in order.  An indented
line that comes first behind it begins a line of its own, without its blanks. -/
theorem compress_append_raw (macros : List Macro) (limit : Nat) (ls ms : List Line) (r : Line)
    (hr : isRawText r.text = true) (hopen : Mode.code.after ls ≠ .block) :
    (compress macros limit (ls ++ [r] ++ ms)).lines =
      (compress macros limit ls).lines ++ [r] ++ (compress macros limit ms).lines ∧
    (compress macros limit (ls ++ [r] ++ ms)).diagnostics =
      (compress macros limit ls).diagnostics ++ (compress macros limit ms).diagnostics ∧
    ∀ m more, stripComments ms = m :: more → isIndented m.text = true → isRawText m.text = false →
      joinLines (stripComments (ls ++ [r] ++ ms)) =
        joinLines (stripComments ls) ++
          r :: joinLines (m.withText (Text.trimStart m.text) :: more) := by
  have hstrip : stripComments (ls ++ [r] ++ ms) =
      stripComments ls ++ r :: stripComments ms := by
    rw [List.append_assoc]
    exact stripComments_append_raw hr hopen
  have hjoin : joinLines (stripComments (ls ++ [r] ++ ms)) =
      joinLines (stripComments ls) ++ r :: joinLines (stripComments ms) := by
    rw [hstrip, joinLines_append_raw _ _ hr]
  have hparts : compress macros limit (ls ++ [r] ++ ms) =
      compress macros limit ls ++ (.quiet [r] ++ compress macros limit ms) := by
    unfold compress
    rw [hjoin, Macro.applyAll_append, Macro.applyAll_cons_raw macros hr, Staged.each_append,
      Staged.each_cons, splitCommand_raw limit hr]
  refine ⟨?_, ?_, ?_⟩
  · rw [hparts]
    simp [Staged.quiet]
  · rw [hparts]
    simp [Staged.quiet]
  · intro m more hms hindent hraw
    rw [hjoin, hms, joinLines_indented hraw hindent]

/-- A raw line behind a comment that is closed, before an indented line and a comment. -/
theorem compress_append_raw_note :
    (compress [] 100 ([⟨"&A obj=1 /* x".toList, "main", 1⟩, ⟨"*/".toList, "main", 2⟩] ++
        [⟨"@@ note // kept".toList, "main", 3⟩] ++ [⟨"  2 // gone".toList, "main", 4⟩])).lines =
      [⟨"&A obj=1 ".toList, "main", 1⟩, ⟨"@@ note // kept".toList, "main", 3⟩,
        ⟨"2".toList, "main", 4⟩] := by
  rw [(compress_append_raw [] 100 _ _ _ (by decide +kernel) (by decide +kernel)).1]
  decide +kernel

end Softcode
