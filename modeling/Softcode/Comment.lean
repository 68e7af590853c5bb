/-
**Taking comments out.**

Outside block comments a line with the drop marker is left out and a line with the raw marker is
kept as it is.  Every other line loses its comments; if one of them ran to the end of the line, the
blanks before it go too.  Lines of blanks only are left out.

Main definitions:

* `Softcode.keepCode` — the characters that are not part of a comment;
* `Softcode.stripLine` — a line without its comments;
* `Softcode.stripComments` — a stream without its comments.
-/

import Softcode.Line
import Softcode.Scan

set_option autoImplicit false

namespace Softcode

/-- The characters whose role is not that of a comment. -/
def keepCode : Text → List Role → Text
  | c :: s, r :: rs => if r = .comment then keepCode s rs else c :: keepCode s rs
  | _, _ => []

/-- A line that begins in the given mode without its comments, and the mode at its end. -/
def stripLine (mode : Mode) (t : Text) : Text × Mode :=
  let (roles, last) := scanLine mode t
  let kept := keepCode t roles
  (if last = .lineComment then Text.trimEnd kept else kept, last)

/-- The lines of a stream that begins in the given mode, without their comments. -/
def stripFrom : Mode → List Line → List Line
  | _, [] => []
  | mode, l :: ls =>
      if mode ≠ .block ∧ isDroppedText l.text then stripFrom mode ls
      else if mode ≠ .block ∧ isRawText l.text then l :: stripFrom mode ls
      else
        let (kept, last) := stripLine mode l.text
        let more := stripFrom last.nextLine ls
        if Text.isBlankText kept then more else l.withText kept :: more

/-- **A stream without its comments.** -/
def stripComments (lines : List Line) : List Line := stripFrom .code lines

end Softcode
