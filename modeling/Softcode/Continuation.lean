/-
**Continuation lines.**

A line that begins with a space or a tab continues the line before it: it is appended to it without
its leading blanks.  A raw line stands alone: it continues nothing, and nothing continues it, so an
indented line behind it begins a line of its own.

Main definitions:

* `Softcode.isIndented` — lines that continue the one before;
* `Softcode.joinLines` — a stream with its continuations joined.
-/

import Softcode.Line
import Softcode.Scan

set_option autoImplicit false

namespace Softcode

/-- A text that begins with a space or a tab. -/
def isIndented : Text → Bool
  | c :: _ => c == ' ' || c == '\t'
  | [] => false

/-- The lines of a stream with their continuations, where `current` is the line that can be
continued, if there is one. -/
def joinFrom : Option Line → List Line → List Line
  | current, [] => current.toList
  | current, l :: ls =>
      if isRawText l.text then current.toList ++ l :: joinFrom none ls
      else if isIndented l.text then
        match current with
        | some p => joinFrom (some (p.withText (p.text ++ Text.trimStart l.text))) ls
        | none => joinFrom (some (l.withText (Text.trimStart l.text))) ls
      else current.toList ++ joinFrom (some l) ls

/-- **A stream with its continuation lines joined.** -/
def joinLines (lines : List Line) : List Line := joinFrom none lines

end Softcode
