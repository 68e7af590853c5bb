/-
**Compression.**

The last stage before checking turns a stream into commands: comments go, continuation lines are
joined, macros are applied and commands that are too long are split.

Main definitions:

* `Softcode.compress` — the commands of a stream.
-/

import Softcode.Assignment
import Softcode.Macro

set_option autoImplicit false

namespace Softcode

/-- The length up to which a command is safe. -/
def safeLimit : Nat := 8000

/-- **The commands of a stream.** -/
def compress (macros : List Macro) (limit : Nat) (lines : List Line) : Staged :=
  .each (splitCommand limit) (Macro.applyAll macros (joinLines (stripComments lines)))

end Softcode
