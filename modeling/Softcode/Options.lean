/-
**Options of a compilation.**

Main definitions:

* `Softcode.Options` — what may be set for a compilation.
-/

import Softcode.Compress
import Softcode.Language
import Softcode.Lint

set_option autoImplicit false

namespace Softcode

/-- What may be set for a compilation: the directory that references are relative to, if it is not
the current one; a directory with modules that take precedence over the bundled ones; whether debug
sections are kept; macros, as triggers and bodies; the length up to which commands are safe; the
extension of sources; and the levels of the linter's rules. -/
structure Options where
  baseDir : Option Text := none
  stdRoot : Option Text := none
  debug : Bool := false
  defines : List (Text × Text) := []
  safeLimit : Nat := Softcode.safeLimit
  sourceExt : Text := defaultSourceExt
  linter : Lint.Options := {}

end Softcode
