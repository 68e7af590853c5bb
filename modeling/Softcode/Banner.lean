/-
**Headers and footers.**

Sources may ask for header and footer lines.  They are put around the commands as raw lines, which
the target takes for comments, with an empty line between.

Main definitions:

* `Softcode.Banner` — a header or footer line;
* `Softcode.renderOutput` — commands with their headers and footers.
-/

import Softcode.Scan

set_option autoImplicit false

namespace Softcode

/-- A header or footer line: a name and perhaps a value. -/
structure Banner where
  name : Text
  value : Text
  deriving DecidableEq

/-- The text of a header or footer line. -/
def Banner.render (b : Banner) : Text :=
  rawMarker ++ [' '] ++ b.name ++ if b.value.isEmpty then [] else [':', ' '] ++ b.value

/-- **Commands with their headers and footers.** -/
def renderOutput (output : Text) (headers footers : List Banner) : Text :=
  let top := headers.flatMap fun h => h.render ++ ['\n']
  let gap := if headers.isEmpty then [] else ['\n']
  let bottom :=
    if footers.isEmpty then [] else ['\n', '\n'] ++ Text.join ['\n'] (footers.map Banner.render)
  top ++ gap ++ output ++ bottom

end Softcode
