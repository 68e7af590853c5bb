/-
**Constants.**

A line `#const NAME = VALUE` declares a constant for the whole stream, wherever it stands.  The
declarations are taken out, and in the other lines every whole-word occurrence of a declared name
is replaced by its value.  Of two declarations of one name the later one counts.  A line that does
not have the form of a declaration stays as it is.

The names are looked for all at once.  There is no limit to how many they are or how long: where
they are looked for by a regular expression, one that is too large may be refused, and this error is
left out here, so that replacing constants never fails.

Main definitions:

* `Softcode.Constant.parse?` — the name and value of a declaration;
* `Softcode.Constant.table` — the declarations of a stream;
* `Softcode.Constant.resolve` — a stream with its constants replaced.
-/

import Softcode.Directive
import Softcode.Line
import Softcode.Word

set_option autoImplicit false

namespace Softcode

namespace Constant

/-- The directive that declares a constant. -/
def keyword : Text := ['c', 'o', 'n', 's', 't']

/-- The name and value of a declaration.  The name is made of word characters and neither it nor
the value is empty. -/
def parse? (line : Text) : Option (Text × Text) := do
  let arg ← directiveArg? '#' keyword line
  let (key, value) ← Text.cut? '=' arg
  let key := Text.trim key
  let value := Text.trim value
  if key.isEmpty || !key.all isWordChar || value.isEmpty then none else some (key, value)

/-- The declarations of a stream, in order. -/
def table (lines : List Line) : List (Text × Text) := lines.filterMap fun l => parse? l.text

/-- The value of a name: that of its last declaration. -/
def value? (decls : List (Text × Text)) (name : Text) : Option Text :=
  (decls.reverse.find? fun d => d.1 = name).map (·.2)

/-- The lines that declare nothing. -/
def otherLines (lines : List Line) : List Line := lines.filter fun l => (parse? l.text).isNone

/-- The declared names, in the order in which they are tried. -/
def names (decls : List (Text × Text)) : List Text := Word.longestFirst (decls.map (·.1))

/-- A text with the given names replaced by their declared values. -/
def substitute (decls : List (Text × Text)) (names : List Text) (s : Text) : Text :=
  Word.replace names (fun _ name => (value? decls name).getD name) s

/-- **A stream with its constants replaced.** -/
def resolve (lines : List Line) : List Line :=
  let decls := table lines
  let names := names decls
  (otherLines lines).map fun l => l.withText (substitute decls names l.text)

end Constant

end Softcode
