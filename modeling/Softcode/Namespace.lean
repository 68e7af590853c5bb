/-
**Names under an alias.**

An imported source gets an alias.  The attributes and functions that it defines — by lines that
begin with `&NAME ` or `@def/func NAME(` — are renamed to `ALIAS-NAME`, in their definitions and
wherever they occur as whole words; an occurrence that already has the alias in front is left
alone.

As with constants, there is no limit to the names that are looked for.  The error that a regular
expression for them is too large is left out, so that renaming never fails.

Main definitions:

* `Softcode.Namespace.defined?` — the name that a line defines;
* `Softcode.Namespace.rename` — a text with the given names put under an alias;
* `Softcode.Namespace.apply` — a stream with its names put under an alias.
-/

import Softcode.Line
import Softcode.Word

set_option autoImplicit false

namespace Softcode

namespace Namespace

/-- The attribute that a line defines: `&NAME` and a blank. -/
def definedAttribute? (line : Text) : Option Text := do
  let rest ← Text.dropPrefix? ['&'] line
  let name := rest.takeWhile isWordClass
  let after := rest.dropWhile isWordClass
  if !name.isEmpty && after.head?.any isBlank then some name else none

/-- The function that a line defines: `@def/func`, blanks, the name and an opening parenthesis. -/
def definedFunction? (line : Text) : Option Text := do
  let rest ← Text.dropPrefix? "@def/func".toList line
  let name := (Text.trimStart rest).takeWhile isWordClass
  let after := (Text.trimStart rest).dropWhile isWordClass
  if rest.head?.any isBlank && !name.isEmpty && after.head? == some '(' then some name else none

/-- The name that a line defines. -/
def defined? (line : Text) : Option Text := (definedAttribute? line).or (definedFunction? line)

/-- The names that the lines define, in the order in which they are looked for. -/
def names (lines : List Line) : List Text :=
  Word.longestFirst (lines.filterMap fun l => defined? l.text)

/-- A text with the given names put under an alias. -/
def rename (names : List Text) (label : Text) (s : Text) : Text :=
  let tag := label ++ ['-']
  Word.replace names
    (fun before name => if Text.startsWith tag.reverse before then name else tag ++ name) s

/-- **A stream with the names that it defines put under an alias.** -/
def apply (lines : List Line) (label : Text) : List Line :=
  let names := names lines
  lines.map fun l => l.withText (rename names label l.text)

end Namespace

end Softcode
