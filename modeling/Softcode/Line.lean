/-
**Source lines and where they come from.**

A line carries its text together with the source it was read from and its number there.  Rewriting
a line keeps both, so whatever is said about a line later can be traced to the place that the
author wrote.

Main definitions:

* `Softcode.Location` — a line of a source, perhaps with a column;
* `Softcode.Line` — a text with the place it comes from;
* `Softcode.Line.ofSource` — the numbered lines of a source;
* `Softcode.Line.joined` — the texts of lines, one under the other.
-/

import Softcode.Text.Basic

set_option autoImplicit false

namespace Softcode

/-- A line of a source, perhaps with a column; lines and columns are counted from one. -/
structure Location where
  file : String
  line : Nat
  col : Option Nat
  deriving DecidableEq

/-- The usual writing `file:line:col`. -/
def Location.render (l : Location) : String :=
  l.file ++ ":" ++ toString l.line ++
    match l.col with
    | none => ""
    | some col => ":" ++ toString col

/-- A line of text with the place it comes from. -/
structure Line where
  text : Text
  file : String
  number : Nat
  deriving DecidableEq

namespace Line

/-- Another text at the same place. -/
def withText (l : Line) (text : Text) : Line := { l with text := text }

/-- The place of a line. -/
def location (l : Line) : Location := ⟨l.file, l.number, none⟩

@[simp] theorem withText_text (l : Line) (t : Text) : (l.withText t).text = t := rfl

@[simp] theorem withText_file (l : Line) (t : Text) : (l.withText t).file = l.file := rfl

@[simp] theorem withText_number (l : Line) (t : Text) : (l.withText t).number = l.number := rfl

@[simp] theorem location_withText (l : Line) (t : Text) :
    (l.withText t).location = l.location := rfl

/-- Texts as consecutive lines of a source, from the line number `n` on. -/
def numbered (file : String) : Nat → List Text → List Line
  | _, [] => []
  | n, t :: ts => ⟨t, file, n⟩ :: numbered file (n + 1) ts

/-- The lines of a source, numbered from one. -/
def ofSource (src : Text) (file : String) : List Line := numbered file 1 src.lines

/-- The texts of lines, separated by line feeds. -/
def joined (ls : List Line) : Text := Text.join ['\n'] (ls.map (·.text))

end Line

end Softcode
