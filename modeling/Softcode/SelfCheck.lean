/-
**Self-checks.**

A block `@test "NAME" { BODY } expect { EXPECTED }` becomes one command that evaluates both sides
when the code is loaded and says whether they agree.  Both sides may go over several lines, whose
blanks at the ends are dropped; braces inside them nest, and a backslash protects the character
behind it.  A block that is not of this form is kept as text.

The block is read from a stream of marks: the characters of the lines, and the ends of lines, which
read as line feeds.

Main definitions:

* `Softcode.SelfCheck` — a check;
* `Softcode.SelfCheck.render` — the command for a check;
* `Softcode.SelfCheck.parse?` — the check that begins with a line;
* `Softcode.SelfCheck.expand` — a stream with its checks replaced.
-/

import Softcode.Diagnostic

set_option autoImplicit false

namespace Softcode

/-- A check: its name and its two sides. -/
structure SelfCheck where
  name : Text
  body : Text
  expected : Text
  deriving DecidableEq

namespace SelfCheck

/-- The command for a check. -/
def render (t : SelfCheck) : Text :=
  "think [setq(0, ".toList ++ t.body ++ ")][setq(1, ".toList ++ t.expected ++
    ")][ifelse(strmatch(%q0, %q1), ansi(gh, PASS: ".toList ++ t.name ++
    "), ansi(rh, FAIL: ".toList ++ t.name ++ ": Expected '%q1' but got '%q0'))]".toList

/-! ### Marks -/

/-- A character of a line, or the end of a line. -/
abbrev Mark := Option Char

/-- The character that a mark reads as. -/
def Mark.char (m : Mark) : Char := m.getD '\n'

/-- The marks of the rest of a line and of the lines behind it. -/
def marks (rest : Text) (later : List Line) : List Mark :=
  rest.map some ++ later.flatMap fun l => none :: l.text.map some

/-- The number of lines that end in a list of marks. -/
def lineEnds (ms : List Mark) : Nat := ms.count none

/-- The marks behind blanks. -/
def skipBlanks (ms : List Mark) : List Mark := ms.dropWhile fun m => isBlank (Mark.char m)

/-- The marks behind a text, if it comes next on the line. -/
def eat? : Text → List Mark → Option (List Mark)
  | [], ms => some ms
  | c :: s, some d :: ms => if c = d then eat? s ms else none
  | _ :: _, _ => none

/-- The text up to the brace that closes the `depth + 1` open ones, and the marks behind it. -/
def balanced : Nat → List Mark → Option (Text × List Mark)
  | _, [] => none
  | depth, some '\\' :: m :: ms =>
      (balanced depth ms).map fun (t, r) => ('\\' :: Mark.char m :: t, r)
  | depth, m :: ms =>
      if m = some '\x7d' then
        match depth with
        | 0 => some ([], ms)
        | d + 1 => (balanced d ms).map fun (t, r) => ('\x7d' :: t, r)
      else
        let inner := if m = some '\x7b' then depth + 1 else depth
        (balanced inner ms).map fun (t, r) => (Mark.char m :: t, r)

/-- Whether only blanks are left on the line. -/
def restIsBlank (ms : List Mark) : Bool := (ms.takeWhile Option.isSome).all fun m => m.all isBlank

/-- The lines of a side, trimmed and put together. -/
def joinSide (s : Text) : Text := (Text.lines s).flatMap Text.trim

/-! ### Blocks -/

/-- The word that begins a check. -/
def testKeyword : Text := "@test".toList

/-- The word between the two sides. -/
def expectKeyword : Text := "expect".toList

/-- Whether a line begins a check. -/
def opens (line : Text) : Bool :=
  match Text.dropPrefixCi? testKeyword (Text.trimStart line) with
  | none => false
  | some rest => rest.head?.any isBlank

/-- The name of a check and what follows it on the line. -/
def parseName? (line : Text) : Option (Text × Text) := do
  let rest ← Text.dropPrefixCi? testKeyword (Text.trimStart line)
  let rest ← Text.dropPrefix? ['"'] (Text.trimStart rest)
  let (name, after) ← Text.cut? '"' rest
  if Text.isBlankText name then none else some (name, after)

/-- The two sides of a check, and the marks behind it. -/
def parseSides? (ms : List Mark) : Option (Text × Text × List Mark) := do
  let ms ← eat? ['\x7b'] (skipBlanks ms)
  let (body, ms) ← balanced 0 ms
  let ms ← eat? expectKeyword (skipBlanks ms)
  let ms ← eat? ['\x7b'] (skipBlanks ms)
  let (expected, ms) ← balanced 0 ms
  if restIsBlank ms then some (joinSide body, joinSide expected, ms) else none

/-- The check that begins with a line, and the number of further lines that it takes up. -/
def parse? (line : Text) (later : List Line) : Option (SelfCheck × Nat) := do
  let (name, after) ← parseName? line
  let all := marks after later
  let (body, expected, left) ← parseSides? all
  some (⟨name, body, expected⟩, lineEnds all - lineEnds left)

/-- The warning about a block that is kept as text. -/
def malformed (loc : Location) : Diagnostic :=
  .warn "MF-TPL-0008" .template "malformed @test block; line kept as text" loc

/-- The stream with its checks replaced, where the next `skip` lines belong to a check that is
already replaced. -/
def expandFrom : Nat → List Line → Staged
  | _, [] => .quiet []
  | skip + 1, _ :: ls => expandFrom skip ls
  | 0, l :: ls =>
      if opens l.text then
        match parse? l.text ls with
        | some (t, n) => .quiet [l.withText t.render] ++ expandFrom n ls
        | none => ⟨[l], [malformed l.location]⟩ ++ expandFrom 0 ls
      else .quiet [l] ++ expandFrom 0 ls

/-- **A stream with its checks replaced by commands.**  A command stands at the place of the first
line of its block. -/
def expand (lines : List Line) : Staged := expandFrom 0 lines

end SelfCheck

end Softcode
