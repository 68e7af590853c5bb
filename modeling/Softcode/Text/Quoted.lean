/-
**Quoted text in messages.**

A text inside a message is written between double quotes.  Quotes, backslashes, tabs and line ends
inside it are escaped with a backslash; a character that would not be visible by itself — a control
or format character, a separator other than the space, an unassigned or private code point, or a
mark that attaches to the character before it — is written by its code point in hexadecimal.

Main definitions:

* `Softcode.isVisible` — characters that stand for themselves;
* `Softcode.quoteChar` — one character between quotes;
* `Softcode.quoted` — a text between quotes.
-/

import Softcode.Text.Category

set_option autoImplicit false

namespace Softcode

/-- The code points that extend the character before them and are no nonspacing or enclosing
marks. -/
def otherExtending : List (Nat × Nat) := [
  (0x9be, 0x9be), (0x9d7, 0x9d7), (0xb3e, 0xb3e), (0xb57, 0xb57), (0xbbe, 0xbbe),
  (0xbd7, 0xbd7), (0xcc0, 0xcc0), (0xcc2, 0xcc2), (0xcc7, 0xcc8), (0xcca, 0xccb),
  (0xcd5, 0xcd6), (0xd3e, 0xd3e), (0xd57, 0xd57), (0xdcf, 0xdcf), (0xddf, 0xddf),
  (0x1715, 0x1715), (0x1734, 0x1734), (0x1b35, 0x1b35), (0x1b3b, 0x1b3b), (0x1b3d, 0x1b3d),
  (0x1b43, 0x1b44), (0x1baa, 0x1baa), (0x1bf2, 0x1bf3), (0x200c, 0x200c), (0x302e, 0x302f),
  (0xa953, 0xa953), (0xa9c0, 0xa9c0), (0xff9e, 0xff9f), (0x111c0, 0x111c0), (0x11235, 0x11235),
  (0x1133e, 0x1133e), (0x1134d, 0x1134d), (0x11357, 0x11357), (0x113b8, 0x113b8),
  (0x113c2, 0x113c2), (0x113c5, 0x113c5), (0x113c7, 0x113c9), (0x113cf, 0x113cf),
  (0x114b0, 0x114b0), (0x114bd, 0x114bd), (0x115af, 0x115af), (0x116b6, 0x116b6),
  (0x11930, 0x11930), (0x1193d, 0x1193d), (0x11f41, 0x11f41), (0x16ff0, 0x16ff1),
  (0x1d165, 0x1d166), (0x1d16d, 0x1d172), (0xe0020, 0xe007f)]

/-- A character that attaches to the one before it. -/
def isExtending (c : Char) : Bool :=
  category c == .mn || category c == .me || inRanges c.toNat otherExtending

/-- A category whose characters have a glyph of their own; of the separators only the space has. -/
def Category.isPrinted : Category → Bool
  | .cc | .cf | .cs | .co | .cn | .zl | .zp | .zs => false
  | _ => true

/-- A character that is visible by itself. -/
def isVisible (c : Char) : Bool := c == ' ' || ((category c).isPrinted && !isExtending c)

/-- The digits of a number in lower case hexadecimal. -/
def hexDigits (n : Nat) : Text := Nat.toDigits 16 n

/-- One character as it is written between quotes. -/
def quoteChar (c : Char) : Text :=
  if c = '"' then ['\\', '"']
  else if c = '\\' then ['\\', '\\']
  else if c = '\n' then ['\\', 'n']
  else if c = '\r' then ['\\', 'r']
  else if c = '\t' then ['\\', 't']
  else if c.toNat = 0 then ['\\', '0']
  else if isVisible c then [c]
  else ['\\', 'u', '\x7b'] ++ hexDigits c.toNat ++ ['\x7d']

/-- A text between double quotes. -/
def quoted (s : Text) : Text := ['"'] ++ s.flatMap quoteChar ++ ['"']

end Softcode
