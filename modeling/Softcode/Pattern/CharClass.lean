/-
**Classes of characters.**

A class is a description of a set of characters that a pattern may ask for at one place: intervals,
the named classes of blanks, digits and word characters, sets given by general categories, and what
is built from them by union, intersection, difference, complement and closure under case.

Main definitions:

* `Softcode.CharClass` — the descriptions;
* `Softcode.CharClass.contains` — the characters of a class;
* `Softcode.CharClass.posix?` — the classes of ASCII characters that have a name.
-/

import Softcode.Text.CaseFold
import Softcode.Text.Category

set_option autoImplicit false

namespace Softcode

/-- A description of a set of characters. -/
inductive CharClass where
  | never
  | any
  | range (first last : Char)
  | sameCase (folded : Char)
  | blank
  | digit
  | word
  | categories (cs : List Category)
  | alphabetic
  | lowercase
  | uppercase
  | union (a b : CharClass)
  | inter (a b : CharClass)
  | diff (a b : CharClass)
  | symmDiff (a b : CharClass)
  | compl (a : CharClass)
  | anyCase (a : CharClass)
  | asciiCase (a : CharClass)

namespace CharClass

/-- The characters with the property `Lowercase` that are not in the category `Ll`. -/
def otherLowercase : List (Nat × Nat) := [
  (0xaa, 0xaa), (0xba, 0xba), (0x2b0, 0x2b8), (0x2c0, 0x2c1), (0x2e0, 0x2e4), (0x345, 0x345),
  (0x37a, 0x37a), (0x10fc, 0x10fc), (0x1d2c, 0x1d6a), (0x1d78, 0x1d78), (0x1d9b, 0x1dbf),
  (0x2071, 0x2071), (0x207f, 0x207f), (0x2090, 0x209c), (0x2170, 0x217f), (0x24d0, 0x24e9),
  (0x2c7c, 0x2c7d), (0xa69c, 0xa69d), (0xa770, 0xa770), (0xa7f1, 0xa7f4), (0xa7f8, 0xa7f9),
  (0xab5c, 0xab5f), (0xab69, 0xab69), (0x10780, 0x10780), (0x10783, 0x10785),
  (0x10787, 0x107b0), (0x107b2, 0x107ba), (0x1e030, 0x1e06d)]

/-- The characters with the property `Uppercase` that are not in the category `Lu`. -/
def otherUppercase : List (Nat × Nat) := [
  (0x2160, 0x216f), (0x24b6, 0x24cf), (0x1f130, 0x1f149), (0x1f150, 0x1f169),
  (0x1f170, 0x1f189)]

/-- Whether a character belongs to a class. -/
def contains : CharClass → Char → Bool
  | never, _ => false
  | any, _ => true
  | range first last, c => first ≤ c && c ≤ last
  | sameCase folded, c => caseFold c == folded
  | blank, c => isBlank c
  | digit, c => category c == .nd
  | word, c => isWordClass c
  | categories cs, c => cs.contains (category c)
  | alphabetic, c => isAlphabetic c
  | lowercase, c => category c == .ll || inRanges c.toNat otherLowercase
  | uppercase, c => category c == .lu || inRanges c.toNat otherUppercase
  | union a b, c => a.contains c || b.contains c
  | inter a b, c => a.contains c && b.contains c
  | diff a b, c => a.contains c && !b.contains c
  | symmDiff a b, c => a.contains c != b.contains c
  | compl a, c => !a.contains c
  | anyCase a, c => (caseVariants c).any a.contains
  | asciiCase a, c => a.contains c || a.contains c.toLower || a.contains c.toUpper

/-- The single character `c`. -/
def single (c : Char) : CharClass := range c c

/-- The union of intervals. -/
def ofRanges (rs : List (Char × Char)) : CharClass :=
  rs.foldr (fun r a => union (range r.1 r.2) a) never

/-- Whether a class holds ASCII characters only, among the characters below U+0100. -/
def isAscii (a : CharClass) : Bool :=
  (List.range 128).all fun n => !a.contains (Char.ofNat (n + 128))

/-- The ASCII digits. -/
def asciiDigit : CharClass := range '0' '9'

/-- The ASCII blanks, the vertical tab included. -/
def asciiBlank : CharClass := ofRanges [('\t', '\r'), (' ', ' ')]

/-- The ASCII letters, digits and the underscore. -/
def asciiWord : CharClass := ofRanges [('0', '9'), ('A', 'Z'), ('_', '_'), ('a', 'z')]

/-- The classes that have a name of their own between `[:` and `:]`. -/
def posix? (name : String) : Option CharClass :=
  match name with
  | "alnum" => some (ofRanges [('0', '9'), ('A', 'Z'), ('a', 'z')])
  | "alpha" => some (ofRanges [('A', 'Z'), ('a', 'z')])
  | "ascii" => some (range '\x00' '\x7f')
  | "blank" => some (ofRanges [('\t', '\t'), (' ', ' ')])
  | "cntrl" => some (ofRanges [('\x00', '\x1f'), ('\x7f', '\x7f')])
  | "digit" => some asciiDigit
  | "graph" => some (range '!' '~')
  | "lower" => some (range 'a' 'z')
  | "print" => some (range ' ' '~')
  | "punct" => some (ofRanges [('!', '/'), (':', '@'), ('[', '\x60'), ('\x7b', '~')])
  | "space" => some asciiBlank
  | "upper" => some (range 'A' 'Z')
  | "word" => some asciiWord
  | "xdigit" => some (ofRanges [('0', '9'), ('A', 'F'), ('a', 'f')])
  | _ => none

end CharClass

end Softcode
