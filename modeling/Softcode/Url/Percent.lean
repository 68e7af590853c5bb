/-
**Percent encoding.**

In an address, characters that have a meaning there and characters beyond ASCII are written as the
bytes of their UTF-8 form, each as a percent sign and two hexadecimal digits.  Which ASCII
characters are encoded depends on the part of the address.

Main definitions:

* `Softcode.Percent.encode`, `Softcode.Percent.decode` — encoding and decoding;
* `Softcode.Percent.inControls`, `inFragment`, `inPath`, `inUserinfo`, `inPathSegment`, `inQuery`,
  `inSpecialQuery` — the characters that are encoded in the parts of an address.
-/

import Softcode.Text.Utf8

set_option autoImplicit false

namespace Softcode

namespace Percent

/-! ### Encoding -/

/-- The upper-case hexadecimal digit of a number below sixteen. -/
def hexDigit (n : Nat) : Char :=
  if n < 10 then Char.ofNat ('0'.toNat + n) else Char.ofNat ('A'.toNat + (n - 10))

/-- The writing of a byte. -/
def encodeByte (b : UInt8) : Text := ['%', hexDigit (b.toNat / 16), hexDigit (b.toNat % 16)]

/-- The writing of a character, where the ASCII characters of a class are encoded. -/
def encodeChar (inClass : Char → Bool) (c : Char) : Text :=
  if c.toNat < 0x80 ∧ !inClass c then [c] else (String.utf8EncodeChar c).flatMap encodeByte

/-- The writing of a text. -/
def encode (inClass : Char → Bool) (s : Text) : Text := s.flatMap (encodeChar inClass)

/-! ### Decoding -/

/-- The value of a hexadecimal digit. -/
def hexValue? (c : Char) : Option Nat :=
  if '0' ≤ c ∧ c ≤ '9' then some (c.toNat - '0'.toNat)
  else if 'a' ≤ c ∧ c ≤ 'f' then some (c.toNat - 'a'.toNat + 10)
  else if 'A' ≤ c ∧ c ≤ 'F' then some (c.toNat - 'A'.toNat + 10)
  else none

/-- The bytes that a text stands for; a percent sign without two digits stands for itself. -/
def decode : Text → Bytes
  | '%' :: a :: b :: s =>
      match hexValue? a, hexValue? b with
      | some x, some y => UInt8.ofNat (16 * x + y) :: decode s
      | _, _ => String.utf8EncodeChar '%' ++ decode (a :: b :: s)
  | c :: s => String.utf8EncodeChar c ++ decode s
  | [] => []

/-! ### The parts of an address -/

/-- Control characters. -/
def inControls (c : Char) : Bool := c.toNat < 0x20 || c.toNat == 0x7F

/-- Encoded in fragments. -/
def inFragment (c : Char) : Bool := inControls c || " \"<>\x60".toList.contains c

/-- Encoded in paths. -/
def inPath (c : Char) : Bool := inFragment c || "#?\x7b\x7d".toList.contains c

/-- Encoded in names of users and passwords. -/
def inUserinfo (c : Char) : Bool := inPath c || "/:;=@[\\]^|".toList.contains c

/-- Encoded in a single segment that is added to the path of an address of a special scheme. -/
def inPathSegment (c : Char) : Bool := inPath c || "/%\\".toList.contains c

/-- Encoded in queries. -/
def inQuery (c : Char) : Bool := inControls c || " \"#<>".toList.contains c

/-- Encoded in queries of special schemes. -/
def inSpecialQuery (c : Char) : Bool := inQuery c || c == '\''

end Percent

end Softcode
