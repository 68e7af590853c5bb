/-
**Texts as bytes.**

Sources are stored as bytes in UTF-8.  Decoding reads one byte after the other: a first byte says
how many bytes follow and in which range the next one has to lie, which rules out overlong forms,
surrogates and numbers beyond the last character.  The first byte that does not fit is reported with
the index at which its character began.

Main definitions:

* `Softcode.Bytes`, `Softcode.Text.toBytes` — bytes, and the bytes of a text;
* `Softcode.Utf8.decode` — **the text of bytes**, or the fault in them;
* `Softcode.Utf8.Fault.message` — a fault in words;
* `Softcode.Utf8.decodeLossy` — the text of any bytes.
-/

import Softcode.Text.Basic

set_option autoImplicit false

namespace Softcode

/-- The content of a file. -/
abbrev Bytes := List UInt8

/-- The bytes of a text. -/
def Text.toBytes (s : Text) : Bytes := s.flatMap String.utf8EncodeChar

namespace Utf8

/-- Bytes that are no text: from which index on, and how many bytes are wrong, unless the bytes end
inside a character. -/
structure Fault where
  index : Nat
  length : Option Nat
  deriving DecidableEq

/-- A fault in words. -/
def Fault.message (f : Fault) : String :=
  match f.length with
  | some n => "invalid utf-8 sequence of " ++ toString n ++ " bytes from index " ++ toString f.index
  | none => "incomplete utf-8 byte sequence from index " ++ toString f.index

/-- A character that is not complete: how many bytes of it are read and how many are missing, the
range of the next one, and the bits so far. -/
structure Pending where
  read : Nat
  missing : Nat
  least : Nat
  most : Nat
  bits : Nat

/-- The character that a first byte of several begins. -/
def lead? (b : Nat) : Option Pending :=
  if 0xC2 ≤ b ∧ b ≤ 0xDF then some ⟨1, 1, 0x80, 0xBF, b - 0xC0⟩
  else if b = 0xE0 then some ⟨1, 2, 0xA0, 0xBF, 0⟩
  else if b = 0xED then some ⟨1, 2, 0x80, 0x9F, 0xD⟩
  else if 0xE1 ≤ b ∧ b ≤ 0xEF then some ⟨1, 2, 0x80, 0xBF, b - 0xE0⟩
  else if b = 0xF0 then some ⟨1, 3, 0x90, 0xBF, 0⟩
  else if 0xF1 ≤ b ∧ b ≤ 0xF3 then some ⟨1, 3, 0x80, 0xBF, b - 0xF0⟩
  else if b = 0xF4 then some ⟨1, 3, 0x80, 0x8F, 4⟩
  else none

/-- The text of bytes behind a character that begins at `index` and is perhaps not complete.  The
text so far is given reversed. -/
def decodeFrom : Nat → Option Pending → Text → Bytes → Except Fault Text
  | _, none, acc, [] => .ok acc.reverse
  | index, some _, _, [] => .error ⟨index, none⟩
  | index, none, acc, b :: bs =>
      if b.toNat < 0x80 then decodeFrom (index + 1) none (Char.ofNat b.toNat :: acc) bs
      else
        match lead? b.toNat with
        | none => .error ⟨index, some 1⟩
        | some p => decodeFrom index (some p) acc bs
  | index, some p, acc, b :: bs =>
      if p.least ≤ b.toNat ∧ b.toNat ≤ p.most then
        let bits := 64 * p.bits + (b.toNat - 0x80)
        if p.missing = 1 then decodeFrom (index + p.read + 1) none (Char.ofNat bits :: acc) bs
        else decodeFrom index (some ⟨p.read + 1, p.missing - 1, 0x80, 0xBF, bits⟩) acc bs
      else .error ⟨index, some p.read⟩

/-- **The text of bytes.** -/
def decode (bs : Bytes) : Except Fault Text := decodeFrom 0 none [] bs

/-- The text of bytes where at most `n` faults are each read as one replacement character. -/
def decodeLossyUpTo : Nat → Bytes → Text
  | 0, _ => []
  | n + 1, bs =>
      match decode bs with
      | .ok s => s
      | .error f =>
          let front := (decode (bs.take f.index)).toOption.getD []
          let rest := match f.length with
            | none => []
            | some k => bs.drop (f.index + k)
          front ++ Char.ofNat 0xFFFD :: decodeLossyUpTo n rest

/-- The text of bytes, where faults are read as replacement characters. -/
def decodeLossy (bs : Bytes) : Text := decodeLossyUpTo (bs.length + 1) bs

end Utf8

end Softcode
