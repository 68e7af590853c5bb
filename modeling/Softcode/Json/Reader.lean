/-
**Reading JSON.**

Values are read from bytes.  What is wrong is reported with the line and the column at which reading
stopped.

Main definitions:

* `Softcode.Json.Fault`, `Softcode.Json.Fault.message` — what may be wrong;
* `Softcode.Json.parse` — **the value of bytes**.
-/

import Softcode.Json.Basic
import Softcode.Text.Utf8
import Softcode.Url.Percent

set_option autoImplicit false

namespace Softcode

namespace Json

/-! ### Faults -/

/-- What may be wrong with a text. -/
inductive Cause where
  | endInValue
  | endInString
  | endInList
  | endInObject
  | expectedValue
  | expectedWord
  | expectedColon
  | expectedListEnd
  | expectedObjectEnd
  | keyNoString
  | trailingComma
  | trailingText
  | invalidNumber
  | invalidEscape
  | controlCharacter
  deriving DecidableEq

/-- A cause in words. -/
def Cause.message : Cause → String
  | endInValue => "EOF while parsing a value"
  | endInString => "EOF while parsing a string"
  | endInList => "EOF while parsing a list"
  | endInObject => "EOF while parsing an object"
  | expectedValue => "expected value"
  | expectedWord => "expected ident"
  | expectedColon => "expected `:`"
  | expectedListEnd => "expected `,` or `]`"
  | expectedObjectEnd => "expected `,` or `\x7d`"
  | keyNoString => "key must be a string"
  | trailingComma => "trailing comma"
  | trailingText => "trailing characters"
  | invalidNumber => "invalid number"
  | invalidEscape => "invalid escape"
  | controlCharacter => "control character (\\u0000-\\u001F) found while parsing a string"

/-- What is wrong, and how many bytes are left behind the place. -/
structure Fault where
  cause : Cause
  left : Nat
  deriving DecidableEq

/-- The fault at the first of the bytes that are left, or at the end. -/
def fault {α : Type} (cause : Cause) (s : Bytes) : Except Fault α := .error ⟨cause, s.length - 1⟩

/-- The line and the column, both counted from the byte before, that `n` bytes lead to. -/
def position (n : Nat) (s : Bytes) : Nat × Nat :=
  (s.take n).foldl (fun p b => if b = '\n'.toUInt8 then (p.1 + 1, 0) else (p.1, p.2 + 1)) (1, 0)

/-- A fault in words. -/
def Fault.message (f : Fault) (input : Bytes) : String :=
  let (line, col) := position (input.length - f.left) input
  f.cause.message ++ " at line " ++ toString line ++ " column " ++ toString col

/-! ### Words, numbers and strings -/

/-- The bytes behind blanks. -/
def skip (s : Bytes) : Bytes :=
  s.dropWhile fun b =>
    b == ' '.toUInt8 || b == '\n'.toUInt8 || b == '\t'.toUInt8 || b == '\r'.toUInt8

/-- The bytes behind a word, which has to come next. -/
def word : Text → Bytes → Except Fault Bytes
  | [], s => .ok s
  | _ :: _, [] => .error ⟨.endInValue, 0⟩
  | c :: w, b :: s => if b = c.toUInt8 then word w s else fault .expectedWord (b :: s)

/-- A decimal digit. -/
def isDigit (b : UInt8) : Bool := '0'.toUInt8 ≤ b && b ≤ '9'.toUInt8

/-- The digits that come next, at least one, and the bytes behind them. -/
def digits (s : Bytes) : Except Fault (Bytes × Bytes) :=
  if (s.takeWhile isDigit).isEmpty then
    match s with
    | [] => .error ⟨.endInValue, 0⟩
    | _ => fault .invalidNumber s
  else .ok (s.takeWhile isDigit, s.dropWhile isDigit)

/-- The fraction that comes next, if there is one, and whether there is. -/
def fraction (s : Bytes) : Except Fault (Bool × Bytes) :=
  match s with
  | [] => .ok (false, s)
  | b :: t =>
      if b = '.'.toUInt8 then (digits t).map fun (_, r) => (true, r) else .ok (false, s)

/-- The exponent that comes next, if there is one, and whether there is. -/
def exponent (s : Bytes) : Except Fault (Bool × Bytes) :=
  match s with
  | [] => .ok (false, s)
  | b :: t =>
      if b = 'e'.toUInt8 ∨ b = 'E'.toUInt8 then
        let t := match t with
          | [] => []
          | c :: r => if c = '+'.toUInt8 ∨ c = '-'.toUInt8 then r else c :: r
        (digits t).map fun (_, r) => (true, r)
      else .ok (false, s)

/-- The value of digits. -/
def value (ds : Bytes) : Nat := ds.foldl (fun n b => 10 * n + (b.toNat - '0'.toNat)) 0

/-- The number that comes next, behind its sign. -/
def readNumber (negative : Bool) (s : Bytes) : Except Fault (Json × Bytes) := do
  let (ds, s) ← digits s
  if ds.head? = some '0'.toUInt8 ∧ 1 < ds.length then
    .error ⟨.invalidNumber, s.length + ds.length - 2⟩
  else
    let (isFraction, s) ← fraction s
    let (isScaled, s) ← exponent s
    let n := value ds
    let known := !negative && !isFraction && !isScaled && n < 0x10000000000000000
    .ok (.number (if known then some n else none), s)

/-- The value of four hexadecimal digits. -/
def hex4? (a b c d : UInt8) : Option Nat := do
  let digit (x : UInt8) : Option Nat := Percent.hexValue? (Char.ofNat x.toNat)
  some (4096 * (← digit a) + 256 * (← digit b) + 16 * (← digit c) + (← digit d))

/-- The byte that a backslash and another byte stand for. -/
def escaped? (b : UInt8) : Option UInt8 :=
  if b = '"'.toUInt8 ∨ b = '\\'.toUInt8 ∨ b = '/'.toUInt8 then some b
  else if b = 'b'.toUInt8 then some 8
  else if b = 'f'.toUInt8 then some 12
  else if b = 'n'.toUInt8 then some 10
  else if b = 'r'.toUInt8 then some 13
  else if b = 't'.toUInt8 then some 9
  else none

/-- A string while it is read: its bytes so far, reversed, the first half of a pair of surrogates
that is open, and whether it is a text so far. -/
structure Spelled where
  bytes : Bytes
  high : Option Nat
  good : Bool

namespace Spelled

/-- Some bytes more; an open pair is not completed by them. -/
def add (s : Spelled) (bs : Bytes) : Spelled :=
  ⟨bs.reverse ++ s.bytes, none, s.good && s.high.isNone⟩

/-- The character with a number more, or half of one. -/
def addCode (s : Spelled) (n : Nat) : Spelled :=
  let isLow := 0xDC00 ≤ n && n ≤ 0xDFFF
  if 0xD800 ≤ n ∧ n ≤ 0xDBFF then { s with high := some n, good := s.good && s.high.isNone }
  else if isLow then
    match s.high with
    | some h =>
        let c := Char.ofNat (0x10000 + 1024 * (h - 0xD800) + (n - 0xDC00))
        ⟨(String.utf8EncodeChar c).reverse ++ s.bytes, none, s.good⟩
    | none => { s with good := false }
  else s.add (String.utf8EncodeChar (Char.ofNat n))

/-- The text that was read, if it is one. -/
def text? (s : Spelled) : Option Text :=
  if s.good && s.high.isNone then (Utf8.decode s.bytes.reverse).toOption else none

end Spelled

/-- The string that comes next, behind its opening quote and what is read of it. -/
def stringFrom : Spelled → Bytes → Except Fault (Option Text × Bytes)
  | _, [] => .error ⟨.endInString, 0⟩
  | acc, b :: s =>
      if b = '"'.toUInt8 then .ok (acc.text?, s)
      else if b = '\\'.toUInt8 then
        match s with
        | [] => .error ⟨.endInString, 0⟩
        | e :: t =>
            if e = 'u'.toUInt8 then
              match t with
              | h₁ :: h₂ :: h₃ :: h₄ :: r =>
                  match hex4? h₁ h₂ h₃ h₄ with
                  | some n => stringFrom (acc.addCode n) r
                  | none => .error ⟨.invalidEscape, r.length⟩
              | _ => .error ⟨.endInString, 0⟩
            else
              match escaped? e with
              | some x => stringFrom (acc.add [x]) t
              | none => .error ⟨.invalidEscape, t.length⟩
      else if b < 0x20 then .error ⟨.controlCharacter, s.length⟩
      else stringFrom (acc.add [b]) s

/-- The string that comes next, behind its opening quote. -/
def readString (s : Bytes) : Except Fault (Option Text × Bytes) := stringFrom ⟨[], none, true⟩ s

/-! ### Arrays and objects -/

/-- The items of an array that has not ended, where `item` reads one; every item takes at least one
byte. -/
def readItems (item : Bytes → Except Fault (Json × Bytes)) :
    Nat → Bytes → Except Fault (List Json × Bytes)
  | 0, s => fault .expectedListEnd s
  | n + 1, s => do
      let (j, s) ← item s
      match skip s with
      | [] => .error ⟨.endInList, 0⟩
      | b :: t =>
          if b = ']'.toUInt8 then .ok ([j], t)
          else if b = ','.toUInt8 then
            if (skip t).head? = some ']'.toUInt8 then fault .trailingComma (skip t)
            else do
              let (js, r) ← readItems item n t
              .ok (j :: js, r)
          else fault .expectedListEnd (b :: t)

/-- The array that comes next, behind its opening bracket. -/
def readArray (item : Bytes → Except Fault (Json × Bytes)) (s : Bytes) :
    Except Fault (Json × Bytes) :=
  match skip s with
  | [] => .error ⟨.endInList, 0⟩
  | b :: t =>
      if b = ']'.toUInt8 then .ok (.array [], t)
      else (readItems item s.length s).map fun (js, r) => (.array js, r)

/-- The name of a field and its colon. -/
def readKey (s : Bytes) : Except Fault (Option Text × Bytes) :=
  match skip s with
  | [] => .error ⟨.endInObject, 0⟩
  | b :: t =>
      if b = '"'.toUInt8 then do
        let (name, s) ← readString t
        match skip s with
        | [] => .error ⟨.endInObject, 0⟩
        | c :: r => if c = ':'.toUInt8 then .ok (name, r) else fault .expectedColon (c :: r)
      else fault .keyNoString (b :: t)

/-- The fields of an object that has not ended, where `item` reads a value; every field takes at
least one byte. -/
def readFields (item : Bytes → Except Fault (Json × Bytes)) :
    Nat → Bytes → Except Fault (List (Option Text × Json) × Bytes)
  | 0, s => fault .expectedObjectEnd s
  | n + 1, s => do
      let (name, s) ← readKey s
      let (j, s) ← item s
      match skip s with
      | [] => .error ⟨.endInObject, 0⟩
      | b :: t =>
          if b = '\x7d'.toUInt8 then .ok ([(name, j)], t)
          else if b = ','.toUInt8 then
            if (skip t).head? = some '\x7d'.toUInt8 then fault .trailingComma (skip t)
            else do
              let (fs, r) ← readFields item n t
              .ok ((name, j) :: fs, r)
          else fault .expectedObjectEnd (b :: t)

/-- The object that comes next, behind its opening brace. -/
def readObject (item : Bytes → Except Fault (Json × Bytes)) (s : Bytes) :
    Except Fault (Json × Bytes) :=
  match skip s with
  | [] => .error ⟨.endInObject, 0⟩
  | b :: t =>
      if b = '\x7d'.toUInt8 then .ok (.object [], t)
      else (readFields item s.length s).map fun (fs, r) => (.object fs, r)

/-! ### Values -/

/-- The value that comes next, nested at most as deep as the first argument says. -/
def valueUpTo : Nat → Bytes → Except Fault (Json × Bytes)
  | 0, s => fault .expectedValue s
  | depth + 1, s =>
      match skip s with
      | [] => .error ⟨.endInValue, 0⟩
      | b :: t =>
          if b = 'n'.toUInt8 then (word "ull".toList t).map fun r => (.null, r)
          else if b = 't'.toUInt8 then (word "rue".toList t).map fun r => (.bool true, r)
          else if b = 'f'.toUInt8 then (word "alse".toList t).map fun r => (.bool false, r)
          else if b = '"'.toUInt8 then (readString t).map fun (s, r) => (.string s, r)
          else if b = '['.toUInt8 then readArray (fun s => valueUpTo depth s) t
          else if b = '\x7b'.toUInt8 then readObject (fun s => valueUpTo depth s) t
          else if b = '-'.toUInt8 then readNumber true t
          else if isDigit b then readNumber false (b :: t)
          else fault .expectedValue (b :: t)

/-- **The value of bytes.**  Every level of nesting takes at least one byte. -/
def parse (s : Bytes) : Except Fault Json := do
  let (j, r) ← valueUpTo (s.length + 1) s
  match skip r with
  | [] => .ok j
  | b :: t => fault .trailingText (b :: t)

end Json

end Softcode
