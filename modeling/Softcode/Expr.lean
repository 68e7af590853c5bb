/-
**Integer expressions.**

Conditions and loop bounds are integer expressions.  From loosest to tightest binding the operators
are `||`, then `&&`, then `===` `!==` `==` `!=`, then `<=` `>=` `<` `>`, then `+` `-`, then `*` `/`
`%`, all left associative, and last the signs `-` and `!` before a number or a parenthesis.  Truth
is `1` and falsehood `0`; every number but `0` counts as true.  Both operands of an operator are
always evaluated, numbers stay within 64 bits, and division goes toward zero.

An expression is evaluated while it is read, so of two faults the one that is met first is
reported.  The reader of signs takes the number of signs and parentheses that may still be opened as
its argument and recurs on it; a row of operators recurs on the length of what is left to read.

Main definitions:

* `Softcode.Expr.Fault`, `Softcode.Expr.Error` — what can be wrong, and where;
* `Softcode.Expr.BinOp`, `Softcode.Expr.BinOp.apply` — the operators and what they compute;
* `Softcode.Expr.Cursor` — what is left to read, with the offset reached;
* `Softcode.Expr.levels` — the operators by binding strength;
* `Softcode.Expr.evalInt`, `Softcode.Expr.evalBool` — the value of an expression.
-/

import Softcode.Text.Basic

set_option autoImplicit false

namespace Softcode

namespace Expr

/-! ### Faults -/

/-- What can be wrong with an expression. -/
inductive Fault where
  | overflow
  | divisionByZero
  | tooDeep
  | expectedCloser
  | literalOutOfRange
  | unknownName
  | unexpectedChar
  | unexpectedEnd
  | trailingInput
  deriving DecidableEq

/-- The words for a fault. -/
def Fault.describe : Fault → String
  | overflow => "integer overflow"
  | divisionByZero => "division by zero"
  | tooDeep => "expression nested too deeply"
  | expectedCloser => "expected `)`"
  | literalOutOfRange => "integer literal out of range"
  | unknownName => "unknown identifier"
  | unexpectedChar => "unexpected character"
  | unexpectedEnd => "unexpected end of expression"
  | trailingInput => "unexpected trailing input"

/-- A fault with the byte offset at which it was found. -/
structure Error where
  fault : Fault
  offset : Nat
  deriving DecidableEq

/-- The message for an error. -/
def Error.message (e : Error) : String := e.fault.describe ++ " at offset " ++ toString e.offset

/-! ### Numbers -/

/-- The numbers of 64 bits with sign. -/
def InRange (v : Int) : Prop := -0x8000000000000000 ≤ v ∧ v < 0x8000000000000000

instance (v : Int) : Decidable (InRange v) := inferInstanceAs (Decidable (_ ∧ _))

/-- A number if it has 64 bits. -/
def checked (v : Int) : Except Fault Int := if InRange v then .ok v else .error .overflow

/-- `1` for true and `0` for false. -/
def ofBool (b : Bool) : Int := if b then 1 else 0

/-- The binary operators. -/
inductive BinOp where
  | or | and
  | eq | ne
  | le | ge | lt | gt
  | add | sub
  | mul | div | rem
  deriving DecidableEq

/-- What an operator computes.  A remainder exists where the quotient does. -/
def BinOp.apply : BinOp → Int → Int → Except Fault Int
  | or, a, b => .ok (ofBool (a != 0 || b != 0))
  | and, a, b => .ok (ofBool (a != 0 && b != 0))
  | eq, a, b => .ok (ofBool (a == b))
  | ne, a, b => .ok (ofBool (a != b))
  | le, a, b => .ok (ofBool (a ≤ b))
  | ge, a, b => .ok (ofBool (b ≤ a))
  | lt, a, b => .ok (ofBool (a < b))
  | gt, a, b => .ok (ofBool (b < a))
  | add, a, b => checked (a + b)
  | sub, a, b => checked (a - b)
  | mul, a, b => checked (a * b)
  | div, a, b => if b = 0 then .error .divisionByZero else checked (a.tdiv b)
  | rem, a, b =>
      if b = 0 then .error .divisionByZero
      else if InRange (a.tdiv b) then .ok (a.tmod b) else .error .overflow

/-! ### Reading -/

/-- What is left to read, and the number of bytes read so far. -/
structure Cursor where
  rest : Text
  offset : Nat

/-- The blanks between the tokens of an expression. -/
def isExprBlank (c : Char) : Bool :=
  c == ' ' || c == '\t' || c == '\n' || c == '\x0c' || c == '\r'

/-- The cursor behind the blanks at the front of `s`. -/
def skipBlanksFrom : Text → Nat → Cursor
  | [], n => ⟨[], n⟩
  | c :: s, n => if isExprBlank c then skipBlanksFrom s (n + 1) else ⟨c :: s, n⟩

/-- The cursor behind the blanks that follow. -/
def Cursor.skipBlanks (c : Cursor) : Cursor := skipBlanksFrom c.rest c.offset

/-- The cursor behind a token of ASCII characters, if it comes next. -/
def Cursor.eat? (token : Text) (c : Cursor) : Option Cursor :=
  (Text.dropPrefix? token c.rest).map fun rest => ⟨rest, c.offset + token.length⟩

/-- A reader gives a value and the cursor behind it. -/
abbrev Reader := Cursor → Except Error (Int × Cursor)

/-- The operators of one binding strength, in the order in which they are tried. -/
abbrev Level := List (Text × BinOp)

/-- The levels from the loosest to the tightest binding. -/
def levels : List Level := [
  [(['|', '|'], .or)],
  [(['&', '&'], .and)],
  [(['=', '=', '='], .eq), (['!', '=', '='], .ne), (['=', '='], .eq), (['!', '='], .ne)],
  [(['<', '='], .le), (['>', '='], .ge), (['<'], .lt), (['>'], .gt)],
  [(['+'], .add), (['-'], .sub)],
  [(['*'], .mul), (['/'], .div), (['%'], .rem)]]

/-- The first operator of a level that comes next. -/
def Level.next? : Level → Cursor → Option (BinOp × Cursor)
  | [], _ => none
  | (token, op) :: level, c =>
      match c.eat? token with
      | some c' => some (op, c')
      | none => Level.next? level c

/-- The value of an operator that stands at offset `opAt` and whose right operand ends at offset
`endAt`: a division by zero is reported at the operator, an overflow behind the operand. -/
def applyAt (op : BinOp) (opAt endAt : Nat) (a b : Int) : Except Error Int :=
  match op.apply a b with
  | .ok v => .ok v
  | .error .divisionByZero => .error ⟨.divisionByZero, opAt⟩
  | .error f => .error ⟨f, endAt⟩

/-- The rest of a row `lhs op operand op operand …`, from left to right.  Every step reads an
operator, so the length of what is left bounds the number of steps. -/
def chain (operand : Reader) (level : Level) : Nat → Int → Reader
  | 0, lhs, c => .ok (lhs, c.skipBlanks)
  | n + 1, lhs, c =>
      match level.next? c.skipBlanks with
      | none => .ok (lhs, c.skipBlanks)
      | some (op, c₁) => do
          let (rhs, c₂) ← operand c₁
          let v ← applyAt op c.skipBlanks.offset c₂.offset lhs rhs
          chain operand level n v c₂

/-- An expression of operators of the given levels over operands. -/
def climb (operand : Reader) : List Level → Reader
  | [], c => operand c
  | level :: tighter, c => do
      let (lhs, c₁) ← climb operand tighter c
      chain (climb operand tighter) level c₁.rest.length lhs c₁

/-- The value of a row of digits. -/
def digitsValue (ds : Text) : Nat := ds.foldl (fun v d => 10 * v + (d.toNat - '0'.toNat)) 0

/-- A number, or an expression in parentheses. -/
def primary (inner : Reader) (c : Cursor) : Except Error (Int × Cursor) :=
  match c.skipBlanks.rest with
  | [] => .error ⟨.unexpectedEnd, c.skipBlanks.offset⟩
  | d :: rest =>
      let start := c.skipBlanks.offset
      if d = '(' then do
        let (v, c₁) ← inner ⟨rest, start + 1⟩
        match c₁.skipBlanks.eat? [')'] with
        | some c₂ => .ok (v, c₂)
        | none => .error ⟨.expectedCloser, c₁.skipBlanks.offset⟩
      else if d.isDigit then
        let digits := (d :: rest).takeWhile Char.isDigit
        if digitsValue digits < 0x8000000000000000 then
          .ok (digitsValue digits, ⟨(d :: rest).dropWhile Char.isDigit, start + digits.length⟩)
        else .error ⟨.literalOutOfRange, start⟩
      else if d.isAlpha || d == '_' then .error ⟨.unknownName, start⟩
      else .error ⟨.unexpectedChar, start⟩

/-- Signs before a number or a parenthesis, with at most `depth` of them open.  A `!` that begins
`!=` is no sign. -/
def unary : Nat → Reader
  | 0, c => .error ⟨.tooDeep, c.offset⟩
  | depth + 1, c =>
      let start := c.skipBlanks.offset
      match c.skipBlanks.rest with
      | '-' :: rest => do
          let (v, c₁) ← unary depth ⟨rest, start + 1⟩
          if InRange (-v) then .ok (-v, c₁) else .error ⟨.overflow, c₁.offset⟩
      | '!' :: '=' :: _ => primary (fun c' => climb (fun c'' => unary depth c'') levels c') c
      | '!' :: rest => do
          let (v, c₁) ← unary depth ⟨rest, start + 1⟩
          .ok (ofBool (v == 0), c₁)
      | _ => primary (fun c' => climb (fun c'' => unary depth c'') levels c') c

/-- The number of signs and parentheses, plus one, that may be open at a time. -/
def maxDepth : Nat := 128

/-- **The value of an expression.** -/
def evalInt (src : Text) : Except Error Int := do
  let (v, c) ← climb (unary maxDepth) levels ⟨src, 0⟩
  if c.skipBlanks.rest.isEmpty then .ok v else .error ⟨.trailingInput, c.skipBlanks.offset⟩

/-- Whether an expression is true. -/
def evalBool (src : Text) : Except Error Bool := (evalInt src).map (· != 0)

end Expr

end Softcode
