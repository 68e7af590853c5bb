/-
**Text as lists of characters.**

Every rule of this library reads text from left to right, so text is a list of characters and each
rule is a recursion on that list.  This module holds the operations that all other modules share:
blanks and trimming, taking a fixed beginning off a text with or without regard to ASCII case, and
cutting a text at a character or into lines.

A line ends at a line feed; a carriage return directly before the line feed belongs to the line
end.  A last line that is not ended is a line too, unless it is empty, and keeps its carriage
return.

Main definitions:

* `Softcode.Text` — lists of characters;
* `Softcode.isBlank` — the white space characters of the Unicode standard;
* `Softcode.Text.trim`, `Softcode.Text.trimStart`, `Softcode.Text.trimEnd` — blanks off the ends;
* `Softcode.Text.dropPrefix?`, `Softcode.Text.dropPrefixCi?` — a fixed beginning off the front;
* `Softcode.Text.cut?` — the two sides of the first occurrence of a character;
* `Softcode.Text.lines` — the lines of a text;
* `Softcode.Text.byteLength` — the length of a text in UTF-8.

Main results:

* `Softcode.Text.dropPrefix?_eq_some_iff` — taking `p` off `s` leaves `r` exactly when `s = p ++ r`;
* `Softcode.Text.byteLength_append` — byte lengths add up.
-/

set_option autoImplicit false

namespace Softcode

/-- Text, as the list of its characters. -/
abbrev Text := List Char

/-- The intervals of code points with the property `White_Space`. -/
def blankRanges : List (Nat × Nat) := [
  (0x9, 0xd), (0x20, 0x20), (0x85, 0x85), (0xa0, 0xa0), (0x1680, 0x1680), (0x2000, 0x200a),
  (0x2028, 0x2029), (0x202f, 0x202f), (0x205f, 0x205f), (0x3000, 0x3000)]

/-- Whether `n` lies in one of the intervals, which stand in ascending order. -/
def inRanges (n : Nat) : List (Nat × Nat) → Bool
  | [] => false
  | (first, last) :: rest => if n < first then false else n ≤ last || inRanges n rest

/-- White space in the sense of the Unicode standard. -/
def isBlank (c : Char) : Bool := inRanges c.toNat blankRanges

namespace Text

/-! ### Blanks at the ends -/

/-- The text without its leading blanks. -/
def trimStart (s : Text) : Text := s.dropWhile isBlank

/-- The text without its trailing blanks. -/
def trimEnd (s : Text) : Text := (s.reverse.dropWhile isBlank).reverse

/-- The text without its leading and trailing blanks. -/
def trim (s : Text) : Text := trimEnd (trimStart s)

/-- A text of blanks only. -/
def isBlankText (s : Text) : Bool := s.all isBlank

@[simp] theorem trimStart_nil : trimStart [] = [] := rfl

@[simp] theorem trimEnd_nil : trimEnd [] = [] := rfl

@[simp] theorem trim_nil : trim [] = [] := rfl

/-! ### Beginnings and ends -/

/-- What follows `p` in `s`, if `s` begins with `p`. -/
def dropPrefix? : Text → Text → Option Text
  | [], s => some s
  | _ :: _, [] => none
  | c :: p, d :: s => if c = d then dropPrefix? p s else none

@[simp] theorem dropPrefix?_nil (s : Text) : dropPrefix? [] s = some s := by
  cases s <;> rfl

@[simp] theorem dropPrefix?_cons (c d : Char) (p s : Text) :
    dropPrefix? (c :: p) (d :: s) = if c = d then dropPrefix? p s else none := rfl

theorem dropPrefix?_eq_some_iff {p s r : Text} : dropPrefix? p s = some r ↔ s = p ++ r := by
  induction p generalizing s with
  | nil => simp
  | cons c p ih =>
      cases s with
      | nil => simp [dropPrefix?]
      | cons d s =>
          by_cases h : c = d
          · subst h; simp [ih]
          · simp [h, Ne.symm h]

/-- Whether `s` begins with `p`. -/
def startsWith (p s : Text) : Bool := (dropPrefix? p s).isSome

/-- What stands before the ending `p` of `s`, if `s` ends with `p`. -/
def dropSuffix? (p s : Text) : Option Text := (dropPrefix? p.reverse s.reverse).map List.reverse

/-- Two characters that differ at most in ASCII case. -/
def sameLetter (c d : Char) : Bool := c.toLower == d.toLower

/-- What follows `p` in `s`, if `s` begins with `p` up to ASCII case. -/
def dropPrefixCi? : Text → Text → Option Text
  | [], s => some s
  | _ :: _, [] => none
  | c :: p, d :: s => if sameLetter c d then dropPrefixCi? p s else none

@[simp] theorem dropPrefixCi?_nil (s : Text) : dropPrefixCi? [] s = some s := by
  cases s <;> rfl

@[simp] theorem dropPrefixCi?_cons (c d : Char) (p s : Text) :
    dropPrefixCi? (c :: p) (d :: s) = if sameLetter c d then dropPrefixCi? p s else none := rfl

/-- Two texts that differ at most in ASCII case. -/
def sameLetters (s t : Text) : Bool := s.map Char.toLower == t.map Char.toLower

/-! ### Cutting -/

/-- The text before and the text after the first `sep`. -/
def cut? (sep : Char) : Text → Option (Text × Text)
  | [] => none
  | c :: s => if c = sep then some ([], s) else (cut? sep s).map fun (l, r) => (c :: l, r)

/-- The parts of a text between its separators; there is always one more than separators. -/
def splitOn (sep : Char) (s : Text) : List Text :=
  match s.foldr (fun c (cur, parts) => if c = sep then ([], cur :: parts) else (c :: cur, parts))
      (([], []) : Text × List Text) with
  | (cur, parts) => cur :: parts

/-- The lines of `current ++ s`, where `current`, reversed, is the line that is being read. -/
def linesFrom (current : Text) : Text → List Text
  | [] => if current.isEmpty then [] else [current.reverse]
  | '\r' :: '\n' :: s => current.reverse :: linesFrom [] s
  | '\n' :: s => current.reverse :: linesFrom [] s
  | c :: s => linesFrom (c :: current) s

/-- The lines of a text, without their line ends. -/
def lines (s : Text) : List Text := linesFrom [] s

/-- Texts joined by a separator. -/
def join (sep : Text) : List Text → Text
  | [] => []
  | [s] => s
  | s :: t :: rest => s ++ sep ++ join sep (t :: rest)

/-! ### Lengths -/

/-- The number of bytes of a text in UTF-8. -/
def byteLength : Text → Nat
  | [] => 0
  | c :: s => c.utf8Size + byteLength s

@[simp] theorem byteLength_nil : byteLength [] = 0 := rfl

@[simp] theorem byteLength_cons (c : Char) (s : Text) :
    byteLength (c :: s) = c.utf8Size + byteLength s := rfl

@[simp] theorem byteLength_append (s t : Text) :
    byteLength (s ++ t) = byteLength s + byteLength t := by
  induction s with
  | nil => simp
  | cons c s ih => simp [ih, Nat.add_assoc]

/-- The order of texts by code points, which is also their order as UTF-8 bytes. -/
def le : Text → Text → Bool
  | [], _ => true
  | _ :: _, [] => false
  | c :: s, d :: t => if c = d then le s t else c.toNat < d.toNat

/-- A number in decimal. -/
def ofNat (n : Nat) : Text := Nat.toDigits 10 n

/-- An integer in decimal, with a minus sign if it is negative. -/
def ofInt : Int → Text
  | .ofNat n => ofNat n
  | .negSucc n => '-' :: ofNat (n + 1)

end Text

end Softcode
