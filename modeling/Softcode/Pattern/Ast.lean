/-
**Patterns as they are written.**

The tree of a written pattern, with the stretches of text that its parts come from, and the ways in
which a written pattern can be wrong.  A message about a wrong pattern shows the pattern with the
stretch in question underlined; a pattern of several lines is shown between rulers with its lines
numbered.

Main definitions:

* `Softcode.Pattern.Span` — a stretch of a written pattern;
* `Softcode.Pattern.Ast`, `Softcode.Pattern.ClassAst` — the trees of patterns and of classes;
* `Softcode.Pattern.Fault`, `Softcode.Pattern.Error` — what can be wrong, and where;
* `Softcode.Pattern.Error.message` — the message that shows it.
-/

import Softcode.Pattern.CharClass

set_option autoImplicit false

namespace Softcode

namespace Pattern

/-! ### Stretches of text -/

/-- A position in a pattern: the number of characters before it, and its line and column, both
counted from one. -/
structure Position where
  offset : Nat
  line : Nat
  col : Nat

/-- The position behind the character `c`. -/
def Position.after (p : Position) (c : Char) : Position :=
  if c = '\n' then ⟨p.offset + 1, p.line + 1, 1⟩ else ⟨p.offset + 1, p.line, p.col + 1⟩

/-- The stretch between two positions. -/
structure Span where
  start : Position
  stop : Position

/-- A stretch within one line. -/
def Span.isOneLine (s : Span) : Bool := s.start.line == s.stop.line

/-! ### Faults -/

/-- What can be wrong with a pattern. -/
inductive Fault where
  | classEscapeInvalid
  | classRangeInvalid
  | classRangeLiteral
  | classUnclosed
  | decimalEmpty
  | decimalInvalid
  | hexEmpty
  | hexInvalid
  | hexInvalidDigit
  | escapeUnexpectedEnd
  | escapeUnrecognized
  | flagDanglingNegation
  | flagDuplicate
  | flagRepeatedNegation
  | flagUnexpectedEnd
  | flagUnrecognized
  | groupNameDuplicate
  | groupNameEmpty
  | groupNameInvalid
  | groupNameUnexpectedEnd
  | groupUnclosed
  | groupUnopened
  | repetitionCountInvalid
  | repetitionCountEmpty
  | repetitionCountUnclosed
  | repetitionMissing
  | wordBoundaryUnclosed
  | wordBoundaryUnrecognized
  | wordBoundaryUnexpectedEnd
  | propertyInvalid
  | backreference
  | lookAround
  | unicodeNotAllowed
  | invalidUtf8
  | propertyNotFound
  | propertyValueNotFound

/-- The words for a fault. -/
def Fault.describe : Fault → String
  | classEscapeInvalid => "invalid escape sequence found in character class"
  | classRangeInvalid => "invalid character class range, the start must be <= the end"
  | classRangeLiteral => "invalid range boundary, must be a literal"
  | classUnclosed => "unclosed character class"
  | decimalEmpty => "decimal literal empty"
  | decimalInvalid => "decimal literal invalid"
  | hexEmpty => "hexadecimal literal empty"
  | hexInvalid => "hexadecimal literal is not a Unicode scalar value"
  | hexInvalidDigit => "invalid hexadecimal digit"
  | escapeUnexpectedEnd =>
      "incomplete escape sequence, reached end of pattern prematurely"
  | escapeUnrecognized => "unrecognized escape sequence"
  | flagDanglingNegation => "dangling flag negation operator"
  | flagDuplicate => "duplicate flag"
  | flagRepeatedNegation => "flag negation operator repeated"
  | flagUnexpectedEnd => "expected flag but got end of regex"
  | flagUnrecognized => "unrecognized flag"
  | groupNameDuplicate => "duplicate capture group name"
  | groupNameEmpty => "empty capture group name"
  | groupNameInvalid => "invalid capture group character"
  | groupNameUnexpectedEnd => "unclosed capture group name"
  | groupUnclosed => "unclosed group"
  | groupUnopened => "unopened group"
  | repetitionCountInvalid =>
      "invalid repetition count range, the start must be <= the end"
  | repetitionCountEmpty => "repetition quantifier expects a valid decimal"
  | repetitionCountUnclosed => "unclosed counted repetition"
  | repetitionMissing => "repetition operator missing expression"
  | wordBoundaryUnclosed =>
      "special word boundary assertion is either unclosed or contains an invalid character"
  | wordBoundaryUnrecognized =>
      "unrecognized special word boundary assertion, valid choices are: start, end, " ++
        "start-half or end-half"
  | wordBoundaryUnexpectedEnd =>
      "found either the beginning of a special word boundary or a bounded repetition on a \\b " ++
        "with an opening brace, but no closing brace"
  | propertyInvalid => "invalid Unicode character class"
  | backreference => "backreferences are not supported"
  | lookAround => "look-around, including look-ahead and look-behind, is not supported"
  | unicodeNotAllowed => "Unicode not allowed here"
  | invalidUtf8 => "pattern can match invalid UTF-8"
  | propertyNotFound => "Unicode property not found"
  | propertyValueNotFound => "Unicode property value not found"

/-- A fault with the stretch it concerns, and another one for a repetition of something. -/
structure Error where
  fault : Fault
  span : Span
  earlier : Option Span

/-! ### Messages -/

/-- The two stretches of an error that lie within the given line, in order. -/
def Error.spansIn (e : Error) (line : Nat) : List Span :=
  let inLine := (e.span :: e.earlier.toList).filter fun s => s.isOneLine && s.start.line == line
  match inLine with
  | [a, b] => if b.start.offset < a.start.offset then [b, a] else [a, b]
  | other => other

/-- Blanks and carets that underline stretches, from column `col` on; an empty stretch is shown as
one caret. -/
def underline : Nat → List Span → Text
  | _, [] => []
  | col, s :: rest =>
      let width := Nat.max 1 (s.stop.col - s.start.col)
      List.replicate (s.start.col - col) ' ' ++ List.replicate width '^' ++
        underline (Nat.max col s.start.col + width) rest

/-- A number with blanks in front up to a width. -/
def padded (width n : Nat) : Text :=
  let digits := Text.ofNat n
  List.replicate (width - digits.length) ' ' ++ digits

/-- The lines of a pattern, each with its margin and, where it is in question, underlined. -/
def Error.annotate (e : Error) (width : Nat) : Nat → List Text → Text
  | _, [] => []
  | n, line :: rest =>
      let margin : Text := if width = 0 then "    ".toList else padded width n ++ [':', ' ']
      let marks : Text :=
        match e.spansIn n with
        | [] => []
        | spans => List.replicate (if width = 0 then 4 else width + 2) ' ' ++ underline 1 spans ++
            ['\n']
      margin ++ line ++ ['\n'] ++ marks ++ e.annotate width (n + 1) rest

/-- The line of a message about a stretch of several lines. -/
def Span.describe (s : Span) : Text :=
  "on line ".toList ++ Text.ofNat s.start.line ++ " (column ".toList ++ Text.ofNat s.start.col ++
    ") through line ".toList ++ Text.ofNat s.stop.line ++ " (column ".toList ++
    Text.ofNat (s.stop.col - 1) ++ ")\n".toList

/-- The message for an error in the given pattern. -/
def Error.message (e : Error) (pattern : Text) : Text :=
  let lines := Text.lines pattern
  let count := lines.length + if pattern.getLast? = some '\n' then 1 else 0
  let width := if count ≤ 1 then 0 else (Text.ofNat count).length
  let shown := e.annotate width 1 lines
  let ruler := List.replicate 79 '~' ++ ['\n']
  let wide := (e.span :: e.earlier.toList).filter fun s => !s.isOneLine
  let body :=
    if pattern.contains '\n' then ruler ++ shown ++ ruler ++ wide.flatMap Span.describe else shown
  "regex parse error:\n".toList ++ body ++ "error: ".toList ++ e.fault.describe.toList

/-! ### Trees -/

/-- The named classes of blanks, digits and word characters. -/
inductive PerlClass where
  | digit | blank | word

/-- A Unicode property as it is asked for: by a name, or by a name and a value. -/
inductive PropertyQuery where
  | named (name : Text)
  | valued (name value : Text)

/-- A literal character; `byte` says that it was written as two hexadecimal digits. -/
structure Literal where
  span : Span
  char : Char
  byte : Bool

/-- The operations on classes. -/
inductive ClassOp where
  | inter | diff | symmDiff

/-- The tree of a written class. -/
inductive ClassAst where
  | nothing
  | literal (l : Literal)
  | range (first last : Literal)
  | perl (span : Span) (negated : Bool) (kind : PerlClass)
  | property (span : Span) (negated : Bool) (query : PropertyQuery)
  | posix (span : Span) (negated : Bool) (cls : CharClass)
  | bracket (span : Span) (negated : Bool) (items : ClassAst)
  | union (a b : ClassAst)
  | op (kind : ClassOp) (a b : ClassAst)

/-- Conditions as they are written. -/
inductive Assertion where
  | startLine | endLine | startText | endText
  | boundary | notBoundary
  | wordStart | wordEnd | wordStartHalf | wordEndHalf

/-- The flags that can be switched within a pattern. -/
inductive Flag where
  | caseInsensitive | multiLine | dotNewline | swapGreed | unicode | crlf | spaced
  deriving DecidableEq

/-- A list of flags, each with the state it is switched to. -/
abbrev FlagList := List (Flag × Bool)

/-- The state to which a list of flags switches a flag. -/
def FlagList.state? (fs : FlagList) (f : Flag) : Option Bool :=
  (fs.find? fun x => x.1 = f).map (·.2)

/-- Groups that are numbered, and groups that only switch flags. -/
inductive GroupKind where
  | capture (index : Nat)
  | plain (flags : FlagList)

/-- The tree of a written pattern. -/
inductive Ast where
  | empty
  | flags (fs : FlagList)
  | literal (l : Literal)
  | dot (span : Span)
  | assertion (a : Assertion)
  | perl (span : Span) (negated : Bool) (kind : PerlClass)
  | property (span : Span) (negated : Bool) (query : PropertyQuery)
  | bracket (span : Span) (negated : Bool) (items : ClassAst)
  | repetition (sub : Ast) (min : Nat) (max : Option Nat) (greedy : Bool)
  | group (kind : GroupKind) (sub : Ast)
  | seq (a b : Ast)
  | alt (a b : Ast)

/-- Whether a part can be repeated: switching flags and nothing at all cannot. -/
def Ast.isRepeatable : Ast → Bool
  | empty | flags _ => false
  | _ => true

/-- Parts one after the other, given in reverse. -/
def Ast.concatReversed (parts : List Ast) : Ast :=
  match parts with
  | [] => empty
  | last :: before => before.foldl (fun acc a => seq a acc) last

/-- Alternatives in order, given in reverse. -/
def Ast.altReversed (last : Ast) (before : List Ast) : Ast :=
  before.foldl (fun acc a => alt a acc) last

end Pattern

end Softcode
