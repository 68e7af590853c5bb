/-
**Reading patterns.**

The reader turns a written pattern into its tree and reports the first fault it meets.  It walks
over the pattern once from left to right; a group is read by the same function as the whole
pattern, up to its closing parenthesis.  With the flag `x` blanks and comments between the parts
are skipped.

The functions that read a row of parts take a bound on the number of parts as their first argument;
every part has at least one character, so the length of the pattern is enough.

Main definitions:

* `Softcode.Pattern.Reader` — the state of reading;
* `Softcode.Pattern.readEscape` — what a backslash begins;
* `Softcode.Pattern.readClass` — a class between brackets;
* `Softcode.Pattern.readParts` — the alternatives up to a closing parenthesis or the end;
* `Softcode.Pattern.parse` — **the tree of a pattern**.
-/

import Softcode.Pattern.Ast

set_option autoImplicit false

namespace Softcode

namespace Pattern

/-! ### The state of reading -/

/-- What is left to read, the position reached, whether blanks are skipped, the number of groups
opened so far and the names given to groups. -/
structure Reader where
  rest : Text
  position : Position
  spaced : Bool
  groups : Nat
  names : List (Text × Span)

namespace Reader

/-- The beginning of a pattern. -/
def start (pattern : Text) : Reader := ⟨pattern, ⟨0, 1, 1⟩, false, 0, []⟩

/-- The state behind the next character. -/
def bump (r : Reader) : Reader :=
  match r.rest with
  | [] => r
  | c :: rest => { r with rest := rest, position := r.position.after c }

/-- The text and position behind the blanks and comments at the front; a comment goes from a `#`
to the end of the line. -/
def skipFrom : Bool → Text → Position → Text × Position
  | _, [], p => ([], p)
  | true, c :: s, p => skipFrom (c != '\n') s (p.after c)
  | false, c :: s, p =>
      if isBlank c then skipFrom false s (p.after c)
      else if c = '#' then skipFrom true s (p.after c)
      else (c :: s, p)

/-- The state behind blanks and comments, if these are skipped. -/
def skipSpace (r : Reader) : Reader :=
  if r.spaced then
    let (rest, position) := skipFrom false r.rest r.position
    { r with rest := rest, position := position }
  else r

/-- The state behind the next character and the blanks after it. -/
def bumpSpace (r : Reader) : Reader := r.bump.skipSpace

/-- The state behind a fixed text, if it comes next. -/
def bumpText? (token : Text) (r : Reader) : Option Reader :=
  (Text.dropPrefix? token r.rest).map fun _ => token.foldl (fun r' _ => r'.bump) r

/-- Whether the pattern is read to its end. -/
def atEnd (r : Reader) : Bool := r.rest.isEmpty

/-- The empty stretch at the position reached. -/
def here (r : Reader) : Span := ⟨r.position, r.position⟩

/-- The stretch of the next character. -/
def charSpan (r : Reader) : Span := ⟨r.position, r.bump.position⟩

/-- The stretch from an earlier position to the one reached. -/
def spanFrom (r : Reader) (start : Position) : Span := ⟨start, r.position⟩

/-- The second character that comes next. -/
def peek (r : Reader) : Option Char := r.rest[1]?

/-- What is left after the character that comes next and blanks behind it. -/
def peekFrom : Bool → Text → Option Char
  | _, [] => none
  | comment, c :: s =>
      if isBlank c then peekFrom comment s
      else if !comment && c == '#' then peekFrom true s
      else if comment && c == '\n' then peekFrom false s
      else some c

/-- The character after the next one, with blanks skipped if they are. -/
def peekSpace (r : Reader) : Option Char :=
  if r.spaced then peekFrom false (r.rest.drop 1) else r.peek

end Reader

/-- A fault that concerns one stretch. -/
def failAt {α : Type} (fault : Fault) (span : Span) : Except Error α := .error ⟨fault, span, none⟩

/-- The characters that satisfy `p` at the front, with blanks skipped behind each. -/
def takeChars (p : Char → Bool) : Nat → Reader → Text × Reader
  | 0, r => ([], r)
  | n + 1, r =>
      match r.rest with
      | [] => ([], r)
      | c :: _ =>
          if p c then
            let (t, r') := takeChars p n r.bumpSpace
            (c :: t, r')
          else ([], r)

/-! ### Numbers -/

/-- The value of a text of hexadecimal digits. -/
def hexValue (s : Text) : Nat :=
  s.foldl (fun v c =>
    16 * v + (if c.isDigit then c.toNat - 48 else c.toLower.toNat - 87)) 0

/-- The ASCII characters that are hexadecimal digits. -/
def isHexDigit (c : Char) : Bool :=
  c.isDigit || ('a' ≤ c && c ≤ 'f') || ('A' ≤ c && c ≤ 'F')

/-- A decimal number between blanks.  The state behind it is given in any case, since a missing
number is not always a fault. -/
def readDecimal (r : Reader) : Except Error Nat × Reader :=
  let (_, r₁) := takeChars isBlank r.rest.length r
  let (digits, r₂) := takeChars Char.isDigit r₁.rest.length r₁
  let span := r₂.spanFrom r₁.position
  let (_, r₃) := takeChars isBlank r₂.rest.length r₂
  let value := digits.foldl (fun v d => 10 * v + (d.toNat - 48)) 0
  if digits.isEmpty then (failAt .repetitionCountEmpty span, r₃)
  else if value < 0x100000000 then (.ok value, r₃)
  else (failAt .decimalInvalid span, r₃)

/-- The character with the given hexadecimal digits, which are read from `span`. -/
def charOfHex (digits : Text) (span : Span) : Except Error Char :=
  let n := hexValue digits
  if n < 0xd800 || (0xdfff < n && n < 0x110000) then .ok (Char.ofNat n)
  else failAt .hexInvalid span

/-- Exactly `n` hexadecimal digits, where the first one comes next. -/
def readHexDigits : Nat → Reader → Except Error (Text × Reader)
  | 0, r => .ok ([], r)
  | n + 1, r =>
      match r.rest with
      | [] => failAt .escapeUnexpectedEnd r.here
      | c :: _ =>
          if isHexDigit c then do
            let (t, r') ← readHexDigits n r.bumpSpace
            .ok (c :: t, r')
          else failAt .hexInvalidDigit r.charSpan

/-- The character of a hexadecimal escape whose letter comes next. -/
def readHex (start : Position) (digits : Nat) (r : Reader) : Except Error (Literal × Reader) :=
  let r₁ := r.bumpSpace
  match r₁.rest with
  | [] => failAt .escapeUnexpectedEnd r₁.here
  | '\x7b' :: _ =>
      let brace := r₁.position
      let open_ := r₁.bump.position
      let (hex, r₂) := takeChars isHexDigit r₁.rest.length r₁.bumpSpace
      match r₂.rest with
      | [] => failAt .escapeUnexpectedEnd (r₂.spanFrom brace)
      | '\x7d' :: _ =>
          let r₃ := r₂.bumpSpace
          if hex.isEmpty then failAt .hexEmpty (r₃.spanFrom brace)
          else do
            let c ← charOfHex hex (r₂.spanFrom open_)
            .ok (⟨r₃.spanFrom start, c, false⟩, r₃)
      | _ => failAt .hexInvalidDigit r₂.charSpan
  | _ => do
      let (hex, r₂) ← readHexDigits digits r₁
      let c ← charOfHex hex (r₂.spanFrom r₁.position)
      .ok (⟨r₂.spanFrom start, c, digits == 2⟩, r₂)

/-! ### Escapes -/

/-- What stands between braces is asked for by name, or by name and value. -/
def queryOf (name : Text) : PropertyQuery :=
  let rec splitNe (seen : Text) : Text → Option (Text × Text)
    | '!' :: '=' :: s => some (seen.reverse, s)
    | c :: s => splitNe (c :: seen) s
    | [] => none
  match splitNe [] name with
  | some (n, v) => .valued n v
  | none =>
      match (Text.cut? ':' name).or (Text.cut? '=' name) with
      | some (n, v) => .valued n v
      | none => .named name

/-- Whether a name between braces asks for the complement with `!=`. -/
def asksComplement : Text → Bool
  | '!' :: '=' :: _ => true
  | _ :: s => asksComplement s
  | [] => false

/-- A Unicode property whose letter comes next. -/
def readProperty (start : Position) (r : Reader) :
    Except Error ((Span × Bool × PropertyQuery) × Reader) :=
  let negated := r.rest.head? == some 'P'
  let r₁ := r.bumpSpace
  match r₁.rest with
  | [] => failAt .escapeUnexpectedEnd r₁.here
  | '\x7b' :: _ =>
      let (name, r₂) := takeChars (· != '\x7d') r₁.rest.length r₁.bumpSpace
      if r₂.atEnd then failAt .escapeUnexpectedEnd r₂.here
      else
        let r₃ := r₂.bump
        .ok ((r₃.spanFrom start, negated != asksComplement name, queryOf name), r₃)
  | c :: _ =>
      if c = '\\' then failAt .propertyInvalid r₁.charSpan
      else
        let r₂ := r₁.bumpSpace
        .ok ((r₂.spanFrom start, negated, .named [c]), r₂)

/-- The characters with a meaning of their own. -/
def isMeta (c : Char) : Bool :=
  c == '\\' || c == '.' || c == '+' || c == '*' || c == '?' || c == '(' || c == ')' || c == '|' ||
    c == '[' || c == ']' || c == '\x7b' || c == '\x7d' || c == '^' || c == '$' || c == '#' ||
    c == '&' || c == '-' || c == '~'

/-- The characters that stand for themselves behind a backslash. -/
def isEscapable (c : Char) : Bool :=
  isMeta c || (c.toNat < 128 && !c.isAlphanum && c != '<' && c != '>')

/-- What stands between the braces of a word boundary with a name.  If it cannot be a name, the
brace begins a repetition. -/
def readBoundaryName (start : Position) (r : Reader) : Except Error ((Option Assertion) × Reader) :=
  let isNameChar (c : Char) : Bool := c.isAlpha || c == '-'
  let r₁ := r.bumpSpace
  match r₁.rest with
  | [] => failAt .wordBoundaryUnexpectedEnd (r₁.spanFrom start)
  | c :: _ =>
      if !isNameChar c then .ok (none, r)
      else
        let (name, r₂) := takeChars isNameChar r₁.rest.length r₁
        if r₂.rest.head? != some '\x7d' then failAt .wordBoundaryUnclosed (r₂.spanFrom r.position)
        else
          match String.ofList name with
          | "start" => .ok (some .wordStart, r₂.bump)
          | "end" => .ok (some .wordEnd, r₂.bump)
          | "start-half" => .ok (some .wordStartHalf, r₂.bump)
          | "end-half" => .ok (some .wordEndHalf, r₂.bump)
          | _ => failAt .wordBoundaryUnrecognized (r₂.spanFrom r₁.position)

/-- The parts that are a single character or an escape. -/
inductive Primitive where
  | literal (l : Literal)
  | assertion (span : Span) (a : Assertion)
  | dot (span : Span)
  | perl (span : Span) (negated : Bool) (kind : PerlClass)
  | property (span : Span) (negated : Bool) (query : PropertyQuery)

/-- The stretch of a primitive part. -/
def Primitive.span : Primitive → Span
  | literal l => l.span
  | assertion s _ => s
  | dot s => s
  | perl s _ _ => s
  | property s _ _ => s

/-- The tree of a primitive part. -/
def Primitive.toAst : Primitive → Ast
  | literal l => .literal l
  | assertion _ a => .assertion a
  | dot s => .dot s
  | perl s n k => .perl s n k
  | property s n q => .property s n q

/-- The blanks, digits and word characters, and their complements, by letter. -/
def perlClass? (c : Char) : Option (Bool × PerlClass) :=
  match c with
  | 'd' => some (false, .digit)
  | 'D' => some (true, .digit)
  | 's' => some (false, .blank)
  | 'S' => some (true, .blank)
  | 'w' => some (false, .word)
  | 'W' => some (true, .word)
  | _ => none

/-- The control characters that have a letter. -/
def controlChar? (c : Char) : Option Char :=
  match c with
  | 'a' => some '\x07'
  | 'f' => some '\x0c'
  | 't' => some '\t'
  | 'n' => some '\n'
  | 'r' => some '\r'
  | 'v' => some '\x0b'
  | _ => none

/-- The conditions that have a letter, `\b` apart. -/
def assertion? (c : Char) : Option Assertion :=
  match c with
  | 'A' => some .startText
  | 'z' => some .endText
  | 'B' => some .notBoundary
  | '<' => some .wordStart
  | '>' => some .wordEnd
  | _ => none

/-- The escape whose backslash comes next. -/
def readEscape (r : Reader) : Except Error (Primitive × Reader) :=
  let start := r.position
  let r₁ := r.bump
  match r₁.rest with
  | [] => failAt .escapeUnexpectedEnd (r₁.spanFrom start)
  | c :: _ =>
      let r₂ := r₁.bump
      let span := r₂.spanFrom start
      if c.isDigit then failAt .backreference span
      else if c = 'x' then do
        let (l, r') ← readHex start 2 r₁
        .ok (.literal l, r')
      else if c = 'u' then do
        let (l, r') ← readHex start 4 r₁
        .ok (.literal l, r')
      else if c = 'U' then do
        let (l, r') ← readHex start 8 r₁
        .ok (.literal l, r')
      else if c = 'p' || c = 'P' then do
        let ((s, n, q), r') ← readProperty start r₁
        .ok (.property s n q, r')
      else if isEscapable c then .ok (.literal ⟨span, c, false⟩, r₂)
      else if c = 'b' then
        if r₂.rest.head? == some '\x7b' then do
          let (name, r₃) ← readBoundaryName start r₂
          .ok (.assertion (r₃.spanFrom start) (name.getD .boundary), r₃)
        else .ok (.assertion span .boundary, r₂)
      else
        match perlClass? c, controlChar? c, assertion? c with
        | some (n, k), _, _ => .ok (.perl span n k, r₂)
        | _, some d, _ => .ok (.literal ⟨span, d, false⟩, r₂)
        | _, _, some a => .ok (.assertion span a, r₂)
        | none, none, none => failAt .escapeUnrecognized span

/-- A primitive part outside brackets. -/
def readPrimitive (r : Reader) : Except Error (Primitive × Reader) :=
  match r.rest with
  | '\\' :: _ => readEscape r
  | '.' :: _ => .ok (.dot r.charSpan, r.bump)
  | '^' :: _ => .ok (.assertion r.charSpan .startLine, r.bump)
  | '$' :: _ => .ok (.assertion r.charSpan .endLine, r.bump)
  | c :: _ => .ok (.literal ⟨r.charSpan, c, false⟩, r.bump)
  | [] => failAt .escapeUnexpectedEnd r.here

/-! ### Classes -/

/-- A primitive part inside brackets. -/
def readClassPrimitive (r : Reader) : Except Error (Primitive × Reader) :=
  match r.rest with
  | '\\' :: _ => readEscape r
  | c :: _ => .ok (.literal ⟨r.charSpan, c, false⟩, r.bump)
  | [] => failAt .classUnclosed r.here

/-- A primitive part as a member of a class. -/
def Primitive.toClass : Primitive → Except Error ClassAst
  | literal l => .ok (.literal l)
  | perl s n k => .ok (.perl s n k)
  | property s n q => .ok (.property s n q)
  | p => failAt .classEscapeInvalid p.span

/-- A primitive part as an end of an interval. -/
def Primitive.toLiteral : Primitive → Except Error Literal
  | literal l => .ok l
  | p => failAt .classRangeLiteral p.span

/-- A member of a class: a primitive part or an interval. -/
def readClassRange (opened : Span) (r : Reader) : Except Error (ClassAst × Reader) := do
  let (first, r₁) ← readClassPrimitive r
  let r₁ := r₁.skipSpace
  match r₁.rest with
  | [] => failAt .classUnclosed opened
  | c :: _ =>
      if c != '-' || r₁.peekSpace == some ']' || r₁.peekSpace == some '-' then do
        let item ← first.toClass
        .ok (item, r₁)
      else
        let r₂ := r₁.bumpSpace
        if r₂.atEnd then failAt .classUnclosed opened
        else do
          let (last, r₃) ← readClassPrimitive r₂
          let a ← first.toLiteral
          let b ← last.toLiteral
          if a.char ≤ b.char then .ok (.range a b, r₃)
          else failAt .classRangeInvalid ⟨first.span.start, last.span.stop⟩

/-- A named class `[:name:]` or `[:^name:]` whose bracket comes next, if there is one. -/
def readPosix? (r : Reader) : Option (ClassAst × Reader) := do
  let r₁ ← r.bumpText? ['[', ':']
  let (negated, r₂) :=
    if r₁.rest.head? == some '^' then (true, r₁.bump) else (false, r₁)
  let name := r₂.rest.takeWhile (· != ':')
  let r₃ := name.foldl (fun r' _ => r'.bump) r₂
  let r₄ ← r₃.bumpText? [':', ']']
  let cls ← CharClass.posix? (String.ofList name)
  some (.posix (r₄.spanFrom r.position) negated cls, r₄)

/-- The literal hyphens at the beginning of a class.  The class is not closed if the pattern ends
here. -/
def readHyphens (start : Position) : Nat → ClassAst → Reader → Except Error (ClassAst × Reader)
  | 0, items, r => .ok (items, r)
  | n + 1, items, r =>
      match r.rest with
      | '-' :: _ =>
          let r' := r.bumpSpace
          if r'.atEnd then failAt .classUnclosed ⟨start, start⟩
          else readHyphens start n (.union items (.literal ⟨r.charSpan, '-', false⟩)) r'
      | _ => .ok (items, r)

/-- The opening of a class: whether it is negated, and the hyphens or the closing bracket that
stand for themselves at its beginning. -/
def readClassOpen (r : Reader) : Except Error ((Bool × ClassAst) × Reader) := do
  let start := r.position
  let r₁ := r.bumpSpace
  if r₁.atEnd then failAt .classUnclosed (r₁.spanFrom start)
  else
    let negated := r₁.rest.head? == some '^'
    let r₂ := if negated then r₁.bumpSpace else r₁
    if r₂.atEnd then failAt .classUnclosed (r₂.spanFrom start)
    else
      let hyphen := r₂.rest.head? == some '-'
      let (items, r₃) ← readHyphens start r₂.rest.length .nothing r₂
      if !hyphen && r₃.rest.head? == some ']' then
        let r₄ := r₃.bumpSpace
        if r₄.atEnd then failAt .classUnclosed (r₄.spanFrom start)
        else .ok ((negated, .union items (.literal ⟨r₃.charSpan, ']', false⟩)), r₄)
      else .ok ((negated, items), r₃)

/-- The operation that two equal characters stand for between classes. -/
def classOp? (r : Reader) : Option ClassOp :=
  match r.rest with
  | '&' :: '&' :: _ => some .inter
  | '-' :: '-' :: _ => some .diff
  | '~' :: '~' :: _ => some .symmDiff
  | _ => none

/-- A class with what stands before the last operation. -/
def combine (left : Option (ClassOp × ClassAst)) (items : ClassAst) : ClassAst :=
  match left with
  | none => items
  | some (kind, a) => .op kind a items

/-- The members of a class up to its closing bracket, where `opened` is its opening. -/
def readClassItems :
    Nat → Span → Option (ClassOp × ClassAst) → ClassAst → Reader → Except Error (ClassAst × Reader)
  | 0, opened, _, _, _ => failAt .classUnclosed opened
  | n + 1, opened, left, items, r =>
      let r := r.skipSpace
      match classOp? r with
      | some kind =>
          readClassItems n opened (some (kind, combine left items)) .nothing r.bump.bump
      | none =>
          match r.rest with
          | [] => failAt .classUnclosed opened
          | ']' :: _ => .ok (combine left items, r.bump)
          | '[' :: _ =>
              match readPosix? r with
              | some (cls, r₁) => readClassItems n opened left (.union items cls) r₁
              | none => do
                  let ((negated, first), r₁) ← readClassOpen r
                  let (inner, r₂) ← readClassItems n (r₁.spanFrom r.position) none first r₁
                  readClassItems n opened left
                    (.union items (.bracket (r₂.spanFrom r.position) negated inner)) r₂
          | _ => do
              let (item, r₁) ← readClassRange opened r
              readClassItems n opened left (.union items item) r₁

/-- A class whose opening bracket comes next. -/
def readClass (r : Reader) : Except Error (Ast × Reader) := do
  let ((negated, first), r₁) ← readClassOpen r
  let (items, r₂) ← readClassItems r.rest.length (r₁.spanFrom r.position) none first r₁
  .ok (.bracket (r₂.spanFrom r.position) negated items, r₂)

/-! ### Repetitions -/

/-- The lazy mark behind a repetition. -/
def readLazy (r : Reader) : Bool × Reader :=
  if r.rest.head? == some '?' then (false, r.bump) else (true, r)

/-- The last part read, which an operator at `r` repeats, and the parts before it. -/
def lastPart (parts : List Ast) (r : Reader) : Except Error (Ast × List Ast) :=
  match parts with
  | [] => failAt .repetitionMissing r.here
  | a :: before => if a.isRepeatable then .ok (a, before) else failAt .repetitionMissing r.here

/-- A repetition with one of the operators `?`, `*` and `+`. -/
def readOperator (parts : List Ast) (min : Nat) (max : Option Nat) (r : Reader) :
    Except Error ((List Ast) × Reader) := do
  let (a, before) ← lastPart parts r
  let (greedy, r₁) := readLazy r.bump
  .ok (.repetition a min max greedy :: before, r₁)

/-- The bounds of a counted repetition behind its opening brace, up to the closing one. -/
def readBounds (start : Position) (r : Reader) : Except Error ((Nat × Option Nat) × Reader) :=
  let (first, r₁) := readDecimal r
  match r₁.rest with
  | [] => failAt .repetitionCountUnclosed (r₁.spanFrom start)
  | ',' :: _ =>
      let r₂ := r₁.bumpSpace
      match r₂.rest with
      | [] => failAt .repetitionCountUnclosed (r₂.spanFrom start)
      | '\x7d' :: _ => do
          let min ← first
          .ok ((min, none), r₂)
      | _ => do
          let min ← first
          let (second, r₃) := readDecimal r₂
          let max ← second
          .ok ((min, some max), r₃)
  | _ => do
      let min ← first
      .ok ((min, some min), r₁)

/-- A counted repetition whose opening brace comes next. -/
def readCounted (parts : List Ast) (r : Reader) : Except Error ((List Ast) × Reader) := do
  let start := r.position
  let (a, before) ← lastPart parts r
  let r₁ := r.bumpSpace
  if r₁.atEnd then failAt .repetitionCountUnclosed (r₁.spanFrom start)
  else
    let ((min, max), r₂) ← readBounds start r₁
    if r₂.rest.head? != some '\x7d' then failAt .repetitionCountUnclosed (r₂.spanFrom start)
    else
      let (greedy, r₃) := readLazy r₂.bumpSpace
      if max.any (· < min) then failAt .repetitionCountInvalid (r₃.spanFrom start)
      else .ok (.repetition a min max greedy :: before, r₃)

/-! ### Groups -/

/-- A flag by its letter. -/
def flag? (c : Char) : Option Flag :=
  match c with
  | 'i' => some .caseInsensitive
  | 'm' => some .multiLine
  | 's' => some .dotNewline
  | 'U' => some .swapGreed
  | 'u' => some .unicode
  | 'R' => some .crlf
  | 'x' => some .spaced
  | _ => none

/-- The flags behind `(?` up to a colon or a closing parenthesis.  Here `minus` is the stretch of
the minus sign, if it was read, `dangling` says that it was read last, and `seen` holds the flags
with their stretches. -/
def readFlags :
    Nat → Option Span → Bool → List (Flag × Bool × Span) → Reader → Except Error (FlagList × Reader)
  | 0, _, _, _, r => failAt .flagUnexpectedEnd r.here
  | n + 1, minus, dangling, seen, r =>
      match r.rest with
      | [] => failAt .flagUnexpectedEnd r.here
      | c :: _ =>
          if c = ':' || c = ')' then
            match dangling, minus with
            | true, some span => failAt .flagDanglingNegation span
            | _, _ => .ok (seen.reverse.map fun x => (x.1, x.2.1), r)
          else if c = '-' then
            match minus with
            | some span => .error ⟨.flagRepeatedNegation, r.charSpan, some span⟩
            | none => readFlags n (some r.charSpan) true seen r.bump
          else
            match flag? c with
            | none => failAt .flagUnrecognized r.charSpan
            | some f =>
                match seen.find? fun x => x.1 = f with
                | some x => .error ⟨.flagDuplicate, r.charSpan, some x.2.2⟩
                | none => readFlags n minus false ((f, minus.isNone, r.charSpan) :: seen) r.bump

/-- The characters of group names; the first one is a letter or an underscore. -/
def isGroupNameChar (first : Bool) (c : Char) : Bool :=
  c == '_' || (if first then isAlphabetic c
    else c == '.' || c == '[' || c == ']' || isAlphanumeric c)

/-- The characters of a group name up to the closing angle bracket. -/
def readGroupNameChars : Nat → Bool → Reader → Except Error (Text × Reader)
  | 0, _, r => failAt .groupNameUnexpectedEnd r.here
  | n + 1, first, r =>
      match r.rest with
      | [] => failAt .groupNameUnexpectedEnd r.here
      | '>' :: _ => .ok ([], r)
      | c :: _ =>
          if isGroupNameChar first c then do
            let (t, r') ← readGroupNameChars n false r.bump
            .ok (c :: t, r')
          else failAt .groupNameInvalid r.charSpan

/-- A group name up to and with its closing angle bracket. -/
def readGroupName (r : Reader) : Except Error Reader := do
  let (name, r₁) ← readGroupNameChars (r.rest.length + 1) true r
  if name.isEmpty then failAt .groupNameEmpty r.here
  else
    let span := r₁.spanFrom r.position
    match r₁.names.find? fun x => x.1 = name with
    | some x => .error ⟨.groupNameDuplicate, span, some x.2⟩
    | none => .ok { r₁.bump with names := (name, span) :: r₁.names }

/-- What a parenthesis opens: a switch of flags, or a group. -/
inductive Opening where
  | switch (fs : FlagList)
  | group (kind : GroupKind)

/-- The beginnings of look-around. -/
def lookAroundMarks : List Text := [['?', '='], ['?', '!'], ['?', '<', '='], ['?', '<', '!']]

/-- The opening of a group whose parenthesis comes next. -/
def readOpening (r : Reader) : Except Error (Opening × Reader) :=
  let r₁ := r.bumpSpace
  match lookAroundMarks.findSome? fun mark => r₁.bumpText? mark with
  | some r₂ => failAt .lookAround (r₂.spanFrom r.position)
  | none =>
      match (r₁.bumpText? ['?', 'P', '<']).or (r₁.bumpText? ['?', '<']) with
      | some r₂ => do
          let r₃ ← readGroupName { r₂ with groups := r₂.groups + 1 }
          .ok (.group (.capture r₃.groups), r₃)
      | none =>
          match r₁.bumpText? ['?'] with
          | some r₂ =>
              if r₂.atEnd then failAt .groupUnclosed r.charSpan
              else do
                let (fs, r₃) ← readFlags (r₂.rest.length + 1) none false [] r₂
                if r₃.rest.head? == some ')' then
                  if fs.isEmpty then failAt .repetitionMissing r₁.here
                  else .ok (.switch fs, r₃.bump)
                else .ok (.group (.plain fs), r₃.bump)
          | none =>
              let r₂ := { r₁ with groups := r₁.groups + 1 }
              .ok (.group (.capture r₂.groups), r₂)

/-- The flags that an opening switches. -/
def Opening.flags : Opening → FlagList
  | switch fs => fs
  | group (.plain fs) => fs
  | group (.capture _) => []

/-! ### Whole patterns -/

/-- The alternatives up to a closing parenthesis or the end of the pattern.  The alternatives read
so far and the parts of the current one are given in reverse. -/
def readParts : Nat → List Ast → List Ast → Reader → Except Error (Ast × Reader)
  | 0, _, _, r => failAt .groupUnclosed r.here
  | n + 1, alts, parts, r =>
      let r := r.skipSpace
      match r.rest with
      | [] => .ok (Ast.altReversed (Ast.concatReversed parts) alts, r)
      | ')' :: _ => .ok (Ast.altReversed (Ast.concatReversed parts) alts, r)
      | '|' :: _ => readParts n (Ast.concatReversed parts :: alts) [] r.bump
      | '(' :: _ => do
          let (opening, r₁) ← readOpening r
          let spaced := ((opening.flags).state? .spaced).getD r.spaced
          let inner := { r₁ with spaced := spaced }
          match opening with
          | .switch fs => readParts n alts (.flags fs :: parts) inner
          | .group kind => do
              let (sub, r₂) ← readParts n [] [] inner
              if r₂.atEnd then failAt .groupUnclosed r.charSpan
              else readParts n alts (.group kind sub :: parts) { r₂.bump with spaced := r.spaced }
      | '[' :: _ => do
          let (a, r₁) ← readClass r
          readParts n alts (a :: parts) r₁
      | '?' :: _ => do
          let (parts', r₁) ← readOperator parts 0 (some 1) r
          readParts n alts parts' r₁
      | '*' :: _ => do
          let (parts', r₁) ← readOperator parts 0 none r
          readParts n alts parts' r₁
      | '+' :: _ => do
          let (parts', r₁) ← readOperator parts 1 none r
          readParts n alts parts' r₁
      | '\x7b' :: _ => do
          let (parts', r₁) ← readCounted parts r
          readParts n alts parts' r₁
      | _ => do
          let (a, r₁) ← readPrimitive r
          readParts n alts (a.toAst :: parts) r₁

/-- **The tree of a pattern.** -/
def parse (pattern : Text) : Except Error Ast := do
  let (a, r) ← readParts (pattern.length + 1) [] [] (Reader.start pattern)
  if r.atEnd then .ok a else failAt .groupUnopened r.charSpan

end Pattern

end Softcode
