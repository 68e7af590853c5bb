/-
**What a line of code is made of.**

The comment stripper and the linter walk over a line with the same eyes.  This module says what
they see: every character of a line gets a role.  A backslash protects the character behind it;
quotes run to the next quote of their kind or to the end of the line; an address keeps its slashes;
`//` begins a comment that ends with the line, and `/*` one that ends with `*/`, perhaps on a later
line.  A mode says what the rest of a line begins in, and only an open block comment is carried from
one line to the next.

Main definitions:

* `Softcode.isRawText`, `Softcode.isDroppedText` — lines with a marker, which are not code;
* `Softcode.addressLength` — the length of an address that begins here;
* `Softcode.opensBlock` — whether a block comment begins here;
* `Softcode.Role`, `Softcode.Mode` — what a character is, and what the walk is in;
* `Softcode.Scanner.step` — the role of the next character;
* `Softcode.scanLine` — **the roles of all characters of a line**, and the mode behind it.

Main results:

* `Softcode.Scanner.length_roles` — every character has one role.
-/

import Softcode.Text.Basic

set_option autoImplicit false

namespace Softcode

/-! ### Lines with a marker -/

/-- The marker of lines that are passed through untouched. -/
def rawMarker : Text := ['@', '@']

/-- The marker of lines that are left out. -/
def dropMarker : Text := ['#', '#']

/-- A text whose first characters after the blanks are the raw marker. -/
def isRawText (s : Text) : Bool := Text.startsWith rawMarker (Text.trimStart s)

/-- A text whose first characters after the blanks are the drop marker. -/
def isDroppedText (s : Text) : Bool := Text.startsWith dropMarker (Text.trimStart s)

/-! ### Addresses -/

/-- The beginnings of addresses. -/
def addressSchemes : List Text := [
  ['h', 't', 't', 'p', ':', '/', '/'],
  ['h', 't', 't', 'p', 's', ':', '/', '/'],
  ['f', 't', 'p', ':', '/', '/'],
  ['f', 't', 'p', 's', ':', '/', '/']]

/-- The characters that end an address: blanks, quotes and brackets, so that an address between
brackets does not take the closing one with it. -/
def endsAddress (c : Char) : Bool :=
  isBlank c || c == '"' || c == '\'' || c == '[' || c == ']' || c == '(' || c == ')' ||
    c == '\x7b' || c == '\x7d' || c == '<' || c == '>'

/-- The length of the address at the front of `s`, or `0`.  An address does not begin inside a word:
the character before it, if any, is no ASCII letter or digit. -/
def addressLength (before : Option Char) (s : Text) : Nat :=
  if before.any Char.isAlphanum then 0
  else
    match addressSchemes.findSome? fun scheme =>
        (Text.dropPrefixCi? scheme s).map fun rest => (scheme.length, rest) with
    | none => 0
    | some (n, rest) => n + (rest.takeWhile fun c => !endsAddress c).length

/-! ### Comments -/

/-- The opening of a comment that ends with the line. -/
def lineCommentMark : Text := ['/', '/']

/-- The opening of a block comment. -/
def blockOpenMark : Text := ['/', '*']

/-- The closing of a block comment. -/
def blockCloseMark : Text := ['*', '/']

/-- Whether a block comment begins at the front of `s`.  A slash directly behind a star does not
begin one. -/
def opensBlock (before : Option Char) (s : Text) : Bool :=
  Text.startsWith blockOpenMark s && before != some '*'

/-! ### Roles -/

/-- What a character of a line is: code, inside quotes, a quote itself, a part of an escape pair, a
part of an address or a part of a comment. -/
inductive Role where
  | code | quoted | quote | escaped | address | comment
  deriving DecidableEq

/-- What a walk over a line is in: plain code, quotes of one kind, a block comment, or a comment
that goes to the end of the line. -/
inductive Mode where
  | code
  | quoted (quote : Char)
  | block
  | lineComment
  deriving DecidableEq

/-- The state of a walk: the mode, and the number of characters that still belong to what has been
recognised, with their role. -/
structure Scanner where
  mode : Mode
  pending : Nat
  role : Role
  deriving DecidableEq

namespace Scanner

/-- The beginning of a line. -/
def start (mode : Mode) : Scanner := ⟨mode, 0, .code⟩

/-- The role of the next character `c`, which stands behind `before` and before `rest`, and the
state behind it. -/
def step (s : Scanner) (before : Option Char) (c : Char) (rest : Text) : Role × Scanner :=
  match s.pending with
  | n + 1 => (s.role, { s with pending := n })
  | 0 =>
      match s.mode with
      | .lineComment => (.comment, s)
      | .block =>
          if Text.startsWith blockCloseMark (c :: rest) then (.comment, ⟨.code, 1, .comment⟩)
          else (.comment, s)
      | .quoted q =>
          if c = '\\' then (.escaped, ⟨.quoted q, 1, .escaped⟩)
          else if c = q then (.quote, start .code)
          else (.quoted, s)
      | .code =>
          if c = '\\' then (.escaped, ⟨.code, 1, .escaped⟩)
          else if c = '"' ∨ c = '\'' then (.quote, start (.quoted c))
          else
            match addressLength before (c :: rest) with
            | n + 1 => (.address, ⟨.code, n, .address⟩)
            | 0 =>
                if Text.startsWith lineCommentMark (c :: rest) then (.comment, start .lineComment)
                else if opensBlock before (c :: rest) then (.comment, ⟨.block, 1, .comment⟩)
                else (.code, s)

/-- The roles of the characters of a text behind `before`, and the state behind it. -/
def roles (s : Scanner) (before : Option Char) : Text → List Role × Scanner
  | [] => ([], s)
  | c :: rest =>
      let (role, s') := s.step before c rest
      let (more, last) := s'.roles (some c) rest
      (role :: more, last)

@[simp] theorem roles_nil (s : Scanner) (before : Option Char) : s.roles before [] = ([], s) := rfl

theorem roles_cons (s : Scanner) (before : Option Char) (c : Char) (rest : Text) :
    s.roles before (c :: rest) =
      ((s.step before c rest).1 :: ((s.step before c rest).2.roles (some c) rest).1,
        ((s.step before c rest).2.roles (some c) rest).2) := rfl

theorem length_roles (s : Scanner) (before : Option Char) (t : Text) :
    (s.roles before t).1.length = t.length := by
  induction t generalizing s before with
  | nil => rfl
  | cons c rest ih => simp [roles_cons, ih]

end Scanner

/-- **The roles of all characters of a line** that begins in the given mode, and the mode at its
end. -/
def scanLine (mode : Mode) (t : Text) : List Role × Mode :=
  let (roles, s) := (Scanner.start mode).roles none t
  (roles, s.mode)

/-- The mode in which the next line begins: an open block comment goes on, all else ends with its
line. -/
def Mode.nextLine : Mode → Mode
  | block => block
  | _ => code

end Softcode
