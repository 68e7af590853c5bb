/-
**From written patterns to patterns.**

Flags stay in force to the end of the group in which they are switched.  Under the flag `i` a
literal stands for all characters that differ from it in case only, and a class is closed under
case before it is complemented.  Without the flag `u` the named classes are those of ASCII, and a
class that would reach beyond ASCII is refused.

Main definitions:

* `Softcode.Pattern.Flags` — the flags in force;
* `Softcode.Pattern.ClassAst.toClass` — the characters of a written class;
* `Softcode.Pattern.Ast.toPattern` — the pattern of a tree;
* `Softcode.Pattern.compile` — **the pattern of a written pattern**.
-/

import Softcode.Pattern.Basic
import Softcode.Pattern.Property
import Softcode.Pattern.Reader

set_option autoImplicit false

namespace Softcode

namespace Pattern

/-- The flags in force. -/
structure Flags where
  caseInsensitive : Bool := false
  multiLine : Bool := false
  dotNewline : Bool := false
  swapGreed : Bool := false
  unicode : Bool := true
  crlf : Bool := false

/-- The flags in force after a switch. -/
def Flags.switch (f : Flags) (fs : FlagList) : Flags where
  caseInsensitive := (fs.state? .caseInsensitive).getD f.caseInsensitive
  multiLine := (fs.state? .multiLine).getD f.multiLine
  dotNewline := (fs.state? .dotNewline).getD f.dotNewline
  swapGreed := (fs.state? .swapGreed).getD f.swapGreed
  unicode := (fs.state? .unicode).getD f.unicode
  crlf := (fs.state? .crlf).getD f.crlf

/-! ### Classes -/

/-- A class closed under case, if case is ignored. -/
def Flags.closeCase (f : Flags) (a : CharClass) : CharClass :=
  if f.caseInsensitive then (if f.unicode then .anyCase a else .asciiCase a) else a

/-- A class closed under case and then perhaps complemented.  Without the flag `u` the result must
not reach beyond ASCII. -/
def Flags.finish (f : Flags) (span : Span) (negated : Bool) (a : CharClass) :
    Except Error CharClass :=
  let closed := f.closeCase a
  let result := if negated then .compl closed else closed
  if !f.unicode && !result.isAscii then failAt .invalidUtf8 span else .ok result

/-- The blanks, digits or word characters. -/
def Flags.perl (f : Flags) (span : Span) (negated : Bool) (kind : PerlClass) :
    Except Error CharClass :=
  let a : CharClass :=
    match kind, f.unicode with
    | .digit, true => .digit
    | .blank, true => .blank
    | .word, true => .word
    | .digit, false => CharClass.asciiDigit
    | .blank, false => CharClass.asciiBlank
    | .word, false => CharClass.asciiWord
  let result := if negated then .compl a else a
  if !f.unicode && !result.isAscii then failAt .invalidUtf8 span else .ok result

/-- The characters with a property. -/
def Flags.property (f : Flags) (span : Span) (negated : Bool) (query : PropertyQuery) :
    Except Error CharClass :=
  if !f.unicode then failAt .unicodeNotAllowed span
  else
    match query.find? with
    | .error fault => failAt fault span
    | .ok a => f.finish span negated a

/-- A literal of a class.  Without the flag `u` it is an ASCII character. -/
def Flags.classLiteral (f : Flags) (l : Literal) : Except Error Char :=
  if f.unicode || l.char.toNat < 128 then .ok l.char
  else failAt (if l.byte then .invalidUtf8 else .unicodeNotAllowed) l.span

/-- The characters of a written class. -/
def ClassAst.toClass (f : Flags) : ClassAst → Except Error CharClass
  | nothing => .ok .never
  | literal l => do
      let c ← f.classLiteral l
      .ok (.single c)
  | range first last => do
      let a ← f.classLiteral first
      let b ← f.classLiteral last
      .ok (.range a b)
  | perl span negated kind => f.perl span negated kind
  | property span negated query => f.property span negated query
  | posix span negated a => f.finish span negated a
  | bracket span negated items => do
      let a ← items.toClass f
      f.finish span negated a
  | union a b => do
      let a' ← a.toClass f
      let b' ← b.toClass f
      .ok (.union a' b')
  | op kind a b => do
      let a' ← a.toClass f
      let b' ← b.toClass f
      match kind with
      | .inter => .ok (.inter (f.closeCase a') (f.closeCase b'))
      | .diff => .ok (.diff (f.closeCase a') (f.closeCase b'))
      | .symmDiff => .ok (.symmDiff (f.closeCase a') (f.closeCase b'))

/-! ### Patterns -/

/-- The characters that a literal stands for. -/
def Flags.literal (f : Flags) (l : Literal) : Except Error CharClass :=
  if !f.unicode && l.byte && 128 ≤ l.char.toNat then failAt .invalidUtf8 l.span
  else if !f.caseInsensitive then .ok (.single l.char)
  else if f.unicode then .ok (.sameCase (caseFold l.char))
  else .ok (.asciiCase (.single l.char))

/-- The characters that a dot stands for: all but line feeds, unless these are asked for. -/
def Flags.dot (f : Flags) (span : Span) : Except Error CharClass :=
  if !f.unicode then failAt .invalidUtf8 span
  else if f.dotNewline then .ok .any
  else if f.crlf then .ok (.compl (.union (.single '\r') (.single '\n')))
  else .ok (.compl (.single '\n'))

/-- The condition that an assertion stands for. -/
def Flags.look (f : Flags) (a : Assertion) : Look :=
  match a with
  | .startText => .textStart
  | .endText => .textEnd
  | .startLine =>
      if f.multiLine then (if f.crlf then .lineStartCrlf else .lineStart) else .textStart
  | .endLine => if f.multiLine then (if f.crlf then .lineEndCrlf else .lineEnd) else .textEnd
  | .boundary => .boundary
  | .notBoundary => .notBoundary
  | .wordStart => .wordStart
  | .wordEnd => .wordEnd
  | .wordStartHalf => .wordStartHalf
  | .wordEndHalf => .wordEndHalf

/-- The pattern of a tree under the given flags, and the flags in force behind it. -/
def Ast.toPattern : Ast → Flags → Except Error (Pattern × Flags)
  | empty, f => .ok (.empty, f)
  | flags fs, f => .ok (.empty, f.switch fs)
  | literal l, f => do
      let a ← f.literal l
      .ok (.char a, f)
  | dot span, f => do
      let a ← f.dot span
      .ok (.char a, f)
  | assertion a, f => .ok (if f.unicode then .look (f.look a) else .asciiLook (f.look a), f)
  | perl span negated kind, f => do
      let a ← f.perl span negated kind
      .ok (.char a, f)
  | property span negated query, f => do
      let a ← f.property span negated query
      .ok (.char a, f)
  | bracket span negated items, f => do
      let a ← (ClassAst.bracket span negated items).toClass f
      .ok (.char a, f)
  | repetition sub min max greedy, f => do
      let (p, _) ← sub.toPattern f
      .ok (p.repeated (greedy != f.swapGreed) min max, f)
  | group (.capture index) sub, f => do
      let (p, _) ← sub.toPattern f
      .ok (.group index p, f)
  | group (.plain fs) sub, f => do
      let (p, _) ← sub.toPattern (f.switch fs)
      .ok (p, f)
  | seq a b, f => do
      let (p, f₁) ← a.toPattern f
      let (q, f₂) ← b.toPattern f₁
      .ok (.seq p q, f₂)
  | alt a b, f => do
      let (p, f₁) ← a.toPattern f
      let (q, f₂) ← b.toPattern f₁
      .ok (.alt 0 p q, f₂)

/-- **The pattern of a written pattern**, with its choices numbered. -/
def compile (pattern : Text) : Except Error Pattern := do
  let a ← parse pattern
  let (p, _) ← a.toPattern {}
  .ok (p.label 0).1

end Pattern

end Softcode
