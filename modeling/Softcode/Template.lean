/-
**Blocks: loops, conditions and debug sections.**

A block begins with a line `#for VAR in range(A, B) {`, `#if CONDITION {` or `#debug {` and ends
with the line `}` that closes it; blocks nest.  A loop puts the numbers from `A` to `B` for its
variable and gives its body once for each; a condition gives its body if it is true; a debug section
gives its body in debug mode.  Whatever cannot be evaluated is left out with a warning, and so is a
block that is nested too deeply, a loop with too many rounds, and an outermost loop that would make
the output too long.

Processing writes to an output that only grows, with one exception: a loop that is left out is
rolled back to where the output was before it.  The depth that is left is the argument on which
processing recurs.

Main definitions:

* `Softcode.Template.Opener`, `Softcode.Template.parseOpener?` — the first line of a block;
* `Softcode.Template.isBlockOpener`, `Softcode.Template.splitBlock?` — where a block ends;
* `Softcode.Template.Fault` — why something is left out;
* `Softcode.Template.Expander` — the output so far, with the state of processing;
* `Softcode.Template.process` — the processing of lines at a depth;
* `Softcode.Template.expand` — **the expansion of a stream**.
-/

import Softcode.Directive
import Softcode.Expr
import Softcode.SelfCheck
import Softcode.Text.Category

set_option autoImplicit false

namespace Softcode

namespace Template

/-! ### Limits -/

/-- The greatest number of rounds of a loop. -/
def maxRounds : Nat := 100000

/-- The number of levels to which blocks are expanded. -/
def maxDepth : Nat := 64

/-- The number of lines beyond which no loop goes. -/
def maxLines : Nat := 1000000

/-! ### The first line of a block -/

/-- The first line of a block; `malformed` is a line that has the directive and the opening brace,
but not what is between them. -/
inductive Opener where
  | loop (var bounds : Text)
  | cond (condition : Text)
  | debug
  | malformed (directive : String)
  deriving DecidableEq

/-- The variable and the bounds of `VAR in range(BOUNDS)`. -/
def parseLoop? (header : Text) : Option Opener := do
  let var := header.takeWhile fun c => !isBlank c
  let rest := header.dropWhile fun c => !isBlank c
  if rest.isEmpty || var.isEmpty || !var.all isWordChar then none
  else
    let rest ← Text.dropPrefixCi? ['i', 'n'] (Text.trimStart rest)
    if !rest.head?.any isBlank then none
    else
      let rest ← Text.dropPrefixCi? "range".toList (Text.trimStart rest)
      let rest ← Text.dropPrefix? ['('] (Text.trimStart rest)
      let bounds ← Text.dropSuffix? [')'] rest
      some (.loop var bounds)

/-- The directive of loops. -/
def forName : Text := ['f', 'o', 'r']

/-- The directive of conditions. -/
def ifName : Text := ['i', 'f']

/-- The directive of debug sections. -/
def debugName : Text := ['d', 'e', 'b', 'u', 'g']

/-- What stands before the opening brace at the end of an argument. -/
def header? (arg : Text) : Option Text := (Text.dropSuffix? ['\x7b'] arg).map Text.trim

/-- The block that a line begins, if it begins one. -/
def parseOpener? (line : Text) : Option Opener :=
  match directiveArg? '#' forName line with
  | some arg => (header? arg).map fun h => (parseLoop? h).getD (.malformed "#for")
  | none =>
      match directiveArg? '#' ifName line with
      | some arg =>
          (header? arg).map fun h => if h.isEmpty then .malformed "#if" else .cond h
      | none =>
          match directiveArg? '#' debugName line with
          | some arg => if arg = ['\x7b'] then some .debug else none
          | none => none

/-! ### Where a block ends -/

/-- A line that counts as the opening of a block when the end of an enclosing one is looked for. -/
def isBlockOpener (line : Text) : Bool :=
  let t := Text.trim line
  t.getLast? == some '\x7b' &&
    [forName, ifName, debugName].any fun name => (directiveArg? '#' name t).isSome

/-- A line that closes a block. -/
def isCloser (line : Text) : Bool := Text.trim line == ['\x7d']

/-- The lines before the one that closes the `depth + 1` open blocks, if there is one. -/
def splitBlock? : Nat → List Line → Option (List Line)
  | _, [] => none
  | depth, l :: ls =>
      if isBlockOpener l.text then (splitBlock? (depth + 1) ls).map (l :: ·)
      else if isCloser l.text then
        match depth with
        | 0 => some []
        | d + 1 => (splitBlock? d ls).map (l :: ·)
      else (splitBlock? depth ls).map (l :: ·)

/-! ### Faults -/

/-- Why something is left out or kept as text. -/
inductive Fault where
  | condition (text : Text) (e : Expr.Error)
  | neverClosed
  | bounds (text : Text) (reason : String)
  | tooManyRounds (first last : Int)
  | malformed (directive : String)
  | tooDeep
  | tooLong

/-- The code of a fault. -/
def Fault.code : Fault → String
  | condition .. => "MF-TPL-0001"
  | neverClosed => "MF-TPL-0002"
  | bounds .. => "MF-TPL-0003"
  | tooManyRounds .. => "MF-TPL-0004"
  | malformed _ => "MF-TPL-0005"
  | tooDeep => "MF-TPL-0006"
  | tooLong => "MF-TPL-0007"

/-- The message for a fault. -/
def Fault.message : Fault → String
  | condition text e =>
      "condition `" ++ String.ofList text ++ "` failed to evaluate (" ++ e.message ++
        "); block excluded"
  | neverClosed => "block is never closed; opener kept as text"
  | bounds text reason =>
      "range(" ++ String.ofList text ++ ") failed to evaluate (" ++ reason ++ "); block excluded"
  | tooManyRounds first last =>
      "range(" ++ toString first ++ ", " ++ toString last ++ ") has " ++
        toString (last - first + 1) ++ " iterations (max " ++ toString maxRounds ++
        "); block excluded"
  | malformed directive => "malformed " ++ directive ++ " header; line kept as text"
  | tooDeep => "block nested deeper than " ++ toString maxDepth ++ " levels; block excluded"
  | tooLong => "expansion exceeds " ++ toString maxLines ++ " lines; block excluded"

/-- The warning about a fault at a line. -/
def Fault.diagnostic (f : Fault) (l : Line) : Diagnostic :=
  .warn f.code .template f.message l.location

/-! ### Processing -/

/-- The output so far, reversed, and its length; the number of loops under way; whether a loop has
met the bound on the output; and the warnings so far, reversed. -/
structure Expander where
  out : List Line
  size : Nat
  loops : Nat
  exhausted : Bool
  warnings : List Diagnostic

namespace Expander

/-- Nothing done so far. -/
def start : Expander := ⟨[], 0, 0, false, []⟩

/-- A line written. -/
def push (e : Expander) (l : Line) : Expander :=
  { e with out := l :: e.out, size := e.size + 1 }

/-- A warning given. -/
def warn (e : Expander) (f : Fault) (l : Line) : Expander :=
  { e with warnings := f.diagnostic l :: e.warnings }

/-- The output cut back to its first `mark` lines. -/
def truncate (e : Expander) (mark : Nat) : Expander :=
  { e with out := e.out.drop (e.size - mark), size := min mark e.size }

/-- The state in which the rounds of a loop are run. -/
def enterLoop (e : Expander) : Expander := { e with loops := e.loops + 1 }

/-- The state behind a loop that began when the output had `mark` lines: if the bound was met, what
was written since then is dropped, and behind the outermost loop processing goes on. -/
def leaveLoop (e : Expander) (mark : Nat) : Expander :=
  let left := { e with loops := e.loops - 1 }
  if left.exhausted then { left.truncate mark with exhausted := left.loops != 0 } else left

end Expander

/-- The text `s` with every `old`, which is not empty, replaced by `new`, from left to right; the
next `skip` characters are already replaced. -/
def replaceTextFrom (old new : Text) : Nat → Text → Text
  | _, [] => []
  | skip + 1, _ :: s => replaceTextFrom old new skip s
  | 0, c :: s =>
      if Text.startsWith old (c :: s) then new ++ replaceTextFrom old new (old.length - 1) s
      else c :: replaceTextFrom old new 0 s

/-- The text that stands for a loop variable. -/
def placeholder (var : Text) : Text := ['\x7b', '\x7b'] ++ var ++ ['\x7d', '\x7d']

/-- A body with a number put for the loop variable. -/
def instantiate (var : Text) (value : Int) (body : List Line) : List Line :=
  let new := Text.ofInt value
  body.map fun l => l.withText (replaceTextFrom (placeholder var) new 0 l.text)

/-- The two ends of a loop. -/
def evalBounds (bounds : Text) : Except Fault (Int × Int) :=
  match splitComma? bounds with
  | none => .error (.bounds bounds "range() takes two bounds")
  | some (a, b) =>
      match Expr.evalInt (Text.trim a) with
      | .error e => .error (.bounds bounds ("start bound: " ++ e.message))
      | .ok first =>
          match Expr.evalInt (Text.trim b) with
          | .error e => .error (.bounds bounds ("end bound: " ++ e.message))
          | .ok last => .ok (first, last)

/-- The rounds of a loop from the number `value` on.  A round begins only if the output has room for
its body; once the bound is met no further round begins. -/
def rounds (inner : List Line → Expander → Expander) (var : Text) (body : List Line)
    (opener : Line) : Nat → Int → Expander → Expander
  | 0, _, e => e
  | n + 1, value, e =>
      let e₁ :=
        if maxLines < e.size + body.length then
          { e.warn .tooLong opener with exhausted := true }
        else e
      if e₁.exhausted then e₁
      else rounds inner var body opener n (value + 1) (inner (instantiate var value body) e₁)

/-- A loop. -/
def unroll (inner : List Line → Expander → Expander) (var bounds : Text) (body : List Line)
    (opener : Line) (e : Expander) : Expander :=
  match evalBounds bounds with
  | .error f => e.warn f opener
  | .ok (first, last) =>
      if last < first then e
      else if maxRounds < last - first + 1 then e.warn (.tooManyRounds first last) opener
      else
        (rounds inner var body opener (last - first + 1).toNat first e.enterLoop).leaveLoop e.size

/-- A block whose body is processed by `inner`. -/
def runBlock (debug : Bool) (inner : List Line → Expander → Expander) (opener : Opener) (l : Line)
    (body : List Line) (e : Expander) : Expander :=
  match opener with
  | .loop var bounds => unroll inner var bounds body l e
  | .cond c =>
      match Expr.evalBool c with
      | .ok true => inner body e
      | .ok false => e
      | .error err => e.warn (.condition c err) l
  | .debug => if debug then inner body e else e
  | .malformed _ => e

/-- The lines of a stream, in order, until the bound on the output is met.  The next `skip` lines
belong to a block that is already done; `block` says what a block does. -/
def walk (block : Opener → Line → List Line → Expander → Expander) :
    Nat → List Line → Expander → Expander
  | _, [], e => e
  | skip + 1, _ :: ls, e => walk block skip ls e
  | 0, l :: ls, e =>
      if e.exhausted then e
      else
        match parseOpener? l.text with
        | none => walk block 0 ls (e.push l)
        | some (.malformed directive) => walk block 0 ls ((e.warn (.malformed directive) l).push l)
        | some opener =>
            match splitBlock? 0 ls with
            | none => walk block 0 ls ((e.warn .neverClosed l).push l)
            | some body => walk block (body.length + 1) ls (block opener l body e)

/-- The processing of lines where blocks may nest `depth` more levels. -/
def process (debug : Bool) : Nat → List Line → Expander → Expander
  | 0, lines, e => walk (fun _ l _ e' => e'.warn .tooDeep l) 0 lines e
  | depth + 1, lines, e =>
      walk (runBlock debug fun body e' => process debug depth body e') 0 lines e

/-- The expansion of the blocks of a stream. -/
def expandBlocks (debug : Bool) (lines : List Line) : Staged :=
  let e := process debug maxDepth lines .start
  ⟨e.out.reverse, e.warnings.reverse⟩

/-- **The expansion of a stream**: its checks are replaced, then its blocks expanded. -/
def expand (debug : Bool) (lines : List Line) : Staged :=
  let checked := SelfCheck.expand lines
  let blocks := expandBlocks debug checked.lines
  ⟨blocks.lines, checked.diagnostics ++ blocks.diagnostics⟩

end Template

end Softcode
