/-
**The linter.**

The linter checks that brackets and parentheses match over the whole stream, brackets inside quotes
included, since the target evaluates them there too, and points out calls that are costly.
Comments, addresses, escape pairs and lines with a marker are not looked at.  Every rule has a
level: it may report errors, warnings or nothing.

The brackets that are open are kept on a stack.  A closing bracket takes the innermost open one off,
whether it fits or not; what is left on the stack at the end is missing its closing bracket.

Main definitions:

* `Softcode.Lint.Level`, `Softcode.Lint.Options` — the levels of rules;
* `Softcode.Lint.Visit`, `Softcode.Lint.visits` — the brackets that the linter looks at;
* `Softcode.Lint.Linter.emit`, `Softcode.Lint.Linter.visit` — what is reported, and what one bracket
  does;
* `Softcode.Lint.lint` — **the report of the linter**.
-/

import Softcode.Diagnostic
import Softcode.Scan

set_option autoImplicit false

namespace Softcode

namespace Lint

/-! ### Rules and levels -/

/-- The level of a rule. -/
inductive Level where
  | error | warning | off
  deriving DecidableEq

/-- The word for a level. -/
def Level.name : Level → String
  | error => "error"
  | warning => "warning"
  | off => "off"

/-- The level that a word stands for. -/
def Level.ofName? : String → Option Level
  | "error" => some error
  | "warning" => some warning
  | "off" => some off
  | _ => none

/-- The severity of findings at a level. -/
def Level.severity? : Level → Option Severity
  | error => some .error
  | warning => some .warning
  | off => none

/-- The rule about square brackets. -/
def bracketsRule : String := "unbalanced-brackets"

/-- The rule about parentheses. -/
def parensRule : String := "unbalanced-parens"

/-- The rule about `switch()`. -/
def switchRule : String := "switch-call"

/-- The rule about `entrances()`. -/
def entrancesRule : String := "entrances-call"

/-- Levels that are set by hand, by the names of rules. -/
structure Options where
  rules : List (String × Level) := []
  deriving DecidableEq

/-- The level of a rule: the one set by hand, or a warning for costly calls and an error for all
else. -/
def Options.level (o : Options) (rule : String) : Level :=
  match o.rules.find? fun r => r.1 = rule with
  | some r => r.2
  | none => if rule = switchRule ∨ rule = entrancesRule then .warning else .error

/-! ### What the linter looks at -/

/-- A bracket that the linter looks at: the character, its place and the line from it on. -/
structure Visit where
  char : Char
  loc : Location
  rest : Text

/-- The characters that are looked at. -/
def isBracket (c : Char) : Bool := c == '[' || c == ']' || c == '(' || c == ')'

/-- The brackets of a line whose characters have the given roles, from the column `col` on. -/
def visitsFrom (l : Line) : Nat → Text → List Role → List Visit
  | col, c :: s, r :: rs =>
      let more := visitsFrom l (col + 1) s rs
      if (r = .code ∨ r = .quoted) ∧ isBracket c then
        ⟨c, ⟨l.file, l.number, some col⟩, c :: s⟩ :: more
      else more
  | _, _, _ => []

/-- The brackets of a stream that begins in the given mode. -/
def visitsIn : Mode → List Line → List Visit
  | _, [] => []
  | mode, l :: ls =>
      if isRawText l.text || isDroppedText l.text then visitsIn mode ls
      else
        let (roles, last) := scanLine mode l.text
        visitsFrom l 1 l.text roles ++ visitsIn last.nextLine ls

/-- The brackets of a stream, in order. -/
def visits (lines : List Line) : List Visit := visitsIn .code lines

/-! ### Findings -/

/-- A call that is costly: its rule and code, how it is written and what is said about it. -/
structure CostlyCall where
  rule : String
  code : String
  needle : Text
  message : String
  note : String

/-- The calls that are costly. -/
def costlyCalls : List CostlyCall := [
  ⟨switchRule, "MF-LINT-0101", "[switch(".toList, "switch() is costly here",
    "consider [case()] instead"⟩,
  ⟨entrancesRule, "MF-LINT-0102", "[entrances(".toList,
    "entrances() can be CPU intensive on large databases",
    "cache the result or narrow the search"⟩]

/-- What the linter finds: a closing bracket that does not fit the innermost open one, or anything;
an opening bracket that is never closed; a costly call. -/
inductive Finding where
  | mismatch (closer : Char) (innermost : Option (Char × Location))
  | unclosed (opener : Char)
  | costly (call : CostlyCall)

/-- The rule for a bracket. -/
def ruleFor (c : Char) : String := if c = '[' ∨ c = ']' then bracketsRule else parensRule

/-- The closing bracket for an opening one. -/
def closerFor (c : Char) : Char := if c = '[' then ']' else ')'

namespace Finding

/-- The rule that a finding belongs to. -/
def rule : Finding → String
  | mismatch c _ => ruleFor c
  | unclosed c => ruleFor c
  | costly call => call.rule

/-- The code of a finding. -/
def code : Finding → String
  | mismatch .. => "MF-LINT-0001"
  | unclosed _ => "MF-LINT-0002"
  | costly call => call.code

/-- The message for a finding. -/
def message : Finding → String
  | mismatch c (some (o, loc)) =>
      "unexpected `" ++ c.toString ++ "` (innermost open `" ++ o.toString ++ "` at " ++
        loc.render ++ ")"
  | mismatch c none => "unexpected `" ++ c.toString ++ "` with nothing open"
  | unclosed c => "missing closing `" ++ (closerFor c).toString ++ "` for `" ++ c.toString ++ "`"
  | costly call => call.message

/-- The notes to a finding. -/
def notes : Finding → List String
  | costly call => [call.note]
  | _ => []

/-- The finding as a diagnostic, unless its rule is off. -/
def diagnostic? (o : Options) (f : Finding) (loc : Location) : Option Diagnostic :=
  (o.level f.rule).severity?.map fun s => ⟨f.code, s, .lint, f.message, some loc, f.notes⟩

end Finding

/-! ### The walk -/

/-- The brackets that are open, the innermost first, and what is reported so far, the latest
first. -/
structure Linter where
  stack : List (Char × Location)
  diagnostics : List Diagnostic

/-- The costly calls that begin with the bracket of a visit. -/
def costlyAt (v : Visit) : List (Finding × Location) :=
  (costlyCalls.filter fun call => (Text.dropPrefixCi? call.needle v.rest).isSome).map fun call =>
    (.costly call, v.loc)

/-- The opening bracket for a closing one. -/
def openerFor (c : Char) : Char := if c = ']' then '[' else '('

namespace Linter

/-- A finding is reported, unless its rule is off. -/
def emit (o : Options) (s : Linter) (f : Finding × Location) : Linter :=
  match f.1.diagnostic? o f.2 with
  | some d => { s with diagnostics := d :: s.diagnostics }
  | none => s

/-- What one bracket does: an opening one goes on the stack, and a costly call that it begins is
reported; a closing one takes the innermost off and is reported if the two do not fit. -/
def visit (o : Options) (s : Linter) (v : Visit) : Linter :=
  if v.char = '[' ∨ v.char = '(' then
    let s := (costlyAt v).foldl (emit o) s
    { s with stack := (v.char, v.loc) :: s.stack }
  else
    match s.stack with
    | [] => s.emit o (.mismatch v.char none, v.loc)
    | b :: stack =>
        let s : Linter := { s with stack := stack }
        if b.1 = openerFor v.char then s else s.emit o (.mismatch v.char (some b), v.loc)

/-- The brackets that are left open are reported, the outermost first. -/
def finish (o : Options) (s : Linter) : Linter :=
  (s.stack.reverse.map fun b => (.unclosed b.1, b.2)).foldl (emit o) { s with stack := [] }

end Linter

/-- **The report of the linter.** -/
def lint (o : Options) (lines : List Line) : Report :=
  .of (((visits lines).foldl (Linter.visit o) ⟨[], []⟩).finish o).diagnostics.reverse

end Lint

end Softcode
