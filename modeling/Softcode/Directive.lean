/-
**Directives and their arguments.**

A directive stands at the beginning of a line: a sigil, a name in any case and then a blank, an
opening parenthesis or brace, or the end of the line.  What follows the name is its argument.

Main definitions:

* `Softcode.directiveArg?` — the argument of a directive;
* `Softcode.unquote` — a text without the quotes around it;
* `Softcode.splitComma?` — the two sides of the first comma outside parentheses.
-/

import Softcode.Text.Basic

set_option autoImplicit false

namespace Softcode

/-- The argument of the directive `sigil name` at the beginning of a line.  The name ends where a
blank, a parenthesis, a brace or the end of the line follows, so no directive is taken for the
beginning of a longer name. -/
def directiveArg? (sigil : Char) (name : Text) (line : Text) : Option Text :=
  match Text.trimStart line with
  | [] => none
  | c :: rest =>
      if c = sigil then
        match Text.dropPrefixCi? name rest with
        | none => none
        | some [] => some []
        | some (d :: tail) =>
            if isBlank d || d == '(' || d == '\x7b' then some (Text.trim (d :: tail)) else none
      else none

/-- What stands between two `q`, if `s` begins and ends with one. -/
def unquoteWith? (q : Char) : Text → Option Text
  | [] => none
  | c :: s => if c = q then Text.dropSuffix? [q] s else none

/-- The trimmed text without one pair of double quotes, or else of single quotes, around it. -/
def unquote (s : Text) : Text :=
  let t := Text.trim s
  ((unquoteWith? '"' t).or (unquoteWith? '\'' t)).getD t

/-- The two sides of the first comma at parenthesis depth zero, where the text begins at the given
depth. -/
def splitCommaAt? (depth : Int) : Text → Option (Text × Text)
  | [] => none
  | c :: s =>
      if c = ',' ∧ depth = 0 then some ([], s)
      else
        let inner := if c = '(' then depth + 1 else if c = ')' then depth - 1 else depth
        (splitCommaAt? inner s).map fun (l, r) => (c :: l, r)

/-- The two sides of the first comma that stands in no parentheses. -/
def splitComma? (s : Text) : Option (Text × Text) := splitCommaAt? 0 s

end Softcode
