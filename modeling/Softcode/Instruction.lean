/-
**Instructions to the loader.**

Some lines of a source are instructions: to splice another source in, as it is, as raw text or under
an alias; to add a header or footer line; or to switch debug mode on.

Main definitions:

* `Softcode.Instruction` — what a line asks for;
* `Softcode.Instruction.parse` — the instruction that a line is.
-/

import Softcode.Banner
import Softcode.Directive
import Softcode.Text.Category

set_option autoImplicit false

namespace Softcode

/-- What a line asks for: a source spliced in, as raw text or under an alias, a header or footer
line, or debug mode.  Any other line is text. -/
inductive Instruction where
  | splice (reference : Text)
  | embed (reference : Text)
  | importAs (reference label : Text)
  | badImport
  | header (b : Banner)
  | footer (b : Banner)
  | debug
  | text
  deriving DecidableEq

namespace Instruction

/-- The directives that add a header line of their own name. -/
def metaNames : List Text := ["author", "version", "desc", "description"].map String.toList

/-- A character that an alias may have. -/
def isAliasChar (c : Char) : Bool := isAlphanumeric c || c == '_' || c == '-'

/-- The reference and the alias of `"REFERENCE" as ALIAS`. -/
def parseImport? (arg : Text) : Option (Text × Text) := do
  let rest ← Text.dropPrefix? ['"'] arg
  let (reference, tail) ← Text.cut? '"' rest
  let label ← Text.dropPrefixCi? ['a', 's'] (Text.trimStart tail)
  if !label.head?.any isBlank then none
  else
    let label := Text.trim label
    if Text.isBlankText reference || label.isEmpty || !label.all isAliasChar then none
    else some (Text.trim reference, label)

/-- The banner of `NAME = VALUE`, where the value may be left out. -/
def parseBanner (arg : Text) : Banner :=
  match Text.cut? '=' arg with
  | some (name, value) => ⟨Text.trim name, Text.trim value⟩
  | none => ⟨Text.trim arg, []⟩

/-- The header line that a line about the source adds. -/
def parseMeta? (line : Text) : Option Banner :=
  metaNames.findSome? fun name => (directiveArg? '#' name line).map fun value => ⟨name, value⟩

/-- The instruction about banners or debug mode that a line is. -/
def parseSetting (line : Text) : Instruction :=
  match parseMeta? line with
  | some b => .header b
  | none =>
      match directiveArg? '#' "header".toList line with
      | some arg => .header (parseBanner arg)
      | none =>
          match directiveArg? '#' "footer".toList line with
          | some arg => .footer (parseBanner arg)
          | none => if Text.sameLetters (Text.trim line) "@debug".toList then .debug else .text

/-- **The instruction that a line is.** -/
def parse (line : Text) : Instruction :=
  match directiveArg? '#' "include".toList line with
  | some arg => .splice arg
  | none =>
      match directiveArg? '#' "file".toList line with
      | some arg => .embed arg
      | none =>
          match directiveArg? '#' "import".toList line with
          | none => parseSetting line
          | some arg =>
              match parseImport? arg with
              | some (reference, label) => .importAs reference label
              | none => .badImport

/-- The reference of an instruction that splices a source in. -/
def reference? : Instruction → Option Text
  | splice r | embed r | importAs r _ => some r
  | _ => none

end Instruction

end Softcode
