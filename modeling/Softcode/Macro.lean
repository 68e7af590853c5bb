/-
**Macros.**

A macro has a trigger, which is a pattern that ignores case, and a body.  Where the trigger occurs
in a line it is replaced by the body, in which `$0` stands for the text of the occurrence and `$1`
to `$9` for the texts of the groups of the pattern, without the blanks around them.  If the body
asks for arguments and the trigger has no parenthesis of its own, the pattern is extended by an
argument list in parentheses: the first argument has to be there, the others may be left out.

Macros are defined in blocks that begin with a line `@define TRIGGER {` and end with the next line
that begins with a closing brace; the body may also stand on the first line, with or without the
closing brace at its end.  The body loses its comments and its continuation lines are joined.  A
block whose trigger is no pattern, or that is never closed, is put back as text.

A pattern may be of any size and may nest as deeply as it likes.  The errors of a regular-expression
engine about patterns that are too large or nested too deeply are left out: a trigger is refused for
how it is written only.

Main definitions:

* `Softcode.Macro`, `Softcode.Macro.compile` — macros, and the macro of a trigger and a body;
* `Softcode.Macro.expand` — a text with the occurrences of a macro replaced;
* `Softcode.Macro.Opener`, `Softcode.Macro.parseOpener?` — the first line of a definition;
* `Softcode.Macro.extract` — a stream without its definitions, and the macros they define;
* `Softcode.Macro.applyAll` — a stream with all macros applied.
-/

import Softcode.Comment
import Softcode.Continuation
import Softcode.Diagnostic
import Softcode.Pattern.Compile
import Softcode.Text.Quoted

set_option autoImplicit false

namespace Softcode

/-- A macro: its trigger, the pattern as it is written and as it is matched, its body, the highest
argument that the body asks for, and where it was defined. -/
structure Macro where
  trigger : Text
  written : Text
  pattern : Pattern
  body : Text
  maxParam : Nat
  origin : Option Location

namespace Macro

/-! ### Patterns and bodies -/

/-- The number of an argument that a dollar sign asks for with the next character. -/
def param? (c : Char) : Option Nat := if c.isDigit then some (c.toNat - '0'.toNat) else none

/-- The highest argument that a body asks for; the whole occurrence `$0` counts as none. -/
def maxParamOf : Text → Nat
  | '$' :: c :: s => Nat.max ((param? c).getD 0) (maxParamOf (c :: s))
  | _ :: s => maxParamOf s
  | [] => 0

/-- The pattern of the first argument behind an opening parenthesis. -/
def firstArgument : Text := "\\s*\\(\\s*([^,)]*)".toList

/-- The pattern of a further argument. -/
def furtherArgument : Text := "(?:\\s*,\\s*([^,)]*))?".toList

/-- The pattern of the end of an argument list. -/
def argumentsEnd : Text := "\\s*\\)".toList

/-- The pattern of an argument list of at least one and at most `n` arguments. -/
def argumentList (n : Nat) : Text :=
  firstArgument ++ (List.replicate (n - 1) furtherArgument).flatten ++ argumentsEnd

/-- The written pattern of a trigger whose body asks for `n` arguments. -/
def writtenPattern (trigger : Text) (n : Nat) : Text :=
  "(?i)".toList ++ trigger ++ if 0 < n ∧ '(' ∉ trigger then argumentList n else []

/-- The macro of a trigger and a body.  The trigger is trimmed; it has to be a pattern.  Otherwise
the message about it is given. -/
def compile (trigger body : Text) (origin : Option Location) : Except Text Macro :=
  let trigger := Text.trim trigger
  let n := maxParamOf body
  let written := writtenPattern trigger n
  match Pattern.compile written with
  | .error e => .error (e.message written)
  | .ok p => .ok ⟨trigger, written, p, body, n, origin⟩

/-- A body with the arguments of a match put in. -/
def renderBody (m : Pattern.Match) : Text → Text
  | '$' :: c :: s =>
      match param? c with
      | some n => Text.trim ((m.group? n).getD []) ++ renderBody m s
      | none => '$' :: renderBody m (c :: s)
  | c :: s => c :: renderBody m s
  | [] => []

/-- **A text with the occurrences of a macro replaced.** -/
def expand (d : Macro) (s : Text) : Text := d.pattern.replaceAll (renderBody · d.body) s

/-! ### Definitions in a stream -/

/-- The first line of a definition: the body follows, perhaps with a first line of it on the same
line, or the whole definition stands on the line. -/
inductive Opener where
  | block (trigger : Text) (first : Option Text)
  | inline (trigger body : Text)

/-- The word that begins a definition. -/
def defineKeyword : Text := "@define".toList

/-- The definition that a line begins, if it begins one. -/
def parseOpener? (line : Text) : Option Opener := do
  let rest ← Text.dropPrefixCi? defineKeyword line
  if !rest.head?.any isBlank then none
  else
    let (trigger, after) ← Text.cut? '\x7b' rest
    let trigger := Text.trim trigger
    if trigger.isEmpty then none
    else
      let after := Text.trim after
      if after.isEmpty then some (.block trigger none)
      else
        match Text.dropSuffix? ['\x7d'] after with
        | some body => some (.inline trigger (Text.trim body))
        | none => some (.block trigger (some after))

/-- A definition that is being read: its first line, its trigger and the lines of its body. -/
structure Open where
  opener : Line
  trigger : Text
  body : List Line

/-- What is left of a stream, the macros defined in it and what was found. -/
structure Extraction where
  lines : List Line
  macros : List Macro
  diagnostics : List Diagnostic

namespace Extraction

/-- The result for lines that define nothing. -/
def text (lines : List Line) : Extraction := ⟨lines, [], []⟩

/-- The results for two streams one after the other. -/
def append (a b : Extraction) : Extraction :=
  ⟨a.lines ++ b.lines, a.macros ++ b.macros, a.diagnostics ++ b.diagnostics⟩

instance : Append Extraction := ⟨append⟩

@[simp] theorem lines_append (a b : Extraction) : (a ++ b).lines = a.lines ++ b.lines := rfl

@[simp] theorem macros_append (a b : Extraction) : (a ++ b).macros = a.macros ++ b.macros := rfl

@[simp] theorem diagnostics_append (a b : Extraction) :
    (a ++ b).diagnostics = a.diagnostics ++ b.diagnostics := rfl

end Extraction

/-- Why a definition is put back as text. -/
inductive Rejected where
  | invalidPattern (trigger message : Text)
  | neverClosed (trigger : Text)

/-- The warning about a definition that is put back. -/
def Rejected.diagnostic (r : Rejected) (loc : Location) : Diagnostic :=
  match r with
  | invalidPattern trigger message =>
      .warn "MF-DEF-0002" .define
        (String.ofList ("@define trigger ".toList ++ quoted trigger ++
          " is not a valid pattern (".toList ++ message ++ "); kept as text".toList)) loc
  | neverClosed trigger =>
      .warn "MF-DEF-0003" .define
        (String.ofList ("@define ".toList ++ trigger ++
          " is never closed; kept as text".toList)) loc

/-- The body of a definition: without comments, with continuation lines joined. -/
def Open.bodyText (o : Open) : Text := Line.joined (joinLines (stripComments o.body))

/-- The result for a definition that is closed, perhaps by a line of its own.  An empty body defines
nothing. -/
def Open.close (o : Open) (closer : Option Line) : Extraction :=
  if o.bodyText.isEmpty then .text []
  else
    match compile o.trigger o.bodyText (some o.opener.location) with
    | .ok d => ⟨[], [d], []⟩
    | .error message =>
        ⟨o.opener :: o.body ++ closer.toList, [],
          [(Rejected.invalidPattern o.trigger message).diagnostic o.opener.location]⟩

/-- The result for a definition that is never closed. -/
def Open.abandon (o : Open) : Extraction :=
  ⟨o.opener :: o.body, [], [(Rejected.neverClosed o.trigger).diagnostic o.opener.location]⟩

/-- The result for a stream, where a definition may already be open. -/
def extractFrom : Option Open → List Line → Extraction
  | none, [] => .text []
  | some o, [] => o.abandon
  | some o, l :: ls =>
      if l.text.head? = some '\x7d' then o.close (some l) ++ extractFrom none ls
      else extractFrom (some { o with body := o.body ++ [l] }) ls
  | none, l :: ls =>
      match parseOpener? l.text with
      | none => .text [l] ++ extractFrom none ls
      | some (.block trigger first) =>
          extractFrom (some ⟨l, trigger, first.toList.map l.withText⟩) ls
      | some (.inline trigger body) =>
          (Open.mk l trigger [l.withText body]).close none ++ extractFrom none ls

/-- **A stream without its definitions, and the macros that they define.** -/
def extract (lines : List Line) : Extraction := extractFrom none lines

/-! ### Application -/

/-- A text with all macros applied, one after the other. -/
def expandAll (macros : List Macro) (s : Text) : Text := macros.foldl (fun t d => d.expand t) s

/-- The lines that a line becomes under the macros.  Raw lines are left alone; a line that changes
becomes as many lines as its new text has. -/
def applyLine (macros : List Macro) (l : Line) : List Line :=
  if isRawText l.text then [l]
  else
    let t := expandAll macros l.text
    if t = l.text then [l] else (Text.splitOn '\n' t).map l.withText

/-- **A stream with all macros applied.** -/
def applyAll (macros : List Macro) (lines : List Line) : List Line :=
  lines.flatMap (applyLine macros)

end Macro

end Softcode
