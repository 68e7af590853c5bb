/-
**Project files.**

A project file says what the entry of a project is, where the result goes and which options the
compilation has.  It is a JSON object whose fields may also be given in order, as an array.  Fields
of other names say nothing; a field that is there twice is an error.

Paths in a project file are relative to its directory and stay below it.

Main definitions:

* `Softcode.Manifest`, `Softcode.Manifest.Error` — project files and what may be wrong with them;
* `Softcode.Manifest.ofJson`, `Softcode.Manifest.check` — the form and the rules of project files;
* `Softcode.Manifest.parse`, `Softcode.Manifest.load` — **the project file of bytes, or at a path**;
* `Softcode.Manifest.find?` — the nearest project file;
* `Softcode.Manifest.options`, `Softcode.Manifest.outPath?` — what a project file asks for.
-/

import Softcode.FileTree
import Softcode.Json.Reader
import Softcode.Options

set_option autoImplicit false

namespace Softcode

/-- A project file. -/
structure Manifest where
  version : Text
  entry : Text
  outFile : Option Text
  debug : Bool
  defines : List (Text × Text)
  stdRoot : Option Text
  safeLimit : Option Nat
  linter : Lint.Options

namespace Manifest

/-! ### The form -/

/-- What may be wrong with the form of a project file. -/
inductive Malformed where
  | missing (field : Text)
  | duplicate (field : Text)
  | wrongType (expected : String)
  | tooMany
  | unknownLevel
  deriving DecidableEq

/-- A fault of the form in words. -/
def Malformed.message : Malformed → String
  | missing field => "missing field `" ++ String.ofList field ++ "`"
  | duplicate field => "duplicate field `" ++ String.ofList field ++ "`"
  | wrongType expected => "invalid type, expected " ++ expected
  | tooMany => "trailing characters"
  | unknownLevel => "unknown variant, expected one of `error`, `warning`, `off`"

/-- The values of fields, by their names. -/
abbrev Fields := List (Text × Json)

/-- The fields of an object with known names. -/
def objectFields (names : List Text) : List (Option Text × Json) → Except Malformed Fields
  | [] => .ok []
  | (none, _) :: _ => .error (.wrongType "a string")
  | (some name, j) :: fs => do
      let rest ← objectFields names fs
      if name ∈ names then
        if (rest.lookup name).isSome then .error (.duplicate name) else .ok ((name, j) :: rest)
      else .ok rest

/-- The fields that an object has by name, or an array in order. -/
def fieldsOf (names : List Text) : Json → Except Malformed Fields
  | .object fs => objectFields names fs
  | .array items => if names.length < items.length then .error .tooMany else .ok (names.zip items)
  | _ => .error (.wrongType "a struct")

/-- A field that has to be there. -/
def need {α : Type} (fs : Fields) (name : String) (read : Json → Except Malformed α) :
    Except Malformed α :=
  match fs.lookup name.toList with
  | some j => read j
  | none => .error (.missing name.toList)

/-- A field that may be missing. -/
def want {α : Type} (fs : Fields) (name : String) (read : Json → Except Malformed α) (default : α) :
    Except Malformed α :=
  match fs.lookup name.toList with
  | some j => read j
  | none => .ok default

/-- A text. -/
def readText : Json → Except Malformed Text
  | .string (some s) => .ok s
  | _ => .error (.wrongType "a string")

/-- A truth value. -/
def readBool : Json → Except Malformed Bool
  | .bool b => .ok b
  | _ => .error (.wrongType "a boolean")

/-- A number. -/
def readSize : Json → Except Malformed Nat
  | .number (some n) => .ok n
  | _ => .error (.wrongType "usize")

/-- A value that may be null. -/
def readOption {α : Type} (read : Json → Except Malformed α) : Json → Except Malformed (Option α)
  | .null => .ok none
  | j => (read j).map some

/-- A pair put into a list in the order of the first parts, in place of one with the same. -/
def putSorted {α : Type} (key : Text) (value : α) : List (Text × α) → List (Text × α)
  | [] => [(key, value)]
  | p :: ps =>
      if key = p.1 then (key, value) :: ps
      else if Text.le key p.1 then (key, value) :: p :: ps
      else p :: putSorted key value ps

/-- The values of an object by their names, in order; of values with one name the last counts. -/
def readMap {α : Type} (read : Json → Except Malformed α) :
    Json → Except Malformed (List (Text × α))
  | .object fs =>
      fs.foldlM (fun m f =>
        match f.1 with
        | none => .error (.wrongType "a string")
        | some name => do
            let value ← read f.2
            .ok (putSorted name value m)) []
  | _ => .error (.wrongType "a map")

/-- The level of a word. -/
def levelOf (s : Text) : Except Malformed Lint.Level :=
  match Lint.Level.ofName? (String.ofList s) with
  | some l => .ok l
  | none => .error .unknownLevel

/-- The level of a rule: its word, or an object with its word as the only name. -/
def readLevel : Json → Except Malformed Lint.Level
  | .string (some s) => levelOf s
  | .object [(some s, .null)] => levelOf s
  | _ => .error .unknownLevel

/-- The levels of the linter's rules. -/
def readLinter (j : Json) : Except Malformed Lint.Options := do
  let fs ← fieldsOf ["rules".toList] j
  let rules ← want fs "rules" (readMap readLevel) []
  .ok ⟨rules.map fun r => (String.ofList r.1, r.2)⟩

/-- The fields of a project file, in the order that counts if they are not named. -/
def fieldNames : List Text :=
  ["schema_version", "entry", "out_file", "debug", "defines", "std_root", "safe_limit",
    "linter"].map String.toList

/-- A text without blanks around it, if anything is left. -/
def trimOption (s : Option Text) : Option Text := (s.map Text.trim).filter fun t => !t.isEmpty

/-- **The project file that a value is.**  Blanks around texts do not count. -/
def ofJson (j : Json) : Except Malformed Manifest := do
  let fs ← fieldsOf fieldNames j
  let version ← need fs "schema_version" readText
  let entry ← need fs "entry" readText
  let outFile ← want fs "out_file" (readOption readText) none
  let debug ← want fs "debug" readBool false
  let defines ← want fs "defines" (readMap readText) []
  let stdRoot ← want fs "std_root" (readOption readText) none
  let safeLimit ← want fs "safe_limit" (readOption readSize) none
  let linter ← want fs "linter" readLinter {}
  .ok ⟨Text.trim version, Text.trim entry, trimOption outFile, debug, defines, trimOption stdRoot,
    safeLimit, linter⟩

/-! ### The rules -/

/-- What may be wrong with a project file. -/
inductive Error where
  | unreadable (path : Text) (f : FileTree.Fault)
  | unparsable (path : Text) (reason : String)
  | wrongVersion (version : Text)
  | emptyEntry
  | absolutePath (field : String) (path : Text)
  | parentInPath (field : String) (path : Text)
  | smallLimit (limit : Nat)
  | emptyDefine

namespace Error

/-- An error in words. -/
def message : Error → Text
  | unreadable path _ => "[MFPROJECT_READ] read project: ".toList ++ path
  | unparsable path _ => "[MFPROJECT_PARSE] parse project JSON: ".toList ++ path
  | wrongVersion version =>
      "project schema_version mismatch: expected one of [".toList ++ quoted manifestFormat ++
        "] got ".toList ++ quoted version
  | emptyEntry => "project.entry must be non-empty".toList
  | absolutePath field path =>
      field.toList ++ " must be a relative path, got ".toList ++ quoted path
  | parentInPath field path =>
      field.toList ++ " must not contain '..' segments: ".toList ++ quoted path
  | smallLimit limit =>
      "project.safe_limit must be at least ".toList ++ Text.ofNat minSplitBudget ++
        ", got ".toList ++ Text.ofNat limit
  | emptyDefine => "project.defines keys must be non-empty".toList

/-- An error in words, with what is behind it. -/
def details (e : Error) : Text :=
  match e with
  | unreadable _ f => e.message ++ ": ".toList ++ f.message.toList
  | unparsable _ reason => e.message ++ ": ".toList ++ reason.toList
  | _ => e.message

end Error

/-- A path of a field has to stay below the directory of the project. -/
def checkPath (field : String) (path : Option Text) : Except Error Unit :=
  match path with
  | none => .ok ()
  | some p =>
      if Path.isAbsolute p then .error (.absolutePath field p)
      else if (Path.pieces p).any (· == ['.', '.']) then .error (.parentInPath field p)
      else .ok ()

/-- The rules of project files, in the order in which they are checked. -/
def check (m : Manifest) : Except Error Unit := do
  if m.version ≠ manifestFormat then .error (.wrongVersion m.version)
  if m.entry.isEmpty then .error .emptyEntry
  checkPath "project.out_file" m.outFile
  checkPath "project.std_root" m.stdRoot
  match m.safeLimit with
  | some limit => if limit < minSplitBudget then .error (.smallLimit limit)
  | none => .ok ()
  if m.defines.any fun d => Text.isBlankText d.1 then .error .emptyDefine

/-- **The project file of bytes**, which are the content at a path. -/
def parse (bytes : Bytes) (path : Text) : Except Error Manifest :=
  match Json.parse bytes with
  | .error f => .error (.unparsable path (f.message bytes))
  | .ok j =>
      match ofJson j with
      | .error e => .error (.unparsable path e.message)
      | .ok m =>
          match m.check with
          | .error e => .error e
          | .ok () => .ok m

/-- **The project file at a path.** -/
def load (tree : FileTree) (path : Text) : Except Error Manifest :=
  match tree.read path with
  | .error f => .error (.unreadable path f)
  | .ok bytes => parse bytes path

/-- **The nearest project file**: in a directory, or in the first one above it that has one. -/
def find? (tree : FileTree) (start : Text) : Option Text :=
  ((Path.ancestors start).map fun dir => Path.join dir manifestName).find? tree.isFile

/-! ### What a project file asks for -/

/-- The directory of a project file. -/
def root (path : Text) : Text := (Path.parent? path).getD ['.']

/-- The options of the compilation, for a project file at a path. -/
def options (m : Manifest) (path : Text) : Options where
  baseDir := some (root path)
  stdRoot := m.stdRoot.map (Path.join (root path))
  debug := m.debug
  defines := m.defines
  safeLimit := m.safeLimit.getD Softcode.safeLimit
  linter := m.linter

/-- Where the result goes, for a project file at a path. -/
def outPath? (m : Manifest) (path : Text) : Option Text := m.outFile.map (Path.join (root path))

end Manifest

end Softcode
