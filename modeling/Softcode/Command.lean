/-
**The command line.**

There are three commands: one names the language, one compiles an entry and one only reports what is
found.  The entry is given on the command line or by a project file, which is the one that is named
or else the nearest one.  The result is written to a file or printed, and so is the report, as words
or as JSON.

A command is a function of its arguments, the file tree and the limit on the size of sources; it
gives what is printed, the exit code and the file tree behind it.

Main definitions:

* `Softcode.Command`, `Softcode.Command.parse?` — commands, and the one that arguments are;
* `Softcode.Command.Outcome` — what a command gives;
* `Softcode.Command.Report` — the report in JSON;
* `Softcode.Command.run` — **what a command does**.
-/

import Softcode.Compiler
import Softcode.Manifest

set_option autoImplicit false

namespace Softcode

/-! ### Arguments -/

/-- What a command works on: an entry, a project file, and whether the report is JSON. -/
structure Command.Input where
  entry : Option Text := none
  config : Option Text := none
  reportJson : Bool := false
  deriving DecidableEq

/-- Where the result of a compilation goes, and what is set for it. -/
structure Command.Target where
  out : Option Text := none
  combinedOut : Option Text := none
  debug : Bool := false
  safeLimit : Option Nat := none
  deriving DecidableEq

/-- A command. -/
inductive Command where
  | languageId
  | compile (input : Command.Input) (target : Command.Target)
  | lint (input : Command.Input)
  deriving DecidableEq

namespace Command

/-- The flags of the commands. -/
def flags : List Text := ["--debug", "--report-json"].map String.toList

/-- The options of the commands, which have a value. -/
def optionNames : List Text :=
  ["--input", "--config", "--out", "--combined-out", "--safe-limit"].map String.toList

/-- Arguments as options with their values; a flag has no value.  A value follows its option, where
it may not look like an option, or is behind an equals sign. -/
def pairs? : List Text → Option (List (Text × Text))
  | [] => some []
  | a :: as =>
      if a ∈ flags then (pairs? as).map ((a, []) :: ·)
      else if a ∈ optionNames then
        match as with
        | [] => none
        | v :: rest =>
            if v.head? = some '-' ∧ v ≠ ['-'] then none else (pairs? rest).map ((a, v) :: ·)
      else
        match Text.cut? '=' a with
        | some (name, v) => if name ∈ optionNames then (pairs? as).map ((name, v) :: ·) else none
        | none => none

/-- The value of an option. -/
def valueOf (ps : List (Text × Text)) (name : String) : Option Text := ps.lookup name.toList

/-- The input that options give. -/
def inputOf (ps : List (Text × Text)) : Input :=
  ⟨valueOf ps "--input", valueOf ps "--config", (valueOf ps "--report-json").isSome⟩

/-- The target that options give; a limit has to be a number. -/
def targetOf? (ps : List (Text × Text)) : Option Target :=
  let target : Target :=
    ⟨valueOf ps "--out", valueOf ps "--combined-out", (valueOf ps "--debug").isSome, none⟩
  match valueOf ps "--safe-limit" with
  | none => some target
  | some s => (size? s).map fun n => { target with safeLimit := some n }

/-- The options that a lint takes. -/
def lintNames : List Text := ["--input", "--config", "--report-json"].map String.toList

/-- **The command that arguments are.**  No option may be given twice. -/
def parse? : List Text → Option Command
  | [] => none
  | name :: as => do
      let ps ← pairs? as
      if !(ps.map (·.1)).Nodup then none
      else if name = "lang-id".toList then if ps.isEmpty then some .languageId else none
      else if name = "compile".toList then (targetOf? ps).map (.compile (inputOf ps))
      else if name = "lint".toList then
        if ps.all fun p => lintNames.any (· == p.1) then some (.lint (inputOf ps)) else none
      else none

/-! ### Reports -/

/-- The report of a command. -/
structure Report where
  command : String
  ok : Bool
  entry : Text
  diagnostics : List Diagnostic
  sources : List String
  output : Option Text
  exit : Nat

/-- A place as JSON. -/
def locationJson (l : Location) : Json :=
  .object ([Json.field "file" (.text l.file.toList), Json.field "line" (.number (some l.line))] ++
    l.col.toList.map fun c => Json.field "col" (.number (some c)))

/-- A finding as JSON. -/
def diagnosticJson (d : Diagnostic) : Json :=
  .object ([
    Json.field "code" (.text d.code.toList),
    Json.field "severity" (.text d.severity.name.toList),
    Json.field "stage" (.text d.stage.name.toList),
    Json.field "message" (.text d.message.toList)] ++
    (d.loc.toList.map fun l => Json.field "loc" (locationJson l)) ++
    if d.notes.isEmpty then []
    else [Json.field "notes" (.array (d.notes.map fun n => .text n.toList))])

/-- A report as JSON; empty lists are left out. -/
def Report.json (r : Report) : Json :=
  .object ([
    Json.field "schema_version" (.text toolReportFormat.toList),
    Json.field "command" (.text r.command.toList),
    Json.field "ok" (.bool r.ok),
    Json.field "in" (.text r.entry),
    Json.field "diagnostics_count" (.number (some r.diagnostics.length))] ++
    (if r.diagnostics.isEmpty then []
      else [Json.field "diagnostics" (.array (r.diagnostics.map diagnosticJson))]) ++
    (if r.sources.isEmpty then []
      else [Json.field "sources" (.array (r.sources.map fun s => .text s.toList))]) ++
    (r.output.toList.map fun t => Json.field "output" (.text t)) ++
    [Json.field "exit_code" (.number (some r.exit))])

/-! ### Outcomes -/

/-- What a command gives: the exit code, what is printed and what is said, and the file tree. -/
structure Outcome where
  exit : Nat
  stdout : Text
  stderr : Text
  tree : FileTree

/-- A text as lines. -/
def println (s : Text) : Text := s ++ ['\n']

/-- A report printed. -/
def Report.print (r : Report) (tree : FileTree) : Outcome :=
  ⟨r.exit, println r.json.render, [], tree⟩

/-- A failure said. -/
def failure (exit : Nat) (message : Text) (tree : FileTree) : Outcome :=
  ⟨exit, [], println message, tree⟩

/-- The exit code when something cannot be done. -/
def failureCode : Nat := 2

/-! ### What a command works on -/

/-- The entry, the options and where the result goes. -/
structure Job where
  entry : Text
  options : Options
  out : Option Text

/-- The project file that a command uses. -/
def manifestPath? (i : Input) (tree : FileTree) : Option Text :=
  i.config.or (Manifest.find? tree tree.currentDir)

/-- **What a command works on.**  An entry on the command line wins over that of the project file,
and is relative to the current directory. -/
def job (i : Input) (tree : FileTree) : Except Text Job :=
  match manifestPath? i tree, i.entry with
  | none, none =>
      .error "missing --input (and no mform.json found from the current directory)".toList
  | none, some entry => .ok ⟨entry, {}, none⟩
  | some path, entry =>
      match Manifest.load tree path with
      | .error e => .error e.details
      | .ok m =>
          let o := m.options path
          match entry with
          | some entry => .ok ⟨entry, { o with baseDir := none }, m.outPath? path⟩
          | none => .ok ⟨m.entry, o, m.outPath? path⟩

/-! ### Compilations -/

/-- A text written to a file, whose directory is made if it is not there. -/
def writeText (tree : FileTree) (path text : Text) : Except (Text × FileTree) FileTree :=
  let dir := (Path.parent? path).getD []
  match if dir.isEmpty then .ok tree else tree.makeDirs dir with
  | .error f =>
      .error ("create output dir: ".toList ++ dir ++ ": ".toList ++ f.message.toList, tree)
  | .ok tree =>
      match tree.write path (Text.toBytes text) with
      | .error f => .error ("write: ".toList ++ path ++ ": ".toList ++ f.message.toList, tree)
      | .ok tree => .ok tree

/-- A text written to a file if there is one to write to. -/
def writeOption (tree : FileTree) (path : Option Text) (text : Text) :
    Except (Text × FileTree) FileTree :=
  match path with
  | none => .ok tree
  | some p => writeText tree p text

/-- The outcome of a compilation that fails: findings give the code 1, all else the code 2. -/
def compileFailure (i : Input) (entry : Text) (e : CompileError) (tree : FileTree) : Outcome :=
  let exit := if e.kind = .lint then 1 else failureCode
  if i.reportJson then
    Report.print ⟨"compile", false, entry, e.toDiagnostics, [], none, exit⟩ tree
  else failure exit e.render.toList tree

/-- The outcome of a compilation that succeeds, behind the writing of files. -/
def compileSuccess (i : Input) (entry : Text) (o : Output) (printed : Option Text)
    (tree : FileTree) : Outcome :=
  if i.reportJson then
    Report.print ⟨"compile", true, entry, o.report.diagnostics, o.sources, printed, 0⟩ tree
  else
    ⟨0, (printed.map println).getD [],
      o.report.warnings.flatMap fun d => println d.render.toList, tree⟩

/-- The options that a target sets for a compilation. -/
def Target.options (t : Target) (o : Options) : Options :=
  { o with debug := o.debug || t.debug, safeLimit := t.safeLimit.getD o.safeLimit }

/-- A compilation. -/
def runCompile (i : Input) (t : Target) (tree : FileTree) (maxBytes : Nat) : Outcome :=
  match job i tree with
  | .error message => failure failureCode message tree
  | .ok j =>
      let o := t.options j.options
      match Softcode.compile o (o.sources tree .disk maxBytes) j.entry with
      | .error e => compileFailure i j.entry e tree
      | .ok result =>
          let out := t.out.or j.out
          let written := do
            let tree ← writeOption tree t.combinedOut result.combined
            writeOption tree out result.rendered
          match written with
          | .error (message, tree) => failure failureCode message tree
          | .ok tree =>
              let printed := if out.isSome then none else some result.rendered
              compileSuccess i j.entry result printed tree

/-- The linter on its own: what is found is reported, and an error among it gives the code 1. -/
def runLint (i : Input) (tree : FileTree) (maxBytes : Nat) : Outcome :=
  match job i tree with
  | .error message => failure failureCode message tree
  | .ok j =>
      match Softcode.run j.options (j.options.sources tree .disk maxBytes) j.entry with
      | .error e =>
          if i.reportJson then
            Report.print ⟨"lint", false, j.entry, e.toDiagnostics, [], none, failureCode⟩ tree
          else failure failureCode e.render.toList tree
      | .ok o =>
          let exit := if o.report.ok then 0 else 1
          if i.reportJson then
            Report.print
              ⟨"lint", o.report.ok, j.entry, o.report.diagnostics, o.sources, none, exit⟩ tree
          else ⟨exit, [], o.report.diagnostics.flatMap fun d => println d.render.toList, tree⟩

/-- **What a command does.** -/
def run (tree : FileTree) (maxBytes : Nat) : Command → Outcome
  | languageId => ⟨0, println Softcode.languageId.toList, [], tree⟩
  | compile i t => runCompile i t tree maxBytes
  | lint i => runLint i tree maxBytes

/-- What arguments do; those that are no command give the code for what cannot be done. -/
def runArguments (args : List Text) (tree : FileTree) (maxBytes : Nat) : Outcome :=
  match parse? args with
  | none => failure failureCode "error: the arguments are no command".toList tree
  | some c => c.run tree maxBytes

end Command

end Softcode
