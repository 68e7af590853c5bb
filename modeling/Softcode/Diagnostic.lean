/-
**Diagnostics and reports.**

A diagnostic says what was found, how serious it is, by which stage and, mostly, where.  A report
holds the diagnostics of a run in a fixed order: by place, those without a place first, then by
code and by message; diagnostics that agree in all three keep the order in which they were found.

Main definitions:

* `Softcode.Severity`, `Softcode.Stage` — how serious, and found by which stage;
* `Softcode.Diagnostic` — one finding;
* `Softcode.Diagnostic.compare` — the order of a report;
* `Softcode.Report`, `Softcode.Report.of` — reports, and the report of a list of findings.
-/

import Softcode.Line

set_option autoImplicit false

namespace Softcode

/-- How serious a finding is. -/
inductive Severity where
  | error | warning | info
  deriving DecidableEq

/-- The word for a severity. -/
def Severity.name : Severity → String
  | error => "error"
  | warning => "warning"
  | info => "info"

/-- The stages that report findings. -/
inductive Stage where
  | resolve | template | define | compress | lint
  deriving DecidableEq

/-- The word for a stage. -/
def Stage.name : Stage → String
  | resolve => "resolve"
  | template => "template"
  | define => "define"
  | compress => "compress"
  | lint => "lint"

/-- A finding: a code for its kind, its message, the place it is about and further notes. -/
structure Diagnostic where
  code : String
  severity : Severity
  stage : Stage
  message : String
  loc : Option Location
  notes : List String
  deriving DecidableEq

namespace Diagnostic

/-- A warning about a place. -/
def warn (code : String) (stage : Stage) (message : String) (loc : Location) : Diagnostic :=
  ⟨code, .warning, stage, message, some loc, []⟩

/-- Whether a finding is an error. -/
def isError (d : Diagnostic) : Bool := d.severity == .error

/-- A finding in words, its notes on lines of their own. -/
def render (d : Diagnostic) : String :=
  let place := match d.loc with
    | none => ""
    | some loc => loc.render ++ ": "
  let head := place ++ d.severity.name ++ "[" ++ d.code ++ "]: " ++ d.message
  d.notes.foldl (fun s note => s ++ "\n  note: " ++ note) head

end Diagnostic

/-! ### The order of reports -/

/-- Places in order: by source, then by line, then by column, a line without a column first. -/
def Location.compare (a b : Location) : Ordering :=
  (Ord.compare a.file b.file).then
    ((Ord.compare a.line b.line).then (Ord.compare a.col b.col))

/-- Findings in order: by place, those without a place first, then by code and message. -/
def Diagnostic.compare (a b : Diagnostic) : Ordering :=
  let places : Ordering :=
    match a.loc, b.loc with
    | none, none => .eq
    | none, some _ => .lt
    | some _, none => .gt
    | some x, some y => x.compare y
  places.then ((Ord.compare a.code b.code).then (Ord.compare a.message b.message))

/-- Whether one finding may stand before another one. -/
def Diagnostic.le (a b : Diagnostic) : Bool := a.compare b != .gt

/-! ### Reports -/

/-- The version of the format of reports. -/
def diagnosticFormat : String := "mform.diag@0.1.0"

/-- The findings of a run, in order, and whether there is no error among them. -/
structure Report where
  ok : Bool
  diagnostics : List Diagnostic
  deriving DecidableEq

namespace Report

/-- **The report of a list of findings.** -/
def of (ds : List Diagnostic) : Report :=
  ⟨ds.all fun d => !d.isError, ds.mergeSort Diagnostic.le⟩

/-- The errors of a report. -/
def errors (r : Report) : List Diagnostic := r.diagnostics.filter Diagnostic.isError

/-- The warnings of a report. -/
def warnings (r : Report) : List Diagnostic := r.diagnostics.filter (·.severity == .warning)

end Report

/-- Lines that a stage leaves, with what it found. -/
structure Staged where
  lines : List Line
  diagnostics : List Diagnostic

namespace Staged

/-- Lines about which nothing is to be said. -/
def quiet (lines : List Line) : Staged := ⟨lines, []⟩

/-- The results for two streams one after the other. -/
def append (a b : Staged) : Staged := ⟨a.lines ++ b.lines, a.diagnostics ++ b.diagnostics⟩

instance : Append Staged := ⟨append⟩

@[simp] theorem lines_append (a b : Staged) : (a ++ b).lines = a.lines ++ b.lines := rfl

@[simp] theorem diagnostics_append (a b : Staged) :
    (a ++ b).diagnostics = a.diagnostics ++ b.diagnostics := rfl

/-- The results of a stage that treats each line by itself, in order. -/
def each (f : Line → Staged) (lines : List Line) : Staged :=
  let parts := lines.map f
  ⟨parts.flatMap (·.lines), parts.flatMap (·.diagnostics)⟩

theorem each_cons (f : Line → Staged) (l : Line) (ls : List Line) :
    each f (l :: ls) = f l ++ each f ls := rfl

end Staged

end Softcode
