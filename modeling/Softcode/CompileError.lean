/-
**Errors of a compilation.**

A compilation fails if its sources cannot be loaded or if the linter reports an error.  An error may
be about a place, and the failure of the linter carries the whole report.

Main definitions:

* `Softcode.CompileError`, `Softcode.CompileError.Kind` — errors and their kinds;
* `Softcode.CompileError.toDiagnostics` — an error as findings;
* `Softcode.CompileError.render` — an error in words.
-/

import Softcode.Diagnostic

set_option autoImplicit false

namespace Softcode

/-- The kinds of errors: a source is not there, cannot be downloaded, includes itself, is not well
formed or is too large; the linter reports errors; something that should not happen. -/
inductive CompileError.Kind where
  | notFound | fetch | circular | malformed | budget | lint | internal
  deriving DecidableEq

/-- The code of a kind. -/
def CompileError.Kind.code : Kind → String
  | notFound => "MF-RES-0001"
  | fetch => "MF-RES-0002"
  | circular => "MF-RES-0003"
  | malformed => "MF-RES-0004"
  | budget => "MF-RES-0005"
  | lint => "MF-LINT-0000"
  | internal => "MF-INTERNAL-0001"

/-- Whether an error of a kind comes from the loading of sources. -/
def CompileError.Kind.isResolution : Kind → Bool
  | lint | internal => false
  | _ => true

/-- The stage that an error of a kind is reported for. -/
def CompileError.Kind.stage : Kind → Stage
  | lint => .lint
  | _ => .resolve

/-- An error: its kind, its message, the place it is about, and a report that comes with it. -/
structure CompileError where
  kind : CompileError.Kind
  message : String
  loc : Option Location := none
  diagnostics : List Diagnostic := []
  deriving DecidableEq

namespace CompileError

/-- An error put at a place. -/
def at_ (e : CompileError) (loc : Location) : CompileError := { e with loc := some loc }

/-- An error put at a place, unless it has one. -/
def orAt (e : CompileError) (loc : Location) : CompileError :=
  if e.loc.isNone then e.at_ loc else e

/-- An error as findings: the report that comes with it, or else one finding for the error. -/
def toDiagnostics (e : CompileError) : List Diagnostic :=
  if e.diagnostics.isEmpty then [⟨e.kind.code, .error, e.kind.stage, e.message, e.loc, []⟩]
  else e.diagnostics

/-- An error in words, with the errors of the report that comes with it. -/
def render (e : CompileError) : String :=
  let place := match e.loc with
    | none => ""
    | some loc => loc.render ++ ": "
  (e.diagnostics.filter Diagnostic.isError).foldl (fun s d => s ++ "\n" ++ d.render)
    (place ++ e.message)

end CompileError

end Softcode
