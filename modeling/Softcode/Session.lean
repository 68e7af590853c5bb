/-
**Sessions: the stages of a compilation, one by one.**

A session holds a stream of lines and what the stages so far have collected: macros, header and
footer lines, the debug mode and the findings.  Every stage replaces the stream; macros, banners and
findings are only ever added.

Main definitions:

* `Softcode.Session`, `Softcode.Session.start` — sessions, and the one that options begin;
* `Softcode.Session.resolveConstants`, `expandChecks`, `expandTemplates`, `extractMacros`, `strip`,
  `join`, `applyMacros`, `compress` — the stages;
* `Softcode.Session.stages` — **all stages behind the loading of sources**;
* `Softcode.Session.report` — what is reported in the end;
* `Softcode.Session.rendered` — the commands with their headers and footers.
-/

import Softcode.Banner
import Softcode.Constant
import Softcode.Namespace
import Softcode.Options
import Softcode.Template

set_option autoImplicit false

namespace Softcode

/-- A stream, and what the stages so far have collected. -/
structure Session where
  lines : List Line
  debug : Bool
  macros : List Macro
  headers : List Banner
  footers : List Banner
  diagnostics : List Diagnostic

namespace Session

/-- The warning about a macro of the options whose trigger is no pattern. -/
def ignoredMacro (trigger message : Text) : Diagnostic :=
  ⟨"MF-DEF-0001", .warning, .define,
    String.ofList ("configured define ".toList ++ quoted trigger ++ " ignored: ".toList ++ message),
    none, []⟩

/-- A macro of the options added, or the warning about it. -/
def configure (s : Session) (define : Text × Text) : Session :=
  match Macro.compile define.1 define.2 none with
  | .ok d => { s with macros := s.macros ++ [d] }
  | .error message =>
      { s with diagnostics := s.diagnostics ++ [ignoredMacro define.1 message] }

/-- The session that options begin: no lines, and the macros of the options. -/
def start (o : Options) : Session :=
  o.defines.foldl configure ⟨[], o.debug, [], [], [], []⟩

/-- The result of a stage taken over: its lines replace the stream, its findings are added. -/
def take (s : Session) (r : Staged) : Session :=
  { s with lines := r.lines, diagnostics := s.diagnostics ++ r.diagnostics }

/-- Constants are put in for their names. -/
def resolveConstants (s : Session) : Session := { s with lines := Constant.resolve s.lines }

/-- Self-checks become commands. -/
def expandChecks (s : Session) : Session := s.take (SelfCheck.expand s.lines)

/-- Self-checks become commands and blocks are expanded. -/
def expandTemplates (s : Session) : Session := s.take (Template.expand s.debug s.lines)

/-- Macro definitions are taken out of the stream. -/
def extractMacros (s : Session) : Session :=
  let x := Macro.extract s.lines
  { s with
    lines := x.lines
    macros := s.macros ++ x.macros
    diagnostics := s.diagnostics ++ x.diagnostics }

/-- Comments go. -/
def strip (s : Session) : Session := { s with lines := stripComments s.lines }

/-- Continuation lines are joined. -/
def join (s : Session) : Session := { s with lines := joinLines s.lines }

/-- Macros are applied. -/
def applyMacros (s : Session) : Session := { s with lines := Macro.applyAll s.macros s.lines }

/-- The stream becomes commands of at most `limit` characters, where that is possible. -/
def compress (s : Session) (limit : Nat) : Session :=
  s.take (Softcode.compress s.macros limit s.lines)

/-- The names that the stream defines are put under an alias. -/
def putUnder (s : Session) (label : Text) : Session :=
  { s with lines := Namespace.apply s.lines label }

/-- **All stages behind the loading of sources.** -/
def stages (s : Session) (limit : Nat) : Session :=
  (s.resolveConstants.expandTemplates.extractMacros).compress limit

/-- What is reported in the end: the findings of the stages and those of the linter. -/
def report (s : Session) (o : Lint.Options) : Report :=
  .of (s.diagnostics ++ (Lint.lint o s.lines).diagnostics)

/-- The commands as one text. -/
def output (s : Session) : Text := Line.joined s.lines

/-- The commands with their headers and footers. -/
def rendered (s : Session) : Text := renderOutput s.output s.headers s.footers

end Session

end Softcode
