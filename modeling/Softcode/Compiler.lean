/-
**Compilation.**

A compilation loads the entry with all that it refers to, runs the stages over its lines and checks
the result.

Main definitions:

* `Softcode.Output` — what a compilation gives;
* `Softcode.run` — all stages, with the report of what was found;
* `Softcode.compile` — **a compilation**, which fails if an error was found.
-/

import Softcode.Resolver
import Softcode.Session

set_option autoImplicit false

namespace Softcode

/-- What a compilation gives: the commands, as one text and as lines, the text of the sources before
any stage, header and footer lines, the report, the first file and its directory, and the
identifiers of all sources, in order. -/
structure Output where
  output : Text
  combined : Text
  lines : List Line
  headers : List Banner
  footers : List Banner
  report : Report
  entryFile : Option Text
  basePath : Option Text
  sources : List String

/-- The commands with their headers and footers. -/
def Output.rendered (o : Output) : Text := renderOutput o.output o.headers o.footers

/-- Where the sources of a compilation are found. -/
def Options.sources (o : Options) (tree : FileTree) (fetcher : Fetcher) (maxBytes : Nat) :
    Sources :=
  ⟨tree, fetcher, o.stdRoot, o.sourceExt, maxBytes⟩

/-- The state in which the loading of the entry begins. -/
def Options.resolver (o : Options) (tree : FileTree) : Resolver :=
  .start (.dir (o.baseDir.getD tree.currentDir)) o.debug

/-- The session behind the loading of sources. -/
def Session.ofResolver (o : Options) (lines : List Line) (r : Resolver) : Session :=
  { Session.start o with
    lines := lines
    debug := r.debug
    headers := r.headers
    footers := r.footers }

/-- **All stages**: the entry loaded, the stages run, and the report of what was found. -/
def run (o : Options) (s : Sources) (entry : Text) : Except CompileError Output :=
  match Resolver.resolveEntry s entry (o.resolver s.tree) with
  | (.error e, _) => .error e
  | (.ok lines, r) =>
      let done := (Session.ofResolver o lines r).stages o.safeLimit
      .ok {
        output := done.output
        combined := Line.joined lines
        lines := done.lines
        headers := done.headers
        footers := done.footers
        report := done.report o.linter
        entryFile := r.entryFile
        basePath := r.entryFile.bind Path.parent?
        sources := r.loaded.mergeSort fun a b => decide (a ≤ b) }

/-- The error that something was found which is one. -/
def lintError (r : Report) : CompileError where
  kind := .lint
  message := "lint failed with " ++ toString r.errors.length ++ " error(s)"
  loc := r.errors.head?.bind (·.loc)
  diagnostics := r.diagnostics

/-- **A compilation**: all stages, without an error in the report. -/
def compile (o : Options) (s : Sources) (entry : Text) : Except CompileError Output :=
  match run o s entry with
  | .error e => .error e
  | .ok out => if out.report.ok then .ok out else .error (lintError out.report)

end Softcode
