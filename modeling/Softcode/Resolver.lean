/-
**Loading sources.**

The entry is loaded, and so is every source that a source refers to; the lines of a source stand in
place of the instruction that names it.  References are relative to the source they stand in.  A
source may be spliced in any number of times, but not into itself: the identifiers of the sources
that are being read form a chain, and a source that is already on it is an error.

The state goes through unharmed whether loading succeeds or fails: what a source changes for itself,
which is the base of references and the chain, is put back when it is done.

The chain has no identifier twice, and only finitely many can be on it: those of the files and pages
there are, and those of modules that some line of a source names.  Their number bounds the depth.

Main definitions:

* `Softcode.Sources` — where sources are found;
* `Softcode.Resolver` — the state of loading;
* `Softcode.Sources.load` — one source;
* `Softcode.Sources.find`, `Softcode.Sources.findEntry` — the source that a reference in a line
  names, and the one that an entry is;
* `Softcode.Resolver.scan` — the lines of a source, with its instructions carried out;
* `Softcode.Resolver.expand`, `Softcode.Resolver.resolveReference` — a source with all that it
  refers to, and a reference;
* `Softcode.Resolver.resolveEntry` — **the lines of an entry**.
-/

import Softcode.Fetcher
import Softcode.Instruction
import Softcode.Namespace
import Softcode.Reference

set_option autoImplicit false

namespace Softcode

/-! ### Sources -/

/-- Where sources are found: the file tree, addresses, a directory with modules that take precedence
over the bundled ones, the extension of sources and the size up to which they are loaded. -/
structure Sources where
  tree : FileTree
  fetcher : Fetcher
  stdRoot : Option Text
  ext : Text
  maxBytes : Nat

/-- A source that is loaded: its identifier, its text, what references in it are relative to, and
the file it is, if it is one. -/
structure Loaded where
  id : String
  text : Text
  base : Base
  path : Option Text

/-- The identifier of a source that is given as text. -/
def inputId : String := "<input>"

namespace Sources

/-- The text of a file. -/
def readText (s : Sources) (path : Text) : Except SourceError Text :=
  match s.tree.read path with
  | .error f => .error (.unreadable path f.message)
  | .ok content =>
      match Utf8.decode content with
      | .ok text => .ok text
      | .error _ => .error (.unreadable path "stream did not contain valid UTF-8")

/-- The file name of a module: the extension is added if it is missing. -/
def moduleFile (s : Sources) (name : Text) : Text :=
  let ending := '.' :: s.ext
  if (Text.dropSuffix? ending name).isSome then name else name ++ ending

/-- The identifier of a module. -/
def moduleId (s : Sources) (name : Text) : Text := "std/".toList ++ s.moduleFile name

/-- The bundled module of a name. -/
def loadBundled (s : Sources) (name : Text) (base : Base) : Except SourceError Loaded :=
  let file := s.moduleFile name
  match Bundled.source? ((Text.dropSuffix? ('.' :: s.ext) file).getD file) with
  | some text => .ok ⟨String.ofList (s.moduleId name), text, base, none⟩
  | none => .error (.unknownModule (s.moduleId name))

/-- The module of a name: a file in the directory of modules, or else a bundled one. -/
def loadModule (s : Sources) (name : Text) (base : Base) : Except SourceError Loaded :=
  match s.stdRoot with
  | none => s.loadBundled name base
  | some root =>
      let path := Path.join root (s.moduleFile name)
      if s.tree.isFile path then do
        let text ← s.readText path
        .ok ⟨String.ofList (s.moduleId name), text, .dir root, none⟩
      else s.loadBundled name base

/-- The file at a path, under the name of its place. -/
def loadFile (s : Sources) (path : Text) : Except SourceError Loaded := do
  let path := (s.tree.canonical path).toOption.getD path
  let text ← s.readText path
  .ok ⟨String.ofList path, text, .dir ((Path.parent? path).getD ['.']), some path⟩

/-- The source of a reference, whatever its size. -/
def loadAny (s : Sources) (r : Reference) (base : Base) : Except SourceError Loaded :=
  match r with
  | .inline text => .ok ⟨inputId, text, base, none⟩
  | .std name => s.loadModule name base
  | .url u =>
      match s.fetcher.fetch s.tree u with
      | .ok text => .ok ⟨String.ofList u.render, text, .url u, none⟩
      | .error reason => .error (.notFetched u reason)
  | .file path => s.loadFile path

/-- **The source of a reference.** -/
def load (s : Sources) (r : Reference) (base : Base) : Except SourceError Loaded := do
  let l ← s.loadAny r base
  let bytes := Text.byteLength l.text
  if s.maxBytes < bytes then .error (.tooLarge l.id.toList bytes s.maxBytes) else .ok l

/-- The source that a reference in a line names; a file has to be there. -/
def find (s : Sources) (base : Base) (reference : Text) : Except SourceError Loaded := do
  let reference := unquote reference
  if reference.isEmpty then .error .missingReference
  else
    let ref ← Reference.classify reference base s.ext
    match ref with
    | .file path =>
        if s.tree.isFile path then s.load ref base else .error (.fileNotFound reference path)
    | _ => s.load ref base

/-- The source that an entry is: what it refers to, or the text itself if it names no file. -/
def findEntry (s : Sources) (base : Base) (entry : Text) : Except SourceError Loaded := do
  let ref ← Reference.classify entry base s.ext
  match ref with
  | .file path => s.load (if s.tree.isFile path then ref else .inline entry) base
  | _ => s.load ref base

/-! ### Identifiers -/

/-- All texts that may be loaded, apart from the entry: files, pages and bundled modules. -/
def texts (s : Sources) : List Text :=
  (s.tree.entries.filterMap fun e => match e.2 with
    | .dir => none
    | .file content => (Utf8.decode content).toOption) ++
  (match s.fetcher with
    | .pages ps => ps.map (·.2)
    | .disk => []) ++
  Bundled.modules.map (·.2)

/-- The identifier of the module that a reference names. -/
def moduleIdOf? (s : Sources) (reference : Text) : Option Text :=
  (Reference.stdName? (Text.trim (unquote reference))).map s.moduleId

/-- The identifiers of the modules that the lines of a text name. -/
def moduleIds (s : Sources) (text : Text) : List Text :=
  (Text.lines text).filterMap fun line =>
    (Instruction.parse line).reference?.bind s.moduleIdOf?

/-- All identifiers that sources may have when a certain source is the entry. -/
def identifiers (s : Sources) (entry : Loaded) : List Text :=
  [entry.id.toList] ++ s.tree.entries.map (fun e => FileTree.render e.1) ++
    (match s.fetcher with
      | .pages ps => ps.map (·.1)
      | .disk => []) ++
    (entry.text :: s.texts).flatMap s.moduleIds

end Sources

/-! ### The state of loading -/

/-- The state of loading: what references are relative to, the chain of the sources that are being
read, the entry first, the identifiers of the sources that were read, the first file, debug mode,
and header and footer lines. -/
structure Resolver where
  base : Base
  visiting : List String
  loaded : List String
  entryFile : Option Text
  debug : Bool
  headers : List Banner
  footers : List Banner

/-- What loading gives: lines or an error, and in any case the state. -/
abbrev Resolver.Result := Except CompileError (List Line) × Resolver

namespace Resolver

/-- The state before anything is loaded. -/
def start (base : Base) (debug : Bool) : Resolver := ⟨base, [], [], none, debug, [], []⟩

/-- The state in which a source is read. -/
def enter (r : Resolver) (l : Loaded) : Resolver :=
  { r with base := l.base, visiting := r.visiting ++ [l.id] }

/-- The state behind a source that was read in a state which began with another base. -/
def leave (r : Resolver) (base : Base) (id : String) : Resolver :=
  { r with
    base := base
    visiting := r.visiting.dropLast
    loaded := if id ∈ r.loaded then r.loaded else r.loaded ++ [id] }

/-- The state behind the loading of a source; the first file is remembered. -/
def note (r : Resolver) (l : Loaded) : Resolver := { r with entryFile := r.entryFile.or l.path }

/-! ### Instructions -/

/-- A line of a raw block. -/
def rawLine (l : Line) : Line := l.withText (rawMarker ++ [' '] ++ l.text)

/-- The line at the beginning or end of a raw block. -/
def rawBound (l : Line) (word reference : Text) : Line :=
  l.withText (rawMarker ++ " ==== ".toList ++ word ++ [' '] ++ unquote reference ++ " ====".toList)

/-- Lines as a raw block in place of a line. -/
def rawBlock (l : Line) (reference : Text) (nested : List Line) : List Line :=
  [rawBound l "begin".toList reference] ++ nested.map rawLine ++
    [rawBound l "end".toList reference]

/-- The lines of a source with its instructions carried out; `refer` gives the lines of the source
that a reference in a line names. -/
def scan (refer : Text → Line → Resolver → Result) : List Line → Resolver → Result
  | [], r => (.ok [], r)
  | l :: ls, r =>
      /- The lines for a reference, put through `f`, before those of the rest. -/
      let splice (reference : Text) (f : List Line → List Line) : Result :=
        match refer reference l r with
        | (.error e, r₁) => (.error e, r₁)
        | (.ok nested, r₁) =>
            match scan refer ls r₁ with
            | (.error e, r₂) => (.error e, r₂)
            | (.ok rest, r₂) => (.ok (f nested ++ rest), r₂)
      match Instruction.parse l.text with
      | .splice reference => splice reference id
      | .embed reference => splice reference (rawBlock l reference)
      | .importAs reference label => splice reference (Namespace.apply · label)
      | .badImport => (.error ((SourceError.malformedImport l.text).toError.at_ l.location), r)
      | .header b => scan refer ls { r with headers := r.headers ++ [b] }
      | .footer b => scan refer ls { r with footers := r.footers ++ [b] }
      | .debug => scan refer ls { r with debug := true }
      | .text =>
          match scan refer ls r with
          | (.error e, r₁) => (.error e, r₁)
          | (.ok rest, r₁) => (.ok (l :: rest), r₁)

/-! ### References -/

/-- The lines of the source that a reference in a line names, where `expand` gives the lines of a
source.  An error that has no place yet is put at the line. -/
def resolveWith (s : Sources) (expand : Loaded → Resolver → Result) (reference : Text) (l : Line)
    (r : Resolver) : Result :=
  match s.find r.base reference with
  | .error e => (.error (e.toError.at_ l.location), r)
  | .ok loaded =>
      match expand loaded (r.note loaded) with
      | (.error e, r₁) => (.error (e.orAt l.location), r₁)
      | (.ok lines, r₁) => (.ok lines, r₁)

/-- The error that a source is already on the chain. -/
def circular (r : Resolver) (l : Loaded) : CompileError :=
  (SourceError.circular (r.visiting ++ [l.id])).toError

/-- The lines of a source with all that it refers to, at most `depth` levels deep. -/
def expand (s : Sources) : Nat → Loaded → Resolver → Result
  | 0, l, r => (.error (r.circular l), r)
  | depth + 1, l, r =>
      if l.id ∈ r.visiting then (.error (r.circular l), r)
      else
        let (result, r₁) :=
          scan (resolveWith s fun l' r' => expand s depth l' r') (Line.ofSource l.text l.id)
            (r.enter l)
        (result, r₁.leave r.base l.id)

/-- The lines of the source that a reference in a line names. -/
def resolveReference (s : Sources) (depth : Nat) (reference : Text) (l : Line) (r : Resolver) :
    Result :=
  resolveWith s (fun l' r' => expand s depth l' r') reference l r

/-- **The lines of an entry.** -/
def resolveEntry (s : Sources) (entry : Text) (r : Resolver) : Result :=
  match s.findEntry r.base entry with
  | .error e => (.error e.toError, r)
  | .ok loaded => expand s ((s.identifiers loaded).length + 1) loaded (r.note loaded)

end Resolver

end Softcode
