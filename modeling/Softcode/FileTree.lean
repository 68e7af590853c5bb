/-
**File trees.**

A file tree holds what stands at the paths of a file system, and the current directory, which
relative paths begin at.  Whatever is above an entry or the current directory is a directory.

A path is followed component by component: every component but the last has to be a directory, so
that `a/../b` is found only if there is a directory `a`.

Main definitions:

* `Softcode.FileTree`, `Softcode.FileTree.lookup?` — file trees and what stands at a place;
* `Softcode.FileTree.Fault` — why an operation fails;
* `Softcode.FileTree.follow` — the place that a path leads to;
* `Softcode.FileTree.read`, `isFile`, `canonical` — questions about paths;
* `Softcode.FileTree.write`, `makeDir`, `makeDirs` — changes.
-/

import Softcode.Path
import Softcode.Text.Utf8

set_option autoImplicit false

namespace Softcode

namespace FileTree

/-- A place in a file tree: the names from the root on. -/
abbrev Place := List Text

/-- What may stand at a place. -/
inductive Entry where
  | dir
  | file (content : Bytes)
  deriving DecidableEq

/-- Why an operation fails. -/
inductive Fault where
  | noEntry
  | exists_
  | notDirectory
  | isDirectory
  | nulByte
  deriving DecidableEq

/-- A fault in words. -/
def Fault.message : Fault → String
  | noEntry => "No such file or directory (os error 2)"
  | exists_ => "File exists (os error 17)"
  | notDirectory => "Not a directory (os error 20)"
  | isDirectory => "Is a directory (os error 21)"
  | nulByte => "file name contained an unexpected NUL byte"

end FileTree

/-- A file tree: the current directory, and what stands where.  Of several entries for one place the
first counts. -/
structure FileTree where
  cwd : FileTree.Place
  entries : List (FileTree.Place × FileTree.Entry)
  deriving DecidableEq

namespace FileTree

/-! ### Places -/

/-- Whether something stands below a place, so that it is a directory. -/
def isAbove (t : FileTree) (p : Place) : Bool :=
  p.isPrefixOf t.cwd || t.entries.any fun e => p.isPrefixOf e.1

/-- What stands at a place. -/
def lookup? (t : FileTree) (p : Place) : Option Entry :=
  match t.entries.lookup p with
  | some e => some e
  | none => if t.isAbove p then some .dir else none

/-- The path of a place. -/
def render (p : Place) : Text := if p.isEmpty then ['/'] else p.flatMap ('/' :: ·)

/-- Components followed from a place on. -/
def followFrom (t : FileTree) : Place → List Text → Except Fault Place
  | p, [] => .ok p
  | p, c :: cs =>
      match t.lookup? p with
      | none => .error .noEntry
      | some (.file _) => .error .notDirectory
      | some .dir =>
          if Path.isIdle c then followFrom t p cs
          else if c = ['.', '.'] then followFrom t p.dropLast cs
          else if (t.lookup? (p ++ [c])).isNone then .error .noEntry
          else followFrom t (p ++ [c]) cs

/-- Where the components of a path begin. -/
def origin (t : FileTree) (path : Text) : Place := if Path.isAbsolute path then [] else t.cwd

/-- **The place that a path leads to.** -/
def follow (t : FileTree) (path : Text) : Except Fault Place :=
  if path.isEmpty then .error .noEntry
  else if '\x00' ∈ path then .error .nulByte
  else followFrom t (t.origin path) (Path.pieces path)

/-! ### Questions -/

/-- The content of a file. -/
def read (t : FileTree) (path : Text) : Except Fault Bytes := do
  let p ← t.follow path
  match t.lookup? p with
  | none => .error .noEntry
  | some .dir => .error .isDirectory
  | some (.file content) => .ok content

/-- Whether a path leads to a file. -/
def isFile (t : FileTree) (path : Text) : Bool :=
  match t.follow path with
  | .error _ => false
  | .ok p => match t.lookup? p with
    | some (.file _) => true
    | _ => false

/-- Whether a path leads to a directory. -/
def isDir (t : FileTree) (path : Text) : Bool :=
  match t.follow path with
  | .error _ => false
  | .ok p => t.lookup? p == some .dir

/-- The path of the place that a path leads to. -/
def canonical (t : FileTree) (path : Text) : Except Fault Text := (t.follow path).map render

/-- The path of the current directory. -/
def currentDir (t : FileTree) : Text := render t.cwd

/-! ### Changes -/

/-- The directory in which a path names something, the name, and whether slashes follow it. -/
def target (t : FileTree) (path : Text) : Except Fault (Place × Text × Bool) :=
  if path.isEmpty then .error .noEntry
  else if '\x00' ∈ path then .error .nulByte
  else
    let back := (Path.pieces path).reverse
    let slashes := back.takeWhile List.isEmpty
    match back.dropWhile List.isEmpty with
    | [] => .ok ([], ['.'], true)
    | name :: front => do
        let dir ← followFrom t (t.origin path) (front.reverse ++ [['.']])
        .ok (dir, name, !slashes.isEmpty)

/-- A name that is no name of its own. -/
def isDots (name : Text) : Bool := name == ['.'] || name == ['.', '.']

/-- **A file written.** -/
def write (t : FileTree) (path : Text) (content : Bytes) : Except Fault FileTree := do
  let (dir, name, slashes) ← t.target path
  if slashes || isDots name || t.lookup? (dir ++ [name]) = some .dir then .error .isDirectory
  else .ok { t with entries := (dir ++ [name], .file content) :: t.entries }

/-- A directory made. -/
def makeDir (t : FileTree) (path : Text) : Except Fault FileTree := do
  let (dir, name, _) ← t.target path
  if isDots name || (t.lookup? (dir ++ [name])).isSome then .error .exists_
  else .ok { t with entries := (dir ++ [name], .dir) :: t.entries }

/-- A directory made, where it is no fault that it is there. -/
def ensureDir (t : FileTree) (path : Text) : Except Fault FileTree :=
  match t.makeDir path with
  | .ok t' => .ok t'
  | .error e => if t.isDir path then .ok t else .error e

/-- The directories of a list made that are not there, where each is in the next one. -/
def ensureDirs (t : FileTree) : List Text → Except Fault FileTree
  | [] => .error .noEntry
  | p :: above =>
      if p.isEmpty then .ok t
      else
        match t.ensureDir p with
        | .error .noEntry => do
            let t' ← ensureDirs t above
            t'.ensureDir p
        | r => r

/-- **A directory made, with those above it.** -/
def makeDirs (t : FileTree) (path : Text) : Except Fault FileTree :=
  ensureDirs t (Path.ancestors path)

end FileTree

end Softcode
