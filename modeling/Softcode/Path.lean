/-
**Paths of files.**

A path is a text whose components are separated by slashes; it is absolute if it begins with one.
Paths are kept as they are written: joining and taking the parent only cut and append.  Empty
components and `.` components say nothing, apart from a `.` at the beginning of a relative path.

Main definitions:

* `Softcode.Path.join` — a path relative to a directory;
* `Softcode.Path.parent?` — the directory of a path;
* `Softcode.Path.ancestors` — a path and the directories above it.
-/

import Softcode.Text.Basic

set_option autoImplicit false

namespace Softcode

namespace Path

/-- Whether a path begins at the root. -/
def isAbsolute (p : Text) : Bool := p.head? == some '/'

/-- **A path relative to a directory.**  An absolute path is relative to none. -/
def join (dir p : Text) : Text :=
  if isAbsolute p then p
  else if dir.isEmpty || dir.getLast? == some '/' then dir ++ p
  else dir ++ ['/'] ++ p

/-- The components of a path as they are written. -/
def pieces (p : Text) : List Text := Text.splitOn '/' p

/-- A component that says nothing. -/
def isIdle (c : Text) : Bool := c.isEmpty || c == ['.']

/-- Components without those at the end that say nothing. -/
def dropIdle (cs : List Text) : List Text := (cs.reverse.dropWhile isIdle).reverse

/-- The root or the leading dot of a path, and the rest. -/
def cutHead : Text → Text × Text
  | '/' :: s => (['/'], s)
  | ['.'] => (['.'], [])
  | '.' :: '/' :: s => (['.'], '/' :: s)
  | s => ([], s)

/-- **The directory of a path.**  The root and the empty path have none. -/
def parent? (p : Text) : Option Text :=
  let (head, body) := cutHead p
  match (dropIdle (pieces body)).reverse with
  | [] => if head = ['.'] then some [] else none
  | _ :: front => some (head ++ Text.join ['/'] (dropIdle front.reverse))

/-- A path and the directories above it, as many as there are up to a number. -/
def ancestorsUpTo : Nat → Text → List Text
  | 0, p => [p]
  | n + 1, p =>
      match parent? p with
      | none => [p]
      | some dir => p :: ancestorsUpTo n dir

/-- **A path and the directories above it**, the innermost first.  Every step up makes the path
shorter. -/
def ancestors (p : Text) : List Text := ancestorsUpTo p.length p

end Path

end Softcode
