/-
**References to sources.**

A reference names a bundled module (`std/NAME`), a file of a repository
(`git:USER/REPO@BRANCH/PATH`), an address or a file.  Addresses and files are relative to the source
that the reference stands in.  A reference of several lines is a source itself.

Main definitions:

* `Softcode.Base` — what references are relative to;
* `Softcode.Reference`, `Softcode.Reference.classify` — references, and the one that a text is;
* `Softcode.Repository`, `Softcode.Repository.parse?`, `Softcode.Repository.url` — files of
  repositories and where they are read from.
-/

import Softcode.Directive
import Softcode.Language
import Softcode.Path
import Softcode.SourceError
import Softcode.Url.Parser

set_option autoImplicit false

namespace Softcode

/-- What references are relative to: a directory or an address. -/
inductive Base where
  | dir (path : Text)
  | url (u : Url)
  deriving DecidableEq

/-! ### Repositories -/

/-- A file of a repository: its owner, its name, a branch and the components of a path. -/
structure Repository where
  user : Text
  name : Text
  branch : Text
  path : List Text
  deriving DecidableEq

namespace Repository

/-- The parts of `USER/REPO@BRANCH/PATH`, where the branch and the path may be left out. -/
def parse? (s : Text) : Option Repository := do
  let (user, rest) ← Text.cut? '/' s
  let (head, path) := (Text.cut? '/' rest).getD (rest, [])
  let (name, branch) := (Text.cut? '@' head).getD (head, defaultBranch)
  if user.isEmpty || name.isEmpty || branch.isEmpty then none
  else some ⟨user, name, branch, (Text.splitOn '/' path).filter fun c => !c.isEmpty⟩

/-- The components of the address of a file, where a source of a usual name stands for no path. -/
def components (r : Repository) (ext : Text) : List Text :=
  [r.user, r.name, r.branch] ++
    if r.path.isEmpty then ["index.".toList ++ ext] else r.path

/-- The address below which the files of all repositories are. -/
def root : Url :=
  { scheme := "https".toList
    authority := some { host := some (.name rawContentName) }
    path := .segments [[]] }

/-- **The address of a file of a repository.** -/
def url (r : Repository) (ext : Text) : Url := (r.components ext).foldl Url.pushSegment root

end Repository

/-- The address that a shorthand for a file of a repository stands for. -/
def repositoryUrl (shorthand ext : Text) : Except SourceError Url :=
  match Repository.parse? shorthand with
  | none => .error (.malformedRepository shorthand)
  | some r => .ok (r.url ext)

/-! ### References -/

/-- A reference: a bundled module, an address, a file, or a source itself. -/
inductive Reference where
  | std (name : Text)
  | url (u : Url)
  | file (path : Text)
  | inline (text : Text)
  deriving DecidableEq

namespace Reference

/-- The shorthand for a file of a repository. -/
def shorthand? (s : Text) : Option Text :=
  (Text.dropPrefixCi? "github:".toList s).or (Text.dropPrefixCi? "git:".toList s)

/-- Whether a text begins as an address of the web. -/
def isWebAddress (s : Text) : Bool :=
  (Text.dropPrefixCi? "http://".toList s).isSome || (Text.dropPrefixCi? "https://".toList s).isSome

/-- A file or address relative to a base. -/
def relative (base : Base) (s : Text) : Except SourceError Reference :=
  if Path.isAbsolute s then .ok (.file s)
  else
    match base with
    | .dir dir => .ok (.file (Path.join dir s))
    | .url u =>
        match u.join s with
        | .ok v => .ok (.url v)
        | .error e => .error (.invalidRelativeUrl s u e)

/-- The name of the bundled module that a reference is. -/
def stdName? (s : Text) : Option Text := Text.dropPrefix? "std/".toList s

/-- **The reference that a text is**: of the forms that it may have, the first one counts. -/
def classify (reference : Text) (base : Base) (ext : Text) : Except SourceError Reference :=
  let s := Text.trim reference
  if '\n' ∈ s then .ok (.inline s)
  else
    match stdName? s with
    | some name => .ok (.std name)
    | none =>
        match shorthand? s with
        | some rest => (repositoryUrl (Text.trim rest) ext).map .url
        | none =>
            if isWebAddress s then
              match Url.parse s with
              | .ok u => .ok (.url u)
              | .error e => .error (.invalidUrl s e)
            else relative base s

end Reference

end Softcode
