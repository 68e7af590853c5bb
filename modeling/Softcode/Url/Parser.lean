/-
**Reading addresses.**

An address is read without the blanks and control characters around it and without tabs and line
ends inside.  It has a scheme of its own or is relative to a base.  In special schemes a backslash
counts as a slash, the authority may not be empty, a port that is the usual one is left out and the
path has at least one segment.  Segments `.` and `..`, also written with `%2e`, are carried out.

Main definitions:

* `Softcode.Url.Kind` — kinds of schemes;
* `Softcode.Url.extendPath` — segments appended to a path;
* `Softcode.Url.parse` — **the address of a text**;
* `Softcode.Url.join` — the address of a text relative to a base;
* `Softcode.Url.pushSegment` — an address with one more segment.
-/

import Softcode.Url.Basic

set_option autoImplicit false

namespace Softcode

namespace Url

/-! ### Schemes -/

/-- The kinds of schemes: files, the other special ones, and all others. -/
inductive Kind where
  | file | special | other
  deriving DecidableEq

/-- The kind of a scheme. -/
def kindOf (scheme : Text) : Kind :=
  if scheme = "file".toList then .file
  else if ["http", "https", "ws", "wss", "ftp"].any fun s => s.toList = scheme then .special
  else .other

/-- Whether a backslash counts as a slash. -/
def Kind.isSpecial : Kind → Bool
  | other => false
  | _ => true

/-- The usual port of a scheme. -/
def usualPort? (scheme : Text) : Option Nat :=
  ([("http", 80), ("ws", 80), ("https", 443), ("wss", 443), ("ftp", 21)].find?
    fun p => p.1.toList = scheme).map (·.2)

/-- The scheme that a text begins with, in lower case, and the text behind its colon. -/
def scheme? (s : Text) : Option (Text × Text) := do
  let (name, rest) ← Text.cut? ':' s
  let ok := name.head?.any Char.isAlpha && name.all fun c => c.isAlphanum || "+-.".toList.contains c
  if ok then some (name.map Char.toLower, rest) else none

/-- The characters that are dropped inside an address. -/
def isDropped (c : Char) : Bool := c == '\t' || c == '\n' || c == '\r'

/-- The characters that are dropped at the ends of an address. -/
def isMargin (c : Char) : Bool := c.toNat ≤ 0x20

/-- A text as it is read. -/
def clean (s : Text) : Text :=
  (((s.dropWhile isMargin).reverse.dropWhile isMargin).reverse).filter fun c => !isDropped c

/-- A slash, or a backslash. -/
def isSlash (c : Char) : Bool := c == '/' || c == '\\'

/-- A slash in addresses of a kind. -/
def Kind.isSlash (k : Kind) (c : Char) : Bool := c == '/' || (k.isSpecial && c == '\\')

/-! ### Paths -/

/-- The segment with `%2e` read as a dot. -/
def dots : Text → Text
  | '%' :: '2' :: 'e' :: s => '.' :: dots s
  | '%' :: '2' :: 'E' :: s => '.' :: dots s
  | c :: s => c :: dots s
  | [] => []

/-- Whether a segment stands for the one above. -/
def isParent (s : Text) : Bool := dots s == ['.', '.']

/-- Whether a segment stands for itself. -/
def isSelf (s : Text) : Bool := dots s == ['.']

/-- The path above; a file path is not left beyond a drive letter. -/
def above (k : Kind) (segs : List Text) : List Text :=
  match k, segs with
  | .file, [d] => if isDrive d then [d] else []
  | _, _ => segs.dropLast

/-- A segment in the form it has in a path: a drive letter at the beginning of a file path gets a
colon. -/
def normalSegment (k : Kind) (segs : List Text) (s : Text) : Text :=
  match k, segs, s with
  | .file, [], [c, '|'] => if c.isAlpha then [c, ':'] else s
  | _, _, _ => s

/-- Segments appended to a path, where `.` and `..` are carried out; behind one of these at the end
the path ends in an empty segment. -/
def extendPath (k : Kind) : List Text → List Text → List Text
  | segs, [] => segs
  | segs, [s] =>
      if isParent s then above k segs ++ [[]]
      else if isSelf s then segs ++ [[]]
      else segs ++ [normalSegment k segs s]
  | segs, s :: more =>
      if isParent s then extendPath k (above k segs) more
      else if isSelf s then extendPath k segs more
      else extendPath k (segs ++ [normalSegment k segs s]) more

/-- A file path without empty segments at its beginning. -/
def dropEmpty : List Text → List Text
  | [] :: s :: segs => dropEmpty (s :: segs)
  | segs => segs

/-- A text cut at the slashes of a kind. -/
def splitSlashes (k : Kind) : Text → List Text
  | [] => [[]]
  | c :: s =>
      if k.isSlash c then [] :: splitSlashes k s
      else
        match splitSlashes k s with
        | [] => [[c]]
        | t :: ts => (c :: t) :: ts

/-- The text before a query or a fragment. -/
def beforeQuery (s : Text) : Text := s.takeWhile fun c => c ≠ '?' ∧ c ≠ '#'

/-- A query or fragment with what follows it. -/
def fromQuery (s : Text) : Text := s.dropWhile fun c => c ≠ '?' ∧ c ≠ '#'

/-- The path that goes on with a text.  A file path does not begin with empty segments, also not
behind `..`. -/
def pathFrom (k : Kind) (segs : List Text) (s : Text) : Path :=
  let more := splitSlashes k (Percent.encode Percent.inPath (beforeQuery s))
  .segments <|
    if k = .file then
      dropEmpty (extendPath k segs (if segs.isEmpty then dropEmpty more else more))
    else extendPath k segs more

/-- The fragment at the beginning of a text, behind its mark. -/
def fragment? : Text → Option Text
  | '#' :: s => some (Percent.encode Percent.inFragment s)
  | _ => none

/-- An address without query and fragment, with those of a text. -/
def finish (k : Kind) (u : Url) (s : Text) : Url :=
  match fromQuery s with
  | '?' :: q =>
      let set := if k.isSpecial then Percent.inSpecialQuery else Percent.inQuery
      { u with
        query := some (Percent.encode set (q.takeWhile (· ≠ '#')))
        fragment := fragment? (q.dropWhile (· ≠ '#')) }
  | rest => { u with query := none, fragment := fragment? rest }

/-! ### Authorities -/

/-- Where an authority ends. -/
def endsAuthority (k : Kind) (c : Char) : Bool := c == '?' || c == '#' || k.isSlash c

/-- A text cut at its last occurrence of a character. -/
def cutLast? (sep : Char) (s : Text) : Option (Text × Text) :=
  (Text.cut? sep s.reverse).map fun (b, a) => (a.reverse, b.reverse)

/-- The user and the password, and the text from the host on. -/
def userinfo (k : Kind) (s : Text) : Except Error (Text × Option Text × Text) :=
  let whole := s.takeWhile fun c => !endsAuthority k c
  let rest := s.dropWhile fun c => !endsAuthority k c
  match cutLast? '@' whole with
  | none => .ok ([], none, s)
  | some ([], host) =>
      if host.isEmpty && !rest.isEmpty then .error .emptyHost else .ok ([], none, host ++ rest)
  | some (user, host) =>
      let encode := Percent.encode Percent.inUserinfo
      match Text.cut? ':' user with
      | none => .ok (encode user, none, host ++ rest)
      | some (name, []) => .ok (encode name, none, host ++ rest)
      | some (name, password) => .ok (encode name, some (encode password), host ++ rest)

/-- The text of a host, which ends at a colon outside brackets, and the text behind it. -/
def cutHost (k : Kind) : Bool → Text → Text × Text
  | _, [] => ([], [])
  | inside, c :: s =>
      if endsAuthority k c || (c == ':' && !inside) then ([], c :: s)
      else
        let (host, rest) := cutHost k (c == '[' || (inside && c != ']')) s
        (c :: host, rest)

/-- The port at the beginning of a text, behind its colon, and the text behind it. -/
def port (scheme : Text) (s : Text) : Except Error (Option Nat × Text) :=
  let digits := s.takeWhile Char.isDigit
  let rest := s.dropWhile Char.isDigit
  let n := digits.foldl (fun n c => 10 * n + (c.toNat - '0'.toNat)) 0
  if 65535 < n || rest.head?.any (fun c => !(c == '?' || c == '#' || isSlash c)) then
    .error .invalidPort
  else .ok (if digits.isEmpty || usualPort? scheme = some n then none else some n, rest)

/-- The host of a kind of scheme. -/
def hostOf (k : Kind) (s : Text) : Except Error Host :=
  if k.isSpecial then (if s.isEmpty then .error .emptyHost else Host.parse s) else Host.parseBare s

/-- The authority at the beginning of a text, and the text behind it. -/
def readAuthority (k : Kind) (scheme : Text) (s : Text) : Except Error (Authority × Text) := do
  let (username, password, s) ← userinfo k s
  let (hostText, rest) := cutHost k false s
  let host ← hostOf k hostText
  let host? := if host = .name [] then none else some host
  match host?, rest with
  | none, ':' :: _ => .error .emptyHost
  | none, _ =>
      if username.isEmpty && password.isNone then .ok ({}, rest) else .error .emptyHost
  | some _, ':' :: t =>
      let (port, rest) ← port scheme t
      .ok (⟨username, password, host?, port⟩, rest)
  | some _, _ => .ok (⟨username, password, host?, none⟩, rest)

/-- The path behind an authority: a slash begins it, and special addresses have at least an empty
segment. -/
def pathAfterAuthority (k : Kind) (s : Text) : Path :=
  match s with
  | c :: t =>
      if k.isSlash c then pathFrom k [] t
      else if k.isSpecial || !(c == '?' || c == '#') then pathFrom k [] s
      else .segments []
  | [] => if k.isSpecial then .segments [[]] else .segments []

/-- The address whose authority begins a text. -/
def afterSlashes (k : Kind) (scheme : Text) (s : Text) : Except Error Url := do
  let (a, rest) ← readAuthority k scheme s
  .ok (finish k ⟨scheme, some a, pathAfterAuthority k rest, none, none⟩ rest)

/-! ### Addresses relative to a base -/

/-- A base with the fragment of a text. -/
def withFragment (base : Url) (s : Text) : Url := { base with fragment := fragment? s }

/-- The address of a text without a scheme, relative to a base that is no file. -/
def relative (k : Kind) (base : Url) (s : Text) : Except Error Url :=
  match s with
  | [] => .ok { base with fragment := none }
  | '?' :: _ => .ok (finish k base s)
  | '#' :: _ => .ok (withFragment base s)
  | c :: t =>
      if isSlash c then
        if t.head?.any isSlash then
          let rest := match s with
            | '/' :: '/' :: r => r
            | _ => s.dropWhile isSlash
          afterSlashes k base.scheme rest
        else .ok (finish k { base with path := pathFrom k [] t } t)
      else .ok (finish k { base with path := pathFrom k (above k base.segments) s } s)

/-! ### Files -/

/-- The scheme of files. -/
def fileScheme : Text := "file".toList

/-- A file address with a host and the path that goes on with a text. -/
def fileWith (host : Option Host) (segs : List Text) (s : Text) : Url :=
  finish .file ⟨fileScheme, some { host := host }, pathFrom .file segs s, none, none⟩ s

/-- Whether a text is a drive letter, with a colon or a bar. -/
def isDriveText : Text → Bool
  | [c, d] => c.isAlpha && (d == ':' || d == '|')
  | _ => false

/-- Whether a text begins with a drive letter as a segment. -/
def startsWithDrive (s : Text) : Bool :=
  isDriveText (s.take 2) && (s.drop 2).head?.all fun c => c == '?' || c == '#' || isSlash c

/-- A file address without its host, if its path begins with a drive letter. -/
def dropHostAtDrive (u : Url) : Url :=
  if u.segments.head?.any isDrive then { u with authority := some {} } else u

/-- The file address whose host begins a text. -/
def fileAfterSlashes (s : Text) : Except Error Url :=
  let ends (c : Char) : Bool := c == '?' || c == '#' || isSlash c
  let host := s.takeWhile fun c => !ends c
  let rest := s.dropWhile fun c => !ends c
  if isDriveText host || host.isEmpty then .ok (fileWith none [] (if host.isEmpty then rest else s))
  else do
    let h ← Host.parse host
    if h = .name "localhost".toList then .ok (fileWith none [] rest)
    else
      .ok (dropHostAtDrive
        (finish .file
          ⟨fileScheme, some { host := some h }, pathAfterAuthority .file rest, none, none⟩ rest))

/-- The file address of a text behind its scheme, or relative to a file. -/
def fileFrom (base : Option Url) (s : Text) : Except Error Url :=
  match s, base with
  | c :: t, _ =>
      if isSlash c then
        if t.head?.any isSlash then fileAfterSlashes (t.drop 1)
        else
          match base with
          | none => .ok (fileWith none [] t)
          | some b =>
              if startsWithDrive t then .ok (fileWith none [] t)
              else if b.segments.head?.any isDrive then .ok (fileWith none (b.segments.take 1) t)
              else .ok (fileWith b.host? [] t)
      else
        match base with
        | none => .ok (fileWith none [] s)
        | some b =>
            if c == '?' then .ok (finish .file b s)
            else if c == '#' then .ok (withFragment b s)
            else if startsWithDrive s then .ok (fileWith none [] s)
            else .ok (fileWith b.host? (above .file b.segments) s)
  | [], none => .ok (fileWith none [] [])
  | [], some b => .ok { b with fragment := none }

/-! ### All addresses -/

/-- The address of a text behind its scheme. -/
def withScheme (base : Option Url) (scheme s : Text) : Except Error Url :=
  match kindOf scheme with
  | .file => fileFrom (base.filter fun b => b.scheme = fileScheme) s
  | .special =>
      let sameScheme := base.filter fun b => b.scheme = scheme
      match sameScheme, (s.takeWhile isSlash).length with
      | some b, 0 | some b, 1 => relative .special b s
      | _, _ => afterSlashes .special scheme (s.dropWhile isSlash)
  | .other =>
      match s with
      | '/' :: '/' :: t => afterSlashes .other scheme t
      | '/' :: t => .ok (finish .other ⟨scheme, none, pathFrom .other [] t, none, none⟩ t)
      | _ =>
          let path := Path.bare (Percent.encode Percent.inControls (beforeQuery s))
          .ok (finish .other ⟨scheme, none, path, none, none⟩ s)

/-- The address of a text, perhaps relative to a base. -/
def resolve (base : Option Url) (s : Text) : Except Error Url :=
  let s := clean s
  match scheme? s, base with
  | some (scheme, rest), _ => withScheme base scheme rest
  | none, none => .error .noBase
  | none, some b =>
      if s.head? = some '#' then .ok (withFragment b s)
      else if b.isBare then .error .bareBase
      else
        match kindOf b.scheme with
        | .file => fileFrom (some b) s
        | k => relative k b s

/-- **The address of a text.** -/
def parse (s : Text) : Except Error Url := resolve none s

/-- **The address of a text relative to a base.** -/
def join (base : Url) (s : Text) : Except Error Url := resolve (some base) s

/-! ### Single segments -/

/-- The segments of a path with one more at the end; an empty path or one with an empty segment only
has just the new one. -/
def addSegment (segs : List Text) (s : Text) : List Text :=
  let front := if segs = [[]] then [] else segs
  if s = ['.', '.'] then front.dropLast ++ [[]]
  else if s = ['.'] then front ++ [[]]
  else front ++ [s]

/-- **An address of a special scheme with one more segment.**  The segments `.` and `..` are not
added; of others, tabs and line ends are dropped and all that has a meaning in a path is encoded. -/
def pushSegment (u : Url) (s : Text) : Url :=
  if s = ['.'] ∨ s = ['.', '.'] then u
  else
    let s := Percent.encode Percent.inPathSegment (s.filter fun c => !isDropped c)
    { u with path := .segments (addSegment u.segments s) }

end Url

end Softcode
