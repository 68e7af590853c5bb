/-
**Addresses.**

An address has a scheme, perhaps an authority, which is a host with a user and a port, a path, and
perhaps a query and a fragment.  The path is a list of segments, or a bare text in addresses such as
`mailto:` ones, to which nothing is relative.

Main definitions:

* `Softcode.Url`, `Softcode.Url.Authority`, `Softcode.Url.Path` — addresses and their parts;
* `Softcode.Url.render` — **the writing of an address**;
* `Softcode.Url.describe` — an address with all its parts named;
* `Softcode.Url.filePath?` — the file that an address names.
-/

import Softcode.Text.Quoted
import Softcode.Url.Host

set_option autoImplicit false

namespace Softcode

namespace Url

/-- Who is addressed: a user, perhaps with a password, at a host, perhaps with a port.  Without a
host the authority is empty. -/
structure Authority where
  username : Text := []
  password : Option Text := none
  host : Option Host := none
  port : Option Nat := none
  deriving DecidableEq

/-- The path of an address: segments, or a bare text. -/
inductive Path where
  | segments (segs : List Text)
  | bare (text : Text)
  deriving DecidableEq

end Url

/-- An address. -/
structure Url where
  scheme : Text
  authority : Option Url.Authority
  path : Url.Path
  query : Option Text := none
  fragment : Option Text := none
  deriving DecidableEq

namespace Url

/-- The writing of the user and the password. -/
def Authority.userinfo (a : Authority) : Text :=
  let password := match a.password with
    | none => []
    | some p => ':' :: p
  if a.username.isEmpty && a.password.isNone then [] else a.username ++ password ++ ['@']

/-- The writing of an authority. -/
def Authority.render (a : Authority) : Text :=
  let host := match a.host with
    | none => []
    | some h => h.render
  let port := match a.port with
    | none => []
    | some n => ':' :: Text.ofNat n
  a.userinfo ++ host ++ port

/-- The writing of a path. -/
def Path.render : Path → Text
  | .segments segs => segs.flatMap ('/' :: ·)
  | .bare text => text

/-- The host of an address. -/
def host? (u : Url) : Option Host := u.authority.bind (·.host)

/-- Whether nothing is relative to an address. -/
def isBare (u : Url) : Bool :=
  match u.path with
  | .bare _ => true
  | .segments _ => false

/-- The segments of the path. -/
def segments (u : Url) : List Text :=
  match u.path with
  | .bare _ => []
  | .segments segs => segs

/-- What stands between the colon and the path.  Without an authority a path that begins with an
empty segment is set off by a dot, since two slashes would begin an authority. -/
def beforePath (u : Url) : Text :=
  match u.authority, u.path with
  | some a, _ => ['/', '/'] ++ a.render
  | none, .segments ([] :: _ :: _) => ['/', '.']
  | none, _ => []

/-- **The writing of an address.** -/
def render (u : Url) : Text :=
  let query := match u.query with
    | none => []
    | some q => '?' :: q
  let fragment := match u.fragment with
    | none => []
    | some f => '#' :: f
  u.scheme ++ [':'] ++ u.beforePath ++ u.path.render ++ query ++ fragment

/-! ### Descriptions -/

/-- An optional part in words. -/
def describeOption {α : Type} (f : α → Text) : Option α → Text
  | none => "None".toList
  | some a => "Some(".toList ++ f a ++ [')']

/-- The pieces of an address, where one that stands for four bytes is written so. -/
def describeIpv6 : List Nat → Text
  | [0, 0, 0, 0, 0, 0xffff, a, b] => "::ffff:".toList ++ Host.renderIpv4 (65536 * a + b)
  | pieces => Host.renderIpv6 pieces

/-- A host in words. -/
def describeHost : Host → Text
  | .name d => "Domain(".toList ++ quoted d ++ [')']
  | .ipv4 a => "Ipv4(".toList ++ Host.renderIpv4 a ++ [')']
  | .ipv6 pieces => "Ipv6(".toList ++ describeIpv6 pieces ++ [')']

/-- An address with all its parts named. -/
def describe (u : Url) : Text :=
  let a := u.authority.getD {}
  "Url \x7b scheme: ".toList ++ quoted u.scheme ++
    ", cannot_be_a_base: ".toList ++ (if u.isBare then "true" else "false").toList ++
    ", username: ".toList ++ quoted a.username ++
    ", password: ".toList ++ describeOption quoted a.password ++
    ", host: ".toList ++ describeOption describeHost a.host ++
    ", port: ".toList ++ describeOption Text.ofNat a.port ++
    ", path: ".toList ++ quoted u.path.render ++
    ", query: ".toList ++ describeOption quoted u.query ++
    ", fragment: ".toList ++ describeOption quoted u.fragment ++ " \x7d".toList

/-! ### Files -/

/-- A segment that is a drive letter: a letter and a colon. -/
def isDrive : Text → Bool
  | [c, ':'] => c.isAlpha
  | _ => false

/-- A drive letter at the end of a path gets a slash. -/
def closeDrive (path : Bytes) : Bytes :=
  match path.reverse with
  | b :: a :: _ :: _ =>
      let colon := b == ':'.toNat.toUInt8 || b == '|'.toNat.toUInt8
      if colon && (Char.ofNat a.toNat).isAlpha then path ++ ['/'.toNat.toUInt8] else path
  | _ => path

/-- The bytes of the path of the file that an address names: it has segments and no host. -/
def filePath? (u : Url) : Option Bytes :=
  match u.path, u.host? with
  | .segments segs, none =>
      let path := segs.flatMap fun s => '/'.toNat.toUInt8 :: Percent.decode s
      some (if path.isEmpty then ['/'.toNat.toUInt8] else closeDrive path)
  | _, _ => none

end Url

end Softcode
