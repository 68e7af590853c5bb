/-
**Hosts of addresses.**

A host is a name, an address of four bytes or one of eight pieces of sixteen bits.  In special
schemes a name is brought to its ASCII form, and a name whose last label is a number is read as an
address of four bytes, whose parts may be decimal, octal or hexadecimal and whose last part fills
what the others leave.  In other schemes a name is kept as it is.

Main definitions:

* `Softcode.Host`, `Softcode.Host.render` — hosts and their writing;
* `Softcode.Url.Error`, `Softcode.Url.Error.message` — what may be wrong with an address;
* `Softcode.Host.domain` — the ASCII form of a name;
* `Softcode.Host.ipv4?`, `Softcode.Host.ipv6?` — numeric addresses;
* `Softcode.Host.parse`, `Softcode.Host.parseBare` — the host of special and of other schemes.
-/

import Softcode.Text.CaseFold
import Softcode.Text.Category
import Softcode.Url.Percent
import Softcode.Url.Punycode

set_option autoImplicit false

namespace Softcode

/-- What may be wrong with an address. -/
inductive Url.Error where
  | emptyHost
  | invalidDomain
  | invalidPort
  | invalidIpv4
  | invalidIpv6
  | invalidHostCharacter
  | noBase
  | bareBase
  deriving DecidableEq

/-- An error in words. -/
def Url.Error.message : Url.Error → String
  | emptyHost => "empty host"
  | invalidDomain => "invalid international domain name"
  | invalidPort => "invalid port number"
  | invalidIpv4 => "invalid IPv4 address"
  | invalidIpv6 => "invalid IPv6 address"
  | invalidHostCharacter => "invalid domain character"
  | noBase => "relative URL without a base"
  | bareBase => "relative URL with a cannot-be-a-base base"

/-- A host: a name, an address of four bytes as one number, or an address of eight pieces. -/
inductive Host where
  | name (domain : Text)
  | ipv4 (address : Nat)
  | ipv6 (pieces : List Nat)
  deriving DecidableEq

namespace Host

/-! ### Writing -/

/-- The four bytes of an address, with points between. -/
def renderIpv4 (a : Nat) : Text :=
  Text.join ['.'] ([a / 0x1000000, a / 0x10000 % 256, a / 0x100 % 256, a % 256].map Text.ofNat)

/-- A piece in lower-case hexadecimal digits. -/
def renderPiece (n : Nat) : Text := Nat.toDigits 16 n

/-- The number of zeros at the beginning of a list of pieces. -/
def leadingZeros (pieces : List Nat) : Nat := (pieces.takeWhile (· == 0)).length

/-- The length of the longest run of zeros. -/
def longestRun : List Nat → Nat
  | [] => 0
  | p :: ps => max (leadingZeros (p :: ps)) (longestRun ps)

/-- The pieces before the first run of `n` zeros, and those behind it. -/
def cutRun (n : Nat) : List Nat → List Nat × List Nat
  | [] => ([], [])
  | p :: ps =>
      if n ≤ leadingZeros (p :: ps) then ([], (p :: ps).drop n)
      else let (a, b) := cutRun n ps; (p :: a, b)

/-- The pieces with colons between; the first longest run of at least two zeros is left out. -/
def renderIpv6 (pieces : List Nat) : Text :=
  let written (l : List Nat) : Text := Text.join [':'] (l.map renderPiece)
  let n := longestRun pieces
  if n < 2 then written pieces
  else let (a, b) := cutRun n pieces; written a ++ [':', ':'] ++ written b

/-- A host as it stands in an address. -/
def render : Host → Text
  | name d => d
  | ipv4 a => renderIpv4 a
  | ipv6 pieces => ['['] ++ renderIpv6 pieces ++ [']']

/-! ### Names -/

/-- Characters that no name has. -/
def isForbidden (c : Char) : Bool :=
  c.toNat ≤ 0x20 || c.toNat == 0x7F || "%#/:<>?@[\\]^|".toList.contains c

/-- Characters that are left out of names: the soft hyphen, zero-width marks and variation
selectors. -/
def isIgnored (c : Char) : Bool :=
  let n := c.toNat
  n == 0xAD || n == 0x200B || n == 0x2060 || n == 0x2064 || n == 0xFEFF || n == 0x34F ||
    (0x180B ≤ n && n ≤ 0x180D) || (0xFE00 ≤ n && n ≤ 0xFE0F)

/-- A character of a name in its usual form: without case and width, and with a point for the other
full stops. -/
def normalChar (c : Char) : Char :=
  let n := c.toNat
  if n == 0x3002 || n == 0xFF0E || n == 0xFF61 then '.'
  else if 0xFF01 ≤ n && n ≤ 0xFF5E then caseFold (Char.ofNat (n - 0xFEE0))
  else caseFold c

/-- Characters beyond ASCII that a label may have. -/
def isLabelChar (c : Char) : Bool :=
  match category c with
  | .cc | .cn | .co | .cs | .zs | .zl | .zp => false
  | _ => true

/-- A label beyond ASCII that is well formed: characters in their usual form, and no mark at the
beginning. -/
def isLabel (label : Text) : Bool :=
  label.all (fun c => isLabelChar c && normalChar c == c && !isIgnored c) &&
    !label.head?.any fun c => (category c).isMark

/-- How a label that is written in Punycode begins. -/
def asciiMark : Text := "xn--".toList

/-- The ASCII form of a label. -/
def label (l : Text) : Except Url.Error Text :=
  if l.all fun c => c.toNat < 0x80 then
    match Text.dropPrefix? asciiMark l with
    | none => .ok l
    | some written =>
        match Punycode.decode? written with
        | none => .error .invalidDomain
        | some decoded =>
            if decoded.all (fun c => c.toNat < 0x80) || !isLabel decoded then .error .invalidDomain
            else .ok l
  else if isLabel l then .ok (asciiMark ++ Punycode.encode l)
  else .error .invalidDomain

/-- **The ASCII form of a name.** -/
def domain (s : Text) : Except Url.Error Text := do
  let s := (s.filter fun c => !isIgnored c).map normalChar
  if s.any isForbidden then .error .invalidDomain
  else
    let labels ← (Text.splitOn '.' s).mapM label
    .ok (Text.join ['.'] labels)

/-! ### Addresses of four bytes -/

/-- The value of digits in a base, if they are all digits of it. -/
def digitsValue? (base : Nat) (s : Text) : Option Nat :=
  s.foldl (fun n c => do
    let n ← n
    let d ← Percent.hexValue? c
    if d < base then some (base * n + d) else none) (some 0)

/-- The value of a part of an address: hexadecimal behind `0x`, octal behind `0`, or decimal. -/
def partValue? : Text → Option Nat
  | [] => none
  | '0' :: 'x' :: s => digitsValue? 16 s
  | '0' :: 'X' :: s => digitsValue? 16 s
  | '0' :: c :: s => digitsValue? 8 (c :: s)
  | s => digitsValue? 10 s

/-- The parts of a name, without an empty one at the end. -/
def parts (s : Text) : List Text :=
  let ps := Text.splitOn '.' s
  if ps.getLast? = some [] then ps.dropLast else ps

/-- Whether the last part of a name is a number. -/
def endsInNumber (s : Text) : Bool :=
  match (parts s).getLast? with
  | none => false
  | some last => (!last.isEmpty && last.all Char.isDigit) || (partValue? last).isSome

/-- An address of up to four parts: all but the last are bytes, and the last one fills what is
left. -/
def ipv4? (s : Text) : Option Nat := do
  let numbers ← (parts s).mapM partValue?
  let last ← numbers.getLast?
  let front := numbers.dropLast
  if 3 < front.length || front.any (255 < ·) || Nat.pow 256 (4 - front.length) ≤ last then none
  else some (front.zipIdx.foldl (fun v (n, i) => v + n * Nat.pow 256 (3 - i)) last)

/-! ### Addresses of eight pieces -/

/-- A piece: one to four hexadecimal digits. -/
def piece? (s : Text) : Option Nat :=
  if s.isEmpty || 4 < s.length then none else digitsValue? 16 s

/-- A byte in decimal without needless zeros. -/
def byte? (s : Text) : Option Nat := do
  let n ← if s.isEmpty || (1 < s.length && s.head? == some '0') || 3 < s.length then none
    else digitsValue? 10 s
  if n < 256 then some n else none

/-- The pieces of the last group: one piece, or two written as an address of four bytes. -/
def lastGroup? (s : Text) : Option (List Nat) :=
  if '.' ∈ s then do
    match ← (Text.splitOn '.' s).mapM byte? with
    | [a, b, c, d] => some [256 * a + b, 256 * c + d]
    | _ => none
  else (piece? s).map ([·])

/-- The pieces of groups none of which is left out. -/
def groups? : List Text → Option (List Nat)
  | [] => some []
  | [g] => lastGroup? g
  | g :: gs => do
      let p ← piece? g
      let ps ← groups? gs
      some (p :: ps)

/-- The groups before a gap, which is an empty group, and those behind it. -/
def cutGap : List Text → Option (List Text × List Text)
  | [] => none
  | [] :: gs => some ([], gs)
  | g :: gs => (cutGap gs).map fun (a, b) => (g :: a, b)

/-- The groups behind a gap: none are left if one empty group is left. -/
def behindGap? : List Text → Option (List Text)
  | [] => none
  | [[]] => some []
  | gs => some gs

/-- The groups before and behind a gap; a gap at either end shows as two empty groups. -/
def gapGroups? (groups : List Text) : Option (List Text × List Text) :=
  match groups with
  | [] :: [] :: gs => (behindGap? gs).map fun b => ([], b)
  | [] :: _ => none
  | gs => (cutGap gs).bind fun (a, b) => (behindGap? b).map fun b => (a, b)

/-- An address of eight pieces; a gap stands for at least one zero. -/
def ipv6? (s : Text) : Option (List Nat) :=
  let groups := Text.splitOn ':' s
  if [] ∈ groups then do
    let (a, b) ← gapGroups? groups
    let front ← a.mapM piece?
    let back ← groups? b
    let n := front.length + back.length
    if n < 8 then some (front ++ List.replicate (8 - n) 0 ++ back) else none
  else do
    let ps ← groups? groups
    if ps.length = 8 then some ps else none

/-! ### Hosts -/

/-- The address of eight pieces in brackets, if the text begins with one. -/
def bracketed (s : Text) (other : Except Url.Error Host) : Except Url.Error Host :=
  match s with
  | '[' :: t =>
      match (Text.dropSuffix? [']'] t).bind ipv6? with
      | some pieces => .ok (.ipv6 pieces)
      | none => .error .invalidIpv6
  | _ => other

/-- **The host of a special scheme.** -/
def parse (s : Text) : Except Url.Error Host :=
  bracketed s <|
    match Utf8.decode (Percent.decode s) with
    | .error _ => .error .invalidDomain
    | .ok decoded => do
        let d ← domain decoded
        if d.isEmpty then .error .emptyHost
        else if endsInNumber d then
          match ipv4? d with
          | some a => .ok (.ipv4 a)
          | none => .error .invalidIpv4
        else .ok (.name d)

/-- Characters that no host of another scheme has. -/
def isForbiddenBare (c : Char) : Bool := "\x00\t\n\r #/:<>?@[\\]^|".toList.contains c

/-- **The host of any other scheme.** -/
def parseBare (s : Text) : Except Url.Error Host :=
  bracketed s <|
    if s.any isForbiddenBare then .error .invalidHostCharacter
    else .ok (.name (Percent.encode Percent.inControls s))

end Host

end Softcode
