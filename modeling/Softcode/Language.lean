/-
**The language and its formats.**

Main definitions:

* `Softcode.languageId` — the language that is compiled;
* `Softcode.rawContentHost`, `Softcode.defaultBranch` — where repositories are read from;
* `Softcode.toolReportFormat`, `Softcode.manifestFormat`, `Softcode.manifestName` — the formats of
  the tool's report and of project files;
* `Softcode.maxSourceBytes` — the size up to which sources are loaded.
-/

import Softcode.Text.Basic

set_option autoImplicit false

namespace Softcode

/-- The language that is compiled, with its version. -/
def languageId : String := "mushcode-mform@0.1.0"

/-- The name extension of sources. -/
def defaultSourceExt : Text := "mush".toList

/-- The name of the host from which the files of repositories are read. -/
def rawContentName : Text := "raw.githubusercontent.com".toList

/-- The address of that host. -/
def rawContentHost : Text := "https://".toList ++ rawContentName

/-- The branch that is read if none is given. -/
def defaultBranch : Text := "main".toList

/-- The version of the format of the tool's report. -/
def toolReportFormat : String := "mformc.report@0.1.0"

/-- The version of the format of project files. -/
def manifestFormat : Text := "mform.project@0.1.0".toList

/-- The name of project files. -/
def manifestName : Text := "mform.json".toList

/-- The size in bytes up to which sources are loaded, unless it is set otherwise. -/
def defaultMaxSourceBytes : Nat := 8 * 1024 * 1024

/-- The value of a list of decimal digits, behind the digits with value `n`. -/
def decimalFrom : Nat → Text → Option Nat
  | n, [] => some n
  | n, c :: s => if c.isDigit then decimalFrom (10 * n + (c.toNat - '0'.toNat)) s else none

/-- The number that a text writes in decimal, with or without a plus sign; it has to fit in a
machine word. -/
def size? (s : Text) : Option Nat := do
  let digits := match s with
    | '+' :: t => t
    | t => t
  if digits.isEmpty then none
  else
    let n ← decimalFrom 0 digits
    if n < 0x10000000000000000 then some n else none

/-- **The size in bytes up to which sources are loaded**: the setting, if it is a positive
number. -/
def maxSourceBytes (setting : Option Text) : Nat :=
  match setting.bind size? with
  | some n => if 0 < n then n else defaultMaxSourceBytes
  | none => defaultMaxSourceBytes

end Softcode
