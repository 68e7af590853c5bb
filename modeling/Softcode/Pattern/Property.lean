/-
**Unicode properties in patterns.**

A property is asked for by its name, by the name of a general category, or by a name and a value.
Names are compared without regard to case, blanks, hyphens and underscores, and an `is` in front of
a name is ignored.

Only some properties are known: the general categories, and of those that hold or do not hold of a
character the ones about letters, case, blanks, join controls and hexadecimal digits.  Scripts,
ages, break properties and most of those that hold or do not hold are refused as unknown, although
they exist.

Main definitions:

* `Softcode.Pattern.normalName` — a name in the form in which names are compared;
* `Softcode.Pattern.categoryNamed?` — the general categories and their groups by name;
* `Softcode.Pattern.PropertyQuery.find?` — the class that a query asks for.
-/

import Softcode.Pattern.Ast

set_option autoImplicit false

namespace Softcode

namespace Pattern

/-- A name in lower case, without blanks, hyphens and underscores and without a leading `is`. -/
def normalName (name : Text) : String :=
  let hasIs := Text.sameLetters (name.take 2) ['i', 's']
  let tail := if hasIs then name.drop 2 else name
  let plain := (tail.filter fun c =>
    !(c == ' ' || c == '_' || c == '-') && c.toNat < 128).map Char.toLower
  -- the abbreviation `isc` stands for itself
  if hasIs && plain == ['c'] then "isc" else String.ofList plain

/-- The general categories that a name stands for, alone or as a group. -/
def categoryNamed? (name : String) : Option (List Category) :=
  match name with
  | "lu" | "uppercaseletter" => some [.lu]
  | "ll" | "lowercaseletter" => some [.ll]
  | "lt" | "titlecaseletter" => some [.lt]
  | "lm" | "modifierletter" => some [.lm]
  | "lo" | "otherletter" => some [.lo]
  | "lc" | "casedletter" => some [.lu, .ll, .lt]
  | "l" | "letter" => some [.lu, .ll, .lt, .lm, .lo]
  | "mn" | "nonspacingmark" => some [.mn]
  | "mc" | "spacingmark" => some [.mc]
  | "me" | "enclosingmark" => some [.me]
  | "m" | "mark" | "combiningmark" => some [.mn, .mc, .me]
  | "nd" | "decimalnumber" | "digit" => some [.nd]
  | "nl" | "letternumber" => some [.nl]
  | "no" | "othernumber" => some [.no]
  | "n" | "number" => some [.nd, .nl, .no]
  | "pc" | "connectorpunctuation" => some [.pc]
  | "pd" | "dashpunctuation" => some [.pd]
  | "ps" | "openpunctuation" => some [.ps]
  | "pe" | "closepunctuation" => some [.pe]
  | "pi" | "initialpunctuation" => some [.pi]
  | "pf" | "finalpunctuation" => some [.pf]
  | "po" | "otherpunctuation" => some [.po]
  | "p" | "punctuation" | "punct" => some [.pc, .pd, .ps, .pe, .pi, .pf, .po]
  | "sm" | "mathsymbol" => some [.sm]
  | "sc" | "currencysymbol" => some [.sc]
  | "sk" | "modifiersymbol" => some [.sk]
  | "so" | "othersymbol" => some [.so]
  | "s" | "symbol" => some [.sm, .sc, .sk, .so]
  | "zs" | "spaceseparator" => some [.zs]
  | "zl" | "lineseparator" => some [.zl]
  | "zp" | "paragraphseparator" => some [.zp]
  | "z" | "separator" => some [.zs, .zl, .zp]
  | "cc" | "control" | "cntrl" => some [.cc]
  | "cf" | "format" => some [.cf]
  | "cs" | "surrogate" => some [.cs]
  | "co" | "privateuse" => some [.co]
  | "cn" | "unassigned" => some [.cn]
  | "c" | "other" => some [.cc, .cf, .cs, .co, .cn]
  | _ => none

/-- The class of a general category, or of one of the three sets that count as categories. -/
def categoryClass? (name : String) : Option CharClass :=
  match name with
  | "any" => some .any
  | "ascii" => some (.range '\x00' '\x7f')
  | "assigned" => some (.compl (.categories [.cn]))
  | _ => (categoryNamed? name).map .categories

/-- The properties that hold or do not hold of a character. -/
def binaryClass? (name : String) : Option CharClass :=
  match name with
  | "alphabetic" | "alpha" => some .alphabetic
  | "lowercase" | "lower" => some .lowercase
  | "uppercase" | "upper" => some .uppercase
  | "whitespace" | "wspace" | "space" => some .blank
  | "joincontrol" | "joinc" => some (.range '‌' '‍')
  | "asciihexdigit" | "ahex" => CharClass.posix? "xdigit"
  | _ => none

/-- The class that a query asks for. -/
def PropertyQuery.find? : PropertyQuery → Except Fault CharClass
  | .named name =>
      match (binaryClass? (normalName name)).or (categoryClass? (normalName name)) with
      | some a => .ok a
      | none => .error .propertyNotFound
  | .valued name value =>
      match normalName name with
      | "generalcategory" | "gc" =>
          match categoryClass? (normalName value) with
          | some a => .ok a
          | none => .error .propertyValueNotFound
      | "script" | "sc" | "scriptextensions" | "scx" | "age" => .error .propertyValueNotFound
      | _ => .error .propertyNotFound

end Pattern

end Softcode
