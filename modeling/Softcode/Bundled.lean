/-
**Bundled modules.**

Three modules with helpers come with the compiler.  They are found under the names `std/colors`,
`std/lists` and `std/strings`.

Main definitions:

* `Softcode.Bundled.modules` — the modules with their texts;
* `Softcode.Bundled.source?` — the text of a module.
-/

import Softcode.Text.Basic

set_option autoImplicit false

namespace Softcode

namespace Bundled

/-- Helpers for coloured text. -/
def colors : String :=
  "## Standard color helpers.\n" ++
  "## Import with: #import \"std/colors\" as CLR\n" ++
  "#const ANSI_RESET = %cn\n" ++
  "\n" ++
  "&FN_HILITE me = [ansi(h,%0)]\n" ++
  "&FN_ERROR me = [ansi(hr,ERROR:)] %0\n" ++
  "&FN_WARN me = [ansi(hy,WARNING:)] %0\n" ++
  "&FN_OK me = [ansi(hg,OK:)] %0\n" ++
  "&FN_HEADER me =\n" ++
  "  [center(\n" ++
  "    [ansi(hb,<<)] [ansi(hw,%0)] [ansi(hb,>>)],\n" ++
  "    78, [ansi(b,-)]\n" ++
  "  )]\n"

/-- Helpers for lists. -/
def lists : String :=
  "## List utilities.\n" ++
  "&FN_JOIN me = [iter(%0,##,%b,%1)]\n" ++
  "&FN_UNIQUE me = [setunion(%0,%0)]\n" ++
  "&FN_COUNT me = [words(%0)]\n" ++
  "&FN_LAST me = [last(%0)]\n"

/-- Helpers for strings. -/
def strings : String :=
  "## String utilities.\n" ++
  "&FN_TITLECASE me = [iter(lcstr(%0),capstr(##))]\n" ++
  "&FN_TRUNCATE me =\n" ++
  "  [if(\n" ++
  "    gt(strlen(%0),%1),\n" ++
  "    [left(%0,sub(%1,3))]...,\n" ++
  "    %0\n" ++
  "  )]\n" ++
  "&FN_PAD me = [ljust(%0,%1,%2)]\n" ++
  "&FN_WRAP me = [wrap(%0,default(%1,78))]\n"

/-- The modules with their texts, in the order of their names. -/
def modules : List (Text × Text) := [
  ("colors".toList, colors.toList),
  ("lists".toList, lists.toList),
  ("strings".toList, strings.toList)]

/-- The names of the modules. -/
def names : List Text := modules.map (·.1)

/-- **The text of a module.** -/
def source? (name : Text) : Option Text := modules.lookup name

end Bundled

end Softcode
