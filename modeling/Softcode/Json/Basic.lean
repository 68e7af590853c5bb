/-
**JSON values.**

Main definitions:

* `Softcode.Json` — values;
* `Softcode.Json.render` — **a value as compact text**.
-/

import Softcode.Text.Quoted

set_option autoImplicit false

namespace Softcode

/-- A value.  A number is known only if it is a natural number that fits in a machine word, and a
string only if its bytes and escapes are a text: files may have others where nobody looks. -/
inductive Json where
  | null
  | bool (b : Bool)
  | number (size : Option Nat)
  | string (s : Option Text)
  | array (items : List Json)
  | object (fields : List (Option Text × Json))

namespace Json

/-- A string of a known text. -/
def text (s : Text) : Json := .string (some s)

/-- A field of a known name. -/
def field (name : String) (value : Json) : Option Text × Json := (some name.toList, value)

/-- A character inside a string. -/
def escape (c : Char) : Text :=
  if c = '"' then ['\\', '"']
  else if c = '\\' then ['\\', '\\']
  else if c = '\n' then ['\\', 'n']
  else if c = '\r' then ['\\', 'r']
  else if c = '\t' then ['\\', 't']
  else if c = '\x08' then ['\\', 'b']
  else if c = '\x0c' then ['\\', 'f']
  else if c.toNat < 0x20 then
    ['\\', 'u', '0', '0', if c.toNat < 0x10 then '0' else '1', Nat.digitChar (c.toNat % 16)]
  else [c]

/-- A string. -/
def quote (s : Text) : Text := ['"'] ++ s.flatMap escape ++ ['"']

mutual

/-- **A value as compact text.** -/
def render : Json → Text
  | null => "null".toList
  | bool b => if b then "true".toList else "false".toList
  | number n => Text.ofNat (n.getD 0)
  | string s => quote (s.getD [])
  | array items => ['['] ++ Text.join [','] (renderItems items) ++ [']']
  | object fields => ['\x7b'] ++ Text.join [','] (renderFields fields) ++ ['\x7d']

/-- The items of an array. -/
def renderItems : List Json → List Text
  | [] => []
  | j :: js => render j :: renderItems js

/-- The fields of an object. -/
def renderFields : List (Option Text × Json) → List Text
  | [] => []
  | (name, j) :: fs => (quote (name.getD []) ++ [':'] ++ render j) :: renderFields fs

end

end Json

end Softcode
