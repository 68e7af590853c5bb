/-
**Whole words.**

A word boundary lies between a word character and anything else, the ends of a text included.  A
name occurs as a whole word where it stands between two word boundaries.  This module replaces the
whole-word occurrences of given names, from left to right and without looking at the replacements
again; where several names fit at one place, the one that comes first in the list is taken.

Main definitions:

* `Softcode.Word.boundary` — whether two neighbours have a word boundary between them;
* `Softcode.Word.matchAt?` — the name that occurs at a place as a whole word;
* `Softcode.Word.replace` — the replacement of all occurrences;
* `Softcode.Word.longestFirst` — names in the order in which they are tried.
-/

import Softcode.Text.Category

set_option autoImplicit false

namespace Softcode

namespace Word

/-- Whether there is a word character on this side. -/
def isWordSide (c : Option Char) : Bool := c.any isWordClass

/-- Whether there is a word boundary between two neighbours. -/
def boundary (before after : Option Char) : Bool := isWordSide before != isWordSide after

/-- The first of the names that occurs as a whole word at the front of `s`. -/
def matchAt? (names : List Text) (before : Option Char) (s : Text) : Option Text :=
  if boundary before s.head? then
    names.find? fun name =>
      match Text.dropPrefix? name s with
      | none => false
      | some rest => boundary (name.getLast?.or before) rest.head?
  else none

/-- The text `s` with every whole-word occurrence of one of the names replaced.  Here `before` is
the text read so far, reversed, and the next `skip` characters belong to an occurrence that is
already replaced.  A replacement may depend on the text before the occurrence. -/
def replaceFrom (names : List Text) (new : Text → Text → Text) : Nat → Text → Text → Text
  | _, _, [] => []
  | skip + 1, before, c :: s => replaceFrom names new skip (c :: before) s
  | 0, before, c :: s =>
      match matchAt? names before.head? (c :: s) with
      | some name => new before name ++ replaceFrom names new (name.length - 1) (c :: before) s
      | none => c :: replaceFrom names new 0 (c :: before) s

/-- The text with every whole-word occurrence of one of the names replaced; `new before name` takes
the place of `name`, where `before` is the text before the occurrence, reversed. -/
def replace (names : List Text) (new : Text → Text → Text) (s : Text) : Text :=
  replaceFrom names new 0 [] s

/-! ### The order of names -/

/-- A longer name, in bytes, comes first; names of one length are in the order of their code
points. -/
def comesBefore (a b : Text) : Bool :=
  Text.byteLength b < Text.byteLength a ||
    (Text.byteLength a == Text.byteLength b && Text.le a b)

/-- A name put in its place among names that are in order, unless it is there. -/
def insertName (a : Text) : List Text → List Text
  | [] => [a]
  | b :: names =>
      if a = b then b :: names
      else if comesBefore a b then a :: b :: names
      else b :: insertName a names

/-- The names, each once, in the order in which they are tried. -/
def longestFirst (names : List Text) : List Text := names.foldr insertName []

end Word

end Softcode
