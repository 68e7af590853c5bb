/-
**Where addresses are read from.**

Main definitions:

* `Softcode.Fetcher` — given pages, or the file tree;
* `Softcode.Fetcher.fetch` — **the text at an address**.
-/

import Softcode.FileTree
import Softcode.Url.Basic

set_option autoImplicit false

namespace Softcode

/-- Where addresses are read from: pages given by their addresses, or the file tree, in which
`file:` addresses are found. -/
inductive Fetcher where
  | pages (pages : List (Text × Text))
  | disk

namespace Fetcher

/-- The text of the file that an address names. -/
def readFile (tree : FileTree) (u : Url) : Except Text Text :=
  match u.filePath? with
  | none => .error ("file url could not be converted to a path: ".toList ++ u.describe)
  | some bytes =>
      let path := Utf8.decodeLossy bytes
      match tree.read path with
      | .error f => .error ("read ".toList ++ path ++ ": ".toList ++ f.message.toList)
      | .ok content =>
          match Utf8.decode content with
          | .ok text => .ok text
          | .error f =>
              .error ("source is not utf-8: ".toList ++ u.render ++ ": ".toList ++ f.message.toList)

/-- **The text at an address**, or why there is none. -/
def fetch (fetcher : Fetcher) (tree : FileTree) (u : Url) : Except Text Text :=
  match fetcher with
  | pages ps =>
      match ps.lookup u.render with
      | some text => .ok text
      | none => .error ("http GET ".toList ++ u.render ++ ": status code 404".toList)
  | disk =>
      if u.scheme = "file".toList then readFile tree u
      else if u.scheme = "http".toList ∨ u.scheme = "https".toList then
        .error ("http GET ".toList ++ u.render ++ ": no connection".toList)
      else
        .error ("unsupported url scheme ".toList ++ quoted u.scheme ++ " for ".toList ++ u.render)

end Fetcher

end Softcode
