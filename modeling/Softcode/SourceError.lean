/-
**What may be wrong with sources.**

Main definitions:

* `Softcode.SourceError` — the ways in which a source cannot be loaded;
* `Softcode.SourceError.kind`, `Softcode.SourceError.message` — their kinds and wordings;
* `Softcode.SourceError.toError` — the error of the compilation.
-/

import Softcode.Bundled
import Softcode.CompileError
import Softcode.Url.Basic

set_option autoImplicit false

namespace Softcode

/-- The ways in which a source cannot be loaded. -/
inductive SourceError where
  | missingReference
  | malformedRepository (shorthand : Text)
  | malformedImport (line : Text)
  | invalidUrl (reference : Text) (e : Url.Error)
  | invalidRelativeUrl (reference : Text) (base : Url) (e : Url.Error)
  | fileNotFound (reference path : Text)
  | unreadable (path : Text) (reason : String)
  | unknownModule (id : Text)
  | notFetched (url : Url) (reason : Text)
  | tooLarge (id : Text) (bytes max : Nat)
  | circular (chain : List String)

namespace SourceError

/-- The kind of an error. -/
def kind : SourceError → CompileError.Kind
  | missingReference | malformedRepository _ | malformedImport _ | invalidUrl ..
  | invalidRelativeUrl .. => .malformed
  | fileNotFound .. | unreadable .. | unknownModule _ => .notFound
  | notFetched .. => .fetch
  | tooLarge .. => .budget
  | circular _ => .circular

/-- An error in words. -/
def message : SourceError → Text
  | missingReference => "directive is missing a reference".toList
  | malformedRepository shorthand =>
      "malformed VCS reference ".toList ++ quoted shorthand ++
        " (expected git:<user>/<repo>[@<branch>][/<path>])".toList
  | malformedImport line =>
      "malformed #import (expected #import \"<ref>\" as <alias>): ".toList ++ quoted line
  | invalidUrl reference e =>
      "invalid url ".toList ++ quoted reference ++ ": ".toList ++ e.message.toList
  | invalidRelativeUrl reference base e =>
      "invalid relative url ".toList ++ quoted reference ++ " against ".toList ++ base.render ++
        ": ".toList ++ e.message.toList
  | fileNotFound reference path =>
      "file not found: ".toList ++ quoted reference ++ " (searched: ".toList ++ path ++ [')']
  | unreadable path reason => "read ".toList ++ path ++ ": ".toList ++ reason.toList
  | unknownModule id =>
      "unknown standard library module: ".toList ++ quoted id ++ " (available: ".toList ++
        Text.join [',', ' '] Bundled.names ++ [')']
  | notFetched url reason => "fetch ".toList ++ url.render ++ ": ".toList ++ reason
  | tooLarge id bytes max =>
      "source too large: ".toList ++ id ++ " is ".toList ++ Text.ofNat bytes ++
        " bytes (max_source_bytes=".toList ++ Text.ofNat max ++ [')']
  | circular chain =>
      "circular dependency detected: ".toList ++
        Text.join " -> ".toList (chain.map String.toList)

/-- The error of the compilation. -/
def toError (e : SourceError) : CompileError :=
  { kind := e.kind, message := String.ofList e.message }

end SourceError

end Softcode
