/-
**Attribute assignments and how long ones are split.**

A command `&ATTR OBJ=VALUE`, perhaps with `@wait DELAY=` in front, sets an attribute of an object.
A command that is longer than the limit is split into a first assignment and continuations that
append to the attribute: each continuation waits as long as the command did and sets the attribute
to its own value so far, `[get(OBJ/ATTR)]`, followed by the next part of the value.  A value is cut
as late as the limit allows, and only where all brackets, parentheses and braces are closed; a
character behind a backslash is not looked at.  A command that cannot be split is kept in one piece
and reported.

Main definitions:

* `Softcode.Assignment`, `Softcode.Assignment.parse?` — assignments, and how they are read;
* `Softcode.safeSplit?` — the last place at which a value can be cut;
* `Softcode.Assignment.pieces` — the commands that an assignment is split into;
* `Softcode.splitCommand` — a line, split if it is too long.
-/

import Softcode.Diagnostic
import Softcode.Scan

set_option autoImplicit false

namespace Softcode

/-! ### Assignments -/

/-- An assignment: the text up to the value, its parts, and the value. -/
structure Assignment where
  head : Text
  delay : Text
  attr : Text
  obj : Text
  value : Text
  deriving DecidableEq

namespace Assignment

/-- The command that waits. -/
def waitKeyword : Text := ['@', 'w', 'a', 'i', 't']

/-- A character of an attribute or object name: anything but a blank and an equals sign. -/
def isNamePart (c : Char) : Bool := !(isBlank c || c == '=')

/-- The delay and what follows it, where `0` stands for no delay.  If the text begins with `@wait`,
a delay has to follow, without blanks in it. -/
def readDelay? (s : Text) : Option (Text × Text) :=
  match Text.dropPrefixCi? waitKeyword s with
  | none => some (['0'], s)
  | some after =>
      if !after.head?.any isBlank then none
      else
        match Text.cut? '=' (Text.trimStart after) with
        | none => none
        | some (delay, rest) =>
            if delay.isEmpty || delay.any isBlank then none else some (delay, rest)

/-- The attribute, the object and the value behind the delay. -/
def readTarget? (s : Text) : Option (Text × Text × Text) :=
  match s with
  | '&' :: s₁ =>
      let attr := s₁.takeWhile isNamePart
      let s₂ := s₁.dropWhile isNamePart
      if attr.isEmpty || !s₂.head?.any isBlank then none
      else
        let s₃ := Text.trimStart s₂
        let obj := s₃.takeWhile isNamePart
        match Text.trimStart (s₃.dropWhile isNamePart) with
        | '=' :: value => if obj.isEmpty then none else some (attr, obj, value)
        | _ => none
  | _ => none

/-- The assignment that a command is, if it is one. -/
def parse? (s : Text) : Option Assignment := do
  let (delay, rest) ← readDelay? s
  let (attr, obj, value) ← readTarget? rest
  some ⟨s.take (s.length - value.length), delay, attr, obj, value⟩

/-- The beginning of a command that appends to the attribute. -/
def continuationHead (a : Assignment) : Text :=
  "@wait ".toList ++ a.delay ++ ['=', '&'] ++ a.attr ++ [' '] ++ a.obj ++ ['=']

/-- The value of the attribute so far. -/
def wrapper (a : Assignment) : Text :=
  "[get(".toList ++ a.obj ++ ['/'] ++ a.attr ++ [')', ']']

end Assignment

/-! ### Where a value can be cut -/

/-- The change of depth at a character. -/
def nesting (c : Char) : Int :=
  if c = '[' ∨ c = '(' ∨ c = '\x7b' then 1
  else if c = ']' ∨ c = ')' ∨ c = '\x7d' then -1
  else 0

/-- The last place up to `max` at which the depth is zero, where `depth` and `count` are the depth
and the number of characters so far and `best` the last such place among them. -/
def safeSplitFrom (max : Nat) : Int → Nat → Option Nat → Text → Option Nat
  | _, _, best, [] => best
  | depth, count, best, '\\' :: _ :: s =>
      if max < count + 2 then best
      else safeSplitFrom max depth (count + 2) (if depth = 0 then some (count + 2) else best) s
  | depth, count, best, c :: s =>
      if max < count + 1 then best
      else
        safeSplitFrom max (depth + nesting c) (count + 1)
          (if depth + nesting c = 0 then some (count + 1) else best) s

/-- **The last place at which a value can be cut**, as a number of characters between one and
`max`. -/
def safeSplit? (value : Text) (max : Nat) : Option Nat := safeSplitFrom max 0 0 none value

theorem safeSplitFrom_le {max : Nat} {depth : Int} {count : Nat} {best : Option Nat} {s : Text}
    {n : Nat} (hbest : ∀ b, best = some b → b ≤ count)
    (h : safeSplitFrom max depth count best s = some n) : n ≤ count + s.length := by
  fun_induction safeSplitFrom max depth count best s with
  | case1 => exact Nat.le_trans (hbest n h) (Nat.le_add_right _ _)
  | case2 => exact Nat.le_trans (hbest n h) (Nat.le_add_right _ _)
  | case3 depth count best d s hmax ih =>
      have := ih (by split <;> simp_all; intro b hb; have := hbest b hb; omega) h
      simp only [List.length_cons]
      omega
  | case4 => exact Nat.le_trans (hbest n h) (Nat.le_add_right _ _)
  | case5 depth count best c s hesc hmax ih =>
      have := ih (by split <;> simp_all; intro b hb; have := hbest b hb; omega) h
      simp only [List.length_cons]
      omega

theorem safeSplit?_le_length {value : Text} {max n : Nat} (h : safeSplit? value max = some n) :
    n ≤ value.length := by
  have := safeSplitFrom_le (by simp) h
  simpa using this

/-- The last place at which a value can be cut, as a number of bytes. -/
def safeSplitOffset? (value : Text) (max : Nat) : Option Nat :=
  (safeSplit? value max).map fun n => Text.byteLength (value.take n)

/-! ### Splitting -/

/-- The least room for a value that makes splitting worthwhile. -/
def minSplitBudget : Nat := 100

/-- The place at which a command is cut behind `head`, which has to lie beyond `wrap`, the part of
the value that must not be cut. -/
def cutPlace? (limit : Nat) (head wrap rest : Text) : Option Nat :=
  if limit - head.length < minSplitBudget then none
  else (safeSplit? (wrap ++ rest) (limit - head.length)).filter fun n => wrap.length < n

theorem length_drop_cutPlace {limit n : Nat} {head wrap rest : Text}
    (h : cutPlace? limit head wrap rest = some n) :
    ((wrap ++ rest).drop n).length < rest.length := by
  unfold cutPlace? at h
  split at h
  · simp at h
  · obtain ⟨hsplit, hwrap⟩ := Option.filter_eq_some_iff.1 h
    have hle := safeSplit?_le_length hsplit
    have hlt : wrap.length < n := by simpa using hwrap
    simp only [List.length_append] at hle
    simp only [List.length_drop, List.length_append]
    omega

/-- Why a long command is kept in one piece. -/
inductive Unsplit where
  | notAssignment
  | noSplitPoint
  deriving DecidableEq

/-- The words for the reason. -/
def Unsplit.describe : Unsplit → String
  | notAssignment => "not an attribute assignment"
  | noSplitPoint => "no safe split point"

/-- The warning about a command that is kept in one piece. -/
def Unsplit.diagnostic (u : Unsplit) (total limit : Nat) (loc : Location) : Diagnostic :=
  .warn "MF-CMP-0001" .compress
    ("command is " ++ toString total ++ " characters, exceeds safe limit " ++ toString limit ++
      "; " ++ u.describe ++ ", emitted unsplit") loc

/-- The commands that an assignment is split into: the value behind `head` is `wrap ++ rest`, of
which `wrap` is not cut.  The length of the last command is given if it is still too long. -/
def Assignment.pieces (a : Assignment) (limit : Nat) (head wrap rest : Text) :
    List Text × Option Nat :=
  let total := head.length + wrap.length + rest.length
  if total ≤ limit then ([head ++ wrap ++ rest], none)
  else
    match _h : cutPlace? limit head wrap rest with
    | none => ([head ++ wrap ++ rest], some total)
    | some n =>
        let (more, tooLong) := a.pieces limit a.continuationHead a.wrapper ((wrap ++ rest).drop n)
        ((head ++ (wrap ++ rest).take n) :: more, tooLong)
termination_by rest.length
decreasing_by exact length_drop_cutPlace _h

/-- **A line, split if it is too long.**  Raw lines are left alone. -/
def splitCommand (limit : Nat) (l : Line) : Staged :=
  if l.text.length ≤ limit || isRawText l.text then .quiet [l]
  else
    match Assignment.parse? l.text with
    | none => ⟨[l], [Unsplit.notAssignment.diagnostic l.text.length limit l.location]⟩
    | some a =>
        let (texts, tooLong) := a.pieces limit a.head [] a.value
        ⟨texts.map l.withText,
          tooLong.toList.map fun total => Unsplit.noSplitPoint.diagnostic total limit l.location⟩

end Softcode
