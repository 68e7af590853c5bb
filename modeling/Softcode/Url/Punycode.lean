/-
**Punycode.**

Names of hosts are ASCII.  A label with other characters is written as its ASCII characters, a
hyphen and a list of insertions: the other characters in the order of their numbers, each as the
difference to the state before, in digits of base 36 whose thresholds adapt to the differences so
far.

Main definitions:

* `Softcode.Punycode.encode` — the writing of a label;
* `Softcode.Punycode.decode?` — the label of a writing.
-/

import Softcode.Text.Basic

set_option autoImplicit false

namespace Softcode

namespace Punycode

/-! ### Digits -/

/-- The digit of a number below 36: the letters first, then the decimal digits. -/
def digit (n : Nat) : Char :=
  if n < 26 then Char.ofNat ('a'.toNat + n) else Char.ofNat ('0'.toNat + (n - 26))

/-- The number of a digit. -/
def value? (c : Char) : Option Nat :=
  if 'a' ≤ c ∧ c ≤ 'z' then some (c.toNat - 'a'.toNat)
  else if 'A' ≤ c ∧ c ≤ 'Z' then some (c.toNat - 'A'.toNat)
  else if '0' ≤ c ∧ c ≤ '9' then some (c.toNat - '0'.toNat + 26)
  else none

/-- The threshold at the position `k`: a digit below it is the last one of its number. -/
def threshold (bias k : Nat) : Nat := max 1 (min 26 (k - bias))

/-- The bias for a difference that is scaled down to at most 455, where every step counts `k` up. -/
def scaled (delta k : Nat) : Nat :=
  if 455 < delta then scaled (delta / 35) (k + 36) else k + 36 * delta / (delta + 38)
termination_by delta
decreasing_by omega

/-- The bias behind a difference, when `count` characters are in place. -/
def adapt (delta count : Nat) (first : Bool) : Nat :=
  let halved := if first then delta / 700 else delta / 2
  scaled (halved + halved / count) 0

/-! ### Encoding -/

/-- The digits of a difference, from the position `k` on. -/
def digits (bias k delta : Nat) : Text :=
  let t := threshold bias k
  if delta < t then [digit delta]
  else digit (t + (delta - t) % (36 - t)) :: digits bias (k + 36) ((delta - t) / (36 - t))
termination_by delta
decreasing_by
  have h : 1 ≤ threshold bias k := Nat.le_max_left _ _
  have hle : (delta - threshold bias k) / (36 - threshold bias k) ≤ delta - threshold bias k :=
    Nat.div_le_self _ _
  omega

/-- The state of encoding: the digits so far, the difference that is open, the bias, the number of
characters in place and whether no insertion is written yet. -/
structure State where
  out : Text
  delta : Nat
  bias : Nat
  count : Nat
  first : Bool

/-- One character of the label, while the characters with the number `n` are inserted. -/
def State.pass (n : Nat) (s : State) (c : Char) : State :=
  if c.toNat < n then { s with delta := s.delta + 1 }
  else if c.toNat = n then
    ⟨s.out ++ digits s.bias 36 s.delta, 0, adapt s.delta (s.count + 1) s.first, s.count + 1, false⟩
  else s

/-- The insertions of the characters with the given numbers, in order, behind those below `n`. -/
def insertions (label : Text) : Nat → List Nat → State → State
  | _, [], s => s
  | n, m :: ms, s =>
      let s₁ := { s with delta := s.delta + (m - n) * (s.count + 1) }
      let s₂ := label.foldl (State.pass m) s₁
      insertions label (m + 1) ms { s₂ with delta := s₂.delta + 1 }

/-- A number put into a list in ascending order, unless it is there. -/
def insertNumber (n : Nat) : List Nat → List Nat
  | [] => [n]
  | m :: ms => if n < m then n :: m :: ms else if n = m then m :: ms else m :: insertNumber n ms

/-- The writing of a label. -/
def encode (label : Text) : Text :=
  let basic := label.filter fun c => c.toNat < 0x80
  let others := (label.filter fun c => 0x80 ≤ c.toNat).foldr (fun c l => insertNumber c.toNat l) []
  let s := insertions label 0x80 others ⟨[], 0, 72, basic.length, true⟩
  basic ++ (if basic.isEmpty then [] else ['-']) ++ s.out

/-! ### Decoding -/

/-- The difference that digits write, from the position `k` with the weight `w` on, and the text
behind them. -/
def difference? (bias : Nat) : Nat → Nat → Nat → Text → Option (Nat × Text)
  | _, _, _, [] => none
  | k, w, sum, c :: s =>
      match value? c with
      | none => none
      | some d =>
          let t := threshold bias k
          if d < t then some (sum + d * w, s)
          else difference? bias (k + 36) (w * (36 - t)) (sum + d * w) s

/-- The label with the insertions of a text carried out; every insertion takes at least one
character of the text, so its length is enough fuel. -/
def insert? : Nat → Nat → Nat → Nat → Text → Text → Option Text
  | _, _, _, _, label, [] => some label
  | 0, _, _, _, _, _ :: _ => none
  | fuel + 1, n, i, bias, label, c :: s =>
      match difference? bias 36 1 0 (c :: s) with
      | none => none
      | some (delta, rest) =>
          let count := label.length + 1
          let n' := n + (i + delta) / count
          let i' := (i + delta) % count
          if n'.isValidChar then
            insert? fuel n' (i' + 1) (adapt delta count (i == 0))
              (label.take i' ++ Char.ofNat n' :: label.drop i') rest
          else none

/-- The label of a writing: the text before the last hyphen, with the insertions behind it. -/
def decode? (s : Text) : Option Text :=
  let back := s.reverse
  let tail := (back.takeWhile (· ≠ '-')).reverse
  let head := ((back.dropWhile (· ≠ '-')).drop 1).reverse
  if head.all fun c => c.toNat < 0x80 then insert? tail.length 0x80 0 72 head tail else none

end Punycode

end Softcode
