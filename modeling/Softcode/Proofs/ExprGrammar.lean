/-
**The grammar of expressions, and what expressions mean.**

The value of an expression is defined here without a reader.  A grammar says which texts are
expressions and which syntax trees they have: eight ranks, from rows of `||` down to numbers and
parentheses, where operators of one rank associate to the left and blanks may stand before every
token.  A tree has a value if every step of its evaluation has one: numbers stay within 64 bits, and
nothing is divided by zero.  Both operands of an operator are evaluated.

How operators are evaluated is a parameter.  `Softcode.Expr.BinOp.exact` takes the results of whole
numbers; `Softcode.Expr.BinOp.inWords` leaves one of them out, the remainder of the least number by
`-1`, whose quotient has more than 64 bits.

Main definitions:

* `Softcode.Expr.Rank`, `Softcode.Expr.Rank.operators` — the ranks and their operators;
* `Softcode.Expr.Tree`, `Softcode.Expr.Tree.depth`, `Softcode.Expr.Tree.value?` — syntax trees, how
  many signs and parentheses are open in them, and their values;
* `Softcode.Expr.Derives` — **the grammar**;
* `Softcode.Expr.Denotes` — the meaning of a text.

Main results:

* `Softcode.Expr.Derives.inRange` — values have 64 bits;
* `Softcode.Expr.BinOp.apply_eq_ok_iff` — **operators compute what they should** on numbers of 64
  bits.
-/

import Mathlib.Data.Nat.Digits.Defs
import Softcode.Expr

set_option autoImplicit false

namespace Softcode

namespace Expr

/-! ### Ranks -/

/-- The ranks of expressions, from the loosest binding on. -/
inductive Rank where
  | or | and | eq | rel | add | mul | unary | primary
  deriving DecidableEq

namespace Rank

/-- The rank of the operands of a rank. -/
def next? : Rank → Option Rank
  | or => some and
  | and => some eq
  | eq => some rel
  | rel => some add
  | add => some mul
  | mul => some unary
  | unary => some primary
  | primary => none

/-- The binary operators of a rank, as they are written. -/
def operators : Rank → List (Text × BinOp)
  | or => [(['|', '|'], .or)]
  | and => [(['&', '&'], .and)]
  | eq => [(['=', '=', '='], .eq), (['!', '=', '='], .ne), (['=', '='], .eq), (['!', '='], .ne)]
  | rel => [(['<', '='], .le), (['>', '='], .ge), (['<'], .lt), (['>'], .gt)]
  | add => [(['+'], .add), (['-'], .sub)]
  | mul => [(['*'], .mul), (['/'], .div), (['%'], .rem)]
  | unary => []
  | primary => []

end Rank

/-! ### Trees -/

/-- Syntax trees of expressions. -/
inductive Tree where
  | number (n : Nat)
  | parens (e : Tree)
  | neg (e : Tree)
  | not (e : Tree)
  | binary (op : BinOp) (a b : Tree)

/-- The greatest number of signs and parentheses, plus one, that are open at a time. -/
def Tree.depth : Tree → Nat
  | number _ => 1
  | parens e => e.depth + 1
  | neg e => e.depth + 1
  | not e => e.depth + 1
  | binary _ a b => max a.depth b.depth

/-- `1` or `0`. -/
def truth (p : Prop) [Decidable p] : Int := if p then 1 else 0

/-- The result of an operator on whole numbers.  Division goes toward zero. -/
def BinOp.exact : BinOp → Int → Int → Option Int
  | or, a, b => some (truth (a ≠ 0 ∨ b ≠ 0))
  | and, a, b => some (truth (a ≠ 0 ∧ b ≠ 0))
  | eq, a, b => some (truth (a = b))
  | ne, a, b => some (truth (a ≠ b))
  | le, a, b => some (truth (a ≤ b))
  | ge, a, b => some (truth (a ≥ b))
  | lt, a, b => some (truth (a < b))
  | gt, a, b => some (truth (a > b))
  | add, a, b => some (a + b)
  | sub, a, b => some (a - b)
  | mul, a, b => some (a * b)
  | div, a, b => if b = 0 then none else some (a.tdiv b)
  | rem, a, b => if b = 0 then none else some (a.tmod b)

/-- The same, but for the remainder of the least number by `-1`. -/
def BinOp.inWords (op : BinOp) (a b : Int) : Option Int :=
  if op = .rem ∧ a = -0x8000000000000000 ∧ b = -1 then none else op.exact a b

/-- A number, if it has 64 bits. -/
def word? (v : Int) : Option Int := if InRange v then some v else none

/-- **The value of a tree**, where `step` evaluates operators: every step has to give a number of 64
bits. -/
def Tree.value? (step : BinOp → Int → Int → Option Int) : Tree → Option Int
  | number n => some n
  | parens e => e.value? step
  | neg e => (e.value? step).bind fun v => word? (-v)
  | not e => (e.value? step).bind fun v => some (truth (v = 0))
  | binary op a b =>
      (a.value? step).bind fun v => (b.value? step).bind fun w => (step op v w).bind word?

/-! ### The grammar -/

/-- Blanks between tokens, perhaps none. -/
def IsSpace (s : Text) : Prop := ∀ c ∈ s, c ∈ [' ', '\t', '\n', '\x0c', '\r']

/-- A row of digits that writes a number. -/
structure Writes (ds : Text) (n : Nat) : Prop where
  ne_nil : ds ≠ []
  digits : ∀ d ∈ ds, d.isDigit = true
  value_eq : Nat.ofDigits 10 (ds.reverse.map fun d => d.toNat - '0'.toNat) = n

/-- **The grammar of expressions**, with their trees. -/
inductive Derives : Rank → Tree → Text → Prop where
  | binary {r r' : Rank} {token blanks s t : Text} {op : BinOp} {a b : Tree}
      (hnext : r.next? = some r') (hop : (token, op) ∈ r.operators) (ha : Derives r a s)
      (hblanks : IsSpace blanks) (hb : Derives r' b t) :
      Derives r (.binary op a b) (s ++ (blanks ++ (token ++ t)))
  | lift {r r' : Rank} {e : Tree} {s : Text} (hnext : r.next? = some r') (h : Derives r' e s) :
      Derives r e s
  | neg {e : Tree} {blanks s : Text} (hblanks : IsSpace blanks) (h : Derives .unary e s) :
      Derives .unary (.neg e) (blanks ++ '-' :: s)
  | not {e : Tree} {blanks s : Text} (hblanks : IsSpace blanks) (h : Derives .unary e s) :
      Derives .unary (.not e) (blanks ++ '!' :: s)
  | number {n : Nat} {blanks ds : Text} (hblanks : IsSpace blanks) (hds : Writes ds n)
      (hmax : n ≤ 0x7fffffffffffffff) : Derives .primary (.number n) (blanks ++ ds)
  | parens {e : Tree} {blanks blanks' s : Text} (hblanks : IsSpace blanks) (h : Derives .or e s)
      (hblanks' : IsSpace blanks') :
      Derives .primary (.parens e) (blanks ++ '(' :: (s ++ (blanks' ++ [')'])))

/-- **The meaning of a text**: it is an expression, with blanks behind it, in which at most 128 signs
and parentheses, plus one, are open at a time, and whose tree has a value. -/
def Denotes (step : BinOp → Int → Int → Option Int) (src : Text) (v : Int) : Prop :=
  ∃ e s blanks, Derives .or e s ∧ IsSpace blanks ∧ src = s ++ blanks ∧ e.depth ≤ 128 ∧
    e.value? step = some v

/-! ### Numbers of 64 bits -/

theorem inRange_of_word? {v w : Int} (h : word? v = some w) : w = v ∧ InRange w := by
  unfold word? at h
  split at h
  · next hv =>
      obtain rfl := Option.some.inj h
      exact ⟨rfl, hv⟩
  · cases h

theorem word?_of_inRange {v : Int} (h : InRange v) : word? v = some v := if_pos h

theorem inRange_truth (p : Prop) [Decidable p] : InRange (truth p) := by
  unfold truth InRange
  split <;> decide

/-- **Values have 64 bits.** -/
theorem Derives.inRange {step : BinOp → Int → Int → Option Int} {r : Rank} {e : Tree} {s : Text}
    (h : Derives r e s) {v : Int} (hv : e.value? step = some v) : InRange v := by
  induction h generalizing v with
  | binary =>
      simp only [Tree.value?, Option.bind_eq_some_iff] at hv
      obtain ⟨a, -, b, -, w, -, hw⟩ := hv
      exact (inRange_of_word? hw).2
  | lift _ _ ih => exact ih hv
  | neg =>
      simp only [Tree.value?, Option.bind_eq_some_iff] at hv
      obtain ⟨w, -, hw⟩ := hv
      exact (inRange_of_word? hw).2
  | not =>
      simp only [Tree.value?, Option.bind_eq_some_iff] at hv
      obtain ⟨w, -, hw⟩ := hv
      obtain rfl := Option.some.inj hw
      exact inRange_truth _
  | number _ _ hmax =>
      obtain rfl := Option.some.inj hv
      unfold InRange
      omega
  | parens _ _ _ ih => exact ih hv

/-! ### Operators -/

/-- Every quotient of numbers of 64 bits is one, but that of the least number by `-1`. -/
theorem inRange_tdiv_iff {a b : Int} (ha : InRange a) (hb : b ≠ 0) :
    InRange (a.tdiv b) ↔ ¬(a = -0x8000000000000000 ∧ b = -1) := by
  by_cases hneg : b = -1
  · subst hneg
    rw [Int.tdiv_neg, Int.tdiv_one]
    unfold InRange at ha ⊢
    omega
  · -- the quotient by anything but `1` and `-1` has at most half the absolute value
    have hrange : InRange (a.tdiv b) := by
      by_cases hone : b = 1
      · rwa [hone, Int.tdiv_one]
      · have hhalf : (a.tdiv b).natAbs ≤ a.natAbs / 2 := by
          rw [Int.natAbs_tdiv]
          exact Nat.div_le_div_left (by omega) (by decide)
        unfold InRange at ha ⊢
        omega
    exact ⟨fun _ h => hneg h.2, fun _ => hrange⟩

theorem inRange_tmod {a b : Int} (hb : InRange b) (hne : b ≠ 0) : InRange (a.tmod b) := by
  have hlt : (a.tmod b).natAbs < b.natAbs := by
    rw [Int.natAbs_tmod]
    exact Nat.mod_lt _ (by omega)
  unfold InRange at hb ⊢
  omega

theorem checked_eq_ok_iff {v w : Int} : checked v = .ok w ↔ word? v = some w := by
  unfold checked word?
  split <;> simp

theorem ofBool_decide (p : Prop) [Decidable p] : ofBool (decide p) = truth p := by
  unfold ofBool truth
  simp

theorem ok_ofBool_iff {b : Bool} {p : Prop} [Decidable p] (h : b = true ↔ p) {v : Int} :
    (Except.ok (ofBool b) : Except Fault Int) = .ok v ↔ word? (truth p) = some v := by
  have hb : b = decide p := by
    rw [Bool.eq_iff_iff, h, decide_eq_true_iff]
  rw [hb, ofBool_decide, word?_of_inRange (inRange_truth p), Except.ok.injEq, Option.some.injEq]

/-- **Operators compute what they should** on numbers of 64 bits. -/
theorem BinOp.apply_eq_ok_iff (op : BinOp) {a b : Int} (ha : InRange a) (hb : InRange b) {v : Int} :
    op.apply a b = .ok v ↔ (op.inWords a b).bind word? = some v := by
  cases op with
  | or => exact ok_ofBool_iff (by simp)
  | and => exact ok_ofBool_iff (by simp)
  | eq => exact ok_ofBool_iff (by simp)
  | ne => exact ok_ofBool_iff (by simp)
  | le => exact ok_ofBool_iff (by simp)
  | ge => exact ok_ofBool_iff (by simp)
  | lt => exact ok_ofBool_iff (by simp)
  | gt => exact ok_ofBool_iff (by simp)
  | add => exact checked_eq_ok_iff
  | sub => exact checked_eq_ok_iff
  | mul => exact checked_eq_ok_iff
  | div =>
      by_cases hzero : b = 0
      · simp [apply, inWords, exact, hzero]
      · simp only [apply, inWords, exact, hzero, if_false]
        exact checked_eq_ok_iff
  | rem =>
      by_cases hzero : b = 0
      · simp [apply, inWords, exact, hzero]
      · have hquotient := inRange_tdiv_iff ha hzero
        by_cases hleast : a = -0x8000000000000000 ∧ b = -1
        · have hout : ¬ InRange (a.tdiv b) := fun h => hquotient.1 h hleast
          have hoverflow : BinOp.rem.apply a b = .error .overflow := by
            simp only [apply, if_neg hzero, if_neg hout]
          have hnone : BinOp.rem.inWords a b = none := if_pos ⟨rfl, hleast⟩
          rw [hoverflow, hnone]
          simp
        · have hrem := word?_of_inRange (inRange_tmod (a := a) hb hzero)
          simp only [apply, inWords, exact, hzero, hleast, if_false, if_pos (hquotient.2 hleast)]
          simp [hrem]

end Expr

end Softcode
