/-
**Brackets of three kinds, and how they match.**

Square brackets, parentheses and braces of a text count only outside escape pairs: a backslash takes
the character behind it out of the text's structure.  So a text is first read as a list of units,
of which an escape pair is one, and its brackets are those of the units of one character.

Whether the brackets match is a property of the word that they form.  The grammar of matched words
is decided by a stack of the brackets that are open, and the stack is what relates matching to
counting: its height is the number of opening minus closing brackets.  A part of a matched word can
therefore be told to be matched by counting alone, although counting does not see kinds.

Main definitions:

* `Softcode.units` — the units of a text, with escape pairs in one piece;
* `Softcode.BracketKind`, `Softcode.Bracket`, `Softcode.brackets` — the brackets of a text;
* `Softcode.Bracket.depth`, `Softcode.Bracket.net` — opening minus closing brackets, of a kind and
  of all kinds;
* `Softcode.Matched` — **matched words**;
* `Softcode.unwind` — the brackets that are open behind a word.

Main results:

* `Softcode.flatten_units` — the units of a text are the text;
* `Softcode.matched_iff` — the stack decides matching;
* `Softcode.Matched.split` — **a part of a matched word with as many opening as closing brackets is
  matched**, and so is what follows it.
-/

import Softcode.Text.Basic

set_option autoImplicit false

namespace Softcode

/-! ### Units -/

/-- The units in which a text is read: a backslash and the character behind it are one unit, and any
other character is one by itself. -/
def units : Text → List Text
  | [] => []
  | '\\' :: c :: s => ['\\', c] :: units s
  | c :: s => [c] :: units s

@[simp] theorem units_nil : units [] = [] := rfl

@[simp] theorem units_escape (c : Char) (s : Text) :
    units ('\\' :: c :: s) = ['\\', c] :: units s := rfl

theorem units_cons {c : Char} (hc : c ≠ '\\') (s : Text) : units (c :: s) = [c] :: units s := by
  cases s <;> simp [units, hc]

/-- The units of a text, put together, are the text. -/
theorem flatten_units (s : Text) : (units s).flatten = s := by
  fun_induction units s with
  | case1 => rfl
  | case2 c s ih => rw [List.flatten_cons, ih]; rfl
  | case3 c s _ ih => rw [List.flatten_cons, ih]; rfl

/-- A text without backslashes is read on its own, whatever follows it. -/
theorem units_append_of_not_mem {s : Text} (hs : '\\' ∉ s) (t : Text) :
    units (s ++ t) = units s ++ units t := by
  induction s with
  | nil => rfl
  | cons c s ih =>
      have hc : c ≠ '\\' := fun h => hs (h ▸ List.mem_cons_self)
      rw [List.cons_append, units_cons hc, units_cons hc, List.cons_append,
        ih fun h => hs (List.mem_cons_of_mem _ h)]

/-! ### Brackets -/

/-- The kinds of brackets. -/
inductive BracketKind where
  | square | round | curly
  deriving DecidableEq

/-- A bracket: its kind, and whether it opens or closes. -/
inductive Bracket where
  | opening (k : BracketKind)
  | closing (k : BracketKind)
  deriving DecidableEq

/-- The bracket that a character is. -/
def Bracket.ofChar? (c : Char) : Option Bracket :=
  if c = '[' then some (.opening .square)
  else if c = ']' then some (.closing .square)
  else if c = '(' then some (.opening .round)
  else if c = ')' then some (.closing .round)
  else if c = '\x7b' then some (.opening .curly)
  else if c = '\x7d' then some (.closing .curly)
  else none

/-- The brackets of a unit; an escape pair has none. -/
def unitBrackets : Text → List Bracket
  | [c] => (Bracket.ofChar? c).toList
  | _ => []

/-- **The brackets of a text**, outside escape pairs. -/
def brackets (s : Text) : List Bracket := (units s).flatMap unitBrackets

@[simp] theorem brackets_nil : brackets [] = [] := rfl

@[simp] theorem brackets_escape (c : Char) (s : Text) : brackets ('\\' :: c :: s) = brackets s := rfl

theorem brackets_cons {c : Char} (hc : c ≠ '\\') (s : Text) :
    brackets (c :: s) = (Bracket.ofChar? c).toList ++ brackets s := by
  rw [brackets, units_cons hc, List.flatMap_cons]
  rfl

/-- Where a text is cut between units, its brackets are those of the two parts. -/
theorem brackets_of_units {s p q : Text} (h : units s = units p ++ units q) :
    brackets s = brackets p ++ brackets q := by
  rw [brackets, h, List.flatMap_append]
  rfl

theorem brackets_eq_nil {s : Text} (hs : ∀ c ∈ s, c ≠ '\\' ∧ Bracket.ofChar? c = none) :
    brackets s = [] := by
  induction s with
  | nil => rfl
  | cons c s ih =>
      obtain ⟨hc, hnone⟩ := hs c List.mem_cons_self
      rw [brackets_cons hc, hnone, ih fun d hd => hs d (List.mem_cons_of_mem _ hd)]
      rfl

/-! ### Counting -/

namespace Bracket

/-- The change of the depth of a kind at a bracket. -/
def step (k : BracketKind) : Bracket → Int
  | opening k' => if k' = k then 1 else 0
  | closing k' => if k' = k then -1 else 0

/-- **The depth of a kind** behind a word: opening minus closing brackets of that kind. -/
def depth (k : BracketKind) : List Bracket → Int
  | [] => 0
  | b :: w => b.step k + depth k w

theorem depth_append (k : BracketKind) (v w : List Bracket) :
    depth k (v ++ w) = depth k v + depth k w := by
  induction v with
  | nil => exact (Int.zero_add _).symm
  | cons b v ih => rw [List.cons_append, depth, depth, ih, Int.add_assoc]

/-- The change of the depth over all kinds at a bracket. -/
def sign : Bracket → Int
  | opening _ => 1
  | closing _ => -1

/-- Opening minus closing brackets, whatever their kinds. -/
def net : List Bracket → Int
  | [] => 0
  | b :: w => b.sign + net w

@[simp] theorem net_nil : net [] = 0 := rfl

@[simp] theorem net_cons (b : Bracket) (w : List Bracket) : net (b :: w) = b.sign + net w := rfl

@[simp] theorem net_append (v w : List Bracket) : net (v ++ w) = net v + net w := by
  induction v with
  | nil => simp
  | cons b v ih => rw [List.cons_append, net_cons, net_cons, ih, Int.add_assoc]

/-- The brackets of all kinds are those of the three kinds. -/
theorem net_eq_sum_depth (w : List Bracket) :
    net w = depth .square w + depth .round w + depth .curly w := by
  induction w with
  | nil => rfl
  | cons b w ih =>
      have hstep : b.sign = b.step .square + b.step .round + b.step .curly := by
        cases b with
        | opening k => cases k <;> rfl
        | closing k => cases k <;> rfl
      simp only [net_cons, depth, hstep, ih]
      omega

end Bracket

/-! ### Matched words -/

/-- **Matched words**: an opening bracket, a matched word, the closing bracket of the same kind and
a matched word behind it. -/
inductive Matched : List Bracket → Prop where
  | nil : Matched []
  | pair (k : BracketKind) {v w : List Bracket} (hv : Matched v) (hw : Matched w) :
      Matched (.opening k :: (v ++ .closing k :: w))

/-- The kinds of the brackets that are open behind a word, the innermost first, where `stack` are
those open before it.  There are none if a closing bracket does not fit. -/
def unwind : List BracketKind → List Bracket → Option (List BracketKind)
  | stack, [] => some stack
  | stack, .opening k :: w => unwind (k :: stack) w
  | [], .closing _ :: _ => none
  | k' :: stack, .closing k :: w => if k' = k then unwind stack w else none

theorem unwind_append (stack : List BracketKind) (v w : List Bracket) :
    unwind stack (v ++ w) = (unwind stack v).bind fun stack' => unwind stack' w := by
  fun_induction unwind stack v with
  | case1 => rfl
  | case2 stack k v ih => exact ih
  | case3 => rfl
  | case4 stack k v ih => rw [List.cons_append, unwind, if_pos rfl, ih]
  | case5 k' stack k v hk => rw [List.cons_append, unwind, if_neg hk, Option.bind_none]

/-- A matched word leaves the stack as it is. -/
theorem Matched.unwind_eq {w : List Bracket} (h : Matched w) (stack : List BracketKind) :
    unwind stack w = some stack := by
  induction h generalizing stack with
  | nil => rfl
  | pair k _ _ ihv ihw =>
      rw [unwind, unwind_append, ihv, Option.bind_some, unwind, if_pos rfl, ihw]

/-- Words that close all brackets of a stack: for each of them a matched word and its closing
bracket, and a matched word at the end. -/
inductive Closes : List BracketKind → List Bracket → Prop where
  | done {w : List Bracket} (hw : Matched w) : Closes [] w
  | close {k : BracketKind} {stack : List BracketKind} {v w : List Bracket} (hv : Matched v)
      (hw : Closes stack w) : Closes (k :: stack) (v ++ .closing k :: w)

/-- A pair of brackets may stand in front. -/
theorem Closes.pair {k : BracketKind} {stack : List BracketKind} {v w : List Bracket}
    (hv : Matched v) (h : Closes stack w) :
    Closes stack (.opening k :: (v ++ .closing k :: w)) := by
  cases h with
  | done hw => exact .done (.pair k hv hw)
  | @close k' stack v' w' hv' hw' =>
      have h := Closes.close (k := k') (Matched.pair k hv hv') hw'
      simpa using h

theorem closes_of_unwind {stack : List BracketKind} {w : List Bracket}
    (h : unwind stack w = some []) : Closes stack w := by
  induction w generalizing stack with
  | nil =>
      obtain rfl : stack = [] := Option.some.inj h
      exact .done .nil
  | cons b w ih =>
      cases b with
      | opening k =>
          -- the bracket that opens here is the first one to be closed by the rest
          cases ih h with
          | close hv hw => exact hw.pair hv
      | closing k =>
          cases stack with
          | nil => cases h
          | cons k' stack =>
              rw [unwind] at h
              split at h
              · next hk =>
                  subst hk
                  exact .close .nil (ih h)
              · cases h

/-- **The stack decides matching.** -/
theorem matched_iff {w : List Bracket} : Matched w ↔ unwind [] w = some [] := by
  constructor
  · intro h
    exact h.unwind_eq []
  · intro h
    cases closes_of_unwind h with
    | done hw => exact hw

instance (w : List Bracket) : Decidable (Matched w) := decidable_of_iff _ matched_iff.symm

/-- The height of the stack is a count. -/
theorem length_unwind {stack stack' : List BracketKind} {w : List Bracket}
    (h : unwind stack w = some stack') : (stack'.length : Int) = stack.length + Bracket.net w := by
  fun_induction unwind stack w with
  | case1 stack =>
      obtain rfl : stack = stack' := Option.some.inj h
      simp
  | case2 stack k w ih =>
      have := ih h
      simp only [List.length_cons, Bracket.net_cons, Bracket.sign] at this ⊢
      omega
  | case3 => cases h
  | case4 stack k w ih =>
      have := ih h
      simp only [List.length_cons, Bracket.net_cons, Bracket.sign] at this ⊢
      omega
  | case5 => cases h

theorem Matched.net_eq_zero {w : List Bracket} (h : Matched w) : Bracket.net w = 0 := by
  have := length_unwind (h.unwind_eq [])
  simpa using this.symm

theorem Matched.append {v w : List Bracket} (hv : Matched v) (hw : Matched w) :
    Matched (v ++ w) := by
  rw [matched_iff, unwind_append, hv.unwind_eq, Option.bind_some, hw.unwind_eq]

/-- **A part of a matched word with as many opening as closing brackets is matched**, and so is what
follows it. -/
theorem Matched.split {v w : List Bracket} (h : Matched (v ++ w)) (hv : Bracket.net v = 0) :
    Matched v ∧ Matched w := by
  have hstack := h.unwind_eq []
  rw [unwind_append, Option.bind_eq_some_iff] at hstack
  obtain ⟨stack, hfirst, hsecond⟩ := hstack
  -- nothing is open behind the first part, since the height is zero
  have hheight := length_unwind hfirst
  rw [hv, List.length_nil] at hheight
  obtain rfl : stack = [] := List.length_eq_zero_iff.1 (by simpa using hheight)
  exact ⟨matched_iff.2 hfirst, matched_iff.2 hsecond⟩

end Softcode
