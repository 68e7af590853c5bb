/-
**Splitting ends although commands may grow.**

What a cut leaves of a command becomes a command of its own, with a head and a wrapper in front, and
is split in turn: it is read again like any other, and the only thing that is known about it is how
long its wrapper is.  It may well be longer than the command it comes from, so the length of the
text says nothing about the end of this.  What gets shorter is the part of the value behind the
wrapper.

This module writes splitting down as these calls, each with a command and the length of its wrapper.
A call that cuts its command leaves a shorter part for the next one, whatever the command; that is
why the calls come to an end.  Behind the first call they all have the same head and wrapper, what
they carry are shorter and shorter ends of the value, none of them empty, and what they emit are the
commands that `Softcode.splitCommand` gives.

Main definitions:

* `Softcode.SplitCall`, `Softcode.SplitCall.cut?`, `Softcode.SplitCall.next?` — calls, where they
  cut and which call they make;
* `Softcode.SplitCall.left` — the part of the value that a call may cut;
* `Softcode.SplitCall.calls` — all calls that a call leads to;
* `Softcode.SplitCall.emits` — the command that a call gives.

Main results:

* `Softcode.SplitCall.next?_left` — **a call leaves less than it was given**, and not nothing;
* `Softcode.SplitCall.calls_eq` — what the calls carry;
* `Softcode.Assignment.pieces_eq_emits` — the commands of an assignment are what its calls emit;
* `Softcode.splitCommand_ends` — **splitting ends**, with at most one line more than the value has
  characters.
-/

import Mathlib.Data.List.Chain
import Softcode.Proofs.Oversize

set_option autoImplicit false

namespace Softcode

/-! ### Calls -/

/-- A command to be split, and the number of characters at the beginning of its value that must not
be cut. -/
structure SplitCall where
  text : Text
  wrap : Nat
  deriving DecidableEq

namespace SplitCall

/-- The assignment that a command is and the place at which its value is cut, if it is cut. -/
def cut? (limit : Nat) (c : SplitCall) : Option (Assignment × Nat) :=
  if c.text.length ≤ limit || isRawText c.text then none
  else
    match Assignment.parse? c.text with
    | none => none
    | some a =>
        if limit - a.head.length < minSplitBudget then none
        else
          ((safeSplit? a.value (limit - a.head.length)).filter fun n => c.wrap < n).map (a, ·)

/-- The call for a command that appends `rest` to an attribute. -/
def continuation (delay attr obj rest : Text) : SplitCall :=
  ⟨Assignment.appendCommand delay attr obj rest, (Assignment.currentValue attr obj).length⟩

/-- **The call that a call makes**, for what lies behind the cut. -/
def next? (limit : Nat) (c : SplitCall) : Option SplitCall :=
  (c.cut? limit).map fun p => continuation p.1.delay p.1.attr p.1.obj (p.1.value.drop p.2)

/-- The command that a call gives: what lies before the cut. -/
def emits (limit : Nat) (c : SplitCall) : Text :=
  match c.cut? limit with
  | none => c.text
  | some (a, n) => a.head ++ a.value.take n

/-- The part of the value that may be cut. -/
def left (c : SplitCall) : Text :=
  match Assignment.parse? c.text with
  | none => []
  | some a => a.value.drop c.wrap

/-! ### What a call leaves -/

theorem left_of_parse? {c : SplitCall} {a : Assignment} (h : Assignment.parse? c.text = some a) :
    c.left = a.value.drop c.wrap := by
  rw [left, h]

/-- What a command that appends carries is what it appends. -/
theorem left_continuation {delay attr obj : Text}
    (hn : Assignment.IsName delay ∧ Assignment.IsName attr ∧ Assignment.IsName obj) (rest : Text) :
    (continuation delay attr obj rest).left = rest := by
  obtain ⟨head, hparse⟩ := Assignment.parse?_appendCommand hn rest
  have htext : (continuation delay attr obj rest).text =
      Assignment.appendCommand delay attr obj rest := rfl
  rw [← htext] at hparse
  rw [left_of_parse? hparse]
  exact List.drop_left

/-- A long command is cut where its value can be cut behind the wrapper. -/
theorem cut?_eq {limit : Nat} {c : SplitCall} {a : Assignment} {wrap rest : Text}
    (hlong : limit < c.text.length) (hraw : isRawText c.text = false)
    (hparse : Assignment.parse? c.text = some a) (hvalue : a.value = wrap ++ rest)
    (hwrap : c.wrap = wrap.length) :
    c.cut? limit = (cutPlace? limit a.head wrap rest).map (a, ·) := by
  have hlong' : (decide (c.text.length ≤ limit) || isRawText c.text) = false := by
    rw [hraw, Bool.or_false, decide_eq_false_iff_not]
    omega
  simp only [cut?, hlong', hparse, hvalue, hwrap, cutPlace?, Bool.false_eq_true, if_false]
  split <;> rfl

/-- A call that cuts has a long assignment, and the cut lies behind the wrapper. -/
theorem exists_of_cut? {limit n : Nat} {c : SplitCall} {a : Assignment}
    (h : c.cut? limit = some (a, n)) :
    ∃ wrap rest, limit < c.text.length ∧ Assignment.parse? c.text = some a ∧
      a.value = wrap ++ rest ∧ c.wrap = wrap.length ∧
      cutPlace? limit a.head wrap rest = some n := by
  have hcut := h
  unfold cut? at h
  split at h
  · cases h
  · next hlong =>
      rw [Bool.or_eq_true, decide_eq_true_eq, not_or, Bool.not_eq_true, Nat.not_le] at hlong
      split at h
      · cases h
      · next a' hparse =>
          split at h
          · cases h
          · obtain ⟨m, hm, heq⟩ := Option.map_eq_some_iff.1 h
            obtain ⟨rfl, rfl⟩ := Prod.mk.inj heq
            obtain ⟨hsplit, hwrap⟩ := Option.filter_eq_some_iff.1 hm
            -- the wrapper is shorter than the value, since the cut behind it lies in the value
            have hlt : c.wrap < m := by simpa using hwrap
            have hle : m ≤ a'.value.length := safeSplit?_le_length hsplit
            have hlength : c.wrap = (a'.value.take c.wrap).length := by
              rw [List.length_take]
              omega
            have hvalue : a'.value = a'.value.take c.wrap ++ a'.value.drop c.wrap :=
              (List.take_append_drop _ _).symm
            refine ⟨_, _, hlong.1, hparse, hvalue, hlength, ?_⟩
            rw [cut?_eq hlong.1 hlong.2 hparse hvalue hlength] at hcut
            obtain ⟨k, hk, heq⟩ := Option.map_eq_some_iff.1 hcut
            rw [hk, (Prod.mk.inj heq).2]

/-- The remainder of a value behind a cut: a shorter end of it, and not empty. -/
def Shortens (r r' : Text) : Prop := r' ≠ [] ∧ r' <:+ r ∧ r'.length < r.length

/-- **A call leaves less than it was given**, and not nothing, whatever its command is. -/
theorem next?_left {limit : Nat} {c d : SplitCall} (h : c.next? limit = some d) :
    ∃ a rest, Assignment.parse? c.text = some a ∧ d = continuation a.delay a.attr a.obj rest ∧
      Shortens c.left rest ∧ d.left = rest := by
  obtain ⟨⟨a, n⟩, hcut, rfl⟩ := Option.map_eq_some_iff.1 h
  obtain ⟨wrap, rest, hlong, hparse, hvalue, hwrap, hplace⟩ := exists_of_cut? hcut
  obtain ⟨hhead, htext⟩ := Assignment.parse?_eq_some_iff.1 hparse
  have hleft : c.left = rest := by
    rw [left_of_parse? hparse, hvalue, hwrap, List.drop_left]
  have hlong' : ¬ a.head.length + wrap.length + rest.length ≤ limit := by
    rw [htext, hvalue, List.length_append, List.length_append] at hlong
    omega
  obtain ⟨part, remainder, rfl, hpart, hremainder, -, hdrop⟩ := cutPlace?_parts hplace hlong'
  refine ⟨a, remainder, hparse, by rw [hvalue, hdrop], ⟨hremainder, ?_, ?_⟩, ?_⟩
  · rw [hleft]
    exact List.suffix_append part remainder
  · rw [hleft, List.length_append]
    have hpos : 0 < part.length := List.length_pos_iff.2 hpart
    omega
  · rw [hvalue, hdrop, left_continuation hhead.names]

/-- **All calls that a call leads to**, in order.  They end since each of them has less to cut than
the one before. -/
def calls (limit : Nat) (c : SplitCall) : List SplitCall :=
  match _h : c.next? limit with
  | none => []
  | some d => d :: d.calls limit
termination_by c.left.length
decreasing_by
  obtain ⟨a, rest, -, -, hshort, hleft⟩ := next?_left _h
  rw [hleft]
  exact hshort.2.2

theorem calls_of_none {limit : Nat} {c : SplitCall} (h : c.next? limit = none) :
    c.calls limit = [] := by
  unfold calls
  split
  · rfl
  · next d hd => rw [h] at hd; cases hd

theorem calls_of_some {limit : Nat} {c d : SplitCall} (h : c.next? limit = some d) :
    c.calls limit = d :: d.calls limit := by
  rw [calls]
  split
  · next hd => rw [h] at hd; cases hd
  · next d' hd =>
      rw [h] at hd
      obtain rfl := Option.some.inj hd
      rfl

/-- **What the calls carry**: behind the head and the wrapper of the first assignment, shorter and
shorter ends of what it may cut. -/
theorem calls_eq (limit : Nat) {c : SplitCall} {a : Assignment}
    (h : Assignment.parse? c.text = some a) :
    ∃ rests : List Text, c.calls limit = rests.map (continuation a.delay a.attr a.obj) ∧
      (c.left :: rests).IsChain Shortens := by
  fun_induction calls limit c generalizing a with
  | case1 c hnext => exact ⟨[], rfl, .singleton _⟩
  | case2 c d hnext ih =>
      obtain ⟨a', rest, hparse, rfl, hshort, hleft⟩ := next?_left hnext
      obtain rfl := Option.some.inj (hparse.symm.trans h)
      obtain ⟨head, hparse'⟩ := Assignment.parse?_appendCommand
        (Assignment.parse?_eq_some_iff.1 h).1.names rest
      obtain ⟨rests, hcalls, hchain⟩ := ih hparse'
      rw [hleft] at hchain
      exact ⟨rest :: rests, by rw [hcalls, List.map_cons], .cons_cons hshort hchain⟩

/-- There are at most as many shorter and shorter ends of a text as it has characters. -/
theorem length_le_of_isChain {r : Text} {rests : List Text}
    (h : (r :: rests).IsChain Shortens) : rests.length ≤ r.length := by
  induction rests generalizing r with
  | nil => exact Nat.zero_le _
  | cons r' rests ih =>
      obtain ⟨hshort, hchain⟩ := List.isChain_cons_cons.1 h
      exact Nat.succ_le_of_lt (Nat.lt_of_le_of_lt (ih hchain) hshort.2.2)

/-! ### What the calls emit -/

theorem emits_of_none {limit : Nat} {c : SplitCall} (h : c.cut? limit = none) :
    c.emits limit = c.text := by
  rw [emits, h]

/-- A call that does not cut is the last one. -/
theorem map_emits_of_none {limit : Nat} {c : SplitCall} (h : c.cut? limit = none) :
    (c :: c.calls limit).map (emits limit) = [c.text] := by
  rw [calls_of_none (by rw [next?, h]; rfl), List.map_cons, emits_of_none h]
  rfl

end SplitCall

open SplitCall in
/-- **The commands of an assignment are what its calls emit**: `Softcode.Assignment.pieces` hands
the parts of a command on, and every call reads them off its command again. -/
theorem Assignment.pieces_eq_emits (a : Assignment) (limit : Nat) (head wrap rest : Text)
    (hhead : IsHead a.delay a.attr a.obj head)
    (hraw : isRawText (head ++ (wrap ++ rest)) = false) (c : SplitCall)
    (htext : c.text = head ++ (wrap ++ rest)) (hwrap : c.wrap = wrap.length) :
    (a.pieces limit head wrap rest).1 = (c :: c.calls limit).map (emits limit) := by
  have hparse : ∀ head wrap rest, IsHead a.delay a.attr a.obj head →
      parse? (head ++ (wrap ++ rest)) = some ⟨head, a.delay, a.attr, a.obj, wrap ++ rest⟩ :=
    fun head wrap rest hhead => parse?_eq_some_iff.2 ⟨hhead, rfl⟩
  fun_induction Assignment.pieces a limit head wrap rest generalizing c with
  | case1 head wrap rest total htotal =>
      have hfit : c.text.length ≤ limit := by
        rw [htext, List.length_append, List.length_append]
        omega
      rw [map_emits_of_none (by simp [cut?, hfit]), htext, List.append_assoc]
  | case2 head wrap rest total htotal hcut =>
      have hlong : limit < c.text.length := by
        rw [htext, List.length_append, List.length_append]
        omega
      have hnone : c.cut? limit = none := by
        rw [cut?_eq hlong (htext ▸ hraw) (htext ▸ hparse head wrap rest hhead) rfl hwrap, hcut]
        rfl
      rw [map_emits_of_none hnone, htext, List.append_assoc]
  | case3 head wrap rest total htotal n hcut more tooLong hmore ih =>
      have hlong : limit < c.text.length := by
        rw [htext, List.length_append, List.length_append]
        omega
      have hsome := cut?_eq hlong (htext ▸ hraw) (htext ▸ hparse head wrap rest hhead) rfl hwrap
      rw [hcut, Option.map_some] at hsome
      have hnext : c.next? limit =
          some (continuation a.delay a.attr a.obj ((wrap ++ rest).drop n)) := by
        rw [next?, hsome]
        rfl
      rw [calls_of_some hnext, List.map_cons, emits, hsome, ← ih, hmore]
      · exact isHead_continuationHead hhead.names
      · exact isRawText_continuation a _
      · rw [← List.append_assoc, ← appendCommand_eq]
        rfl
      · rfl

/-! ### The lines of a command -/

/-- The lines of a command are what its calls emit. -/
theorem splitCommand_emits (limit : Nat) (l : Line) :
    (splitCommand limit l).lines.map (·.text) =
      ((⟨l.text, 0⟩ : SplitCall) :: SplitCall.calls limit ⟨l.text, 0⟩).map
        (SplitCall.emits limit) := by
  unfold splitCommand
  split
  · next hfit =>
      rw [SplitCall.map_emits_of_none (by simp [SplitCall.cut?, hfit])]
      rfl
  · next hlong =>
      split
      · next hparse =>
          rw [SplitCall.map_emits_of_none (by simp [SplitCall.cut?, hparse])]
          rfl
      · next a hparse =>
          obtain ⟨hhead, htext⟩ := Assignment.parse?_eq_some_iff.1 hparse
          rw [Bool.or_eq_true, not_or, Bool.not_eq_true, Bool.not_eq_true] at hlong
          rw [← a.pieces_eq_emits limit a.head [] a.value hhead (htext ▸ hlong.2) ⟨l.text, 0⟩
            htext rfl, List.map_map]
          exact List.map_id _

/-- **Splitting ends.**  Whatever the line and the limit, the lines are what the calls give that
begin with the whole line.  If it is no assignment there is no further call.  If it is one, every
further call carries a rest of the value behind `@wait DELAY=&ATTR OBJ=` and the wrapper
`[get(OBJ/ATTR)]`; this rest is not empty and is a strictly shorter end of what the call before
carried, of the whole value for the first of them; and there are at most as many lines as the value
has characters, plus one. -/
theorem splitCommand_ends (limit : Nat) (l : Line) :
    (splitCommand limit l).lines.map (·.text) =
      ((⟨l.text, 0⟩ : SplitCall) :: SplitCall.calls limit ⟨l.text, 0⟩).map
        (SplitCall.emits limit) ∧
    (Assignment.parse? l.text = none → SplitCall.calls limit ⟨l.text, 0⟩ = []) ∧
    ∀ a, Assignment.parse? l.text = some a →
      (∃ rests : List Text,
        SplitCall.calls limit ⟨l.text, 0⟩ =
          rests.map (fun rest => ⟨"@wait ".toList ++ a.delay ++ "=&".toList ++ a.attr ++
            " ".toList ++ a.obj ++ "=".toList ++ Assignment.currentValue a.attr a.obj ++ rest,
            (Assignment.currentValue a.attr a.obj).length⟩) ∧
        (a.value :: rests).IsChain fun before rest =>
          rest ≠ [] ∧ rest <:+ before ∧ rest.length < before.length) ∧
      (splitCommand limit l).lines.length ≤ a.value.length + 1 := by
  have hemits := splitCommand_emits limit l
  refine ⟨hemits, fun hparse => ?_, fun a hparse => ?_⟩
  · refine SplitCall.calls_of_none ?_
    simp [SplitCall.next?, SplitCall.cut?, hparse]
  · obtain ⟨rests, hcalls, hchain⟩ := SplitCall.calls_eq limit (c := ⟨l.text, 0⟩) hparse
    rw [SplitCall.left_of_parse? hparse, List.drop_zero] at hchain
    refine ⟨⟨rests, hcalls, hchain⟩, ?_⟩
    have hlength := congrArg List.length hemits
    rw [List.length_map, List.length_map, hcalls, List.length_cons, List.length_map] at hlength
    rw [hlength]
    exact Nat.succ_le_succ (SplitCall.length_le_of_isChain hchain)

/-- A line that can only be cut behind its first character. -/
def growingLine : Line := ⟨"&A B=x[".toList ++ List.replicate 120 'y' ++ [']'], "main", 1⟩

/-- The command for what the cut leaves is longer than the line, and splitting still ends. -/
theorem splitCommand_ends_growing :
    (∃ c, SplitCall.next? 120 ⟨growingLine.text, 0⟩ = some c ∧
      growingLine.text.length < c.text.length) ∧
    Assignment.parse? growingLine.text =
      some ⟨"&A B=".toList, ['0'], ['A'], ['B'],
        "x[".toList ++ List.replicate 120 'y' ++ [']']⟩ ∧
    (splitCommand 120 growingLine).lines.length ≤
      ("x[".toList ++ List.replicate 120 'y' ++ [']']).length + 1 := by
  have hparse : Assignment.parse? growingLine.text =
      some ⟨"&A B=".toList, ['0'], ['A'], ['B'],
        "x[".toList ++ List.replicate 120 'y' ++ [']']⟩ := by decide +kernel
  refine ⟨?_, hparse, ((splitCommand_ends 120 growingLine).2.2 _ hparse).2⟩
  have hnext : SplitCall.next? 120 ⟨growingLine.text, 0⟩ =
      some (SplitCall.continuation ['0'] ['A'] ['B'] ('[' :: List.replicate 120 'y' ++ [']'])) := by
    decide +kernel
  exact ⟨_, hnext, by decide +kernel⟩

end Softcode
