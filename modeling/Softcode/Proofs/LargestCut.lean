/-
**A value is cut as late as possible.**

Where a value may be cut can be said without walking along it: behind at least one character and
within the limit, not between a backslash and the character that it escapes, and with as many
opening as closing brackets before.  The walk that looks for a cut goes on by one character or by
an escape pair, stops as soon as it is beyond the limit, and remembers the last place at which the
depth was zero.  It finds the last cut of all: places inside an escape pair are no cuts, so none
is passed over, and where the walk stops the limit lies behind, in front of the last step or in
the middle of it.

Since the cut that is found is the last one, a command that lies beyond its limit stays in one piece
only for want of one: the room for its value is too small, or no cut within it lies behind the part
that must not be cut.

Main definitions:

* `Softcode.openings`, `Softcode.closings` — the numbers of opening and closing brackets of a text;
* `Softcode.SafeCut` — **where a value may be cut**;
* `Softcode.safeOffsets` — the same places as numbers of bytes.

Main results:

* `Softcode.safeCut_of_safeSplit?`, `Softcode.exists_safeSplit?_ge` — the cut that is found is
  one, and none lies behind it;
* `Softcode.cutPlace?_eq_none_iff` — when a command is not cut;
* `Softcode.safeSplitOffset?_isGreatest` — **the cut that is found is the last one**, and what this
  means for commands in one piece.
-/

import Mathlib.Order.Bounds.Basic
import Softcode.Proofs.NestedSplitting
import Softcode.Proofs.Oversize

set_option autoImplicit false

namespace Softcode

/-! ### Where a value may be cut -/

/-- Whether a bracket opens. -/
def Bracket.isOpening : Bracket → Bool
  | opening _ => true
  | closing _ => false

/-- The number of opening brackets of a text, outside escape pairs. -/
def openings (s : Text) : Nat := (brackets s).countP Bracket.isOpening

/-- The number of closing brackets of a text, outside escape pairs. -/
def closings (s : Text) : Nat := (brackets s).countP fun b => !b.isOpening

theorem Bracket.net_eq_sub (w : List Bracket) :
    net w = (w.countP isOpening : Int) - (w.countP fun b => !b.isOpening : Nat) := by
  induction w with
  | nil => rfl
  | cons b w ih =>
      cases b with
      | opening k =>
          have hopen : (opening k :: w).countP isOpening = w.countP isOpening + 1 :=
            List.countP_cons_of_pos rfl
          have hclose : (opening k :: w).countP (fun b => !b.isOpening) =
              w.countP fun b => !b.isOpening := List.countP_cons_of_neg Bool.false_ne_true
          rw [net_cons, sign, ih, hopen, hclose]
          omega
      | closing k =>
          have hopen : (closing k :: w).countP isOpening = w.countP isOpening :=
            List.countP_cons_of_neg Bool.false_ne_true
          have hclose : (closing k :: w).countP (fun b => !b.isOpening) =
              (w.countP fun b => !b.isOpening) + 1 := List.countP_cons_of_pos rfl
          rw [net_cons, sign, ih, hopen, hclose]
          omega

theorem net_eq_zero_iff (s : Text) : Bracket.net (brackets s) = 0 ↔ openings s = closings s := by
  rw [Bracket.net_eq_sub, openings, closings]
  omega

/-- **Where a value may be cut**: behind `n` of its characters, at least one and at most `max`; not
between a backslash and the character that it escapes; and with as many opening as closing brackets
before. -/
structure SafeCut (value : Text) (max n : Nat) : Prop where
  pos : 0 < n
  le_max : n ≤ max
  le_length : n ≤ value.length
  whole : units value = units (value.take n) ++ units (value.drop n)
  even : openings (value.take n) = closings (value.take n)

/-- The places where a value may be cut, as numbers of bytes. -/
def safeOffsets (value : Text) (max : Nat) : Set Nat :=
  {offset | ∃ n, SafeCut value max n ∧ Text.byteLength (value.take n) = offset}

/-! ### The walk along a value -/

theorem safeSplitFrom_pos {max : Nat} {depth : Int} {count : Nat} {best : Option Nat} {s : Text}
    {n : Nat} (hbest : ∀ b, best = some b → 0 < b)
    (h : safeSplitFrom max depth count best s = some n) : 0 < n := by
  fun_induction safeSplitFrom max depth count best s with
  | case1 | case2 | case4 => exact hbest n h
  | case3 depth count best d s hmax ih | case5 depth count best c s hesc hmax ih =>
      refine ih (fun b hb => ?_) h
      split at hb
      · obtain rfl := Option.some.inj hb
        exact Nat.succ_pos _
      · exact hbest b hb

/-- The cut that is found is one. -/
theorem safeCut_of_safeSplit? {value : Text} {max n : Nat} (h : safeSplit? value max = some n) :
    SafeCut value max n where
  pos := safeSplitFrom_pos (fun b hb => by cases hb) h
  le_max := safeSplit?_le h
  le_length := safeSplit?_le_length h
  whole := (safeSplit?_clean h).units_eq
  even := (net_eq_zero_iff _).1 (safeSplit?_clean h).net_eq

/-- There is no cut inside an escape pair. -/
theorem not_safeCut_inside {p : Text} (hp : ReadAlone p) (d : Char) (s : Text) (max : Nat) :
    ¬ SafeCut (p ++ '\\' :: d :: s) max (p.length + 1) := by
  intro h
  have htake : (p ++ '\\' :: d :: s).take (p.length + 1) = p ++ ['\\'] := by
    rw [List.take_length_add_append]
    rfl
  have hdrop : (p ++ '\\' :: d :: s).drop (p.length + 1) = d :: s := by
    rw [List.drop_length_add_append]
    rfl
  have hwhole := h.whole
  rw [htake, hdrop, hp, hp, List.append_assoc] at hwhole
  have hfirst := (List.cons_eq_cons.1 (List.append_cancel_left hwhole)).1
  cases hfirst

/-- Behind a text that stands on its own there is a cut only if its depth is zero. -/
theorem SafeCut.net_eq {p s : Text} {max : Nat} (h : SafeCut (p ++ s) max p.length) :
    Bracket.net (brackets p) = 0 := by
  have heven := h.even
  rw [List.take_left] at heven
  exact (net_eq_zero_iff p).2 heven

/-- The place that is remembered is at least every cut up to `count`. -/
def Covers (value : Text) (max count : Nat) (best : Option Nat) : Prop :=
  ∀ m, SafeCut value max m → m ≤ count → ∃ b, best = some b ∧ m ≤ b

/-- The place that is remembered behind the next step: cuts up to there lie at the end of the
step, if the depth is zero, or before it. -/
theorem Covers.next {p s : Text} {max count : Nat} {best : Option Nat}
    (h : Covers (p ++ s) max count best)
    (hstep : ∀ m, SafeCut (p ++ s) max m → m ≤ p.length → m ≤ count ∨ m = p.length) {depth : Int}
    (hdepth : depth = Bracket.net (brackets p)) :
    Covers (p ++ s) max p.length (if depth = 0 then some p.length else best) := by
  intro m hm hle
  by_cases hzero : depth = 0
  · rw [if_pos hzero]
    exact ⟨p.length, rfl, hle⟩
  · rw [if_neg hzero]
    rcases hstep m hm hle with hbefore | rfl
    · exact h m hm hbefore
    · exact absurd (hdepth.trans hm.net_eq) hzero

/-- No cut lies behind the one that the walk finds: `p` is what was read, and `count` and `depth`
are its length and its depth. -/
theorem safeSplitFrom_covers {max : Nat} {depth : Int} {count : Nat} {best : Option Nat}
    {p s : Text} (hp : ReadAlone p) (hcount : count = p.length)
    (hdepth : depth = Bracket.net (brackets p)) (hbest : Covers (p ++ s) max count best) {m : Nat}
    (hm : SafeCut (p ++ s) max m) :
    ∃ n, safeSplitFrom max depth count best s = some n ∧ m ≤ n := by
  fun_induction safeSplitFrom max depth count best s generalizing p with
  | case1 depth count best =>
      have hle := hm.le_length
      rw [List.append_nil] at hle
      exact hbest m hm (hcount ▸ hle)
  | case2 depth count best d s hmax =>
      -- a cut beyond the text that was read would lie inside the escape pair
      have hle := hm.le_max
      have hne : m ≠ p.length + 1 := by
        rintro rfl
        exact not_safeCut_inside hp d s max hm
      exact hbest m hm (by omega)
  | case3 depth count best d s hmax ih =>
      have hp' : ReadAlone (p ++ ['\\', d]) := hp.append (readAlone_escape d)
      have hcount' : count + 2 = (p ++ ['\\', d]).length := by simp [hcount]
      have hnet : depth = Bracket.net (brackets (p ++ ['\\', d])) := by
        rw [brackets_of_units (hp ['\\', d]), brackets_escape, brackets_nil, List.append_nil,
          hdepth]
      have happend : p ++ '\\' :: d :: s = p ++ ['\\', d] ++ s := by simp
      have hinside := not_safeCut_inside hp d s max
      rw [happend] at hbest hm hinside
      refine ih hp' hcount' hnet ?_ hm
      rw [hcount']
      refine hbest.next (fun k hk hle => ?_) hnet
      have hne : k ≠ p.length + 1 := by
        rintro rfl
        exact hinside hk
      omega
  | case4 depth count best c s hesc hmax =>
      have hle := hm.le_max
      exact hbest m hm (by omega)
  | case5 depth count best c s hesc hmax ih =>
      have hcount' : count + 1 = (p ++ [c]).length := by simp [hcount]
      have hnet : depth + nesting c = Bracket.net (brackets (p ++ [c])) := by
        rw [net_brackets_concat hp, hdepth]
      have happend : p ++ c :: s = p ++ [c] ++ s := by simp
      rw [happend] at hbest hm
      have hbest' : Covers (p ++ [c] ++ s) max (count + 1)
          (if depth + nesting c = 0 then some (count + 1) else best) := by
        rw [hcount']
        exact hbest.next (fun k hk hle => by omega) hnet
      by_cases hc : c = '\\'
      · -- a backslash that escapes nothing stands at the end
        cases s with
        | nil =>
            have hle := hm.le_length
            rw [List.append_nil] at hle
            exact hbest' m hm (hcount' ▸ hle)
        | cons d s => exact absurd rfl (hesc d s hc)
      · have hp' : ReadAlone (p ++ [c]) :=
          hp.append (readAlone_of_not_mem fun h => hc (List.mem_singleton.1 h).symm)
        exact ih hp' hcount' hnet hbest' hm

/-- **No cut lies behind the one that is found**, and one is found if there is any. -/
theorem exists_safeSplit?_ge {value : Text} {max m : Nat} (hm : SafeCut value max m) :
    ∃ n, safeSplit? value max = some n ∧ m ≤ n := by
  refine safeSplitFrom_covers (p := []) readAlone_nil rfl rfl (fun k hk hle => ?_) hm
  exact absurd hk.pos (Nat.not_lt.2 hle)

theorem safeSplit?_eq_none_iff {value : Text} {max : Nat} :
    safeSplit? value max = none ↔ ∀ n, ¬ SafeCut value max n := by
  constructor
  · intro h n hn
    obtain ⟨m, hm, -⟩ := exists_safeSplit?_ge hn
    rw [h] at hm
    cases hm
  · intro h
    rw [Option.eq_none_iff_forall_ne_some]
    intro n hn
    exact h n (safeCut_of_safeSplit? hn)

/-! ### Offsets in bytes -/

theorem byteLength_take_le (s : Text) {m n : Nat} (h : m ≤ n) :
    Text.byteLength (s.take m) ≤ Text.byteLength (s.take n) := by
  obtain ⟨k, rfl⟩ := Nat.exists_eq_add_of_le h
  rw [List.take_add, Text.byteLength_append]
  exact Nat.le_add_right _ _

/-- The offset of the cut that is found is the greatest one. -/
theorem isGreatest_of_safeSplit? {value : Text} {max n : Nat} (h : safeSplit? value max = some n) :
    IsGreatest (safeOffsets value max) (Text.byteLength (value.take n)) := by
  refine ⟨⟨n, safeCut_of_safeSplit? h, rfl⟩, ?_⟩
  rintro _ ⟨m, hm, rfl⟩
  obtain ⟨k, hk, hle⟩ := exists_safeSplit?_ge hm
  obtain rfl := Option.some.inj (h.symm.trans hk)
  exact byteLength_take_le value hle

theorem safeSplitOffset?_eq_some_iff {value : Text} {max offset : Nat} :
    safeSplitOffset? value max = some offset ↔ IsGreatest (safeOffsets value max) offset := by
  constructor
  · intro h
    obtain ⟨n, hn, rfl⟩ := Option.map_eq_some_iff.1 h
    exact isGreatest_of_safeSplit? hn
  · intro h
    obtain ⟨m, hm, -⟩ := h.1
    obtain ⟨n, hn, -⟩ := exists_safeSplit?_ge hm
    rw [safeSplitOffset?, hn, Option.map_some, (isGreatest_of_safeSplit? hn).unique h]

theorem safeSplitOffset?_eq_none_iff {value : Text} {max : Nat} :
    safeSplitOffset? value max = none ↔ safeOffsets value max = ∅ := by
  rw [safeSplitOffset?, Option.map_eq_none_iff, safeSplit?_eq_none_iff,
    Set.eq_empty_iff_forall_notMem]
  constructor
  · rintro h _ ⟨n, hn, -⟩
    exact h n hn
  · intro h n hn
    exact h _ ⟨n, hn, rfl⟩

/-! ### Commands in one piece -/

/-- **A command is not cut** if there is too little room for its value, or no cut within it lies
behind the part that must not be cut. -/
theorem cutPlace?_eq_none_iff {limit : Nat} {head wrap rest : Text} :
    cutPlace? limit head wrap rest = none ↔
      limit - head.length < minSplitBudget ∨
        ∀ n, SafeCut (wrap ++ rest) (limit - head.length) n → n ≤ wrap.length := by
  unfold cutPlace?
  by_cases hroom : limit - head.length < minSplitBudget
  · simp [hroom]
  · rw [if_neg hroom, Option.filter_eq_none_iff]
    constructor
    · intro h
      right
      intro n hn
      obtain ⟨m, hm, hle⟩ := exists_safeSplit?_ge hn
      have hwrap := h m hm
      rw [decide_eq_true_eq] at hwrap
      omega
    · rintro (h | h) m hm
      · exact absurd h hroom
      · rw [decide_eq_true_eq]
        exact Nat.not_lt.2 (h m (safeCut_of_safeSplit? hm))

/-- A command of an assignment that is too long is one that is not cut: the whole assignment, or one
that appends what is left of it. -/
theorem Assignment.pieces_uncut (a : Assignment) (limit : Nat) (head wrap rest : Text) {t : Text}
    (ht : t ∈ (a.pieces limit head wrap rest).1) (hlong : limit < t.length) :
    (t = head ++ (wrap ++ rest) ∧ cutPlace? limit head wrap rest = none) ∨
      ∃ left, t = a.continuationHead ++ (a.wrapper ++ left) ∧
        cutPlace? limit a.continuationHead a.wrapper left = none := by
  fun_induction Assignment.pieces a limit head wrap rest with
  | case1 head wrap rest total htotal =>
      obtain rfl := List.mem_singleton.1 ht
      simp only [List.length_append] at hlong
      omega
  | case2 head wrap rest total htotal hcut =>
      obtain rfl := List.mem_singleton.1 ht
      exact Or.inl ⟨List.append_assoc _ _ _, hcut⟩
  | case3 head wrap rest total htotal n hcut more tooLong hmore ih =>
      right
      rcases List.mem_cons.1 ht with rfl | ht
      · exact absurd (length_before_cut hcut) (Nat.not_le.2 hlong)
      · rw [hmore] at ih
        rcases ih ht with ⟨htext, huncut⟩ | hleft
        · exact ⟨_, htext, huncut⟩
        · exact hleft

/-- A command of a line that is too long is the line itself or one that appends, and is not cut. -/
theorem splitCommand_uncut {limit : Nat} {l m : Line} {a : Assignment}
    (h : Assignment.parse? l.text = some a) (hm : m ∈ (splitCommand limit l).lines)
    (hlong : isOversized limit m = true) :
    (m = l ∧ cutPlace? limit a.head [] a.value = none) ∨
      ∃ left, m.text = a.continuationHead ++ (a.wrapper ++ left) ∧
        cutPlace? limit a.continuationHead a.wrapper left = none := by
  obtain ⟨-, htext⟩ := Assignment.parse?_eq_some_iff.1 h
  obtain ⟨hover, hraw⟩ : limit < m.text.length ∧ isRawText m.text = false := by
    simpa [isOversized] using hlong
  unfold splitCommand at hm
  split at hm
  · next hfit =>
      obtain rfl := List.mem_singleton.1 hm
      simp only [hraw, Bool.or_false, decide_eq_true_eq] at hfit
      omega
  · rw [h] at hm
    obtain ⟨t, ht, rfl⟩ := List.mem_map.1 hm
    rcases a.pieces_uncut limit a.head [] a.value ht hover with ⟨rfl, huncut⟩ | hleft
    · left
      refine ⟨?_, huncut⟩
      rw [List.nil_append, ← htext]
      rfl
    · exact Or.inr hleft

/-- **The cut that is found is the last one.**  The offset at which a value is cut is the greatest
of those at which it may be cut, and there is none exactly if it may be cut nowhere.  So of the
commands that an assignment is split into, one that is beyond the limit, be it the whole
assignment or one that appends the rest to the current value, has too little room for its value,
or no place at which the value may be cut within this room and behind the current value. -/
theorem safeSplitOffset?_isGreatest (limit : Nat) (l : Line) (a : Assignment)
    (h : Assignment.parse? l.text = some a) :
    (∀ value max offset, safeSplitOffset? value max = some offset ↔
      IsGreatest (safeOffsets value max) offset) ∧
    (∀ value max, safeSplitOffset? value max = none ↔ safeOffsets value max = ∅) ∧
    ∀ m ∈ (splitCommand limit l).lines, isOversized limit m = true →
      ∃ (b : Assignment) (wrap : Text), Assignment.parse? m.text = some b ∧
        ((m = l ∧ wrap = []) ∨ ∃ left, wrap = Assignment.currentValue a.attr a.obj ∧
          b.value = wrap ++ left ∧
          m.text = Assignment.appendCommand a.delay a.attr a.obj left) ∧
        (limit - b.head.length < minSplitBudget ∨
          ∀ n, SafeCut b.value (limit - b.head.length) n → n ≤ wrap.length) := by
  refine ⟨fun value max offset => safeSplitOffset?_eq_some_iff,
    fun value max => safeSplitOffset?_eq_none_iff, ?_⟩
  intro m hm hlong
  obtain ⟨hhead, -⟩ := Assignment.parse?_eq_some_iff.1 h
  rcases splitCommand_uncut h hm hlong with ⟨rfl, huncut⟩ | ⟨left, htext, huncut⟩
  · exact ⟨a, [], h, Or.inl ⟨rfl, rfl⟩, cutPlace?_eq_none_iff.1 huncut⟩
  · have hparse : Assignment.parse? m.text =
        some ⟨a.continuationHead, a.delay, a.attr, a.obj, a.wrapper ++ left⟩ :=
      Assignment.parse?_eq_some_iff.2
        ⟨Assignment.isHead_continuationHead hhead.names, htext⟩
    refine ⟨_, a.wrapper, hparse, Or.inr ⟨left, rfl, rfl, ?_⟩, cutPlace?_eq_none_iff.1 huncut⟩
    rw [htext, Assignment.appendCommand_eq, List.append_assoc]

/-- An assignment whose last command is one pair of brackets behind the current value. -/
theorem safeSplitOffset?_isGreatest_lastCommand :
    let value := List.replicate 120 'A' ++ '[' :: List.replicate 200 'c' ++ [']']
    let l : Line := ⟨"&X me=".toList ++ value, "main", 4⟩
    let m : Line :=
      ⟨"@wait 0=&X me=[get(me/X)][".toList ++ List.replicate 200 'c' ++ [']'], "main", 4⟩
    Assignment.parse? l.text = some ⟨"&X me=".toList, ['0'], ['X'], ['m', 'e'], value⟩ ∧
      m ∈ (splitCommand 150 l).lines ∧ isOversized 150 m = true ∧
      ∃ (b : Assignment) (wrap : Text), Assignment.parse? m.text = some b ∧
        (150 - b.head.length < minSplitBudget ∨
          ∀ n, SafeCut b.value (150 - b.head.length) n → n ≤ wrap.length) := by
  intro value l m
  have h : Assignment.parse? l.text =
      some ⟨"&X me=".toList, ['0'], ['X'], ['m', 'e'], value⟩ := by decide +kernel
  have hm : m ∈ (splitCommand 150 l).lines := by decide +kernel
  have hlong : isOversized 150 m = true := by decide +kernel
  obtain ⟨b, wrap, hparse, -, huncut⟩ :=
    (safeSplitOffset?_isGreatest 150 l _ h).2.2 m hm hlong
  exact ⟨h, hm, hlong, b, wrap, hparse, huncut⟩

end Softcode
