/-
**Where values are cut, and what becomes of their nesting.**

A value is cut at a place where a single count of opening minus closing brackets is zero.  The count
does not see the kinds of brackets, so it is zero as well where a bracket of one kind is open and one
of another kind was closed without need: at the end of `[)` for instance.  What the count does tell
is exact: the depths of the three kinds add up to zero, and they are all zero unless one of them is
negative.

For a value whose brackets match this is enough.  Before a cut the brackets that are open form a
stack whose height is the count, so nothing is open, and both sides of the cut match again.  The
wrapper in front of the rest matches by itself and ends no escape pair, so the argument goes through
for the rest as it did for the value, down to the last command.

Main definitions:

* `Softcode.CleanCut` — places between units with as many opening as closing brackets before them;
* `Softcode.WellNested` — texts whose brackets match;
* `Softcode.Unbracketed` — texts without brackets and backslashes.

Main results:

* `Softcode.safeSplit?_clean` — a value is cut at such a place;
* `Softcode.safeSplitOffset?_depths` — **the depths of the three kinds at a cut**, and
  `Softcode.safeSplitOffset?_inside_bracket` — a cut inside a bracket;
* `Softcode.Assignment.pieces_nested` — the parts of a well-nested value, by recursion on what is
  left of it;
* `Softcode.splitCommand_wellNested` — **splitting keeps well-nested values well nested**, and
  divides no escape pair.
-/

import Softcode.Proofs.Brackets
import Softcode.Proofs.Splitting

set_option autoImplicit false

namespace Softcode

/-! ### Places between units -/

/-- A text that ends no escape pair of what follows it. -/
def ReadAlone (p : Text) : Prop := ∀ s, units (p ++ s) = units p ++ units s

theorem readAlone_nil : ReadAlone [] := fun _ => rfl

theorem ReadAlone.append {p q : Text} (hp : ReadAlone p) (hq : ReadAlone q) :
    ReadAlone (p ++ q) := by
  intro s
  rw [List.append_assoc, hp, hq, hp q, List.append_assoc]

theorem readAlone_escape (c : Char) : ReadAlone ['\\', c] := fun _ => rfl

theorem readAlone_of_not_mem {p : Text} (hp : '\\' ∉ p) : ReadAlone p := units_append_of_not_mem hp

/-- A place of a text between units, with as many opening as closing brackets before it. -/
structure CleanCut (value : Text) (n : Nat) : Prop where
  units_eq : units value = units (value.take n) ++ units (value.drop n)
  net_eq : Bracket.net (brackets (value.take n)) = 0

theorem CleanCut.of_append {p s : Text} (hunits : units (p ++ s) = units p ++ units s)
    (hnet : Bracket.net (brackets p) = 0) : CleanCut (p ++ s) p.length where
  units_eq := by rw [List.take_left, List.drop_left, hunits]
  net_eq := by rw [List.take_left, hnet]

/-- A place that is remembered because the depth is zero there is a clean cut. -/
theorem CleanCut.of_best {p s : Text} (hunits : units (p ++ s) = units p ++ units s) {depth : Int}
    (hdepth : depth = Bracket.net (brackets p)) {count : Nat} (hcount : count = p.length)
    {best : Option Nat} (hbest : ∀ b, best = some b → CleanCut (p ++ s) b) {b : Nat}
    (hb : (if depth = 0 then some count else best) = some b) : CleanCut (p ++ s) b := by
  split at hb
  · next hzero =>
      obtain rfl := Option.some.inj hb
      rw [hcount]
      exact CleanCut.of_append hunits (by rw [← hdepth, hzero])
  · exact hbest b hb

/-- The change of depth at a character is that of the bracket it is. -/
theorem net_ofChar? (c : Char) : Bracket.net (Bracket.ofChar? c).toList = nesting c := by
  unfold Bracket.ofChar? nesting
  by_cases h₁ : c = '['
  · simp [h₁, Bracket.sign]
  by_cases h₂ : c = ']'
  · simp [h₂, Bracket.sign]
  by_cases h₃ : c = '('
  · simp [h₃, Bracket.sign]
  by_cases h₄ : c = ')'
  · simp [h₄, Bracket.sign]
  by_cases h₅ : c = '\x7b'
  · simp [h₅, Bracket.sign]
  by_cases h₆ : c = '\x7d'
  · simp [h₆, Bracket.sign]
  simp [h₁, h₂, h₃, h₄, h₅, h₆]

theorem net_brackets_concat {p : Text} (hp : ReadAlone p) (c : Char) :
    Bracket.net (brackets (p ++ [c])) = Bracket.net (brackets p) + nesting c := by
  have hone : brackets [c] = (Bracket.ofChar? c).toList := by
    by_cases hc : c = '\\'
    · rw [hc]
      rfl
    · rw [brackets_cons hc, brackets_nil, List.append_nil]
  rw [brackets_of_units (hp [c]), Bracket.net_append, hone, net_ofChar?]

/-- The walk along a value only remembers clean cuts: `p` is what was read, and `count` and `depth`
are its length and its depth. -/
theorem safeSplitFrom_clean {max : Nat} {depth : Int} {count : Nat} {best : Option Nat}
    {p s : Text} {n : Nat} (hp : ReadAlone p) (hcount : count = p.length)
    (hdepth : depth = Bracket.net (brackets p))
    (hbest : ∀ b, best = some b → CleanCut (p ++ s) b)
    (h : safeSplitFrom max depth count best s = some n) : CleanCut (p ++ s) n := by
  fun_induction safeSplitFrom max depth count best s generalizing p with
  | case1 depth count best => exact hbest n h
  | case2 depth count best d s hmax => exact hbest n h
  | case3 depth count best d s hmax ih =>
      have hp' : ReadAlone (p ++ ['\\', d]) := hp.append (readAlone_escape d)
      have hcount' : count + 2 = (p ++ ['\\', d]).length := by simp [hcount]
      have hnet : depth = Bracket.net (brackets (p ++ ['\\', d])) := by
        rw [brackets_of_units (hp ['\\', d]), brackets_escape, brackets_nil, List.append_nil,
          hdepth]
      have happend : p ++ '\\' :: d :: s = p ++ ['\\', d] ++ s := by simp
      rw [happend] at hbest ⊢
      exact ih hp' hcount' hnet (fun b hb => .of_best (hp' s) hnet hcount' hbest hb) h
  | case4 depth count best c s hesc hmax => exact hbest n h
  | case5 depth count best c s hesc hmax ih =>
      have hcount' : count + 1 = (p ++ [c]).length := by simp [hcount]
      have hnet : depth + nesting c = Bracket.net (brackets (p ++ [c])) := by
        rw [net_brackets_concat hp, hdepth]
      have happend : p ++ c :: s = p ++ [c] ++ s := by simp
      rw [happend] at hbest ⊢
      by_cases hc : c = '\\'
      · -- a backslash that escapes nothing stands at the end
        cases s with
        | nil => exact .of_best (by simp) hnet hcount' hbest h
        | cons d s => exact absurd rfl (hesc d s hc)
      · have hp' : ReadAlone (p ++ [c]) :=
          hp.append (readAlone_of_not_mem fun h => hc (List.mem_singleton.1 h).symm)
        exact ih hp' hcount' hnet (fun b hb => .of_best (hp' s) hnet hcount' hbest hb) h

/-- **A value is cut between units, with as many opening as closing brackets before the cut.** -/
theorem safeSplit?_clean {value : Text} {max n : Nat} (h : safeSplit? value max = some n) :
    CleanCut value n :=
  safeSplitFrom_clean (p := []) readAlone_nil rfl rfl (by simp) h

/-! ### The three kinds at a cut -/

/-- **The depths of the three kinds at a cut.**  Before an offset at which a value is cut, the depths
of square brackets, parentheses and braces add up to zero, and each of them is zero exactly if none
is negative, that is if no kind was closed more often than it was opened. -/
theorem safeSplitOffset?_depths (value : Text) (max offset : Nat)
    (h : safeSplitOffset? value max = some offset) :
    ∃ p q, value = p ++ q ∧ Text.byteLength p = offset ∧
      Bracket.depth .square (brackets p) + Bracket.depth .round (brackets p) +
        Bracket.depth .curly (brackets p) = 0 ∧
      ((∀ k, Bracket.depth k (brackets p) = 0) ↔ ∀ k, 0 ≤ Bracket.depth k (brackets p)) := by
  obtain ⟨n, hn, hoffset⟩ := Option.map_eq_some_iff.1 h
  have hsum := (safeSplit?_clean hn).net_eq
  rw [Bracket.net_eq_sum_depth] at hsum
  refine ⟨value.take n, value.drop n, (List.take_append_drop n value).symm, hoffset, hsum, ?_⟩
  constructor
  · intro hzero k
    exact Int.le_of_eq (hzero k).symm
  · intro hpos k
    have hsquare := hpos .square
    have hround := hpos .round
    have hcurly := hpos .curly
    cases k <;> omega

/-- A value with a stray parenthesis, which is cut behind two balanced brackets. -/
theorem safeSplitOffset?_depths_stray :
    safeSplitOffset? ['[', 'a', ']', '(', ')', ')'] 5 = some 5 ∧
      ∃ p q, ['[', 'a', ']', '(', ')', ')'] = p ++ q ∧ Text.byteLength p = 5 ∧
        Bracket.depth .square (brackets p) + Bracket.depth .round (brackets p) +
          Bracket.depth .curly (brackets p) = 0 := by
  have h : safeSplitOffset? ['[', 'a', ']', '(', ')', ')'] 5 = some 5 := by decide
  obtain ⟨p, q, hvalue, hoffset, hsum, -⟩ := safeSplitOffset?_depths _ _ _ h
  exact ⟨h, p, q, hvalue, hoffset, hsum⟩

/-- **A cut inside a bracket**: at the end of `[)` a square bracket is open, but a parenthesis that
nothing opened makes up for it. -/
theorem safeSplitOffset?_inside_bracket :
    safeSplitOffset? ['[', ')'] 2 = some (Text.byteLength ['[', ')']) ∧
      Bracket.depth .square (brackets ['[', ')']) = 1 ∧
      Bracket.depth .round (brackets ['[', ')']) = -1 := by
  decide

/-! ### Well-nested texts -/

/-- A text whose brackets, outside escape pairs, match. -/
def WellNested (s : Text) : Prop := Matched (brackets s)

instance (s : Text) : Decidable (WellNested s) := inferInstanceAs (Decidable (Matched _))

/-- A text without brackets and backslashes. -/
def Unbracketed (s : Text) : Prop := ∀ c ∈ s, c ≠ '\\' ∧ Bracket.ofChar? c = none

theorem Unbracketed.not_mem {s : Text} (hs : Unbracketed s) : '\\' ∉ s :=
  fun h => (hs _ h).1 rfl

theorem WellNested.append {p s : Text} (hp : ReadAlone p) (h : WellNested p)
    (hs : WellNested s) : WellNested (p ++ s) := by
  rw [WellNested, brackets_of_units (hp s)]
  exact Matched.append h hs

/-- **Both sides of a clean cut of a well-nested text are well nested.** -/
theorem WellNested.split {p s : Text} (h : WellNested (p ++ s))
    (hunits : units (p ++ s) = units p ++ units s) (hnet : Bracket.net (brackets p) = 0) :
    WellNested p ∧ WellNested s := by
  rw [WellNested, brackets_of_units hunits] at h
  exact Matched.split h hnet

/-- The wrapper stands on its own: it ends no escape pair, and its brackets match. -/
theorem wrapper_wellNested {a : Assignment} (hattr : Unbracketed a.attr)
    (hobj : Unbracketed a.obj) : ReadAlone a.wrapper ∧ WellNested a.wrapper := by
  have hopen : ReadAlone "[get(".toList := readAlone_of_not_mem (by decide)
  have hobj' : ReadAlone a.obj := readAlone_of_not_mem hobj.not_mem
  have hslash : ReadAlone ['/'] := readAlone_of_not_mem (by decide)
  have hattr' : ReadAlone a.attr := readAlone_of_not_mem hattr.not_mem
  have hclose : ReadAlone [')', ']'] := readAlone_of_not_mem (by decide)
  have halone : ReadAlone ("[get(".toList ++ a.obj ++ ['/'] ++ a.attr) :=
    ((hopen.append hobj').append hslash).append hattr'
  refine ⟨halone.append hclose, ?_⟩
  have hbrackets : brackets a.wrapper = brackets "[get(".toList ++ brackets [')', ']'] := by
    unfold Assignment.wrapper
    rw [brackets_of_units (halone [')', ']']),
      brackets_of_units (((hopen.append hobj').append hslash) a.attr),
      brackets_of_units ((hopen.append hobj') ['/']), brackets_of_units (hopen a.obj),
      brackets_eq_nil hobj, brackets_eq_nil hattr]
    rfl
  rw [WellNested, hbrackets]
  decide

/-! ### The parts of a well-nested value -/

/-- A cut behind a wrapper that stands on its own divides what follows the wrapper into two
well-nested parts, between units. -/
theorem cutPlace?_nested {limit n : Nat} {head wrap part left : Text}
    (hcut : cutPlace? limit head wrap (part ++ left) = some n)
    (htake : (wrap ++ (part ++ left)).take n = wrap ++ part) (hwrap : ReadAlone wrap)
    (hwrap' : WellNested wrap) (h : WellNested (part ++ left)) :
    units (part ++ left) = units part ++ units left ∧ WellNested part ∧ WellNested left := by
  unfold cutPlace? at hcut
  split at hcut
  · cases hcut
  · obtain ⟨hclean, -⟩ := Option.filter_eq_some_iff.1 hcut
    obtain ⟨hunits, hnet⟩ := safeSplit?_clean hclean
    have hdrop : (wrap ++ (part ++ left)).drop n = left := by
      have hall := List.take_append_drop n (wrap ++ (part ++ left))
      rw [htake, List.append_assoc] at hall
      exact List.append_cancel_left (List.append_cancel_left hall)
    rw [htake, hdrop, hwrap, hwrap, List.append_assoc] at hunits
    have hunits' := List.append_cancel_left hunits
    have hpart : Bracket.net (brackets part) = 0 := by
      rw [htake, brackets_of_units (hwrap part), Bracket.net_append, hwrap'.net_eq_zero] at hnet
      omega
    exact ⟨hunits', h.split hunits' hpart⟩

/-- **The parts of a well-nested value** are well nested, and no escape pair is divided between two
of them, by recursion on what is left of the value. -/
theorem Assignment.pieces_nested (a : Assignment) (hattr : Unbracketed a.attr)
    (hobj : Unbracketed a.obj) (limit : Nat) (head wrap rest : Text) (hwrap : ReadAlone wrap)
    (hwrap' : WellNested wrap) (hrest : WellNested rest) :
    ∃ first more, IsSplit a (head ++ wrap) rest (a.pieces limit head wrap rest).1 first more ∧
      units rest = units first ++ more.flatMap units ∧
      ∀ part ∈ first :: more, WellNested part := by
  fun_induction Assignment.pieces a limit head wrap rest with
  | case1 head wrap rest total htotal =>
      exact ⟨rest, [], .one a (head ++ wrap) rest, by simp, by simpa using hrest⟩
  | case2 head wrap rest total htotal hcut =>
      exact ⟨rest, [], .one a (head ++ wrap) rest, by simp, by simpa using hrest⟩
  | case3 head wrap rest total htotal n hcut more tooLong hmore ih =>
      obtain ⟨part, left, rfl, hpart, hleft, htake, hdrop⟩ := cutPlace?_parts hcut htotal
      obtain ⟨hunits, hpart', hleft'⟩ := cutPlace?_nested hcut htake hwrap hwrap' hrest
      -- what is left stands behind a wrapper of its own
      obtain ⟨halone, hmatched⟩ := wrapper_wellNested hattr hobj
      rw [hdrop] at ih hmore
      obtain ⟨first, more', hsplit, hrestUnits, hnested⟩ := ih halone hmatched hleft'
      rw [hmore] at hsplit
      refine ⟨part, first :: more', ?_, ?_, ?_⟩
      · rw [htake, ← List.append_assoc]
        exact hsplit.cons hleft (head ++ wrap) part hpart
      · rw [hunits, hrestUnits, List.flatMap_cons]
      · intro q hq
        rcases List.mem_cons.1 hq with rfl | hq
        · exact hpart'
        · exact hnested q hq

/-! ### The commands of a line -/

/-- The values of commands that set an attribute part by part are well nested if the parts are. -/
theorem IsSplit.value_wellNested {a : Assignment}
    (hh : Assignment.IsHead a.delay a.attr a.obj a.head) (hattr : Unbracketed a.attr)
    (hobj : Unbracketed a.obj) {value first : Text} {texts more : List Text}
    (h : IsSplit a a.head value texts first more)
    (hparts : ∀ part ∈ first :: more, WellNested part) :
    ∀ text ∈ texts, ∃ b, Assignment.parse? text = some b ∧ WellNested b.value := by
  intro text htext
  rw [h.texts_eq] at htext
  rcases List.mem_cons.1 htext with rfl | htext
  · refine ⟨{ a with value := first }, Assignment.parse?_eq_some_iff.2 ⟨hh, rfl⟩, ?_⟩
    exact hparts first List.mem_cons_self
  · obtain ⟨part, hpart, rfl⟩ := List.mem_map.1 htext
    obtain ⟨head, hparse⟩ := Assignment.parse?_appendCommand hh.names part
    obtain ⟨halone, hmatched⟩ := wrapper_wellNested hattr hobj
    refine ⟨_, hparse, ?_⟩
    exact WellNested.append halone hmatched (hparts part (List.mem_cons_of_mem _ hpart))

/-- A line that is an assignment of a well-nested value is split into commands of well-nested parts,
between units. -/
theorem splitCommand_nested (limit : Nat) {l : Line} {a : Assignment}
    (h : Assignment.parse? l.text = some a) (hvalue : WellNested a.value)
    (hattr : Unbracketed a.attr) (hobj : Unbracketed a.obj) :
    ∃ texts first more, (splitCommand limit l).lines = texts.map l.withText ∧
      IsSplit a a.head a.value texts first more ∧
      units a.value = units first ++ more.flatMap units ∧
      ∀ part ∈ first :: more, WellNested part := by
  obtain ⟨texts, hlines, rfl | rfl⟩ := splitCommand_lines limit h
  · exact ⟨_, a.value, [], hlines, .one a a.head a.value, by simp, by simpa using hvalue⟩
  · obtain ⟨first, more, hsplit, hunits, hparts⟩ :=
      a.pieces_nested hattr hobj limit a.head [] a.value readAlone_nil Matched.nil hvalue
    rw [List.append_nil] at hsplit
    exact ⟨_, first, more, hlines, hsplit, hunits, hparts⟩

/-- **Splitting keeps well-nested values well nested.**  Let a line be an assignment of a well-nested
value whose attribute and object have neither brackets nor backslashes.  Whatever the limit, every
line that it is split into is an assignment of a well-nested value again, wrapper included; and the
units of the value are those of its parts, one after the other, so no escape pair is divided between
two lines. -/
theorem splitCommand_wellNested (limit : Nat) (l : Line) (a : Assignment)
    (h : Assignment.parse? l.text = some a) (hvalue : WellNested a.value)
    (hattr : Unbracketed a.attr) (hobj : Unbracketed a.obj) :
    (∀ m ∈ (splitCommand limit l).lines,
      ∃ b, Assignment.parse? m.text = some b ∧ WellNested b.value) ∧
    ∃ (first : Text) (more : List Text),
      (splitCommand limit l).lines.map (·.text) =
        (a.head ++ first) :: more.map (Assignment.appendCommand a.delay a.attr a.obj) ∧
      first ++ more.flatten = a.value ∧
      units a.value = units first ++ more.flatMap units := by
  obtain ⟨hh, -⟩ := Assignment.parse?_eq_some_iff.1 h
  obtain ⟨texts, first, more, hlines, hsplit, hunits, hparts⟩ :=
    splitCommand_nested limit h hvalue hattr hobj
  constructor
  · intro m hm
    rw [hlines] at hm
    obtain ⟨text, htext, rfl⟩ := List.mem_map.1 hm
    exact hsplit.value_wellNested hh hattr hobj hparts text htext
  · refine ⟨first, more, ?_, hsplit.joined, hunits⟩
    rw [← hsplit.texts_eq, hlines, List.map_map]
    exact List.map_id texts

/-- A value of `[f(x)\)]`, over and over. -/
def nestedValue : Nat → Text
  | 0 => []
  | n + 1 => ['[', 'f', '(', 'x', ')', '\\', ')', ']'] ++ nestedValue n

/-- A command with escape pairs that is longer than its limit is cut between two brackets. -/
theorem splitCommand_wellNested_escapes :
    Assignment.parse? ("&D o=".toList ++ nestedValue 20) =
      some ⟨"&D o=".toList, ['0'], ['D'], ['o'], nestedValue 20⟩ ∧
    WellNested (nestedValue 20) ∧
    (∀ m ∈ (splitCommand 120 ⟨"&D o=".toList ++ nestedValue 20, "main", 1⟩).lines,
      ∃ b, Assignment.parse? m.text = some b ∧ WellNested b.value) ∧
    (splitCommand 120 ⟨"&D o=".toList ++ nestedValue 20, "main", 1⟩).lines.map (·.text) =
      ["&D o=".toList ++ nestedValue 14, "@wait 0=&D o=[get(o/D)]".toList ++ nestedValue 6] := by
  have h : Assignment.parse? ("&D o=".toList ++ nestedValue 20) =
      some ⟨"&D o=".toList, ['0'], ['D'], ['o'], nestedValue 20⟩ := by
    decide +kernel
  have hvalue : WellNested (nestedValue 20) := by decide +kernel
  have hname : ∀ {c : Char}, c ≠ '\\' ∧ Bracket.ofChar? c = none → Unbracketed [c] := by
    intro c hc d hd
    rwa [List.mem_singleton.1 hd]
  have hlines := splitCommand_wellNested 120 ⟨"&D o=".toList ++ nestedValue 20, "main", 1⟩ _ h
    hvalue (hname (by decide)) (hname (by decide))
  exact ⟨h, hvalue, hlines.1, by decide +kernel⟩

end Softcode
