/-
**Self-checks are read back.**

The author writes a check as a block with a name and two sides, and the sides go over as many lines
as they need.  What is compiled is a single command, so everything rests on the block being read as
it was meant: the first side ends at the brace that closes it and not at one inside it, the two
sides lose nothing but the blanks at the ends of their lines, and the lines behind the block are
left to themselves.

The reader goes over marks, which are the characters of the lines and the ends of lines, and a line
end may have been written with a carriage return that is in no line.  The two matters are kept
apart.  The texts that the author wrote and the texts that the marks read as differ only in such
carriage returns (`DropsReturns`), which change neither the braces nor the trimmed lines of a text.
Behind that, marks and characters correspond one to one.

Main definitions:

* `Softcode.SelfCheck.ClosesBraces`, `Softcode.SelfCheck.BalancedBraces` — the braces of a side;
* `Softcode.SelfCheck.trimmedLines` — the lines of a side, trimmed and put together;
* `Softcode.SelfCheck.DropsReturns` — a text without some of the carriage returns in its line ends;
* `Softcode.SelfCheck.opener`, `Softcode.SelfCheck.sides` — the two parts of a block.

Main results:

* `Softcode.SelfCheck.balanced_append` — a side is read up to the brace that closes it;
* `Softcode.SelfCheck.joinSide_eq_trimmedLines` — what becomes of the lines of a side;
* `Softcode.SelfCheck.parse?_block` — the check that a block says;
* `Softcode.SelfCheck.expand_block` — **a block among other lines becomes its command**.
-/

import Mathlib.Data.List.Infix
import Softcode.Proofs.Brackets
import Softcode.Proofs.Text
import Softcode.SelfCheck

set_option autoImplicit false

namespace Softcode

namespace SelfCheck

/-! ### Braces -/

/-- A text behind `d` open braces that closes these and no others.  Outside escape pairs, the depth
never falls below zero and is zero at the end, and the text does not end inside an escape pair. -/
structure ClosesBraces (d : Nat) (s : Text) : Prop where
  nonneg : ∀ w, w <+: brackets s → 0 ≤ d + Bracket.depth .curly w
  closed : d + Bracket.depth .curly (brackets s) = 0
  whole : ['\\'] ∉ units s

theorem closesBraces_iff {d : Nat} {s : Text} :
    ClosesBraces d s ↔ (∀ w ∈ (brackets s).inits, 0 ≤ d + Bracket.depth .curly w) ∧
      d + Bracket.depth .curly (brackets s) = 0 ∧ (units s).contains ['\\'] = false := by
  have hinits : ∀ w, w ∈ (brackets s).inits ↔ w <+: brackets s := fun w => List.mem_inits w _
  have hwhole : (units s).contains ['\\'] = false ↔ ['\\'] ∉ units s := by simp
  rw [hwhole]
  constructor
  · exact fun h => ⟨fun w hw => h.nonneg w ((hinits w).1 hw), h.closed, h.whole⟩
  · exact fun h => ⟨fun w hw => h.1 w ((hinits w).2 hw), h.2.1, h.2.2⟩

instance (d : Nat) (s : Text) : Decidable (ClosesBraces d s) :=
  decidable_of_iff _ closesBraces_iff.symm

/-- **A text with balanced braces.** -/
def BalancedBraces (s : Text) : Prop := ClosesBraces 0 s

instance (s : Text) : Decidable (BalancedBraces s) := inferInstanceAs (Decidable (ClosesBraces 0 s))

/-- Only braces change the depth of braces. -/
theorem depth_curly_ofChar? {c : Char} (hopen : c ≠ '\x7b') (hclose : c ≠ '\x7d') :
    Bracket.depth .curly (Bracket.ofChar? c).toList = 0 := by
  unfold Bracket.ofChar?
  rw [if_neg hopen, if_neg hclose]
  split_ifs <;> rfl

theorem backslash_mem_units_escape {c : Char} {s : Text} :
    ['\\'] ∈ units ('\\' :: c :: s) ↔ ['\\'] ∈ units s := by
  rw [units_escape, List.mem_cons]
  exact or_iff_right (by simp)

theorem backslash_mem_units_cons {c : Char} (hc : c ≠ '\\') {s : Text} :
    ['\\'] ∈ units (c :: s) ↔ ['\\'] ∈ units s := by
  rw [units_cons hc, List.mem_cons]
  exact or_iff_right fun h => hc (List.singleton_inj.1 h).symm

theorem ClosesBraces.behind_escape {d : Nat} {c : Char} {s : Text}
    (h : ClosesBraces d ('\\' :: c :: s)) : ClosesBraces d s :=
  ⟨h.nonneg, h.closed, backslash_mem_units_escape.not.1 h.whole⟩

/-- Behind a character, the text closes the braces that are open there. -/
theorem ClosesBraces.behind_char {d e : Nat} {c : Char} {s : Text} (hc : c ≠ '\\')
    (h : ClosesBraces d (c :: s))
    (he : (e : Int) = d + Bracket.depth .curly (Bracket.ofChar? c).toList) : ClosesBraces e s := by
  obtain ⟨hnonneg, hclosed, hwhole⟩ := h
  rw [brackets_cons hc] at hnonneg hclosed
  refine ⟨fun w hw => ?_, ?_, (backslash_mem_units_cons hc).not.1 hwhole⟩
  · have hw' := hnonneg _ ((List.prefix_append_right_inj _).2 hw)
    rw [Bracket.depth_append] at hw'
    omega
  · rw [Bracket.depth_append] at hclosed
    omega

/-- A closing brace closes one that is open. -/
theorem ClosesBraces.exists_open {d : Nat} {s : Text} (h : ClosesBraces d ('\x7d' :: s)) :
    ∃ e, d = e + 1 := by
  have hbrackets : brackets ('\x7d' :: s) = [.closing .curly] ++ brackets s :=
    brackets_cons (by decide) s
  have hdepth : (0 : Int) ≤ d + (-1 + 0) :=
    h.nonneg [.closing .curly] (hbrackets ▸ List.prefix_append _ _)
  exact ⟨d - 1, by omega⟩

/-! ### Marks -/

theorem eq_some_of_char {m : Mark} {c : Char} (h : Mark.char m = c) (hc : c ≠ '\n') :
    m = some c := by
  cases m with
  | none => exact absurd h.symm hc
  | some d => exact congrArg some h

/-- Marks that read as a text without line feeds are its characters. -/
theorem exists_of_map_char {t u : Text} (ht : '\n' ∉ t) {ms : List Mark}
    (h : ms.map Mark.char = t ++ u) : ∃ ms', ms = t.map some ++ ms' ∧ ms'.map Mark.char = u := by
  obtain ⟨ts, ms', rfl, hts, hms'⟩ := List.map_eq_append_iff.1 h
  refine ⟨ms', ?_, hms'⟩
  subst hts
  rw [List.map_map, List.append_cancel_right_eq]
  refine (List.map_id ts).symm.trans (List.map_congr_left fun m hm => ?_)
  exact eq_some_of_char rfl fun hc => ht (hc ▸ List.mem_map_of_mem hm)

theorem marks_append_right (r : Text) (ls later : List Line) :
    marks r (ls ++ later) = marks r ls ++ marks [] later := by
  rw [marks, marks, marks, List.flatMap_append, List.append_assoc, List.map_nil, List.nil_append]

/-- The marks of lines read as these lines, separated by line feeds. -/
theorem map_char_marks (r : Text) (ls : List Line) :
    (marks r ls).map Mark.char = Text.join ['\n'] (r :: ls.map (·.text)) := by
  have hsome : ∀ s : Text, (s.map some).map Mark.char = s := fun s => by
    rw [List.map_map]
    exact List.map_id s
  induction ls generalizing r with
  | nil => rw [marks, List.flatMap_nil, List.append_nil, hsome]; rfl
  | cons l ls ih =>
      have hmarks : marks r (l :: ls) = r.map some ++ none :: marks l.text ls := by
        rw [marks, marks, List.flatMap_cons, List.cons_append]
      rw [hmarks, List.map_append, hsome, List.map_cons, ih, List.map_cons, Text.join,
        List.append_assoc]
      rfl

/-- Every line but the first begins behind a line end. -/
theorem lineEnds_marks (r : Text) (ls : List Line) : lineEnds (marks r ls) = ls.length := by
  have hsome : ∀ s : Text, (s.map some).count none = 0 := fun s =>
    List.count_eq_zero.2 fun h => by simp at h
  induction ls with
  | nil => rw [lineEnds, marks, List.flatMap_nil, List.append_nil, hsome]; rfl
  | cons l ls ih =>
      rw [lineEnds, marks, List.count_append, hsome] at ih ⊢
      rw [List.flatMap_cons, List.cons_append, List.count_cons_self, List.count_append, hsome, ih,
        List.length_cons, Nat.zero_add]

theorem restIsBlank_marks_nil (ls : List Line) : restIsBlank (marks [] ls) = true := by
  cases ls <;> rfl

theorem skipBlanks_space {c : Char} (hc : isBlank c = false) (ms : List Mark) :
    skipBlanks (some ' ' :: some c :: ms) = some c :: ms := by
  have hmark : isBlank (Mark.char (some c)) = false := hc
  rw [skipBlanks, List.dropWhile_cons_of_pos (by decide),
    List.dropWhile_cons_of_neg (by rw [hmark]; exact Bool.false_ne_true)]

theorem eat?_append (t : Text) (ms : List Mark) : eat? t (t.map some ++ ms) = some ms := by
  induction t with
  | nil => cases ms <;> rfl
  | cons c t ih => rw [List.map_cons, List.cons_append, eat?, if_pos rfl, ih]

/-! ### Reading a side -/

theorem balanced_close (d : Nat) (ms : List Mark) :
    balanced (d + 1) (some '\x7d' :: ms) =
      (balanced d ms).map fun (t, r) => ('\x7d' :: t, r) := rfl

theorem balanced_open (d : Nat) (ms : List Mark) :
    balanced d (some '\x7b' :: ms) =
      (balanced (d + 1) ms).map fun (t, r) => ('\x7b' :: t, r) := rfl

theorem balanced_char {m : Mark} (hescape : m ≠ some '\\') (hclose : m ≠ some '\x7d')
    (hopen : m ≠ some '\x7b') (d : Nat) (ms : List Mark) :
    balanced d (m :: ms) = (balanced d ms).map fun (t, r) => (Mark.char m :: t, r) := by
  have hpair : ∀ m' ms', m = some '\\' → ms = m' :: ms' → False := fun _ _ h _ => hescape h
  cases d with
  | zero => rw [balanced, if_neg hclose, if_neg hopen]; exact hpair
  | succ d => rw [balanced, if_neg hclose, if_neg hopen]; exact hpair

/-- **A side is read up to the brace that closes it.** -/
theorem balanced_append {d : Nat} {s : Text} (h : ClosesBraces d s) {ms : List Mark}
    (hms : ms.map Mark.char = s) (rest : List Mark) :
    balanced d (ms ++ some '\x7d' :: rest) = some (s, rest) := by
  -- along the units of the text: `d` braces are open in front of each of them
  fun_induction units s generalizing d ms with
  | case1 =>
      have hd : d = 0 := by simpa [Bracket.depth] using h.closed
      rw [List.map_eq_nil_iff.1 hms, hd]
      rfl
  | case2 c s ih =>
      obtain ⟨ms, rfl, hrest⟩ := exists_of_map_char (t := ['\\']) (by decide) hms
      obtain ⟨m, ms, rfl, rfl, hms'⟩ := List.map_eq_cons_iff.1 hrest
      have hread := ih h.behind_escape hms'
      exact congrArg (Option.map fun (t, r) => ('\\' :: Mark.char m :: t, r)) hread
  | case3 c s hpair ih =>
      have hc : c ≠ '\\' := by
        rintro rfl
        cases s with
        | nil => exact h.whole List.mem_cons_self
        | cons c' s => exact hpair c' s rfl rfl
      obtain ⟨m, ms, rfl, rfl, hms'⟩ := List.map_eq_cons_iff.1 hms
      have hm : m ≠ some '\\' := fun heq => hc (congrArg Mark.char heq)
      rw [List.cons_append]
      by_cases hclose : m = some '\x7d'
      · subst hclose
        obtain ⟨e, rfl⟩ := h.exists_open
        have hdepth : (e : Int) = (e + 1 : Nat) + (-1 + 0) := by omega
        rw [balanced_close, ih (h.behind_char hc hdepth) hms']
        rfl
      · by_cases hopen : m = some '\x7b'
        · subst hopen
          rw [balanced_open, ih (h.behind_char hc (e := d + 1) rfl) hms']
          rfl
        · have hzero := depth_curly_ofChar? (c := Mark.char m)
            (fun heq => hopen (eq_some_of_char heq (by decide)))
            (fun heq => hclose (eq_some_of_char heq (by decide)))
          rw [balanced_char hm hclose hopen,
            ih (h.behind_char hc (e := d) (by rw [hzero, Int.add_zero])) hms']
          rfl

/-! ### The lines of a side -/

/-- **The lines of a text**, cut at line feeds, **trimmed and put together**. -/
def trimmedLines (s : Text) : Text := (Text.splitOn '\n' s).flatMap Text.trim

/-- The trimmed lines of `p ++ s`, where no line ends inside of `p`. -/
def trimmedBehind (p s : Text) : Text :=
  ((Text.splitOn '\n' s).modifyHead (p ++ ·)).flatMap Text.trim

theorem trimmedBehind_nil (p : Text) : trimmedBehind p [] = Text.trim p := by
  have hparts : Text.splitOn '\n' [] = [[]] := rfl
  rw [trimmedBehind, hparts, List.modifyHead_cons, List.flatMap_singleton, List.append_nil]

theorem trimmedBehind_lineFeed (p s : Text) :
    trimmedBehind p ('\n' :: s) = Text.trim p ++ trimmedLines s := by
  rw [trimmedBehind, Text.splitOn_cons, if_pos rfl, List.modifyHead_cons, List.flatMap_cons,
    List.append_nil, trimmedLines]

theorem trimmedBehind_char {c : Char} (hc : c ≠ '\n') (p s : Text) :
    trimmedBehind p (c :: s) = trimmedBehind (p ++ [c]) s := by
  rw [trimmedBehind, trimmedBehind, Text.splitOn_cons, if_neg hc, List.modifyHead_modifyHead]
  simp only [Function.comp_def, List.append_assoc, List.singleton_append]

theorem trimmedBehind_empty (s : Text) : trimmedBehind [] s = trimmedLines s := by
  rw [trimmedBehind, trimmedLines]
  cases Text.splitOn '\n' s <;> rfl

/-- A carriage return before a line feed is trimmed with its line. -/
theorem trimmedBehind_return (p s : Text) :
    trimmedBehind p ('\r' :: '\n' :: s) = trimmedBehind p ('\n' :: s) := by
  have hblank : Text.AllBlank ['\r'] := by decide
  rw [trimmedBehind_char (by decide), trimmedBehind_lineFeed, trimmedBehind_lineFeed,
    Text.trim_append_blanks hblank]

/-- What is read of a side is what its trimmed lines have. -/
theorem joinSide_eq_trimmedLines (s : Text) : joinSide s = trimmedLines s := by
  have hlines : ∀ current t : Text,
      (Text.linesFrom current t).flatMap Text.trim = trimmedBehind current.reverse t := by
    intro current t
    fun_induction Text.linesFrom current t with
    | case1 current hempty =>
        rw [trimmedBehind_nil, List.isEmpty_iff.1 hempty]
        rfl
    | case2 current hempty =>
        rw [trimmedBehind_nil, List.flatMap_singleton]
    | case3 current t ih =>
        rw [List.flatMap_cons, ih, trimmedBehind_return, trimmedBehind_lineFeed,
          List.reverse_nil, trimmedBehind_empty]
    | case4 current t ih =>
        rw [List.flatMap_cons, ih, trimmedBehind_lineFeed, List.reverse_nil, trimmedBehind_empty]
    | case5 current c t _ hc ih =>
        rw [ih, List.reverse_cons, ← trimmedBehind_char hc]
  rw [joinSide, Text.lines, hlines, List.reverse_nil, trimmedBehind_empty]

/-! ### Line ends with a carriage return -/

/-- **`t` is `s` without some of the carriage returns that stand before a line feed.** -/
inductive DropsReturns : Text → Text → Prop where
  | nil : DropsReturns [] []
  | keep (c : Char) {s t : Text} (h : DropsReturns s t) : DropsReturns (c :: s) (c :: t)
  | drop {s t : Text} (h : DropsReturns s t) : DropsReturns ('\r' :: '\n' :: s) ('\n' :: t)

namespace DropsReturns

theorem refl (s : Text) : DropsReturns s s := by
  induction s with
  | nil => exact .nil
  | cons c s ih => exact .keep c ih

/-- A text is taken apart at a character that is in no line end. -/
theorem exists_append {s u t : Text} {c : Char} (hreturn : c ≠ '\r') (hfeed : c ≠ '\n')
    (h : DropsReturns (s ++ c :: u) t) :
    ∃ s' u', t = s' ++ c :: u' ∧ DropsReturns s s' ∧ DropsReturns u u' := by
  generalize hwhole : s ++ c :: u = whole at h
  induction h generalizing s with
  | nil => exact absurd hwhole (by simp)
  | @keep d v t h ih =>
      cases s with
      | nil =>
          obtain ⟨rfl, rfl⟩ := List.cons_eq_cons.1 hwhole
          exact ⟨[], t, rfl, .nil, h⟩
      | cons d' s =>
          obtain ⟨rfl, hrest⟩ := List.cons_eq_cons.1 hwhole
          obtain ⟨s', u', rfl, hs, hu⟩ := ih hrest
          exact ⟨d' :: s', u', rfl, .keep d' hs, hu⟩
  | @drop v t h ih =>
      match s with
      | [] => exact absurd (List.cons_eq_cons.1 hwhole).1 hreturn
      | [_] =>
          have hrest := (List.cons_eq_cons.1 hwhole).2
          exact absurd (List.cons_eq_cons.1 hrest).1 hfeed
      | _ :: _ :: s =>
          obtain ⟨rfl, hbehind⟩ := List.cons_eq_cons.1 hwhole
          obtain ⟨rfl, hrest⟩ := List.cons_eq_cons.1 hbehind
          obtain ⟨s', u', rfl, hs, hu⟩ := ih hrest
          exact ⟨'\n' :: s', u', rfl, .drop hs, hu⟩

theorem trimmedLines_eq {s t : Text} (h : DropsReturns s t) : trimmedLines t = trimmedLines s := by
  have hbehind : ∀ p, trimmedBehind p t = trimmedBehind p s := by
    induction h with
    | nil => exact fun _ => rfl
    | @keep c s t _ ih =>
        intro p
        by_cases hc : c = '\n'
        · rw [hc, trimmedBehind_lineFeed, trimmedBehind_lineFeed, ← trimmedBehind_empty, ih,
            trimmedBehind_empty]
        · rw [trimmedBehind_char hc, trimmedBehind_char hc, ih]
    | drop _ ih =>
        intro p
        rw [trimmedBehind_return, trimmedBehind_lineFeed, trimmedBehind_lineFeed,
          ← trimmedBehind_empty, ih, trimmedBehind_empty]
  rw [← trimmedBehind_empty, hbehind, trimmedBehind_empty]

/-- The parts of a text that are in no line end are kept. -/
theorem exists_append_text {s u v t : Text} (hreturn : '\r' ∉ u) (hfeed : '\n' ∉ u) (hne : u ≠ [])
    (h : DropsReturns (s ++ (u ++ v)) t) :
    ∃ s' v', t = s' ++ (u ++ v') ∧ DropsReturns s s' ∧ DropsReturns v v' := by
  induction u generalizing s t with
  | nil => exact absurd rfl hne
  | cons c u ih =>
      obtain ⟨hc, hreturn⟩ := List.ne_and_not_mem_of_not_mem_cons hreturn
      obtain ⟨hc', hfeed⟩ := List.ne_and_not_mem_of_not_mem_cons hfeed
      obtain ⟨s', w, rfl, hs, hw⟩ := exists_append hc.symm hc'.symm h
      cases u with
      | nil => exact ⟨s', w, rfl, hs, hw⟩
      | cons d u =>
          obtain ⟨empty, v', rfl, hempty, hv⟩ := ih (s := []) hreturn hfeed (by simp) hw
          cases hempty
          exact ⟨s', v', rfl, hs, hv⟩

/-- Line ends have no brackets, and a text ends inside an escape pair or not whatever they are. -/
theorem brackets_eq {s t : Text} (h : DropsReturns s t) :
    brackets t = brackets s ∧ (['\\'] ∈ units t ↔ ['\\'] ∈ units s) := by
  have hreturn : ∀ s : Text, brackets ('\r' :: s) = brackets s := brackets_cons (by decide)
  have hfeed : ∀ s : Text, brackets ('\n' :: s) = brackets s := brackets_cons (by decide)
  induction s using units.induct generalizing t with
  | case1 =>
      cases h
      exact ⟨rfl, .rfl⟩
  | case2 c s ih =>
      obtain _ | ⟨-, h⟩ := h
      cases h with
      | keep c h =>
          rw [brackets_escape, brackets_escape, backslash_mem_units_escape,
            backslash_mem_units_escape]
          exact ih h
      | @drop s t h =>
          -- the backslash stands before the carriage return in one text, before the line feed in
          -- the other
          have hsame := ih (.keep '\n' h)
          rw [hfeed t, backslash_mem_units_cons (by decide)] at hsame
          rw [brackets_escape, brackets_escape, backslash_mem_units_escape,
            backslash_mem_units_escape]
          exact hsame
  | case3 c s hpair ih =>
      by_cases hc : c = '\\'
      · subst hc
        cases s with
        | nil =>
            obtain _ | ⟨-, _ | _⟩ := h
            exact ⟨rfl, .rfl⟩
        | cons d s => exact (hpair d s rfl rfl).elim
      · cases h with
        | keep c h =>
            rw [brackets_cons hc, brackets_cons hc, backslash_mem_units_cons hc,
              backslash_mem_units_cons hc, (ih h).1]
            exact ⟨rfl, (ih h).2⟩
        | @drop s t h =>
            rw [hreturn, backslash_mem_units_cons hc]
            exact ih (.keep '\n' h)

theorem closesBraces {s t : Text} (h : DropsReturns s t) {d : Nat} (hs : ClosesBraces d s) :
    ClosesBraces d t := by
  obtain ⟨hbrackets, hunits⟩ := h.brackets_eq
  obtain ⟨hnonneg, hclosed, hwhole⟩ := hs
  rw [← hbrackets] at hnonneg hclosed
  exact ⟨hnonneg, hclosed, hunits.not.2 hwhole⟩

end DropsReturns

/-! ### Blocks -/

/-- The beginning of a block, up to the brace that opens its first side. -/
def opener (name : Text) : Text := "@test \"".toList ++ name ++ "\" \x7b".toList

/-- The rest of a block, with its two sides. -/
def sides (body expected : Text) : Text :=
  body ++ "\x7d expect \x7b".toList ++ expected ++ ['\x7d']

theorem opener_append (name r : Text) :
    opener name ++ r = testKeyword ++ ' ' :: '"' :: (name ++ '"' :: ' ' :: '\x7b' :: r) := by
  have hfront : "@test \"".toList = testKeyword ++ [' ', '"'] := rfl
  have hback : "\" \x7b".toList = ['"', ' ', '\x7b'] := rfl
  delta opener
  rw [hfront, hback]
  simp only [List.append_assoc, List.cons_append, List.nil_append]

theorem trimStart_testKeyword (s : Text) :
    Text.trimStart (testKeyword ++ s) = testKeyword ++ s :=
  Text.trimStart_cons_of_not_blank (c := '@') (by decide) _

theorem opens_opener (name r : Text) : opens (opener name ++ r) = true := by
  rw [opener_append, opens, trimStart_testKeyword, Text.dropPrefixCi?_append]
  rfl

theorem parseName?_opener {name : Text} (hname : ¬ Text.AllBlank name) (hquote : '"' ∉ name)
    (r : Text) : parseName? (opener name ++ r) = some (name, ' ' :: '\x7b' :: r) := by
  have hcut : Text.cut? '"' (name ++ '"' :: ' ' :: '\x7b' :: r) =
      some (name, ' ' :: '\x7b' :: r) := Text.cut?_eq_some_iff.2 ⟨rfl, hquote⟩
  have hspace : ∀ s : Text, Text.trimStart (' ' :: '"' :: s) = '"' :: s := fun _ => rfl
  have hblank : ¬ Text.isBlankText name = true := fun h => hname (List.all_eq_true.1 h)
  rw [opener_append, parseName?, trimStart_testKeyword, Text.dropPrefixCi?_append]
  simp only [Option.bind_eq_bind, Option.bind_some, hspace, Text.dropPrefix?_cons, if_true,
    Text.dropPrefix?_nil, hcut, if_neg hblank]

/-- The marks of the two sides of a block and of what stands beside them. -/
theorem exists_of_map_char_sides {body expected : Text} {ms : List Mark}
    (h : ms.map Mark.char = sides body expected) :
    ∃ first second : List Mark, first.map Mark.char = body ∧ second.map Mark.char = expected ∧
      ms = first ++ some '\x7d' :: some ' ' :: (expectKeyword.map some ++
        some ' ' :: some '\x7b' :: (second ++ [some '\x7d'])) := by
  have hbetween : "\x7d expect \x7b".toList =
      '\x7d' :: ' ' :: (expectKeyword ++ [' ', '\x7b']) := rfl
  delta sides at h
  rw [List.append_assoc, List.append_assoc] at h
  obtain ⟨first, rest, rfl, hfirst, hrest⟩ := List.map_eq_append_iff.1 h
  obtain ⟨rest', rfl, hrest'⟩ := exists_of_map_char (by decide) hrest
  obtain ⟨second, last, rfl, hsecond, hlast⟩ := List.map_eq_append_iff.1 hrest'
  obtain ⟨m, rfl, hm⟩ := List.map_eq_singleton_iff.1 hlast
  refine ⟨first, second, hfirst, hsecond, ?_⟩
  rw [eq_some_of_char hm (by decide), hbetween]
  simp only [List.map_cons, List.map_append, List.map_nil, List.cons_append, List.append_assoc,
    List.nil_append]

/-- **The sides of a block are read back** from marks that read as they are written. -/
theorem parseSides?_sides {body expected : Text} (hbody : BalancedBraces body)
    (hexpected : BalancedBraces expected) {ms : List Mark}
    (hms : ms.map Mark.char = sides body expected) (after : List Line) :
    parseSides? (some ' ' :: some '\x7b' :: (ms ++ marks [] after)) =
      some (joinSide body, joinSide expected, marks [] after) := by
  obtain ⟨first, second, hfirst, hsecond, rfl⟩ := exists_of_map_char_sides hms
  have hblank : isBlank '\x7b' = false := by decide
  have hbrace : ∀ ms, eat? ['\x7b'] (some '\x7b' :: ms) = some ms := eat?_append ['\x7b']
  have hexpect : ∀ ms, skipBlanks (some ' ' :: (expectKeyword.map some ++ ms)) =
      expectKeyword.map some ++ ms := fun ms => skipBlanks_space (c := 'e') (by decide) _
  rw [parseSides?, skipBlanks_space hblank, hbrace]
  simp only [Option.bind_eq_bind, Option.bind_some, List.append_assoc, List.cons_append,
    List.nil_append, balanced_append hbody hfirst, balanced_append hexpected hsecond, hexpect,
    eat?_append, hbrace, skipBlanks_space hblank, restIsBlank_marks_nil, if_true]

/-- Without carriage returns, the rest of a block is that of a block with other sides. -/
theorem DropsReturns.exists_sides {body expected t : Text}
    (h : DropsReturns (sides body expected) t) :
    ∃ body' expected', DropsReturns body body' ∧ DropsReturns expected expected' ∧
      t = sides body' expected' := by
  delta sides at h ⊢
  rw [List.append_assoc, List.append_assoc] at h
  obtain ⟨body', rest, rfl, hbody, hrest⟩ :=
    h.exists_append_text (by decide) (by decide) (by decide)
  obtain ⟨expected', last, rfl, hexpected, hlast⟩ := hrest.exists_append (by decide) (by decide)
  cases hlast
  exact ⟨body', expected', hbody, hexpected, by rw [List.append_assoc, List.append_assoc]⟩

/-- **The check that a block says.**  Its name is on the first line, and its sides take up that line
and the lines `ls`. -/
theorem parse?_block {name body expected r : Text} {ls : List Line}
    (hname : ¬ Text.AllBlank name) (hquote : '"' ∉ name) (hbody : BalancedBraces body)
    (hexpected : BalancedBraces expected)
    (hlines : DropsReturns (sides body expected) (Text.join ['\n'] (r :: ls.map (·.text))))
    (after : List Line) :
    parse? (opener name ++ r) (ls ++ after) =
      some (⟨name, trimmedLines body, trimmedLines expected⟩, ls.length) := by
  obtain ⟨body', expected', hbody', hexpected', hsides⟩ := hlines.exists_sides
  have hms : (marks r ls).map Mark.char = sides body' expected' :=
    (map_char_marks r ls).trans hsides
  have hmarks : marks (' ' :: '\x7b' :: r) (ls ++ after) =
      some ' ' :: some '\x7b' :: (marks r ls ++ marks [] after) := by
    rw [marks_append_right]
    rfl
  have hread := parseSides?_sides (hbody'.closesBraces hbody) (hexpected'.closesBraces hexpected)
    hms after
  rw [← hmarks] at hread
  have hcount : lineEnds (marks (' ' :: '\x7b' :: r) (ls ++ after)) -
      lineEnds (marks [] after) = ls.length := by
    rw [lineEnds_marks, lineEnds_marks, List.length_append, Nat.add_sub_cancel]
  rw [parse?, parseName?_opener hname hquote]
  simp only [Option.bind_eq_bind, Option.bind_some, hread, hcount,
    joinSide_eq_trimmedLines, hbody'.trimmedLines_eq, hexpected'.trimmedLines_eq]

/-! ### Streams with a block -/

/-- Lines that belong to a check are left out. -/
theorem expandFrom_append (ls after : List Line) :
    expandFrom ls.length (ls ++ after) = expand after := by
  induction ls with
  | nil => rfl
  | cons l ls ih => exact ih

/-- Lines in front of the first check stay as they are. -/
theorem expand_append_of_not_opens {before : List Line} (h : ∀ l ∈ before, opens l.text = false)
    (ls : List Line) : expand (before ++ ls) = .quiet before ++ expand ls := by
  induction before with
  | nil => rfl
  | cons l before ih =>
      obtain ⟨hl, hbefore⟩ := List.forall_mem_cons.1 h
      have hskip : ¬ opens l.text = true := by
        rw [hl]
        exact Bool.false_ne_true
      rw [expand, List.cons_append, expandFrom, if_neg hskip]
      exact congrArg (Staged.quiet [l] ++ ·) (ih hbefore)

/-- **A block among other lines becomes its command.**  Let a block begin on a line, with a name
that is not blank and has no quotes, and go on over the lines `ls`, with two sides whose braces are
balanced; where the sides have line ends, these may be written with carriage returns or without.
Then the lines in front of the block stay as they are, if none of them begins a check; the block is
replaced by the command for the check with that name and with the trimmed lines of the two sides,
which stands at the place of the first line; the lines behind the block become what they become
without it; and nothing is said about the block. -/
theorem expand_block {before ls after : List Line} {l : Line} {name body expected r : Text}
    (hbefore : ∀ m ∈ before, opens m.text = false) (hname : ¬ Text.AllBlank name)
    (hquote : '"' ∉ name) (hbody : BalancedBraces body) (hexpected : BalancedBraces expected)
    (hfirst : l.text = opener name ++ r)
    (hlines : DropsReturns (sides body expected) (Text.join ['\n'] (r :: ls.map (·.text)))) :
    expand (before ++ (l :: ls) ++ after) =
      .quiet (before ++ [l.withText (render ⟨name, trimmedLines body, trimmedLines expected⟩)]) ++
        expand after := by
  have hopens : opens l.text = true := by rw [hfirst, opens_opener]
  have hparse := parse?_block hname hquote hbody hexpected hlines after
  rw [← hfirst] at hparse
  have hblock : expand (l :: (ls ++ after)) =
      .quiet [l.withText (render ⟨name, trimmedLines body, trimmedLines expected⟩)] ++
        expand after := by
    rw [expand, expandFrom, if_pos hopens, hparse]
    exact congrArg (Staged.quiet _ ++ ·) (expandFrom_append ls after)
  rw [List.append_assoc, List.cons_append, expand_append_of_not_opens hbefore, hblock]
  exact congrArg₂ Staged.mk (List.append_assoc ..).symm rfl

/-- The first line of a block, with a brace and an escape pair inside of its first side. -/
def nestedLine : Line := ⟨"@test \"deep\" \x7ba\x7b\\\x7d".toList, "main.mush", 2⟩

/-- The other lines of the block. -/
def nestedRest : List Line :=
  [⟨"  b\x7d".toList, "main.mush", 3⟩, ⟨" \x7d expect \x7b 1 \x7d".toList, "main.mush", 4⟩]

theorem expand_block_nestedLine :
    expand ([⟨"@tester".toList, "main.mush", 1⟩] ++ (nestedLine :: nestedRest) ++
        [⟨"x".toList, "main.mush", 5⟩]) =
      .quiet [⟨"@tester".toList, "main.mush", 1⟩,
        ⟨("think [setq(0, a\x7b\\\x7db\x7d)][setq(1, 1)][ifelse(strmatch(%q0, %q1), " ++
          "ansi(gh, PASS: deep), ansi(rh, FAIL: deep: Expected '%q1' but got '%q0'))]").toList,
          "main.mush", 2⟩,
        ⟨"x".toList, "main.mush", 5⟩] := by
  have hcommand : render ⟨"deep".toList, "a\x7b\\\x7db\x7d".toList, "1".toList⟩ =
      ("think [setq(0, a\x7b\\\x7db\x7d)][setq(1, 1)][ifelse(strmatch(%q0, %q1), " ++
        "ansi(gh, PASS: deep), ansi(rh, FAIL: deep: Expected '%q1' but got '%q0'))]").toList := by
    decide +kernel
  rw [← hcommand]
  have hlines : DropsReturns (sides "a\x7b\\\x7d\r\n  b\x7d\n ".toList " 1 ".toList)
      (Text.join ['\n'] ("a\x7b\\\x7d".toList :: nestedRest.map (·.text))) :=
    .keep 'a' (.keep '\x7b' (.keep '\\' (.keep '\x7d' (.drop (.refl _)))))
  have hblock := @expand_block [⟨"@tester".toList, "main.mush", 1⟩] nestedRest
    [⟨"x".toList, "main.mush", 5⟩] nestedLine "deep".toList _ _ _ (by decide) (by decide)
    (by decide) (by decide) (by decide) rfl hlines
  exact hblock

end SelfCheck

end Softcode
