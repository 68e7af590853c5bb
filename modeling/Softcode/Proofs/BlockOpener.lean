/-
**The first and last lines of blocks, and what numbers do to them.**

A block is found by looking at lines one at a time: openers have a directive at their beginning and
a brace at their end, and closers are a brace on a line of its own.  Putting a number for a loop
variable changes lines, but not which of them are openers and closers: a number has only digits and
a minus sign, and none of these occurs in what makes a line an opener or a closer.

Main definitions:

* `Softcode.Template.OpensBlock` — the shape of openers.

Main results:

* `Softcode.Template.isBlockOpener_iff` — **openers are the lines of their shape**;
* `Softcode.Template.isBlockOpener_of_parseOpener?` — a line that begins a block is an opener;
* `Softcode.Template.isBlockOpener_of_replaceText`, `Softcode.Template.isCloser_of_replaceText` — no
  line becomes an opener or a closer when a number is put in.
-/

import Softcode.Proofs.Replacement
import Softcode.Proofs.Text

set_option autoImplicit false

namespace Softcode

namespace Template

/-! ### The shape of openers -/

/-- The names of the directives that begin blocks. -/
def blockNames : List Text := [forName, ifName, debugName]

theorem isBlank_brace : isBlank '\x7b' = false := by decide

/-- A digit has no case. -/
theorem toLower_of_isDigit {c : Char} (h : c.isDigit = true) : c.toLower = c := by
  have hle : c.val ≤ 57 := by
    simp only [Char.isDigit, Bool.and_eq_true, decide_eq_true_eq] at h
    exact h.2
  unfold Char.toLower
  rw [dif_neg]
  rintro ⟨hA, -⟩
  exact absurd (UInt32.le_trans hA hle) (by decide)

/-- The characters of numbers. -/
def isNumeral (c : Char) : Bool := c.isDigit || c == '-'

/-- No character of a name up to case is a brace or a character of numbers. -/
theorem not_mem_blockName {name w : Text} (hname : name ∈ blockNames)
    (hw : Text.dropPrefixCi? name w = some []) {c : Char} (hc : c ∈ w) :
    c ≠ '\x7b' ∧ isNumeral c = false := by
  obtain ⟨d, hd, hdc⟩ := Text.exists_sameLetter hw c hc
  have hlower : d.toLower = c.toLower := by simpa [Text.sameLetter] using hdc
  have hletters : (blockNames.all fun name => name.all fun d =>
      d.toLower ≠ '\x7b' ∧ d.toLower ≠ '-' ∧ d.toLower.isDigit = false) = true := by decide
  obtain ⟨hbrace, hminus, hdigit⟩ :=
    of_decide_eq_true (List.all_eq_true.1 (List.all_eq_true.1 hletters name hname) d hd)
  rw [hlower] at hbrace hminus hdigit
  have hc₁ : c ≠ '\x7b' := by rintro rfl; exact hbrace rfl
  have hc₂ : c ≠ '-' := by rintro rfl; exact hminus rfl
  have hc₃ : c.isDigit = false := by
    by_contra h
    rw [Bool.not_eq_false] at h
    rw [toLower_of_isDigit h, h] at hdigit
    cases hdigit
  exact ⟨hc₁, by simp [isNumeral, hc₂, hc₃]⟩

/-- **The shape of openers**: blanks, a directive, and then a text that ends with a brace, before
blanks. -/
def OpensBlock (s : Text) : Prop :=
  ∃ b w y c : Text, Text.AllBlank b ∧ Text.AllBlank c ∧
    (∃ name ∈ blockNames, Text.dropPrefixCi? name w = some []) ∧
    (∃ d, y.head? = some d ∧ endsName d = true) ∧ y.getLast? = some '\x7b' ∧
    s = b ++ '#' :: (w ++ (y ++ c))

theorem isBlockOpener_of_opensBlock {s : Text} (h : OpensBlock s) : isBlockOpener s = true := by
  obtain ⟨b, w, y, c, hb, hc, ⟨name, hname, hw⟩, ⟨d, hd, hends⟩, hlast, rfl⟩ := h
  have hy : y ≠ [] := by rintro rfl; cases hd
  have hlast' : ('#' :: (w ++ y)).getLast? = some '\x7b' := by
    rw [List.getLast?_cons, List.getLast?_append, hlast]
    rfl
  have htrim : Text.trim (b ++ '#' :: (w ++ (y ++ c))) = '#' :: (w ++ y) := by
    have hmid : Text.IsTrim ('#' :: (w ++ y)) := by
      refine ⟨fun e he => ?_, fun e he => ?_⟩
      · obtain rfl := Option.some.inj he
        exact isBlank_hash
      · rw [hlast'] at he
        obtain rfl := Option.some.inj he
        exact isBlank_brace
    rw [← Text.trim_eq hb hmid hc]
    simp
  have hdir : directiveArg? '#' name ('#' :: (w ++ y)) = some (Text.trim y) := by
    refine (directiveArg?_eq_some_iff isBlank_hash).2
      ⟨[], w, y, Text.allBlank_nil, hw, fun e he => ?_, rfl, rfl⟩
    rw [hd] at he
    obtain rfl := Option.some.inj he
    exact hends
  unfold isBlockOpener
  dsimp only
  rw [htrim, hlast', Bool.and_eq_true, List.any_eq_true]
  exact ⟨by decide, name, hname, by rw [hdir]; rfl⟩

theorem opensBlock_of_isBlockOpener {s : Text} (h : isBlockOpener s = true) : OpensBlock s := by
  unfold isBlockOpener at h
  rw [Bool.and_eq_true, List.any_eq_true, beq_iff_eq] at h
  obtain ⟨hlast, name, hname, hdir⟩ := h
  obtain ⟨b₁, b₂, hb₁, hb₂, hs⟩ := Text.exists_blanks_trim s
  obtain ⟨arg, harg⟩ := Option.isSome_iff_exists.1 hdir
  obtain ⟨b, w, y, hb, hw, hends, -, ht⟩ := (directiveArg?_eq_some_iff isBlank_hash).1 harg
  rw [ht] at hlast hs
  have hy : y ≠ [] := by
    -- a directive without anything behind it does not end with a brace
    rintro rfl
    rw [List.append_nil] at hlast
    rcases List.mem_append.1 (List.mem_of_getLast? hlast) with h | h
    · exact absurd (hb _ h) (by decide)
    · rcases List.mem_cons.1 h with h | h
      · cases h
      · exact (not_mem_blockName hname hw h).1 rfl
  obtain ⟨d, y', rfl⟩ := List.exists_cons_of_ne_nil hy
  refine ⟨b₁ ++ b, w, d :: y', b₂, Text.allBlank_append.2 ⟨hb₁, hb⟩, hb₂, ⟨name, hname, hw⟩,
    ⟨d, rfl, hends d rfl⟩, ?_, ?_⟩
  · rw [← hlast]
    simp [List.getLast?_append, List.getLast?_cons]
  · rw [hs]
    simp

/-- **Openers are the lines of their shape.** -/
theorem isBlockOpener_iff {s : Text} : isBlockOpener s = true ↔ OpensBlock s :=
  ⟨opensBlock_of_isBlockOpener, isBlockOpener_of_opensBlock⟩

/-- A line that begins a block has a directive whose argument ends with a brace. -/
theorem exists_directive_of_parseOpener? {s : Text} {o : Opener} (h : parseOpener? s = some o) :
    ∃ name ∈ blockNames, ∃ arg r, directiveArg? '#' name s = some arg ∧ arg = r ++ ['\x7b'] := by
  unfold parseOpener? at h
  split at h
  · next arg harg =>
      obtain ⟨r, hr, -⟩ := Option.map_eq_some_iff.1 h
      obtain ⟨t, ht, -⟩ := Option.map_eq_some_iff.1 hr
      exact ⟨forName, by decide, arg, t, harg, Text.dropSuffix?_eq_some_iff.1 ht⟩
  · split at h
    · next arg harg =>
        obtain ⟨r, hr, -⟩ := Option.map_eq_some_iff.1 h
        obtain ⟨t, ht, -⟩ := Option.map_eq_some_iff.1 hr
        exact ⟨ifName, by decide, arg, t, harg, Text.dropSuffix?_eq_some_iff.1 ht⟩
    · split at h
      · next arg harg =>
          split at h
          · next heq => exact ⟨debugName, by decide, arg, [], harg, heq⟩
          · cases h
      · cases h

/-- A line whose directive has an argument that ends with a brace is an opener. -/
theorem isBlockOpener_of_directive {s name r : Text} (hname : name ∈ blockNames)
    (h : directiveArg? '#' name s = some (r ++ ['\x7b'])) : isBlockOpener s = true := by
  obtain ⟨b, w, tail, hb, hw, hends, hargtail, rfl⟩ :=
    (directiveArg?_eq_some_iff isBlank_hash).1 h
  obtain ⟨b₁, b₂, -, hb₂, htail⟩ := Text.exists_blanks_trim tail
  rw [← hargtail] at htail
  have hne : b₁ ++ (r ++ ['\x7b']) ≠ [] := by simp
  obtain ⟨d, y, hy⟩ := List.exists_cons_of_ne_nil hne
  refine isBlockOpener_iff.2 ⟨b, w, b₁ ++ (r ++ ['\x7b']), b₂, hb, hb₂, ⟨name, hname, hw⟩,
    ⟨d, by rw [hy]; rfl, hends d ?_⟩, by simp, by rw [htail]; simp⟩
  rw [htail, ← List.append_assoc, hy]
  rfl

/-- Trimming leaves a brace at the end where it is. -/
theorem trim_append_brace (s : Text) :
    Text.trim (s ++ ['\x7b']) = Text.trimStart s ++ ['\x7b'] := by
  have hstart : Text.trimStart (s ++ ['\x7b']) = Text.trimStart s ++ ['\x7b'] := by
    unfold Text.trimStart
    rw [List.dropWhile_append]
    split
    · next hs => rw [List.isEmpty_iff.1 hs]; rfl
    · rfl
  rw [Text.trim, hstart, Text.trimEnd_of_last isBlank_brace]

/-- An opener has a directive whose argument ends with a brace. -/
theorem exists_directive_of_isBlockOpener {s : Text} (h : isBlockOpener s = true) :
    ∃ name ∈ blockNames, ∃ r, directiveArg? '#' name s = some (r ++ ['\x7b']) := by
  obtain ⟨b, w, y, c, hb, hc, ⟨name, hname, hw⟩, ⟨d, hd, hends⟩, hlast, rfl⟩ :=
    isBlockOpener_iff.1 h
  obtain ⟨z, rfl⟩ := List.getLast?_eq_some_iff.1 hlast
  refine ⟨name, hname, Text.trimStart z, (directiveArg?_eq_some_iff isBlank_hash).2
    ⟨b, w, z ++ ['\x7b'] ++ c, hb, hw, fun e he => ?_, ?_, rfl⟩⟩
  · rw [List.head?_append, hd] at he
    obtain rfl := Option.some.inj he
    exact hends
  · rw [Text.trim_append_blanks hc, trim_append_brace]

/-- **A line that begins a block is an opener.** -/
theorem isBlockOpener_of_parseOpener? {s : Text} {o : Opener} (h : parseOpener? s = some o) :
    isBlockOpener s = true := by
  obtain ⟨name, hname, arg, r, harg, rfl⟩ := exists_directive_of_parseOpener? h
  exact isBlockOpener_of_directive hname harg

/-! ### Putting a number in -/

theorem isNumeral_of_blank {c : Char} (hc : isBlank c = true) : isNumeral c = false :=
  forall_blank (p := fun c => isNumeral c = false) (by decide +kernel) hc

theorem isNumeral_of_endsName {c : Char} (hc : endsName c = true) : isNumeral c = false := by
  simp only [endsName, Bool.or_eq_true, beq_iff_eq] at hc
  rcases hc with (hc | rfl) | rfl
  · exact isNumeral_of_blank hc
  · rfl
  · rfl

/-- A number has only digits and perhaps a minus sign. -/
theorem isNumeral_of_mem_ofInt {n : Int} {c : Char} (hc : c ∈ Text.ofInt n) :
    isNumeral c = true := by
  have hdigit : ∀ m : Nat, c ∈ Text.ofNat m → isNumeral c = true := by
    intro m hm
    rw [isNumeral, Nat.isDigit_of_mem_toDigits (by decide) (by decide) hm]
    rfl
  cases n with
  | ofNat m => exact hdigit m hc
  | negSucc m =>
      rcases List.mem_cons.1 hc with rfl | hc
      · rfl
      · exact hdigit (m + 1) hc

theorem ofInt_ne_nil (n : Int) : Text.ofInt n ≠ [] := by
  cases n with
  | ofNat m => exact Nat.toDigits_ne_nil
  | negSucc m => exact List.cons_ne_nil _ _

/-- A character that no number has is not put in by one. -/
theorem not_mem_ofInt {c : Char} (hc : isNumeral c = false) (n : Int) : c ∉ Text.ofInt n := by
  intro h
  rw [isNumeral_of_mem_ofInt h] at hc
  cases hc

section Numbers

variable {old : Text} (hold : old ≠ []) (n : Int) {s : Text}

include hold

/-- **No line becomes an opener when a number is put in.** -/
theorem isBlockOpener_of_replaceText (h : isBlockOpener (replaceText old (Text.ofInt n) s) = true) :
    isBlockOpener s = true := by
  obtain ⟨b, w, y, c, hb, hc, ⟨name, hname, hw⟩, ⟨d, hd, hends⟩, hlast, hs⟩ :=
    isBlockOpener_iff.1 h
  cases y with
  | nil => cases hd
  | cons e y =>
      obtain rfl := Option.some.inj hd
      -- up to the character behind the directive nothing can have been put in
      have hfront : ∀ x ∈ b ++ '#' :: (w ++ [e]), x ∉ Text.ofInt n := by
        intro x hx
        refine not_mem_ofInt ?_ n
        simp only [List.mem_append, List.mem_cons, List.not_mem_nil, or_false] at hx
        rcases hx with hx | rfl | hx | rfl
        · exact isNumeral_of_blank (hb x hx)
        · rfl
        · exact (not_mem_blockName hname hw hx).2
        · exact isNumeral_of_endsName hends
      have hback : ∀ x ∈ '\x7b' :: c, x ∉ Text.ofInt n := by
        intro x hx
        refine not_mem_ofInt ?_ n
        rcases List.mem_cons.1 hx with rfl | hx
        · rfl
        · exact isNumeral_of_blank (hc x hx)
      obtain ⟨u, rfl, hu⟩ := exists_of_replaceText_eq_append hold (ofInt_ne_nil n) hfront
        (s := s) (t := y ++ c) (by rw [hs]; simp)
      rcases List.eq_nil_or_concat y with rfl | ⟨z, f, rfl⟩
      · -- the character behind the directive is the brace itself
        have hu' : u = c := eq_of_replaceText_eq hold (ofInt_ne_nil n)
          (fun x hx => hback x (List.mem_cons_of_mem _ hx)) hu
        exact isBlockOpener_iff.2 ⟨b, w, [e], c, hb, hc, ⟨name, hname, hw⟩, ⟨e, rfl, hends⟩,
          hlast, by rw [hu']; simp⟩
      · obtain rfl : f = '\x7b' := by simpa [List.getLast?_cons] using hlast
        obtain ⟨v, rfl⟩ := exists_of_replaceText_append_eq hold (ofInt_ne_nil n) hback
          (s := u) (t := z) (by rw [hu]; simp)
        exact isBlockOpener_iff.2 ⟨b, w, e :: (v ++ ['\x7b']), c, hb, hc, ⟨name, hname, hw⟩,
          ⟨e, rfl, hends⟩, by simp [List.getLast?_cons], by simp⟩

/-- **No line becomes a closer when a number is put in.** -/
theorem isCloser_of_replaceText (h : isCloser (replaceText old (Text.ofInt n) s) = true) :
    isCloser s = true := by
  have htrim : Text.trim (replaceText old (Text.ofInt n) s) = ['\x7d'] := by
    simpa [isCloser] using h
  obtain ⟨b₁, b₂, hb₁, hb₂, hs⟩ := Text.exists_blanks_trim (replaceText old (Text.ofInt n) s)
  have hsame : s = replaceText old (Text.ofInt n) s := by
    refine eq_of_replaceText_eq hold (ofInt_ne_nil n) (fun x hx => not_mem_ofInt ?_ n) rfl
    rw [hs, htrim] at hx
    simp only [List.mem_append, List.mem_cons, List.not_mem_nil, or_false] at hx
    rcases hx with hx | rfl | hx
    · exact isNumeral_of_blank (hb₁ x hx)
    · rfl
    · exact isNumeral_of_blank (hb₂ x hx)
  rw [hsame]
  exact h

end Numbers

end Template

end Softcode
