/-
**Laws of texts.**

The readers of this library trim, cut and take beginnings off.  This module says what each of these
steps does to a text that is written as a concatenation of parts, which is the form in which the
later modules describe commands, headers of blocks and instructions, and what a line with a
directive looks like.  It also holds the law by which a reader that consists of steps which may fail
is taken apart.

Main definitions:

* `Softcode.Text.AllBlank`, `Softcode.Text.IsTrim` — blanks, and texts without blanks at their ends;
* `Softcode.endsName` — the characters that may follow the name of a directive.

Main results:

* `Softcode.exists_of_bind_eq_ok` — what a reader of two steps did;
* `Softcode.isWordChar_of_blank` — a blank is no character of a name;
* `Softcode.Text.dropPrefixCi?_eq_some_iff` — the beginning that is taken off is a word of its own;
* `Softcode.Text.cut?_eq_some_iff` — the two sides of the first occurrence of a character;
* `Softcode.Text.not_mem_of_mem_lines` — a line has no line feed;
* `Softcode.Text.exists_blanks_trimStart` — a text is blanks, followed by the text without them;
* `Softcode.Text.exists_blanks_trim`, `Softcode.Text.trim_eq` — a trimmed text is what stands
  between the blanks at both ends;
* `Softcode.directiveArg?_eq_some_iff` — **lines with a directive**, and its argument.
-/

import Mathlib.Data.List.TakeWhile
import Softcode.Directive
import Softcode.Text.Category

set_option autoImplicit false

namespace Softcode

/-! ### Steps that may fail -/

/-- Two steps that give a result both do. -/
theorem exists_of_bind_eq_ok {ε α β : Type} {x : Except ε α} {f : α → Except ε β} {b : β}
    (h : (x >>= f) = .ok b) : ∃ a, x = .ok a ∧ f a = .ok b := by
  cases x with
  | error e => cases h
  | ok a => exact ⟨a, rfl, h⟩

/-! ### Blanks, one by one -/

/-- The numbers in some intervals. -/
def rangeCodes (rs : List (Nat × Nat)) : List Nat :=
  rs.flatMap fun r => List.range' r.1 (r.2 + 1 - r.1)

theorem mem_rangeCodes {n : Nat} {rs : List (Nat × Nat)} (h : inRanges n rs = true) :
    n ∈ rangeCodes rs := by
  induction rs with
  | nil => cases h
  | cons r rs ih =>
      obtain ⟨first, last⟩ := r
      rw [inRanges] at h
      split at h
      · cases h
      · next hfirst =>
          rw [rangeCodes, List.flatMap_cons, List.mem_append]
          rcases Bool.or_eq_true_iff.1 h with hlast | hrest
          · have := of_decide_eq_true hlast
            exact Or.inl (List.mem_range'_1.2 (by omega))
          · exact Or.inr (ih hrest)

/-- What holds of the blanks, one by one, holds of every blank. -/
theorem forall_blank {p : Char → Prop} (h : ∀ n ∈ rangeCodes blankRanges, p (Char.ofNat n))
    {c : Char} (hc : isBlank c = true) : p c := by
  have := h c.toNat (mem_rangeCodes hc)
  rwa [Char.ofNat_toNat] at this

/-- A blank is no character of a name. -/
theorem isWordChar_of_blank {c : Char} (hc : isBlank c = true) : isWordChar c = false :=
  forall_blank (p := fun c => isWordChar c = false) (by decide +kernel) hc

/-- A character of a name is no blank. -/
theorem isBlank_of_isWordChar {c : Char} (hc : isWordChar c = true) : isBlank c = false := by
  by_contra h
  rw [isWordChar_of_blank (by simpa using h)] at hc
  cases hc

namespace Text

/-! ### Beginnings up to case -/

@[simp] theorem sameLetter_self (c : Char) : sameLetter c c = true := by simp [sameLetter]

@[simp] theorem dropPrefixCi?_append (p s : Text) : dropPrefixCi? p (p ++ s) = some s := by
  induction p with
  | nil => simp
  | cons c p ih => simp [ih]

/-- What is taken off a text is a beginning of it that is the given word up to case. -/
theorem dropPrefixCi?_eq_some_iff {p s r : Text} :
    dropPrefixCi? p s = some r ↔ ∃ w, s = w ++ r ∧ dropPrefixCi? p w = some [] := by
  induction p generalizing s with
  | nil =>
      constructor
      · intro h
        exact ⟨[], by simpa using h, rfl⟩
      · rintro ⟨w, rfl, hw⟩
        have : w = [] := by simpa using hw
        simp [this]
  | cons c p ih =>
      cases s with
      | nil =>
          constructor
          · intro h
            simp [dropPrefixCi?] at h
          · rintro ⟨w, hw, h⟩
            have : w = [] := (List.append_eq_nil_iff.1 hw.symm).1
            simp [this, dropPrefixCi?] at h
      | cons d s =>
          by_cases hcd : sameLetter c d = true
          · rw [dropPrefixCi?_cons, if_pos hcd, ih]
            constructor
            · rintro ⟨w, rfl, hw⟩
              exact ⟨d :: w, rfl, by rw [dropPrefixCi?_cons, if_pos hcd, hw]⟩
            · rintro ⟨w, hw, h⟩
              cases w with
              | nil => simp [dropPrefixCi?] at h
              | cons e w =>
                  obtain ⟨rfl, rfl⟩ := List.cons_eq_cons.1 hw
                  rw [dropPrefixCi?_cons, if_pos hcd] at h
                  exact ⟨w, rfl, h⟩
          · rw [dropPrefixCi?_cons, if_neg hcd]
            constructor
            · intro h
              cases h
            · rintro ⟨w, hw, h⟩
              cases w with
              | nil => simp [dropPrefixCi?] at h
              | cons e w =>
                  obtain ⟨rfl, -⟩ := List.cons_eq_cons.1 hw
                  rw [dropPrefixCi?_cons, if_neg hcd] at h
                  cases h

/-- A word that is another one up to case has only letters of it. -/
theorem exists_sameLetter {p w : Text} (h : dropPrefixCi? p w = some []) :
    ∀ c ∈ w, ∃ d ∈ p, sameLetter d c = true := by
  induction p generalizing w with
  | nil =>
      have : w = [] := by simpa using h
      simp [this]
  | cons d p ih =>
      cases w with
      | nil => simp
      | cons e w =>
          rw [dropPrefixCi?_cons] at h
          split at h
          · next hde =>
              intro c hc
              rcases List.mem_cons.1 hc with rfl | hc
              · exact ⟨d, List.mem_cons_self, hde⟩
              · obtain ⟨f, hf, hfc⟩ := ih h c hc
                exact ⟨f, List.mem_cons_of_mem _ hf, hfc⟩
          · cases h

/-- A character whose lower case is no lower case letter is its lower case. -/
theorem eq_of_toLower_eq {c d : Char} (h : c.toLower = d) (hd : ¬ ('a' ≤ d ∧ d ≤ 'z')) :
    c = d := by
  unfold Char.toLower at h
  split at h
  · next hupper =>
      refine absurd ?_ hd
      subst h
      have hge : 65 ≤ c.val.toNat := UInt32.le_iff_toNat_le.1 hupper.1
      have hle : c.val.toNat ≤ 90 := UInt32.le_iff_toNat_le.1 hupper.2
      have hval : (c.val + ('a'.val - 'A'.val)).toNat = c.val.toNat + 32 := by
        have hshift : ('a'.val - 'A'.val).toNat = 32 := rfl
        rw [UInt32.toNat_add, hshift]
        omega
      constructor
      · refine UInt32.le_iff_toNat_le.2 ?_
        rw [hval]
        change 97 ≤ _
        omega
      · refine UInt32.le_iff_toNat_le.2 ?_
        rw [hval]
        change _ ≤ 122
        omega
  · exact h

/-- A character whose lower case is a letter or digit is one. -/
theorem isAlphanum_of_toLower {c : Char} (h : c.toLower.isAlphanum = true) :
    c.isAlphanum = true := by
  unfold Char.toLower at h
  split at h
  · next hupper =>
      have hc : c.isUpper = true := decide_eq_true hupper
      have halpha : c.isAlpha = true := Bool.or_eq_true_iff.2 (Or.inl hc)
      exact Bool.or_eq_true_iff.2 (Or.inl halpha)
  · exact h

/-- A text is a word up to case exactly if their lower cases agree. -/
theorem dropPrefixCi?_eq_nil_iff {p w : Text} :
    dropPrefixCi? p w = some [] ↔ w.map Char.toLower = p.map Char.toLower := by
  induction p generalizing w with
  | nil => simp
  | cons c p ih =>
      cases w with
      | nil => simp [dropPrefixCi?]
      | cons d w =>
          rw [dropPrefixCi?_cons, List.map_cons, List.map_cons, List.cons.injEq]
          by_cases hcd : c.toLower = d.toLower
          · have hsame : sameLetter c d = true := beq_iff_eq.2 hcd
            rw [if_pos hsame, ih]
            exact ⟨fun h => ⟨hcd.symm, h⟩, fun h => h.2⟩
          · have hsame : ¬ sameLetter c d = true := fun h => hcd (beq_iff_eq.1 h)
            rw [if_neg hsame]
            exact iff_of_false nofun fun h => hcd h.1.symm

/-! ### Cutting -/

/-- A text is cut at the first occurrence of the separator. -/
theorem cut?_eq_some_iff {sep : Char} {s l r : Text} :
    cut? sep s = some (l, r) ↔ s = l ++ sep :: r ∧ sep ∉ l := by
  induction s generalizing l with
  | nil => simp [cut?]
  | cons c s ih =>
      by_cases hc : c = sep
      · subst hc
        rw [cut?, if_pos rfl]
        constructor
        · intro h
          obtain ⟨rfl, rfl⟩ := Prod.mk.inj (Option.some.inj h)
          simp
        · rintro ⟨hs, hl⟩
          cases l with
          | nil => simpa using hs
          | cons d l =>
              obtain ⟨rfl, -⟩ := List.cons_eq_cons.1 hs
              simp at hl
      · rw [cut?, if_neg hc, Option.map_eq_some_iff]
        constructor
        · rintro ⟨⟨l', r'⟩, h, heq⟩
          obtain ⟨rfl, rfl⟩ := Prod.mk.inj heq
          obtain ⟨rfl, hl⟩ := ih.1 h
          exact ⟨rfl, by simp [Ne.symm hc, hl]⟩
        · rintro ⟨hs, hl⟩
          cases l with
          | nil => exact absurd (List.cons_eq_cons.1 hs).1 hc
          | cons d l =>
              obtain ⟨rfl, rfl⟩ := List.cons_eq_cons.1 hs
              exact ⟨(l, r), ih.2 ⟨rfl, fun h => hl (List.mem_cons_of_mem _ h)⟩, rfl⟩

/-- A text is not cut exactly if the separator does not occur. -/
theorem cut?_eq_none_iff {sep : Char} {s : Text} : cut? sep s = none ↔ sep ∉ s := by
  constructor
  · intro h hmem
    obtain ⟨l, r, rfl, hl⟩ := List.eq_append_cons_of_mem hmem
    rw [cut?_eq_some_iff.2 ⟨rfl, hl⟩] at h
    cases h
  · intro h
    cases hcut : cut? sep s with
    | none => rfl
    | some p =>
        obtain ⟨l, r⟩ := p
        exact absurd (by rw [(cut?_eq_some_iff.1 hcut).1]; simp) h

theorem splitOn_cons (sep c : Char) (s : Text) :
    splitOn sep (c :: s) =
      if c = sep then [] :: splitOn sep s else (splitOn sep s).modifyHead (c :: ·) := by
  unfold splitOn
  rw [List.foldr_cons]
  generalize List.foldr _ _ s = rest
  by_cases hc : c = sep
  · simp only [if_pos hc]
  · simp only [if_neg hc, List.modifyHead_cons]

theorem splitOn_eq (sep : Char) (s : Text) : splitOn sep s = List.splitOn sep s := by
  induction s with
  | nil => rfl
  | cons c s ih =>
      rw [splitOn_cons, ih, List.splitOn_cons_eq_if_modifyHead]
      simp only [beq_iff_eq]

theorem not_mem_of_mem_linesFrom {current s line : Text} (hcurrent : '\n' ∉ current)
    (h : line ∈ linesFrom current s) : '\n' ∉ line := by
  fun_induction linesFrom current s with
  | case1 current hempty => exact absurd h List.not_mem_nil
  | case2 current hne =>
      rw [List.mem_singleton.1 h]
      simpa using hcurrent
  | case3 current s ih =>
      rcases List.mem_cons.1 h with rfl | h
      · simpa using hcurrent
      · exact ih List.not_mem_nil h
  | case4 current s ih =>
      rcases List.mem_cons.1 h with rfl | h
      · simpa using hcurrent
      · exact ih List.not_mem_nil h
  | case5 current c s hcr hlf ih =>
      refine ih ?_ h
      rw [List.mem_cons, not_or]
      exact ⟨fun hc => hlf hc.symm, hcurrent⟩

/-- A line has no line feed. -/
theorem not_mem_of_mem_lines {s line : Text} (h : line ∈ lines s) : '\n' ∉ line :=
  not_mem_of_mem_linesFrom List.not_mem_nil h

/-! ### Blanks in front -/

/-- Blanks, perhaps none. -/
def AllBlank (s : Text) : Prop := ∀ c ∈ s, isBlank c = true

instance (s : Text) : Decidable (AllBlank s) :=
  decidable_of_iff (s.all isBlank = true) List.all_eq_true

@[simp] theorem allBlank_nil : AllBlank [] := by simp [AllBlank]

@[simp] theorem allBlank_cons {c : Char} {s : Text} :
    AllBlank (c :: s) ↔ isBlank c = true ∧ AllBlank s := by
  simp [AllBlank]

@[simp] theorem allBlank_append {s t : Text} :
    AllBlank (s ++ t) ↔ AllBlank s ∧ AllBlank t := by
  simp only [AllBlank, List.forall_mem_append]

theorem trimStart_blanks_append {b : Text} (hb : AllBlank b) (s : Text) :
    trimStart (b ++ s) = trimStart s :=
  List.dropWhile_append_of_pos hb

theorem trimStart_cons_of_not_blank {c : Char} (hc : isBlank c = false) (s : Text) :
    trimStart (c :: s) = c :: s :=
  List.dropWhile_cons_of_neg (by simp [hc])

/-- What follows blanks begins at the first character that is none. -/
theorem trimStart_blanks_cons {b : Text} (hb : AllBlank b) {c : Char} (hc : isBlank c = false)
    (s : Text) : trimStart (b ++ c :: s) = c :: s := by
  rw [trimStart_blanks_append hb, trimStart_cons_of_not_blank hc]

/-- A text is blanks, followed by the text without them. -/
theorem exists_blanks_trimStart (s : Text) : ∃ b : Text, AllBlank b ∧ s = b ++ trimStart s :=
  ⟨s.takeWhile isBlank, fun _ hc => List.mem_takeWhile_imp hc,
    List.takeWhile_append_dropWhile.symm⟩

/-- A text that begins with a blank has blanks in front. -/
theorem exists_blanks_trimStart_of_head {s : Text} (h : s.head?.any isBlank = true) :
    ∃ b : Text, b ≠ [] ∧ AllBlank b ∧ s = b ++ trimStart s := by
  cases s with
  | nil => simp at h
  | cons c s =>
      have hc : isBlank c = true := by simpa using h
      refine ⟨c :: s.takeWhile isBlank, by simp, ?_, ?_⟩
      · intro d hd
        rcases List.mem_cons.1 hd with rfl | hd
        · exact hc
        · exact List.mem_takeWhile_imp hd
      · rw [trimStart, List.dropWhile_cons_of_pos hc, List.cons_append,
          List.takeWhile_append_dropWhile]

/-! ### Blanks at both ends -/

theorem trimEnd_append_blanks {b : Text} (hb : AllBlank b) (s : Text) :
    trimEnd (s ++ b) = trimEnd s := by
  have hrev : ∀ c ∈ b.reverse, isBlank c = true := fun c hc => hb c (List.mem_reverse.1 hc)
  rw [trimEnd, trimEnd, List.reverse_append, List.dropWhile_append_of_pos hrev]

theorem trimEnd_of_last {s : Text} {c : Char} (hc : isBlank c = false) :
    trimEnd (s ++ [c]) = s ++ [c] := by
  simp [trimEnd, hc]

/-- A text without blanks at its ends. -/
def IsTrim (s : Text) : Prop :=
  (∀ c, s.head? = some c → isBlank c = false) ∧ ∀ c, s.getLast? = some c → isBlank c = false

theorem isTrim_nil : IsTrim [] := ⟨by simp, by simp⟩

theorem trimStart_of_isTrim {s : Text} (hs : IsTrim s) : trimStart s = s := by
  cases s with
  | nil => rfl
  | cons c s => exact trimStart_cons_of_not_blank (hs.1 c rfl) s

theorem trimEnd_of_isTrim {s : Text} (hs : IsTrim s) : trimEnd s = s := by
  rcases List.eq_nil_or_concat s with rfl | ⟨s, c, rfl⟩
  · rfl
  · rw [List.concat_eq_append] at hs ⊢
    exact trimEnd_of_last (hs.2 c (by simp))

/-- **A trimmed text is what stands between the blanks at both ends.** -/
theorem trim_eq {b₁ s b₂ : Text} (hb₁ : AllBlank b₁) (hs : IsTrim s) (hb₂ : AllBlank b₂) :
    trim (b₁ ++ (s ++ b₂)) = s := by
  rw [trim, trimStart_blanks_append hb₁]
  cases s with
  | nil =>
      rw [List.nil_append, trimStart, List.dropWhile_eq_nil_iff.2 hb₂]
      rfl
  | cons c s =>
      rw [List.cons_append, trimStart_cons_of_not_blank (hs.1 c rfl), ← List.cons_append,
        trimEnd_append_blanks hb₂, trimEnd_of_isTrim hs]

theorem trim_of_isTrim {s : Text} (hs : IsTrim s) : trim s = s := by
  rw [trim, trimStart_of_isTrim hs, trimEnd_of_isTrim hs]

theorem exists_trimEnd_blanks (s : Text) : ∃ b : Text, AllBlank b ∧ s = trimEnd s ++ b := by
  refine ⟨(s.reverse.takeWhile isBlank).reverse, ?_, ?_⟩
  · intro c hc
    exact List.mem_takeWhile_imp (List.mem_reverse.1 hc)
  · rw [trimEnd, ← List.reverse_append, List.takeWhile_append_dropWhile, List.reverse_reverse]

theorem head?_trimStart {s : Text} {c : Char} (h : (trimStart s).head? = some c) :
    isBlank c = false := by
  have := List.head?_dropWhile_not isBlank s
  rw [trimStart] at h
  rw [h] at this
  simpa using this

theorem getLast?_trimEnd {s : Text} {c : Char} (h : (trimEnd s).getLast? = some c) :
    isBlank c = false := by
  have := List.head?_dropWhile_not isBlank s.reverse
  rw [trimEnd, List.getLast?_reverse] at h
  rw [h] at this
  simpa using this

/-- Blanks at the end of a text are blanks at the end of its second part, if that has other
characters too. -/
theorem trimEnd_append_of_not_blank {s t : Text} (ht : ¬ AllBlank t) :
    trimEnd (s ++ t) = s ++ trimEnd t := by
  obtain ⟨b, hb, hsplit⟩ := exists_trimEnd_blanks t
  rcases List.eq_nil_or_concat (trimEnd t) with hnil | ⟨x, c, hx⟩
  · rw [hnil, List.nil_append] at hsplit
    exact absurd (hsplit ▸ hb) ht
  · have hc : isBlank c = false := getLast?_trimEnd (s := t) (by simp [hx])
    rw [List.concat_eq_append] at hx
    rw [hsplit, ← List.append_assoc, trimEnd_append_blanks hb, ← hsplit, hx, ← List.append_assoc,
      trimEnd_of_last hc]

/-- The text between the blanks at both ends has none at its ends. -/
theorem isTrim_trim (s : Text) : IsTrim (trim s) := by
  refine ⟨fun c hc => ?_, fun c hc => getLast?_trimEnd hc⟩
  obtain ⟨b, -, hb⟩ := exists_trimEnd_blanks (trimStart s)
  refine head?_trimStart (s := s) ?_
  rw [hb, List.head?_append]
  rw [trim] at hc
  rw [hc]
  rfl

/-- A text is the trimmed text between blanks. -/
theorem exists_blanks_trim (s : Text) :
    ∃ b₁ b₂ : Text, AllBlank b₁ ∧ AllBlank b₂ ∧ s = b₁ ++ (trim s ++ b₂) := by
  obtain ⟨b₁, hb₁, h₁⟩ := exists_blanks_trimStart s
  obtain ⟨b₂, hb₂, h₂⟩ := exists_trimEnd_blanks (trimStart s)
  refine ⟨b₁, b₂, hb₁, hb₂, ?_⟩
  rw [trim, ← h₂, ← h₁]

theorem trim_append_blanks {b : Text} (hb : AllBlank b) (s : Text) : trim (s ++ b) = trim s := by
  obtain ⟨b₁, b₂, hb₁, hb₂, hs⟩ := exists_blanks_trim s
  have hsplit : s ++ b = b₁ ++ (trim s ++ (b₂ ++ b)) := by
    rw [← List.append_assoc (trim s), ← List.append_assoc b₁, ← hs]
  rw [hsplit, trim_eq hb₁ (isTrim_trim s) (allBlank_append.2 ⟨hb₂, hb⟩)]

/-- What is left of a text was part of it. -/
theorem mem_of_mem_trim {s : Text} {c : Char} (h : c ∈ trim s) : c ∈ s := by
  obtain ⟨b₁, b₂, -, -, hs⟩ := exists_blanks_trim s
  rw [hs]
  exact List.mem_append_right _ (List.mem_append_left _ h)

/-- A text of which only blanks are left is blanks. -/
theorem trim_eq_nil_iff {s : Text} : trim s = [] ↔ AllBlank s := by
  constructor
  · intro h
    obtain ⟨b₁, b₂, hb₁, hb₂, hs⟩ := exists_blanks_trim s
    rw [h, List.nil_append] at hs
    intro c hc
    rw [hs, List.mem_append] at hc
    exact hc.elim (hb₁ c) (hb₂ c)
  · intro h
    simpa using trim_eq h isTrim_nil allBlank_nil

/-! ### Endings -/

/-- Taking `p` off the end of `s` leaves `r` exactly if `s` is `r` with `p` behind it. -/
theorem dropSuffix?_eq_some_iff {p s r : Text} : dropSuffix? p s = some r ↔ s = r ++ p := by
  rw [dropSuffix?, Option.map_eq_some_iff]
  constructor
  · rintro ⟨t, ht, rfl⟩
    rw [dropPrefix?_eq_some_iff] at ht
    rw [← List.reverse_reverse s, ht, List.reverse_append, List.reverse_reverse]
  · rintro rfl
    exact ⟨r.reverse, dropPrefix?_eq_some_iff.2 (by simp), List.reverse_reverse r⟩

end Text

/-! ### Directives -/

theorem isBlank_hash : isBlank '#' = false := by decide

/-- The characters that may follow the name of a directive. -/
def endsName (d : Char) : Bool := isBlank d || d == '(' || d == '\x7b'

/-- **Lines with a directive**: blanks, the sigil, the name up to case, and what follows it, whose
trimmed text is the argument. -/
theorem directiveArg?_eq_some_iff {sigil : Char} (hsigil : isBlank sigil = false)
    {name line arg : Text} :
    directiveArg? sigil name line = some arg ↔
      ∃ b w tail : Text, Text.AllBlank b ∧ Text.dropPrefixCi? name w = some [] ∧
        (∀ d, tail.head? = some d → endsName d = true) ∧ arg = Text.trim tail ∧
        line = b ++ sigil :: (w ++ tail) := by
  constructor
  · intro h
    obtain ⟨b, hb, hline⟩ := Text.exists_blanks_trimStart line
    unfold directiveArg? at h
    split at h
    · cases h
    · next c rest hstart =>
        rw [hstart] at hline
        split at h
        · next hc =>
            subst hc
            split at h
            · cases h
            · next hdrop =>
                obtain ⟨w, rfl, hw⟩ := Text.dropPrefixCi?_eq_some_iff.1 hdrop
                obtain rfl := Option.some.inj h
                exact ⟨b, w, [], hb, hw, by simp, rfl, hline⟩
            · next d tail hdrop =>
                obtain ⟨w, rfl, hw⟩ := Text.dropPrefixCi?_eq_some_iff.1 hdrop
                split at h
                · next hd =>
                    obtain rfl := Option.some.inj h
                    exact ⟨b, w, d :: tail, hb, hw, by simpa [endsName] using hd, rfl, hline⟩
                · cases h
        · cases h
  · rintro ⟨b, w, tail, hb, hw, htail, rfl, rfl⟩
    have hdrop : Text.dropPrefixCi? name (w ++ tail) = some tail :=
      Text.dropPrefixCi?_eq_some_iff.2 ⟨w, rfl, hw⟩
    unfold directiveArg?
    rw [Text.trimStart_blanks_cons hb hsigil]
    simp only [if_pos, hdrop]
    cases tail with
    | nil => rfl
    | cons d tail =>
        have hd : (isBlank d || d == '(' || d == '\x7b') = true := htail d rfl
        simp only [hd, if_true]

end Softcode
