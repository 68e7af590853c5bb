/-
**What a walk over a line comes to.**

The walk over a line gives every character a role.  In plain code it looks at what begins at the
next character, and what it comes to is one of six things: an escape pair, a quote, an address, one
of the two kinds of comments, or a plain character.  This module takes the walk apart at that point,
so that whatever is proved about it is a case for each of the six.  Addresses are described by their
schemes, which are letters followed by `://`; no two of them begin one text.

Main definitions:

* `Softcode.IsScheme` — the beginnings of addresses, up to case;
* `Softcode.Scanner.Sight` — **the six things that a walk in plain code comes to**;
* `Softcode.Scanner.InComment` — the states of a walk inside a comment.

Main results:

* `Softcode.IsScheme.unique` — a text begins with one scheme at most;
* `Softcode.addressLength_eq_iff` — **where addresses begin and end**;
* `Softcode.Scanner.sight` — a walk in plain code comes to one of the six things;
* `Softcode.Scanner.step_escape`, …, `Softcode.Scanner.step_plain` — what it does then;
* `Softcode.Scanner.InComment.step` — inside a comment every character belongs to it.
-/

import Softcode.Proofs.Text
import Softcode.Scan

set_option autoImplicit false

namespace Softcode

/-! ### Schemes -/

/-- The beginning of an address, up to case. -/
def IsScheme (w : Text) : Prop := ∃ scheme ∈ addressSchemes, Text.dropPrefixCi? scheme w = some []

/-- The first letters of addresses. -/
def opensScheme (c : Char) : Bool := c.toLower == 'h' || c.toLower == 'f'

/-- The letters behind the first one of an address. -/
def isSchemeLetter (c : Char) : Bool := c.toLower == 't' || c.toLower == 'p' || c.toLower == 's'

theorem exists_schemeLetters {scheme : Text} (h : scheme ∈ addressSchemes) :
    ∃ c x, scheme.map Char.toLower = c :: (x ++ [':', '/', '/']) ∧ (c = 'h' ∨ c = 'f') ∧
      ∀ d ∈ x, d = 't' ∨ d = 'p' ∨ d = 's' := by
  simp only [addressSchemes, List.mem_cons, List.not_mem_nil, or_false] at h
  rcases h with rfl | rfl | rfl | rfl
  · exact ⟨'h', ['t', 't', 'p'], by decide, by decide, by simp⟩
  · exact ⟨'h', ['t', 't', 'p', 's'], by decide, by decide, by simp⟩
  · exact ⟨'f', ['t', 'p'], by decide, by decide, by simp⟩
  · exact ⟨'f', ['t', 'p', 's'], by decide, by decide, by simp⟩

/-- A scheme is letters followed by `://`. -/
theorem IsScheme.shape {w : Text} (h : IsScheme w) :
    ∃ c x, w = c :: (x ++ [':', '/', '/']) ∧ opensScheme c = true ∧
      ∀ d ∈ x, isSchemeLetter d = true := by
  obtain ⟨scheme, hscheme, hw⟩ := h
  obtain ⟨c₀, x₀, hletters, hc₀, hx₀⟩ := exists_schemeLetters hscheme
  rw [Text.dropPrefixCi?_eq_nil_iff, hletters] at hw
  obtain ⟨c, w', rfl, hc, hw'⟩ := List.map_eq_cons_iff.1 hw
  obtain ⟨x, m, rfl, hx, hm⟩ := List.map_eq_append_iff.1 hw'
  -- neither the colon nor the slash is the lower case of another character
  have hmark : m = [':', '/', '/'] := by
    simp only [List.map_eq_cons_iff, List.map_eq_nil_iff] at hm
    obtain ⟨d₁, -, rfl, h₁, d₂, -, rfl, h₂, d₃, -, rfl, h₃, rfl⟩ := hm
    rw [Text.eq_of_toLower_eq h₁ (by decide), Text.eq_of_toLower_eq h₂ (by decide),
      Text.eq_of_toLower_eq h₃ (by decide)]
  refine ⟨c, x, by rw [hmark], ?_, ?_⟩
  · rcases hc₀ with rfl | rfl <;> simp [opensScheme, hc]
  · intro d hd
    have hlower : d.toLower ∈ x₀ := by
      rw [← hx]
      exact List.mem_map_of_mem hd
    rcases hx₀ _ hlower with h | h | h <;> simp [isSchemeLetter, h]

theorem isAlphanum_of_opensScheme {c : Char} (h : opensScheme c = true) : c.isAlphanum = true := by
  refine Text.isAlphanum_of_toLower ?_
  rcases Bool.or_eq_true_iff.1 h with h | h
  · rw [beq_iff_eq.1 h]
    decide
  · rw [beq_iff_eq.1 h]
    decide

theorem isAlphanum_of_isSchemeLetter {c : Char} (h : isSchemeLetter c = true) :
    c.isAlphanum = true := by
  refine Text.isAlphanum_of_toLower ?_
  rcases Bool.or_eq_true_iff.1 h with h | h
  · rcases Bool.or_eq_true_iff.1 h with h | h
    · rw [beq_iff_eq.1 h]
      decide
    · rw [beq_iff_eq.1 h]
      decide
  · rw [beq_iff_eq.1 h]
    decide

/-- A scheme is letters and digits followed by `://`. -/
theorem IsScheme.word {w : Text} (h : IsScheme w) :
    ∃ x, w = x ++ [':', '/', '/'] ∧ ∀ d ∈ x, d.isAlphanum = true := by
  obtain ⟨c, x, rfl, hc, hx⟩ := h.shape
  refine ⟨c :: x, rfl, fun d hd => ?_⟩
  rcases List.mem_cons.1 hd with rfl | hd
  · exact isAlphanum_of_opensScheme hc
  · exact isAlphanum_of_isSchemeLetter (hx d hd)

/-- **A text begins with one scheme at most.** -/
theorem IsScheme.unique {w w' s s' : Text} (h : IsScheme w) (h' : IsScheme w')
    (heq : w ++ s = w' ++ s') : w = w' ∧ s = s' := by
  obtain ⟨x, rfl, hx⟩ := h.word
  obtain ⟨x', rfl, hx'⟩ := h'.word
  -- the letters end at the colon
  have hspan : ∀ y z : Text, (∀ d ∈ y, d.isAlphanum = true) →
      (y ++ [':', '/', '/'] ++ z).takeWhile Char.isAlphanum = y := by
    intro y z hy
    rw [List.append_assoc, List.takeWhile_append_of_pos hy]
    simp [List.takeWhile_cons_of_neg]
  have hword : x = x' := by rw [← hspan x s hx, heq, hspan x' s' hx']
  subst hword
  exact ⟨rfl, List.append_cancel_left heq⟩

/-! ### Addresses -/

theorem addressLength_of_word {before : Option Char} (h : before.any Char.isAlphanum = true)
    (t : Text) : addressLength before t = 0 := by
  rw [addressLength, if_pos h]

theorem length_of_dropPrefixCi? {scheme w : Text} (h : Text.dropPrefixCi? scheme w = some []) :
    w.length = scheme.length := by
  simpa using congrArg List.length (Text.dropPrefixCi?_eq_nil_iff.1 h)

/-- **Addresses**: a scheme that does not stand inside a word, with what follows it up to the next
character that ends addresses. -/
theorem addressLength_eq_iff {before : Option Char} {t : Text} {n : Nat} :
    addressLength before t = n + 1 ↔
      before.any Char.isAlphanum = false ∧ ∃ w s, t = w ++ s ∧ IsScheme w ∧
        n + 1 = w.length + (s.takeWhile fun c => !endsAddress c).length := by
  constructor
  · intro h
    unfold addressLength at h
    split at h
    · cases h
    · next hword =>
        refine ⟨Bool.eq_false_iff.2 hword, ?_⟩
        split at h
        · cases h
        · next m s hfound =>
            obtain ⟨scheme, hscheme, hdrop⟩ := List.exists_of_findSome?_eq_some hfound
            obtain ⟨rest, hrest, heq⟩ := Option.map_eq_some_iff.1 hdrop
            obtain ⟨rfl, rfl⟩ := Prod.mk.inj heq
            obtain ⟨w, rfl, hw⟩ := Text.dropPrefixCi?_eq_some_iff.1 hrest
            exact ⟨w, rest, rfl, ⟨scheme, hscheme, hw⟩, by rw [length_of_dropPrefixCi? hw, h]⟩
  · rintro ⟨hword, w, s, rfl, hw, hn⟩
    unfold addressLength
    rw [if_neg (Bool.eq_false_iff.1 hword), hn]
    split
    · next hnone =>
        obtain ⟨scheme, hscheme, hv⟩ := hw
        have hdrop := List.findSome?_eq_none_iff.1 hnone scheme hscheme
        rw [Text.dropPrefixCi?_eq_some_iff.2 ⟨w, rfl, hv⟩] at hdrop
        cases hdrop
    · next m rest hfound =>
        -- the scheme that is found is the one that is there
        obtain ⟨scheme, hscheme, hdrop⟩ := List.exists_of_findSome?_eq_some hfound
        obtain ⟨rest', hrest, heq⟩ := Option.map_eq_some_iff.1 hdrop
        obtain ⟨rfl, rfl⟩ := Prod.mk.inj heq
        obtain ⟨v, hv, hv'⟩ := Text.dropPrefixCi?_eq_some_iff.1 hrest
        obtain ⟨rfl, rfl⟩ := hw.unique ⟨scheme, hscheme, hv'⟩ hv
        rw [length_of_dropPrefixCi? hv']

theorem opensScheme_of_addressLength {before : Option Char} {c : Char} {t : Text} {n : Nat}
    (h : addressLength before (c :: t) = n + 1) : opensScheme c = true := by
  obtain ⟨-, w, s, ht, hw, -⟩ := addressLength_eq_iff.1 h
  obtain ⟨d, x, rfl, hd, -⟩ := hw.shape
  obtain ⟨rfl, -⟩ := List.cons.inj ht
  exact hd

/-- Only the first letter of a scheme begins an address. -/
theorem addressLength_of_not_opensScheme (before : Option Char) {c : Char}
    (hc : opensScheme c = false) (t : Text) : addressLength before (c :: t) = 0 := by
  cases h : addressLength before (c :: t) with
  | zero => rfl
  | succ n =>
      rw [opensScheme_of_addressLength h] at hc
      cases hc

/-! ### Comment marks -/

theorem startsWith_pair_iff {a b c : Char} {t : Text} :
    Text.startsWith [a, b] (c :: t) = true ↔ c = a ∧ t.head? = some b := by
  rw [Text.startsWith, Option.isSome_iff_exists]
  simp only [Text.dropPrefix?_eq_some_iff, List.cons_append, List.nil_append, List.cons.injEq,
    exists_and_left, ← List.head?_eq_some_iff]

theorem lineCommentMark_iff {c : Char} {t : Text} :
    Text.startsWith lineCommentMark (c :: t) = true ↔ c = '/' ∧ t.head? = some '/' :=
  startsWith_pair_iff

theorem blockCloseMark_iff {c : Char} {t : Text} :
    Text.startsWith blockCloseMark (c :: t) = true ↔ c = '*' ∧ t.head? = some '/' :=
  startsWith_pair_iff

theorem opensBlock_iff {before : Option Char} {c : Char} {t : Text} :
    opensBlock before (c :: t) = true ↔ c = '/' ∧ t.head? = some '*' ∧ before ≠ some '*' := by
  rw [opensBlock, Bool.and_eq_true, blockOpenMark, startsWith_pair_iff, and_assoc]
  simp

/-- A letter or digit is no mark. -/
theorem ordinary_of_isAlphanum {c : Char} (h : c.isAlphanum = true) :
    c ≠ '\\' ∧ ¬ (c = '"' ∨ c = '\'') ∧ c ≠ '/' := by
  refine ⟨?_, ?_, ?_⟩
  · rintro rfl
    exact absurd h (by decide)
  · rintro (rfl | rfl)
    · exact absurd h (by decide)
    · exact absurd h (by decide)
  · rintro rfl
    exact absurd h (by decide)

namespace Scanner

/-! ### In plain code -/

/-- **What a walk in plain code comes to.** -/
inductive Sight (before : Option Char) (c : Char) (rest : Text) : Prop where
  | escape (h : c = '\\')
  | quote (h : c = '"' ∨ c = '\'')
  | address {n : Nat} (h : addressLength before (c :: rest) = n + 1)
  | line (h : Text.startsWith lineCommentMark (c :: rest) = true)
  | block (h : opensBlock before (c :: rest) = true)
  | plain (hescape : c ≠ '\\') (hquote : ¬ (c = '"' ∨ c = '\''))
      (haddress : addressLength before (c :: rest) = 0)
      (hline : Text.startsWith lineCommentMark (c :: rest) = false)
      (hblock : opensBlock before (c :: rest) = false)

/-- A walk in plain code comes to one of the six things. -/
theorem sight (before : Option Char) (c : Char) (rest : Text) : Sight before c rest := by
  by_cases hescape : c = '\\'
  · exact .escape hescape
  · by_cases hquote : c = '"' ∨ c = '\''
    · exact .quote hquote
    · cases haddress : addressLength before (c :: rest) with
      | succ n => exact .address haddress
      | zero =>
          cases hline : Text.startsWith lineCommentMark (c :: rest) with
          | true => exact .line hline
          | false =>
              cases hblock : opensBlock before (c :: rest) with
              | true => exact .block hblock
              | false => exact .plain hescape hquote haddress hline hblock

section Code

variable {role : Role} {before : Option Char} {c : Char} {rest : Text}

theorem step_escape (h : c = '\\') :
    (⟨.code, 0, role⟩ : Scanner).step before c rest = (.escaped, ⟨.code, 1, .escaped⟩) := by
  subst h
  rfl

theorem step_quote (h : c = '"' ∨ c = '\'') :
    (⟨.code, 0, role⟩ : Scanner).step before c rest = (.quote, start (.quoted c)) := by
  rcases h with rfl | rfl <;> rfl

theorem step_address {n : Nat} (h : addressLength before (c :: rest) = n + 1) :
    (⟨.code, 0, role⟩ : Scanner).step before c rest = (.address, ⟨.code, n, .address⟩) := by
  obtain ⟨hescape, hquote, -⟩ :=
    ordinary_of_isAlphanum (isAlphanum_of_opensScheme (opensScheme_of_addressLength h))
  simp only [step, if_neg hescape, if_neg hquote, h]

theorem step_line (h : Text.startsWith lineCommentMark (c :: rest) = true) :
    (⟨.code, 0, role⟩ : Scanner).step before c rest = (.comment, start .lineComment) := by
  obtain ⟨rfl, -⟩ := lineCommentMark_iff.1 h
  have haddress := addressLength_of_not_opensScheme before (c := '/') (by decide) rest
  simp [step, haddress, h]

theorem step_block (h : opensBlock before (c :: rest) = true) :
    (⟨.code, 0, role⟩ : Scanner).step before c rest = (.comment, ⟨.block, 1, .comment⟩) := by
  obtain ⟨rfl, hhead, -⟩ := opensBlock_iff.1 h
  have haddress := addressLength_of_not_opensScheme before (c := '/') (by decide) rest
  have hline : ¬ Text.startsWith lineCommentMark ('/' :: rest) = true := by
    rw [lineCommentMark_iff, hhead]
    simp
  simp [step, haddress, h, hline]

theorem step_plain (hescape : c ≠ '\\') (hquote : ¬ (c = '"' ∨ c = '\''))
    (haddress : addressLength before (c :: rest) = 0)
    (hline : Text.startsWith lineCommentMark (c :: rest) = false)
    (hblock : opensBlock before (c :: rest) = false) :
    (⟨.code, 0, role⟩ : Scanner).step before c rest = (.code, ⟨.code, 0, role⟩) := by
  simp only [step, if_neg hescape, if_neg hquote, haddress, hline, hblock]
  rfl

/-- A character that is no mark and begins no address is code. -/
theorem step_ordinary (hescape : c ≠ '\\') (hquote : ¬ (c = '"' ∨ c = '\'')) (hslash : c ≠ '/')
    (haddress : addressLength before (c :: rest) = 0) :
    (⟨.code, 0, role⟩ : Scanner).step before c rest = (.code, ⟨.code, 0, role⟩) := by
  refine step_plain hescape hquote haddress (Bool.eq_false_iff.2 fun h => ?_)
    (Bool.eq_false_iff.2 fun h => ?_)
  · exact hslash (lineCommentMark_iff.1 h).1
  · exact hslash (opensBlock_iff.1 h).1

end Code

/-! ### Inside comments -/

/-- The states of a walk inside a comment, with the text that is left: behind the first or before
the last character of a mark, or between the marks. -/
inductive InComment : Scanner → Text → Prop where
  | line (role : Role) (t : Text) : InComment ⟨.lineComment, 0, role⟩ t
  | opening (t : Text) : InComment ⟨.block, 1, .comment⟩ t
  | inside (role : Role) (t : Text) : InComment ⟨.block, 0, role⟩ t
  | closing (t : Text) : InComment ⟨.code, 1, .comment⟩ ('/' :: t)

/-- **Inside a comment every character belongs to it**; behind the last one, which is a slash, there
is code again. -/
theorem InComment.step {s : Scanner} {c : Char} {rest : Text} (h : InComment s (c :: rest))
    (before : Option Char) :
    (s.step before c rest).1 = .comment ∧
      (InComment (s.step before c rest).2 rest ∨
        c = '/' ∧ (s.step before c rest).2 = ⟨.code, 0, .comment⟩) := by
  cases h with
  | line role => exact ⟨rfl, Or.inl (.line role rest)⟩
  | opening => exact ⟨rfl, Or.inl (.inside .comment rest)⟩
  | closing => exact ⟨rfl, Or.inr ⟨rfl, rfl⟩⟩
  | inside role =>
      cases hclose : Text.startsWith blockCloseMark (c :: rest) with
      | true =>
          have hstep : (⟨.block, 0, role⟩ : Scanner).step before c rest =
              (.comment, ⟨.code, 1, .comment⟩) := by simp [Scanner.step, hclose]
          obtain ⟨t, rfl⟩ : ∃ t, rest = '/' :: t :=
            List.head?_eq_some_iff.1 (blockCloseMark_iff.1 hclose).2
          rw [hstep]
          exact ⟨rfl, Or.inl (.closing t)⟩
      | false =>
          have hstep : (⟨.block, 0, role⟩ : Scanner).step before c rest =
              (.comment, ⟨.block, 0, role⟩) := by simp [Scanner.step, hclose]
          rw [hstep]
          exact ⟨rfl, Or.inl (.inside role rest)⟩

end Scanner

end Softcode
