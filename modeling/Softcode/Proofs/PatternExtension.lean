/-
**Reading a pattern with more behind it.**

The text of a pattern can go on: a macro writes an argument list behind its trigger.  The reader
does not know where the trigger ends, and what follows can change what it reads: a backslash at the
end takes the next character with it, digits may go on, a class may find its bracket in the list.
This module and the two after it show that none of this happens where the first text can be read
alone.

Two readers are compared.  The one has the first text to read and the other the same text with a
tail behind it; the tail begins with a backslash, which ends all digits, names and operators.
Whatever the first reader reads, the second reads too, up to the places it notes.

* `Softcode.Pattern.IsTail` — **what may stand behind a pattern**;
* `Softcode.Pattern.Reader.Extends` — two readers of which the second has the tail behind;
* `Softcode.Pattern.Carries` — **what the first reader reads, the second reads too**, with its laws
  for steps one after the other, `Carries.bind` and `carries_bind_value`;
* `Softcode.Pattern.readEscape_carries`, `Softcode.Pattern.readPrimitive_carries` — escapes and
  single characters;
* `Softcode.Pattern.readLazy_extends`, `Softcode.Pattern.readBounds_carries` — operators and counts.
-/

import Softcode.Proofs.PatternReading

set_option autoImplicit false

namespace Softcode

namespace Pattern

/-! ### Two readers -/

/-- A text that may stand behind a pattern: it is empty or begins with a backslash. -/
def IsTail (tail : Text) : Prop := ∀ c, tail.head? = some c → c = '\\'

/-- The reader `r'` has `tail` behind what `r` has left to read, in which no parenthesis opens. -/
structure Reader.Extends (tail : Text) (r r' : Reader) : Prop where
  rest : r'.rest = r.rest ++ tail
  spaced : r.spaced = false
  spaced' : r'.spaced = false
  groups : r'.groups = 0
  unopened : '(' ∉ r.rest

namespace Reader

variable {tail s : Text} {r r' : Reader} {c : Char}

theorem Extends.next (h : r.Extends tail r') (hr : r.rest = c :: s) :
    r'.rest = c :: (s ++ tail) := by
  rw [h.rest, hr, List.cons_append]

theorem Extends.bump (h : r.Extends tail r') (hr : r.rest = c :: s) :
    r.bump.Extends tail r'.bump := by
  refine ⟨?_, ?_, ?_, ?_, ?_⟩
  · rw [r'.bump_rest (h.next hr), r.bump_rest hr]
  · rw [bump_spaced, h.spaced]
  · rw [bump_spaced, h.spaced']
  · rw [bump_groups, h.groups]
  · have := h.unopened
    rw [hr] at this
    rw [r.bump_rest hr]
    exact fun hmem => this (List.mem_cons_of_mem c hmem)

/-- Where the first reader is not at the end, neither is the second. -/
theorem Extends.exists_next (h : r.Extends tail r') (hend : ¬ r.atEnd = true) :
    ∃ c s, r.rest = c :: s ∧ r'.atEnd = false := by
  cases hr : r.rest with
  | nil => exact absurd (by rw [atEnd, hr]; rfl) hend
  | cons c s => exact ⟨c, s, rfl, by rw [atEnd, h.next hr]; rfl⟩

end Reader

/-- **What the first reader reads, the second reads too**, up to places, and it has the tail behind
what is left then. -/
def Carries {α γ : Type} (tail : Text) (erase : α → γ) (x y : Except Error (α × Reader)) : Prop :=
  ∀ a r, x = .ok (a, r) → ∃ b r', y = .ok (b, r') ∧ erase b = erase a ∧ r.Extends tail r'

section Carries

variable {α β γ δ : Type} {tail : Text} {e : α → γ} {e' : β → δ}

theorem carries_failAt (fault : Fault) (span : Span) (y : Except Error (α × Reader)) :
    Carries tail e (failAt fault span) y :=
  fun _ _ h => nomatch h

theorem carries_ok {a b : α} {r r' : Reader} (hab : e b = e a) (h : r.Extends tail r') :
    Carries tail e (.ok (a, r)) (.ok (b, r')) := by
  intro _ _ heq
  cases heq
  exact ⟨b, r', rfl, hab, h⟩

theorem Carries.bind {x y : Except Error (α × Reader)}
    {f g : α × Reader → Except Error (β × Reader)}
    (h : Carries tail e x y)
    (hf : ∀ a b r r', e b = e a → r.Extends tail r' → Carries tail e' (f (a, r)) (g (b, r'))) :
    Carries tail e' (x >>= f) (y >>= g) := by
  intro c r₁ hbind
  obtain ⟨⟨a, r⟩, hx, hfx⟩ := exists_of_bind_eq_ok hbind
  obtain ⟨b, r', hy, hab, hr⟩ := h a r hx
  obtain ⟨d, r₁', hg, hcd, hr₁⟩ := hf a b r r' hab hr c r₁ hfx
  refine ⟨d, r₁', ?_, hcd, hr₁⟩
  rw [hy]
  exact hg

/-- A step that reads nothing. -/
theorem carries_bind_value {x y : Except Error α} {f g : α → Except Error (β × Reader)}
    (h : ∀ a, x = .ok a → ∃ b, y = .ok b ∧ e b = e a)
    (hf : ∀ a b, e b = e a → Carries tail e' (f a) (g b)) :
    Carries tail e' (x >>= f) (y >>= g) := by
  intro c r₁ hbind
  obtain ⟨a, hx, hfx⟩ := exists_of_bind_eq_ok hbind
  obtain ⟨b, hy, hab⟩ := h a hx
  obtain ⟨d, r₁', hg, hcd, hr₁⟩ := hf a b hab c r₁ hfx
  refine ⟨d, r₁', ?_, hcd, hr₁⟩
  rw [hy]
  exact hg

end Carries

/-! ### Characters and numbers -/

section Steps

variable {tail s : Text} {r r' : Reader} {c : Char}

theorem takeChars_eq (p : Char → Bool) {n g : Nat} (hr : r.At s g) (hn : s.length ≤ n) :
    ∃ r₁, takeChars p n r = (s.takeWhile p, r₁) ∧ r₁.At (s.dropWhile p) g := by
  induction n generalizing r s with
  | zero =>
      obtain rfl : s = [] := List.length_eq_zero_iff.1 (Nat.le_zero.1 hn)
      exact ⟨r, rfl, hr⟩
  | succ n ih =>
      cases s with
      | nil => exact ⟨r, by simp only [takeChars, hr.rest, List.takeWhile_nil], hr⟩
      | cons c s =>
          by_cases hc : p c = true
          · obtain ⟨r₁, htake, hr₁⟩ := ih hr.bump (Nat.le_of_succ_le_succ hn)
            refine ⟨r₁, ?_, ?_⟩
            · simp only [takeChars, hr.rest, hc, if_true, Reader.bumpSpace_eq hr.spaced, htake,
                List.takeWhile_cons]
            · rwa [List.dropWhile_cons, if_pos hc]
          · refine ⟨r, ?_, ?_⟩
            · simp only [takeChars, hr.rest, hc, List.takeWhile_cons, Bool.false_eq_true, if_false]
            · rwa [List.dropWhile_cons, if_neg hc]

/-- Characters are not taken from the tail, if they stop before it or a backslash stops them. -/
theorem takeWhile_append_tail (htail : IsTail tail) {p : Char → Bool}
    (hstop : p '\\' = false ∨ s.dropWhile p ≠ []) :
    (s ++ tail).takeWhile p = s.takeWhile p ∧ (s ++ tail).dropWhile p = s.dropWhile p ++ tail := by
  induction s with
  | nil =>
      have hslash : p '\\' = false := hstop.resolve_right fun h => h rfl
      cases tail with
      | nil => exact ⟨rfl, rfl⟩
      | cons c tail =>
          obtain rfl := htail c rfl
          simp [hslash]
  | cons c s ih =>
      by_cases hc : p c = true
      · rw [List.dropWhile_cons, if_pos hc] at hstop
        obtain ⟨htake, hdrop⟩ := ih hstop
        simp [hc, htake, hdrop]
      · simp [hc]

theorem takeChars_extends (htail : IsTail tail) (h : r.Extends tail r') (p : Char → Bool)
    (hstop : p '\\' = false ∨ r.rest.dropWhile p ≠ []) {n m : Nat} (hn : r.rest.length ≤ n)
    (hm : r'.rest.length ≤ m) :
    ∃ r₁ r₁', takeChars p n r = (r.rest.takeWhile p, r₁) ∧
      takeChars p m r' = (r.rest.takeWhile p, r₁') ∧ r₁.rest = r.rest.dropWhile p ∧
      r₁.Extends tail r₁' := by
  obtain ⟨r₁, htake, hr₁⟩ := takeChars_eq p ⟨rfl, h.spaced, rfl⟩ hn
  obtain ⟨r₁', htake', hr₁'⟩ := takeChars_eq p ⟨rfl, h.spaced', h.groups⟩ hm
  obtain ⟨hsame, hrest⟩ := takeWhile_append_tail htail hstop
  rw [h.rest, hsame] at htake'
  rw [h.rest, hrest] at hr₁'
  refine ⟨r₁, r₁', htake, htake', hr₁.rest, ?_, hr₁.spaced, hr₁'.spaced, hr₁'.groups, ?_⟩
  · rw [hr₁'.rest, hr₁.rest]
  · rw [hr₁.rest]
    exact fun hmem => h.unopened ((List.dropWhile_sublist p).subset hmem)

theorem readHexDigits_carries (h : r.Extends tail r') (n : Nat) :
    Carries tail id (readHexDigits n r) (readHexDigits n r') := by
  induction n generalizing r r' with
  | zero => exact carries_ok rfl h
  | succ n ih =>
      cases hr : r.rest with
      | nil =>
          simp only [readHexDigits, hr]
          exact carries_failAt _ _ _
      | cons c s =>
          simp only [readHexDigits, hr, h.next hr, Reader.bumpSpace_eq h.spaced,
            Reader.bumpSpace_eq h.spaced']
          split
          · refine (ih (h.bump hr)).bind fun t t' r₁ r₁' ht hr₁ => ?_
            obtain rfl : t' = t := ht
            exact carries_ok rfl hr₁
          · exact carries_failAt _ _ _

theorem charOfHex_eq {digits : Text} {span span' : Span} (h : charOfHex digits span = .ok c) :
    charOfHex digits span' = .ok c := by
  unfold charOfHex at h ⊢
  simp only at h ⊢
  split at h
  · next hn => rw [if_pos hn, h]
  · cases h

theorem readHex_carries (htail : IsTail tail) (h : r.Extends tail r') (hr : r.rest = c :: s)
    (start start' : Position) (digits : Nat) :
    Carries tail Literal.erase (readHex start digits r) (readHex start' digits r') := by
  have h₁ := h.bump hr
  simp only [readHex, Reader.bumpSpace_eq h.spaced, Reader.bumpSpace_eq h.spaced',
    Reader.bumpSpace_eq h₁.spaced, Reader.bumpSpace_eq h₁.spaced']
  cases hr₁ : r.bump.rest with
  | nil => exact carries_failAt _ _ _
  | cons b s₁ =>
      have hr₁' := h₁.next hr₁
      by_cases hb : b = '\x7b'
      · subst hb
        have h₂ := h₁.bump hr₁
        simp only [hr₁']
        obtain ⟨r₃, r₃', htake, htake', -, h₃⟩ := takeChars_extends htail h₂ isHexDigit
          (Or.inl (by decide)) (n := ('\x7b' :: s₁).length) (m := ('\x7b' :: (s₁ ++ tail)).length)
          (by simp [r.bump.bump_rest hr₁]) (by simp [r'.bump.bump_rest hr₁'])
        simp only [htake, htake', Reader.bumpSpace_eq h₃.spaced, Reader.bumpSpace_eq h₃.spaced']
        cases hr₃ : r₃.rest with
        | nil => exact carries_failAt _ _ _
        | cons d s₃ =>
            by_cases hd : d = '\x7d'
            · subst hd
              simp only [h₃.next hr₃]
              split
              · exact carries_failAt _ _ _
              · refine carries_bind_value (e := id) (fun a ha => ⟨a, charOfHex_eq ha, rfl⟩) ?_
                rintro a b (rfl : b = a)
                exact carries_ok rfl (h₃.bump hr₃)
            · simp only [List.cons.injEq, hd, false_and, IsEmpty.forall_iff, implies_true]
              exact carries_failAt _ _ _
      · simp only [hr₁', List.cons.injEq, hb, false_and, IsEmpty.forall_iff, implies_true]
        refine (readHexDigits_carries h₁ digits).bind fun t t' r₂ r₂' ht hr₂ => ?_
        obtain rfl : t' = t := ht
        refine carries_bind_value (e := id) (fun a ha => ⟨a, charOfHex_eq ha, rfl⟩) ?_
        rintro a b (rfl : b = a)
        exact carries_ok rfl hr₂

/-- The first character is the same for both readers, where it is not a backslash. -/
theorem head?_extends (htail : IsTail tail) (h : r.Extends tail r') {d : Char} (hd : d ≠ '\\') :
    (r'.rest.head? == some d) = (r.rest.head? == some d) := by
  rw [h.rest]
  cases r.rest with
  | nil =>
      cases tail with
      | nil => rfl
      | cons c tail =>
          obtain rfl := htail c rfl
          exact beq_eq_false_iff_ne.2 fun heq => hd (Option.some.inj heq).symm
  | cons c s => rfl

/-! ### Escapes -/

theorem readProperty_carries (htail : IsTail tail) (h : r.Extends tail r') (hr : r.rest = c :: s)
    (start start' : Position) :
    Carries tail Prod.snd (readProperty start r) (readProperty start' r') := by
  have h₁ := h.bump hr
  simp only [readProperty, Reader.bumpSpace_eq h.spaced, Reader.bumpSpace_eq h.spaced',
    Reader.bumpSpace_eq h₁.spaced, Reader.bumpSpace_eq h₁.spaced', hr, h.next hr, List.head?_cons]
  cases hr₁ : r.bump.rest with
  | nil => exact carries_failAt _ _ _
  | cons b s₁ =>
      have hr₁' := h₁.next hr₁
      have h₂ := h₁.bump hr₁
      by_cases hb : b = '\x7b'
      · subst hb
        simp only [hr₁']
        obtain ⟨r₃, htake, hr₃⟩ := takeChars_eq (· != '\x7d') (n := ('\x7b' :: s₁).length)
          ⟨rfl, h₂.spaced, rfl⟩ (by simp [r.bump.bump_rest hr₁])
        simp only [htake]
        split
        · exact carries_failAt _ _ _
        · next hend =>
            have hstop : r.bump.bump.rest.dropWhile (· != '\x7d') ≠ [] := by
              rw [Reader.atEnd, hr₃.rest] at hend
              exact fun hnil => hend (by rw [hnil]; rfl)
            obtain ⟨r₄, r₄', htake₄, htake₄', hrest₄, h₄⟩ := takeChars_extends htail h₂ _
              (Or.inr hstop) (n := ('\x7b' :: s₁).length) (m := ('\x7b' :: (s₁ ++ tail)).length)
              (by simp [r.bump.bump_rest hr₁]) (by simp [r'.bump.bump_rest hr₁'])
            obtain ⟨-, rfl⟩ := Prod.mk.inj (htake.symm.trans htake₄)
            obtain ⟨d, s₄, hr₄⟩ := List.exists_cons_of_ne_nil (hrest₄ ▸ hstop)
            have hend' : r₄'.atEnd = false := by rw [Reader.atEnd, h₄.next hr₄]; rfl
            simp only [htake₄', hend', Bool.false_eq_true, if_false]
            exact carries_ok rfl (h₄.bump hr₄)
      · simp only [hr₁']
        split
        · exact carries_failAt _ _ _
        · exact carries_ok rfl h₂

theorem readBoundaryName_carries (htail : IsTail tail) (h : r.Extends tail r')
    (hr : r.rest = c :: s) (start start' : Position) :
    Carries tail id (readBoundaryName start r) (readBoundaryName start' r') := by
  have h₁ := h.bump hr
  simp only [readBoundaryName, Reader.bumpSpace_eq h.spaced, Reader.bumpSpace_eq h.spaced']
  cases hr₁ : r.bump.rest with
  | nil => exact carries_failAt _ _ _
  | cons b s₁ =>
      simp only [h₁.next hr₁]
      split
      · exact carries_ok rfl h
      · obtain ⟨r₂, r₂', htake, htake', -, h₂⟩ := takeChars_extends htail h₁
          (fun c => c.isAlpha || c == '-') (Or.inl (by decide)) (n := (b :: s₁).length)
          (m := (b :: (s₁ ++ tail)).length) (by rw [hr₁]) (by rw [h₁.next hr₁])
        have hhead := head?_extends htail h₂ (d := '\x7d') (by decide)
        simp only [htake, htake', bne, hhead]
        split
        · exact carries_failAt _ _ _
        · next hbrace =>
            obtain ⟨s₂, hr₂⟩ : ∃ s₂, r₂.rest = '\x7d' :: s₂ := by
              simpa [List.head?_eq_some_iff] using hbrace
            split
            · exact carries_ok rfl (h₂.bump hr₂)
            · exact carries_ok rfl (h₂.bump hr₂)
            · exact carries_ok rfl (h₂.bump hr₂)
            · exact carries_ok rfl (h₂.bump hr₂)
            · exact carries_failAt _ _ _

theorem readEscape_carries (htail : IsTail tail) (h : r.Extends tail r') (hr : r.rest = c :: s) :
    Carries tail Primitive.erase (readEscape r) (readEscape r') := by
  have h₁ := h.bump hr
  simp only [readEscape]
  cases hr₁ : r.bump.rest with
  | nil => exact carries_failAt _ _ _
  | cons b s₁ =>
      have h₂ := h₁.bump hr₁
      have hhex : ∀ digits,
          Carries tail Primitive.erase
            (readHex r.position digits r.bump >>= fun x => .ok (.literal x.1, x.2))
            (readHex r'.position digits r'.bump >>= fun x => .ok (.literal x.1, x.2)) := by
        intro digits
        refine (readHex_carries htail h₁ hr₁ _ _ digits).bind fun l l' r₃ r₃' hl h₃ => ?_
        exact carries_ok (congrArg Primitive.literal hl) h₃
      simp only [h₁.next hr₁]
      split
      · exact carries_failAt _ _ _
      split
      · exact hhex 2
      split
      · exact hhex 4
      split
      · exact hhex 8
      split
      · refine (readProperty_carries htail h₁ hr₁ _ _).bind ?_
        rintro ⟨x, n, q⟩ ⟨x', n', q'⟩ r₃ r₃' heq h₃
        obtain ⟨rfl, rfl⟩ := Prod.mk.inj heq
        exact carries_ok rfl h₃
      split
      · exact carries_ok rfl h₂
      split
      · rw [head?_extends htail h₂ (by decide)]
        split
        · next hbrace =>
            obtain ⟨s₂, hr₂⟩ : ∃ s₂, r.bump.bump.rest = '\x7b' :: s₂ := by
              simpa [List.head?_eq_some_iff] using hbrace
            refine (readBoundaryName_carries htail h₂ hr₂ _ _).bind ?_
            rintro name name' r₃ r₃' (rfl : name' = name) h₃
            exact carries_ok rfl h₃
        · exact carries_ok rfl h₂
      split
      · exact carries_ok rfl h₂
      · exact carries_ok rfl h₂
      · exact carries_ok rfl h₂
      · exact carries_failAt _ _ _

theorem readPrimitive_carries (htail : IsTail tail) (h : r.Extends tail r') :
    Carries tail Primitive.erase (readPrimitive r) (readPrimitive r') := by
  cases hr : r.rest with
  | nil =>
      simp only [readPrimitive, hr]
      exact carries_failAt _ _ _
  | cons c s =>
      have hescape := readEscape_carries htail h hr
      have hbump := h.bump hr
      simp only [readPrimitive, hr, h.next hr]
      by_cases hslash : c = '\\'
      · subst hslash
        exact hescape
      by_cases hdot : c = '.'
      · subst hdot
        exact carries_ok rfl hbump
      by_cases hcaret : c = '^'
      · subst hcaret
        exact carries_ok rfl hbump
      by_cases hdollar : c = '$'
      · subst hdollar
        exact carries_ok rfl hbump
      simp only
      exact carries_ok rfl hbump

/-! ### Repetitions -/

theorem readLazy_extends (htail : IsTail tail) (h : r.Extends tail r') :
    ∃ greedy r₁ r₁', readLazy r = (greedy, r₁) ∧ readLazy r' = (greedy, r₁') ∧
      r₁.Extends tail r₁' := by
  unfold readLazy
  rw [head?_extends htail h (by decide)]
  split
  · next hmark =>
      obtain ⟨s, hr⟩ := List.head?_eq_some_iff.1 (beq_iff_eq.1 hmark)
      exact ⟨false, _, _, rfl, rfl, h.bump hr⟩
  · exact ⟨true, _, _, rfl, rfl, h⟩

theorem readDecimal_extends (htail : IsTail tail) (h : r.Extends tail r') :
    ∃ x x' r₁ r₁', readDecimal r = (x, r₁) ∧ readDecimal r' = (x', r₁') ∧
      (∀ n, x = .ok n → x' = .ok n) ∧ r₁.Extends tail r₁' := by
  obtain ⟨r₁, r₁', htake₁, htake₁', -, h₁⟩ := takeChars_extends htail h isBlank
    (Or.inl (by decide)) (Nat.le_refl _) (Nat.le_refl _)
  obtain ⟨r₂, r₂', htake₂, htake₂', -, h₂⟩ := takeChars_extends htail h₁ Char.isDigit
    (Or.inl (by decide)) (Nat.le_refl _) (Nat.le_refl _)
  obtain ⟨r₃, r₃', htake₃, htake₃', -, h₃⟩ := takeChars_extends htail h₂ isBlank
    (Or.inl (by decide)) (Nat.le_refl _) (Nat.le_refl _)
  simp only [readDecimal, htake₁, htake₁', htake₂, htake₂', htake₃, htake₃']
  split
  · refine ⟨_, _, r₃, r₃', rfl, rfl, ?_, h₃⟩
    intro n hn
    cases hn
  · split
    · exact ⟨_, _, r₃, r₃', rfl, rfl, fun _ hn => hn, h₃⟩
    · refine ⟨_, _, r₃, r₃', rfl, rfl, ?_, h₃⟩
      intro n hn
      cases hn

theorem readBounds_carries (htail : IsTail tail) (h : r.Extends tail r') (start start' : Position) :
    Carries tail id (readBounds start r) (readBounds start' r') := by
  obtain ⟨x, x', r₁, r₁', hx, hx', hvalue, h₁⟩ := readDecimal_extends htail h
  simp only [readBounds, hx, hx']
  cases hr₁ : r₁.rest with
  | nil => exact carries_failAt _ _ _
  | cons c s =>
      have hr₁' := h₁.next hr₁
      have h₂ := h₁.bump hr₁
      have hfirst : ∀ a, x = .ok a → ∃ b, x' = .ok b ∧ id b = id a := fun a ha =>
        ⟨a, hvalue a ha, rfl⟩
      by_cases hcomma : c = ','
      · subst hcomma
        simp only [hr₁', Reader.bumpSpace_eq h₁.spaced, Reader.bumpSpace_eq h₁.spaced']
        cases hr₂ : r₁.bump.rest with
        | nil => exact carries_failAt _ _ _
        | cons d s₂ =>
            have hr₂' := h₂.next hr₂
            by_cases hbrace : d = '\x7d'
            · subst hbrace
              simp only [hr₂']
              refine carries_bind_value hfirst ?_
              rintro min min' (rfl : min' = min)
              exact carries_ok rfl h₂
            · obtain ⟨y, y', r₃, r₃', hy, hy', hvalue₂, h₃⟩ := readDecimal_extends htail h₂
              have hsecond : ∀ a, y = .ok a → ∃ b, y' = .ok b ∧ id b = id a := fun a ha =>
                ⟨a, hvalue₂ a ha, rfl⟩
              simp only [hr₂', List.cons.injEq, hbrace, false_and, IsEmpty.forall_iff, implies_true,
                hy, hy']
              refine carries_bind_value hfirst ?_
              rintro min min' (rfl : min' = min)
              refine carries_bind_value hsecond ?_
              rintro max max' (rfl : max' = max)
              exact carries_ok rfl h₃
      · simp only [hr₁', List.cons.injEq, hcomma, false_and, IsEmpty.forall_iff, implies_true]
        refine carries_bind_value hfirst ?_
        rintro min min' (rfl : min' = min)
        exact carries_ok rfl h₁

end Steps

end Pattern

end Softcode
