/-
**Replacing a text by another one.**

The body of a loop is instantiated by replacing the text that stands for its variable.  Replacement
goes from left to right and does not look at what it has put in.  This module gives it an induction
principle of its own — a text is empty, begins with an occurrence, or begins with a character that
no occurrence begins at — and derives what the later modules need: replacement respects separators
that occurrences do not contain, and the beginning and the end of a result that share no character
with what was put in were there before.

Main definitions:

* `Softcode.Template.replaceText` — replacement from the beginning of a text.

Main results:

* `Softcode.Template.replaceText_induction` — the induction principle of replacement;
* `Softcode.Template.replaceText_append_sep` — **separators cut a replacement in two**;
* `Softcode.Template.exists_of_replaceText_eq_append` — beginnings that were there before;
* `Softcode.Template.exists_of_replaceText_append_eq` — endings that were there before.
-/

import Mathlib.Data.List.TakeWhile
import Softcode.Template

set_option autoImplicit false

namespace Softcode

namespace Template

variable {old new : Text}

/-! ### Occurrences -/

theorem startsWith_append (p s : Text) : Text.startsWith p (p ++ s) = true := by
  rw [Text.startsWith, Text.dropPrefix?_eq_some_iff.2 rfl]
  rfl

theorem startsWith_eq_true_iff {p s : Text} : Text.startsWith p s = true ↔ ∃ t, s = p ++ t := by
  rw [Text.startsWith, Option.isSome_iff_exists]
  exact exists_congr fun _ => Text.dropPrefix?_eq_some_iff

/-- An occurrence does not reach beyond a character that it does not contain. -/
theorem startsWith_append_sep {p : Text} {c : Char} (hc : c ∉ p) (x y : Text) :
    Text.startsWith p (x ++ c :: y) = Text.startsWith p x := by
  induction p generalizing x with
  | nil => simp [Text.startsWith]
  | cons d p ih =>
      have hd : d ≠ c := fun h => hc (h ▸ List.mem_cons_self)
      have ih' := fun x => ih (fun h => hc (List.mem_cons_of_mem _ h)) x
      cases x with
      | nil => simp [Text.startsWith, Text.dropPrefix?, hd]
      | cons e x =>
          simp only [Text.startsWith] at ih' ⊢
          rw [List.cons_append, Text.dropPrefix?_cons, Text.dropPrefix?_cons]
          split
          · exact ih' x
          · rfl

/-! ### Replacement, step by step -/

/-- The text `s` with every `old` replaced by `new`. -/
def replaceText (old new s : Text) : Text := replaceTextFrom old new 0 s

theorem replaceTextFrom_skip (skip : Nat) (s : Text) :
    replaceTextFrom old new skip s = replaceText old new (s.drop skip) := by
  induction skip generalizing s with
  | zero => rfl
  | succ skip ih =>
      cases s with
      | nil => rfl
      | cons c s => exact ih s

/-- An occurrence at the front is replaced. -/
theorem replaceText_hit (hold : old ≠ []) (s : Text) :
    replaceText old new (old ++ s) = new ++ replaceText old new s := by
  obtain ⟨c, p, rfl⟩ := List.exists_cons_of_ne_nil hold
  have hstart : Text.startsWith (c :: p) (c :: (p ++ s)) = true := startsWith_append (c :: p) s
  rw [List.cons_append, replaceText, replaceTextFrom, if_pos hstart, replaceTextFrom_skip]
  simp

/-- A character at which no occurrence begins is kept. -/
theorem replaceText_miss {c : Char} {s : Text} (h : Text.startsWith old (c :: s) = false) :
    replaceText old new (c :: s) = c :: replaceText old new s := by
  rw [replaceText, replaceTextFrom, if_neg (by simp [h])]
  rfl

/-- **The induction principle of replacement**: a text is empty, begins with an occurrence, or
begins with a character at which none begins. -/
theorem replaceText_induction (hold : old ≠ []) {p : Text → Prop} (nil : p [])
    (hit : ∀ s, p s → p (old ++ s))
    (miss : ∀ c s, Text.startsWith old (c :: s) = false → p s → p (c :: s)) (s : Text) : p s := by
  induction hn : s.length using Nat.strong_induction_on generalizing s with
  | _ n ih =>
      cases s with
      | nil => exact nil
      | cons c s =>
          cases hstart : Text.startsWith old (c :: s) with
          | false =>
              refine miss c s hstart (ih s.length ?_ s rfl)
              rw [← hn, List.length_cons]
              omega
          | true =>
              obtain ⟨t, ht⟩ := startsWith_eq_true_iff.1 hstart
              rw [ht]
              refine hit t (ih t.length ?_ t rfl)
              have := List.length_pos_iff.2 hold
              rw [← hn, ht, List.length_append]
              omega

/-- What comes out was there before, or is put in. -/
theorem mem_replaceText (hold : old ≠ []) {s : Text} {c : Char} (h : c ∈ replaceText old new s) :
    c ∈ s ∨ c ∈ new := by
  induction s using replaceText_induction hold with
  | nil => exact absurd h List.not_mem_nil
  | hit s ih =>
      rw [replaceText_hit hold, List.mem_append] at h
      rcases h with h | h
      · exact Or.inr h
      · exact (ih h).imp_left fun h => List.mem_append_right _ h
  | miss d s hd ih =>
      rw [replaceText_miss hd, List.mem_cons] at h
      rcases h with rfl | h
      · exact Or.inl List.mem_cons_self
      · exact (ih h).imp_left fun h => List.mem_cons_of_mem _ h

/-! ### What replacement leaves alone -/

/-- **Separators cut a replacement in two**: what stands on the two sides of a character that
occurrences do not contain is replaced on its own. -/
theorem replaceText_append_sep (hold : old ≠ []) {c : Char} (hc : c ∉ old) (x y : Text) :
    replaceText old new (x ++ c :: y) = replaceText old new x ++ c :: replaceText old new y := by
  induction x using replaceText_induction hold with
  | nil =>
      have hmiss : Text.startsWith old (c :: y) = false := by
        have := startsWith_append_sep hc [] y
        rw [List.nil_append] at this
        rw [this]
        obtain ⟨d, p, rfl⟩ := List.exists_cons_of_ne_nil hold
        rfl
      rw [List.nil_append, replaceText_miss hmiss]
      rfl
  | hit x ih =>
      rw [List.append_assoc, replaceText_hit hold, ih, replaceText_hit hold, List.append_assoc]
  | miss d x hd ih =>
      have hd' : Text.startsWith old (d :: (x ++ c :: y)) = false := by
        rw [← List.cons_append, startsWith_append_sep hc, hd]
      rw [List.cons_append, replaceText_miss hd', replaceText_miss hd, ih, List.cons_append]

/-- A text without a character that every occurrence contains stays as it is. -/
theorem replaceText_of_not_mem (hold : old ≠ []) {c : Char} (hc : c ∈ old) {s : Text}
    (hs : c ∉ s) : replaceText old new s = s := by
  induction s using replaceText_induction hold with
  | nil => rfl
  | hit s ih => exact absurd (List.mem_append_left s hc) hs
  | miss d s hd ih => rw [replaceText_miss hd, ih fun h => hs (List.mem_cons_of_mem _ h)]

/-- **Beginnings that were there before**: a beginning of the result that shares no character with
what was put in is a beginning of the text. -/
theorem exists_of_replaceText_eq_append (hold : old ≠ []) (hnew : new ≠ []) {p s t : Text}
    (hp : ∀ c ∈ p, c ∉ new) (h : replaceText old new s = p ++ t) :
    ∃ u, s = p ++ u ∧ replaceText old new u = t := by
  induction p generalizing s with
  | nil => exact ⟨s, rfl, h⟩
  | cons c p ih =>
      induction s using replaceText_induction hold with
      | nil => cases h
      | hit s _ =>
          -- the result would begin with a character that was put in
          obtain ⟨d, n, rfl⟩ := List.exists_cons_of_ne_nil hnew
          rw [replaceText_hit hold, List.cons_append, List.cons_append] at h
          obtain ⟨rfl, -⟩ := List.cons_eq_cons.1 h
          exact absurd List.mem_cons_self (hp d List.mem_cons_self)
      | miss d s hd _ =>
          rw [replaceText_miss hd, List.cons_append] at h
          obtain ⟨rfl, hrest⟩ := List.cons_eq_cons.1 h
          obtain ⟨u, rfl, hu⟩ := ih (fun e he => hp e (List.mem_cons_of_mem _ he)) hrest
          exact ⟨u, rfl, hu⟩

/-- A result that shares no character with what was put in is the text itself. -/
theorem eq_of_replaceText_eq (hold : old ≠ []) (hnew : new ≠ []) {s t : Text}
    (ht : ∀ c ∈ t, c ∉ new) (h : replaceText old new s = t) : s = t := by
  obtain ⟨u, rfl, hu⟩ :=
    exists_of_replaceText_eq_append hold hnew ht (t := []) (by rw [h, List.append_nil])
  have hu' : u = [] := by
    induction u using replaceText_induction hold with
    | nil => rfl
    | hit u _ =>
        rw [replaceText_hit hold] at hu
        exact absurd (List.append_eq_nil_iff.1 hu).1 hnew
    | miss d u hd _ =>
        rw [replaceText_miss hd] at hu
        cases hu
  rw [hu', List.append_nil]

/-- **Endings that were there before**: an ending of the result that shares no character with what
was put in is an ending of the text. -/
theorem exists_of_replaceText_append_eq (hold : old ≠ []) (hnew : new ≠ []) {q s t : Text}
    (hq : ∀ c ∈ q, c ∉ new) (h : replaceText old new s = t ++ q) : ∃ u, s = u ++ q := by
  induction s using replaceText_induction hold generalizing t with
  | nil =>
      obtain ⟨-, rfl⟩ := List.append_eq_nil_iff.1 h.symm
      exact ⟨[], rfl⟩
  | hit s ih =>
      rw [replaceText_hit hold] at h
      have hrest : ∃ t', replaceText old new s = t' ++ q := by
        rcases List.append_eq_append_iff.1 h with ⟨t', -, h'⟩ | ⟨n, hn, h'⟩
        · exact ⟨t', h'⟩
        · -- the ending would begin within what was put in
          cases n with
          | nil => exact ⟨[], h'.symm⟩
          | cons d n =>
              refine absurd ?_ (hq d (h' ▸ List.mem_cons_self))
              rw [hn]
              exact List.mem_append_right _ List.mem_cons_self
      obtain ⟨t', ht'⟩ := hrest
      obtain ⟨u, rfl⟩ := ih ht'
      exact ⟨old ++ u, (List.append_assoc ..).symm⟩
  | miss d s hd ih =>
      cases t with
      | nil =>
          rw [List.nil_append] at h
          exact ⟨[], eq_of_replaceText_eq hold hnew hq h⟩
      | cons e t =>
          rw [replaceText_miss hd, List.cons_append] at h
          obtain ⟨-, h⟩ := List.cons_eq_cons.1 h
          obtain ⟨u, rfl⟩ := ih h
          exact ⟨d :: u, rfl⟩

end Template

end Softcode
