/-
**Parentheses in expressions and between the bounds of a loop.**

The bounds of a loop are cut at a comma that stands in no parentheses, before they are evaluated.
If a bound is an expression this makes no difference: an expression that has a value has as many
opening as closing parentheses, so the comma behind it is at depth zero.  This module proves that
fact by an invariant of the readers of expressions — what a reader takes off the front of a text
has no parentheses left over — and says where a text with one comma is cut.

Main definitions:

* `Softcode.parenNet` — opening minus closing parentheses;
* `Softcode.Expr.Balanced` — readers that leave no parenthesis over.

Main results:

* `Softcode.Expr.balanced_unary` — the readers of expressions are balanced, by recursion on the
  number of signs and parentheses that may still be opened;
* `Softcode.Expr.parenNet_of_evalInt` — **an expression with a value is balanced**;
* `Softcode.splitComma?_one` — where a text with one comma is cut.
-/

import Softcode.Expr
import Softcode.Proofs.Text

set_option autoImplicit false

namespace Softcode

/-! ### Counting parentheses -/

/-- The change of depth at a character, where only parentheses count. -/
def parenStep (c : Char) : Int := if c = '(' then 1 else if c = ')' then -1 else 0

/-- Opening minus closing parentheses of a text. -/
def parenNet : Text → Int
  | [] => 0
  | c :: s => parenStep c + parenNet s

@[simp] theorem parenNet_nil : parenNet [] = 0 := rfl

@[simp] theorem parenNet_cons (c : Char) (s : Text) :
    parenNet (c :: s) = parenStep c + parenNet s := rfl

@[simp] theorem parenNet_append (s t : Text) : parenNet (s ++ t) = parenNet s + parenNet t := by
  induction s with
  | nil => simp
  | cons c s ih => simp [ih, Int.add_assoc]

theorem parenNet_eq_zero {s : Text} (h : ∀ c ∈ s, parenStep c = 0) : parenNet s = 0 := by
  induction s with
  | nil => rfl
  | cons c s ih =>
      rw [parenNet_cons, h c List.mem_cons_self,
        ih fun d hd => h d (List.mem_cons_of_mem _ hd), Int.zero_add]

theorem parenStep_of_blank {c : Char} (hc : isBlank c = true) : parenStep c = 0 :=
  forall_blank (p := fun c => parenStep c = 0) (by decide +kernel) hc

/-- Blanks at the ends do not count. -/
theorem parenNet_trim (s : Text) : parenNet (Text.trim s) = parenNet s := by
  obtain ⟨b₁, b₂, hb₁, hb₂, hs⟩ := Text.exists_blanks_trim s
  have h₁ : parenNet b₁ = 0 := parenNet_eq_zero fun c hc => parenStep_of_blank (hb₁ c hc)
  have h₂ : parenNet b₂ = 0 := parenNet_eq_zero fun c hc => parenStep_of_blank (hb₂ c hc)
  calc parenNet (Text.trim s)
      = parenNet (b₁ ++ (Text.trim s ++ b₂)) := by simp [h₁, h₂]
    _ = parenNet s := by rw [← hs]

namespace Expr

/-! ### Readers that leave no parenthesis over -/

/-- A reader that takes as many opening as closing parentheses off the front. -/
def Balanced (r : Reader) : Prop :=
  ∀ c v c', r c = .ok (v, c') → parenNet c.rest = parenNet c'.rest

theorem parenNet_skipBlanksFrom (s : Text) (n : Nat) :
    parenNet (skipBlanksFrom s n).rest = parenNet s := by
  induction s generalizing n with
  | nil => rfl
  | cons c s ih =>
      rw [skipBlanksFrom]
      split
      · next hc =>
          have hstep : parenStep c = 0 := by
            simp only [isExprBlank, Bool.or_eq_true, beq_iff_eq] at hc
            rcases hc with (((rfl | rfl) | rfl) | rfl) | rfl <;> rfl
          rw [ih, parenNet_cons, hstep, Int.zero_add]
      · rfl

@[simp] theorem parenNet_skipBlanks (c : Cursor) : parenNet c.skipBlanks.rest = parenNet c.rest :=
  parenNet_skipBlanksFrom c.rest c.offset

theorem parenNet_eat? {token : Text} {c c' : Cursor} (h : c.eat? token = some c') :
    parenNet c.rest = parenNet token + parenNet c'.rest := by
  obtain ⟨rest, hrest, rfl⟩ := Option.map_eq_some_iff.1 h
  rw [Text.dropPrefix?_eq_some_iff.1 hrest, parenNet_append]

/-- The operators of a level have no parentheses left over. -/
def Level.Plain (level : Level) : Prop := ∀ t ∈ level, parenNet t.1 = 0

theorem parenNet_next? {level : Level} (hlevel : level.Plain) {c c' : Cursor} {op : BinOp}
    (h : level.next? c = some (op, c')) : parenNet c.rest = parenNet c'.rest := by
  induction level with
  | nil => cases h
  | cons t level ih =>
      obtain ⟨token, op'⟩ := t
      rw [Level.next?] at h
      split at h
      · next c₁ heat =>
          obtain ⟨-, rfl⟩ := Prod.mk.inj (Option.some.inj h)
          rw [parenNet_eat? heat, hlevel (token, op') List.mem_cons_self, Int.zero_add]
      · exact ih (fun t ht => hlevel t (List.mem_cons_of_mem _ ht)) h

theorem plain_levels : ∀ level ∈ levels, Level.Plain level := by
  unfold Level.Plain
  decide

/-- A row of operators over balanced operands is balanced. -/
theorem balanced_chain {operand : Reader} (hop : Balanced operand) {level : Level}
    (hlevel : level.Plain) (n : Nat) (lhs : Int) : Balanced (chain operand level n lhs) := by
  induction n generalizing lhs with
  | zero =>
      intro c v c' h
      obtain ⟨-, rfl⟩ := Prod.mk.inj (Except.ok.inj h)
      simp
  | succ n ih =>
      intro c v c' h
      rw [chain] at h
      split at h
      · obtain ⟨-, rfl⟩ := Prod.mk.inj (Except.ok.inj h)
        simp
      · next op c₁ hnext =>
          obtain ⟨⟨rhs, c₂⟩, hrhs, h⟩ := exists_of_bind_eq_ok h
          obtain ⟨w, -, h⟩ := exists_of_bind_eq_ok h
          calc parenNet c.rest
              = parenNet c₁.rest := by rw [← parenNet_skipBlanks, parenNet_next? hlevel hnext]
            _ = parenNet c₂.rest := hop c₁ rhs c₂ hrhs
            _ = parenNet c'.rest := ih w c₂ v c' h

/-- Operators of all levels over balanced operands are balanced. -/
theorem balanced_climb {operand : Reader} (hop : Balanced operand) {ls : List Level}
    (hls : ∀ level ∈ ls, Level.Plain level) : Balanced (climb operand ls) := by
  induction ls with
  | nil => exact hop
  | cons level tighter ih =>
      have htighter := ih fun l hl => hls l (List.mem_cons_of_mem _ hl)
      intro c v c' h
      rw [climb] at h
      obtain ⟨⟨lhs, c₁⟩, hlhs, h⟩ := exists_of_bind_eq_ok h
      rw [htighter c lhs c₁ hlhs]
      exact balanced_chain htighter (hls level List.mem_cons_self) _ _ c₁ v c' h

/-- A number, or a balanced expression in parentheses. -/
theorem balanced_primary {inner : Reader} (hinner : Balanced inner) : Balanced (primary inner) := by
  intro c v c' h
  rw [← parenNet_skipBlanks]
  unfold primary at h
  split at h
  · cases h
  · next d rest hrest =>
      rw [hrest]
      dsimp only at h
      split at h
      · next hd =>
          subst hd
          obtain ⟨⟨w, c₁⟩, hin, h⟩ := exists_of_bind_eq_ok h
          split at h
          · next c₂ heat =>
              obtain ⟨-, rfl⟩ := Prod.mk.inj (Except.ok.inj h)
              -- the closing parenthesis makes up for the opening one
              have h₁ : parenNet rest = parenNet c₁.rest := hinner _ w c₁ hin
              have h₂ := parenNet_eat? heat
              rw [parenNet_skipBlanks] at h₂
              have hopen : parenStep '(' = 1 := rfl
              have hclose : parenStep ')' = -1 := rfl
              rw [parenNet_cons, parenNet_nil, hclose] at h₂
              rw [parenNet_cons, hopen, h₁, h₂]
              omega
          · cases h
      · split at h
        · split at h
          · obtain ⟨-, rfl⟩ := Prod.mk.inj (Except.ok.inj h)
            have hdigits : parenNet ((d :: rest).takeWhile Char.isDigit) = 0 := by
              refine parenNet_eq_zero fun e he => ?_
              have hdigit := List.mem_takeWhile_imp he
              have hopen : e ≠ '(' := by rintro rfl; cases hdigit
              have hclose : e ≠ ')' := by rintro rfl; cases hdigit
              simp [parenStep, hopen, hclose]
            calc parenNet (d :: rest)
                = parenNet ((d :: rest).takeWhile Char.isDigit ++
                    (d :: rest).dropWhile Char.isDigit) := by rw [List.takeWhile_append_dropWhile]
              _ = parenNet ((d :: rest).dropWhile Char.isDigit) := by
                  rw [parenNet_append, hdigits, Int.zero_add]
          · cases h
        · split at h <;> cases h

/-- **The readers of expressions are balanced**, by recursion on the number of signs and parentheses
that may still be opened. -/
theorem balanced_unary (depth : Nat) : Balanced (unary depth) := by
  induction depth with
  | zero =>
      intro c v c' h
      cases h
  | succ depth ih =>
      have hinner : Balanced fun c => climb (fun c' => unary depth c') levels c :=
        balanced_climb ih plain_levels
      intro c v c' h
      rw [unary] at h
      split at h
      · next rest hrest =>
          obtain ⟨⟨w, c₁⟩, hv, h⟩ := exists_of_bind_eq_ok h
          dsimp only at h
          split at h
          · obtain ⟨-, rfl⟩ := Prod.mk.inj (Except.ok.inj h)
            rw [← parenNet_skipBlanks, hrest, ← ih _ w c₁ hv]
            simp [parenStep]
          · cases h
      · exact balanced_primary hinner c v c' h
      · next rest hne hrest =>
          obtain ⟨⟨w, c₁⟩, hv, h⟩ := exists_of_bind_eq_ok h
          obtain ⟨-, rfl⟩ := Prod.mk.inj (Except.ok.inj h)
          rw [← parenNet_skipBlanks, hrest, ← ih _ w c₁ hv]
          simp [parenStep]
      · exact balanced_primary hinner c v c' h

/-- **An expression that has a value has as many opening as closing parentheses.** -/
theorem parenNet_of_evalInt {s : Text} {v : Int} (h : evalInt s = .ok v) : parenNet s = 0 := by
  obtain ⟨⟨w, c⟩, hv, h⟩ := exists_of_bind_eq_ok h
  dsimp only at h
  split at h
  · next hend =>
      have hnet : parenNet s = parenNet c.rest :=
        balanced_climb (balanced_unary maxDepth) plain_levels _ w c hv
      rw [hnet, ← parenNet_skipBlanks, List.isEmpty_iff.1 hend, parenNet_nil]
  · cases h

end Expr

/-! ### The comma between two bounds -/

theorem splitCommaAt?_of_not_mem {s : Text} (hs : ',' ∉ s) (depth : Int) :
    splitCommaAt? depth s = none := by
  induction s generalizing depth with
  | nil => rfl
  | cons c s ih =>
      have hc : c ≠ ',' := fun h => hs (h ▸ List.mem_cons_self)
      rw [splitCommaAt?, if_neg fun h => hc h.1]
      simp [ih fun h => hs (List.mem_cons_of_mem _ h)]

theorem splitCommaAt?_append {a b : Text} (ha : ',' ∉ a) (hb : ',' ∉ b) (depth : Int) :
    splitCommaAt? depth (a ++ ',' :: b) =
      if depth + parenNet a = 0 then some (a, b) else none := by
  induction a generalizing depth with
  | nil =>
      rw [List.nil_append, splitCommaAt?, parenNet_nil, Int.add_zero]
      by_cases hdepth : depth = 0
      · simp [hdepth]
      · simp [hdepth, splitCommaAt?_of_not_mem hb]
  | cons c a ih =>
      have hc : c ≠ ',' := fun h => ha (h ▸ List.mem_cons_self)
      have hinner : (if c = '(' then depth + 1 else if c = ')' then depth - 1 else depth) =
          depth + parenStep c := by
        unfold parenStep
        split
        · rfl
        · split
          · omega
          · omega
      rw [List.cons_append, splitCommaAt?, if_neg fun h => hc h.1]
      dsimp only
      rw [hinner, ih fun h => ha (List.mem_cons_of_mem _ h), parenNet_cons, Int.add_assoc]
      split <;> simp

/-- **Where a text with one comma is cut**: at the comma, if the text before it is balanced. -/
theorem splitComma?_one {a b : Text} (ha : ',' ∉ a) (hb : ',' ∉ b) :
    splitComma? (a ++ ',' :: b) = if parenNet a = 0 then some (a, b) else none := by
  rw [splitComma?, splitCommaAt?_append ha hb, Int.zero_add]

end Softcode
