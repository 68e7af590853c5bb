/-
**Expressions are read as the grammar says.**

An expression is evaluated while it is read, by readers that take the operators of one rank after
the other.  This module proves that the readers and the grammar agree, in both directions: what a
reader takes off the front of a text is an expression of its rank, with a tree whose value is the
result; and an expression of a rank is read to its end, with the value of its tree, if what follows
cannot be read as part of it.

For the second direction rows of operators are the crux.  In the grammar a row of operators leans to
the left, so its first operand is at the bottom of the tree; the reader meets it first.  The proof
therefore goes along the row: behind every left part of it the reader is at the point at which the
rest of the row is still to be read, with the value of that part at hand.

Main definitions:

* `Softcode.Expr.Rank.levels`, `Softcode.Expr.Rank.reader` — how a rank is read;
* `Softcode.Expr.Reads` — readers that take expressions of a rank off the front;
* `Softcode.Expr.Follows` — what may follow an expression of a rank;
* `Softcode.Expr.Completes`, `Softcode.Expr.Continues` — expressions that are read to their end, and
  rows of operators that are read so far.

Main results:

* `Softcode.Expr.reads_unary` — **what is read is an expression**, by recursion on the number of
  signs and parentheses that may still be opened;
* `Softcode.Expr.Derives.completes` — **expressions are read to their end**, by induction on the
  grammar;
* `Softcode.Expr.evalInt_eq_ok_iff` — **the value of an expression is that of its tree**;
* `Softcode.Expr.evalInt_leastRemainder` — the one remainder that is refused.
-/

import Mathlib.Data.List.DropRight
import Mathlib.Data.List.Induction
import Softcode.Proofs.ExprGrammar
import Softcode.Proofs.Text

set_option autoImplicit false

namespace Softcode

namespace Expr

/-! ### Blanks and tokens -/

theorem isExprBlank_iff {c : Char} :
    isExprBlank c = true ↔ c ∈ [' ', '\t', '\n', '\x0c', '\r'] := by
  simp [isExprBlank, or_assoc]

theorem rest_skipBlanksFrom (s : Text) (n : Nat) :
    (skipBlanksFrom s n).rest = s.dropWhile isExprBlank := by
  induction s generalizing n with
  | nil => rfl
  | cons c s ih =>
      rw [skipBlanksFrom]
      split
      · next hc => rw [ih, List.dropWhile_cons_of_pos hc]
      · next hc => rw [List.dropWhile_cons_of_neg hc]

theorem rest_skipBlanks (c : Cursor) : c.skipBlanks.rest = c.rest.dropWhile isExprBlank :=
  rest_skipBlanksFrom c.rest c.offset

theorem exists_space_skipBlanks (c : Cursor) :
    ∃ b, IsSpace b ∧ c.rest = b ++ c.skipBlanks.rest := by
  refine ⟨c.rest.takeWhile isExprBlank, fun d hd => ?_, ?_⟩
  · exact isExprBlank_iff.1 (List.mem_takeWhile_imp hd)
  · rw [rest_skipBlanks, List.takeWhile_append_dropWhile]

theorem isSpace_append {b₁ b₂ : Text} (h₁ : IsSpace b₁) (h₂ : IsSpace b₂) :
    IsSpace (b₁ ++ b₂) := by
  intro c hc
  rcases List.mem_append.1 hc with hc | hc
  · exact h₁ c hc
  · exact h₂ c hc

theorem isSpace_nil : IsSpace [] := by
  intro c hc
  cases hc

/-- Blanks in front are skipped. -/
theorem dropWhile_space_append {b : Text} (hb : IsSpace b) (s : Text) :
    (b ++ s).dropWhile isExprBlank = s.dropWhile isExprBlank :=
  List.dropWhile_append_of_pos fun c hc => isExprBlank_iff.2 (hb c hc)

theorem dropWhile_space_cons {b : Text} (hb : IsSpace b) {c : Char} (hc : isExprBlank c = false)
    (s : Text) : (b ++ c :: s).dropWhile isExprBlank = c :: s := by
  rw [dropWhile_space_append hb, List.dropWhile_cons_of_neg (by simp [hc])]

theorem eat?_eq_some_iff {token : Text} {c c' : Cursor} :
    c.eat? token = some c' ↔ c.rest = token ++ c'.rest ∧ c'.offset = c.offset + token.length := by
  unfold Cursor.eat?
  rw [Option.map_eq_some_iff]
  constructor
  · rintro ⟨rest, hrest, rfl⟩
    exact ⟨Text.dropPrefix?_eq_some_iff.1 hrest, rfl⟩
  · rintro ⟨hrest, hoffset⟩
    exact ⟨c'.rest, Text.dropPrefix?_eq_some_iff.2 hrest, by rw [← hoffset]⟩

/-- An operator that is read stands at the front. -/
theorem exists_token_of_next? {level : Level} {c c' : Cursor} {op : BinOp}
    (h : level.next? c = some (op, c')) :
    ∃ token, (token, op) ∈ level ∧ c.rest = token ++ c'.rest := by
  induction level with
  | nil => cases h
  | cons t level ih =>
      obtain ⟨token, op'⟩ := t
      rw [Level.next?] at h
      split at h
      · next c₁ heat =>
          obtain ⟨rfl, rfl⟩ := Prod.mk.inj (Option.some.inj h)
          exact ⟨token, List.mem_cons_self, (eat?_eq_some_iff.1 heat).1⟩
      · obtain ⟨token', hmem, hrest⟩ := ih h
        exact ⟨token', List.mem_cons_of_mem _ hmem, hrest⟩

theorem applyAt_eq_ok_iff {op : BinOp} {opAt endAt : Nat} {a b v : Int} :
    applyAt op opAt endAt a b = .ok v ↔ op.apply a b = .ok v := by
  unfold applyAt
  split
  · next w h => rw [h, Except.ok.injEq, Except.ok.injEq]
  · next h => rw [h]; simp
  · next h => rw [h]; simp

/-! ### Digits -/

/-- A row of digits is read as the number that it writes. -/
theorem digitsValue_eq (ds : Text) :
    digitsValue ds = Nat.ofDigits 10 (ds.reverse.map fun d => d.toNat - '0'.toNat) := by
  induction ds using List.reverseRecOn with
  | nil => rfl
  | append_singleton ds d ih =>
      unfold digitsValue at ih ⊢
      rw [List.foldl_append, ih, List.reverse_append]
      simp [Nat.ofDigits_cons, Nat.add_comm]

theorem isExprBlank_of_isDigit {d : Char} (hd : d.isDigit = true) : isExprBlank d = false := by
  cases h : isExprBlank d with
  | false => rfl
  | true =>
      have hmem := isExprBlank_iff.1 h
      simp only [List.mem_cons, List.not_mem_nil, or_false] at hmem
      rcases hmem with rfl | rfl | rfl | rfl | rfl <;> cases hd

/-! ### How a rank is read -/

namespace Rank

/-- The levels of operators that are read at a rank. -/
def levels : Rank → List Level
  | or => Expr.levels
  | and => Expr.levels.drop 1
  | eq => Expr.levels.drop 2
  | rel => Expr.levels.drop 3
  | add => Expr.levels.drop 4
  | mul => Expr.levels.drop 5
  | unary => []
  | primary => []

/-- The reader of a rank, with at most `depth` signs and parentheses, plus one, open. -/
def reader (r : Rank) (depth : Nat) : Reader :=
  if r = primary then Expr.primary (climb (Expr.unary (depth - 1)) Expr.levels)
  else climb (Expr.unary depth) r.levels

/-- A rank of binary operators is read by its own level and those of its operands. -/
theorem levels_eq {r r' : Rank} (hnext : r.next? = some r') (hr : r' ≠ primary) :
    r.levels = r.operators :: r'.levels := by
  cases r with
  | unary => exact absurd (Option.some.inj hnext).symm hr
  | primary => cases hnext
  | or | and | eq | rel | add | mul =>
      obtain rfl := Option.some.inj hnext
      rfl

theorem ne_primary_of_operator {r r' : Rank} (hnext : r.next? = some r') {t : Text × BinOp}
    (ht : t ∈ r.operators) : r' ≠ primary := by
  rintro rfl
  cases r with
  | unary => cases ht
  | or | and | eq | rel | add | mul | primary => cases hnext

end Rank

/-! ### What is read is an expression -/

/-- A reader that takes expressions of a rank off the front, perhaps with blanks behind them: the
result is the value of a tree. -/
def Reads (r : Rank) (depth : Nat) (reader : Reader) : Prop :=
  ∀ c v c', reader c = .ok (v, c') → ∃ e s b, Derives r e s ∧ IsSpace b ∧
    c.rest = s ++ (b ++ c'.rest) ∧ e.depth ≤ depth ∧ e.value? BinOp.inWords = some v

theorem Reads.lift {r r' : Rank} (hnext : r.next? = some r') {depth : Nat} {reader : Reader}
    (h : Reads r' depth reader) : Reads r depth reader := by
  intro c v c' hread
  obtain ⟨e, s, b, he, hb, hrest, hdepth, hv⟩ := h c v c' hread
  exact ⟨e, s, b, .lift hnext he, hb, hrest, hdepth, hv⟩

/-- The rest of a row of operators, behind an expression `s` with the tree `a` and blanks `b`. -/
theorem reads_chain {r r' : Rank} (hnext : r.next? = some r') {depth : Nat} {operand : Reader}
    (hop : Reads r' depth operand) (n : Nat) {a : Tree} {s b : Text} {lhs : Int} {c : Cursor}
    (ha : Derives r a s) (hb : IsSpace b) (hdepth : a.depth ≤ depth)
    (hlhs : a.value? BinOp.inWords = some lhs) {v : Int} {c' : Cursor}
    (h : chain operand r.operators n lhs c = .ok (v, c')) :
    ∃ e t b', Derives r e t ∧ IsSpace b' ∧ s ++ (b ++ c.rest) = t ++ (b' ++ c'.rest) ∧
      e.depth ≤ depth ∧ e.value? BinOp.inWords = some v := by
  induction n generalizing a s b lhs c with
  | zero =>
      obtain ⟨rfl, rfl⟩ := Prod.mk.inj (Except.ok.inj h)
      obtain ⟨b₁, hb₁, hrest⟩ := exists_space_skipBlanks c
      refine ⟨a, s, b ++ b₁, ha, isSpace_append hb hb₁, ?_, hdepth, hlhs⟩
      rw [List.append_assoc, ← hrest]
  | succ n ih =>
      obtain ⟨b₁, hb₁, hrest⟩ := exists_space_skipBlanks c
      rw [chain] at h
      split at h
      · obtain ⟨rfl, rfl⟩ := Prod.mk.inj (Except.ok.inj h)
        refine ⟨a, s, b ++ b₁, ha, isSpace_append hb hb₁, ?_, hdepth, hlhs⟩
        rw [List.append_assoc, ← hrest]
      · next op c₁ hop' =>
          obtain ⟨token, htoken, hrest₁⟩ := exists_token_of_next? hop'
          obtain ⟨⟨rhs, c₂⟩, hrhs, h⟩ := exists_of_bind_eq_ok h
          obtain ⟨w, hw, h⟩ := exists_of_bind_eq_ok h
          obtain ⟨e, t, b₂, he, hb₂, hrest₂, hdepth₂, hvalue⟩ := hop c₁ rhs c₂ hrhs
          -- the operator and the operand join the row, and the rest goes on behind them
          have happly : (op.inWords lhs rhs).bind word? = some w :=
            (op.apply_eq_ok_iff (ha.inRange hlhs) (he.inRange hvalue)).1 (applyAt_eq_ok_iff.1 hw)
          have hrow : Derives r (.binary op a e) (s ++ ((b ++ b₁) ++ (token ++ t))) :=
            .binary hnext htoken ha (isSpace_append hb hb₁) he
          have hvalue' : (Tree.binary op a e).value? BinOp.inWords = some w := by
            rw [Tree.value?, hlhs, hvalue]
            exact happly
          obtain ⟨e', t', b', he', hb', htext, hdepth', hv⟩ :=
            ih hrow hb₂ (Nat.max_le.2 ⟨hdepth, hdepth₂⟩) hvalue' h
          refine ⟨e', t', b', he', hb', ?_, hdepth', hv⟩
          rw [← htext, hrest, hrest₁, hrest₂]
          simp

theorem reads_climb {depth : Nat} {operand : Reader} (hop : Reads .unary depth operand) (r : Rank)
    (hr : r ≠ .primary) : Reads r depth (climb operand r.levels) := by
  -- one rank of operators over the next
  have hrow : ∀ r r' : Rank, r.next? = some r' → r' ≠ .primary →
      Reads r' depth (climb operand r'.levels) → Reads r depth (climb operand r.levels) := by
    intro r r' hnext hr' hreads c v c' h
    rw [Rank.levels_eq hnext hr', climb] at h
    obtain ⟨⟨lhs, c₁⟩, hlhs, h⟩ := exists_of_bind_eq_ok h
    obtain ⟨a, s, b, ha, hb, hrest, hdepth, hvalue⟩ := hreads c lhs c₁ hlhs
    rw [hrest]
    exact reads_chain hnext hreads _ (.lift hnext ha) hb hdepth hvalue h
  have hmul := hrow .mul .unary rfl (by decide) hop
  have hadd := hrow .add .mul rfl (by decide) hmul
  have hrel := hrow .rel .add rfl (by decide) hadd
  have heq := hrow .eq .rel rfl (by decide) hrel
  have hand := hrow .and .eq rfl (by decide) heq
  have hor := hrow .or .and rfl (by decide) hand
  cases r with
  | or => exact hor
  | and => exact hand
  | eq => exact heq
  | rel => exact hrel
  | add => exact hadd
  | mul => exact hmul
  | unary => exact hop
  | primary => exact absurd rfl hr

/-- A number, or an expression in parentheses. -/
theorem reads_primary {depth : Nat} {inner : Reader} (hinner : Reads .or depth inner) :
    Reads .primary (depth + 1) (primary inner) := by
  intro c v c' h
  obtain ⟨b, hb, hrest⟩ := exists_space_skipBlanks c
  unfold primary at h
  split at h
  · cases h
  · next d rest hd =>
      rw [hd] at hrest
      dsimp only at h
      split at h
      · next hopen =>
          subst hopen
          obtain ⟨⟨w, c₁⟩, hin, h⟩ := exists_of_bind_eq_ok h
          split at h
          · next c₂ heat =>
              obtain ⟨rfl, rfl⟩ := Prod.mk.inj (Except.ok.inj h)
              obtain ⟨e, s, b₁, he, hb₁, hrest₁, hdepth, hv⟩ := hinner _ w c₁ hin
              obtain ⟨b₂, hb₂, hrest₂⟩ := exists_space_skipBlanks c₁
              rw [(eat?_eq_some_iff.1 heat).1] at hrest₂
              dsimp only at hrest₁
              refine ⟨.parens e, _, [], .parens hb he (isSpace_append hb₁ hb₂), isSpace_nil, ?_,
                Nat.succ_le_succ hdepth, hv⟩
              rw [hrest, hrest₁, hrest₂]
              simp
          · cases h
      · split at h
        · next hdigit =>
            split at h
            · next hmax =>
                obtain ⟨rfl, rfl⟩ := Prod.mk.inj (Except.ok.inj h)
                refine ⟨.number (digitsValue ((d :: rest).takeWhile Char.isDigit)), _, [],
                  .number hb ⟨?_, ?_, (digitsValue_eq _).symm⟩ (by omega), isSpace_nil, ?_,
                  Nat.le_add_left _ _, rfl⟩
                · rw [List.takeWhile_cons_of_pos hdigit]
                  exact List.cons_ne_nil _ _
                · intro e he
                  exact List.mem_takeWhile_imp he
                · rw [hrest, List.nil_append, List.append_assoc,
                    List.takeWhile_append_dropWhile]
            · cases h
        · split at h <;> cases h

/-- **What is read is an expression**, by recursion on the number of signs and parentheses that may
still be opened. -/
theorem reads_unary (depth : Nat) : Reads .unary depth (unary depth) := by
  induction depth with
  | zero =>
      intro c v c' h
      cases h
  | succ depth ih =>
      have hprimary : Reads .unary (depth + 1)
          (primary fun c => climb (fun c' => unary depth c') levels c) :=
        .lift rfl (reads_primary (reads_climb ih .or (by decide)))
      intro c v c' h
      obtain ⟨b, hb, hrest⟩ := exists_space_skipBlanks c
      rw [unary] at h
      split at h
      · next s hs =>
          rw [hs] at hrest
          obtain ⟨⟨w, c₁⟩, hv, h⟩ := exists_of_bind_eq_ok h
          dsimp only at h
          split at h
          · next hrange =>
              obtain ⟨rfl, rfl⟩ := Prod.mk.inj (Except.ok.inj h)
              obtain ⟨e, t, b₁, he, hb₁, hrest₁, hdepth, hvalue⟩ := ih _ w c₁ hv
              dsimp only at hrest₁
              refine ⟨.neg e, _, b₁, .neg hb he, hb₁, ?_, Nat.succ_le_succ hdepth, ?_⟩
              · rw [hrest, hrest₁]
                simp
              · rw [Tree.value?, hvalue]
                exact word?_of_inRange hrange
          · cases h
      · exact hprimary c v c' h
      · next s hne hs =>
          rw [hs] at hrest
          obtain ⟨⟨w, c₁⟩, hv, h⟩ := exists_of_bind_eq_ok h
          obtain ⟨rfl, rfl⟩ := Prod.mk.inj (Except.ok.inj h)
          obtain ⟨e, t, b₁, he, hb₁, hrest₁, hdepth, hvalue⟩ := ih _ w c₁ hv
          dsimp only at hrest₁
          refine ⟨.not e, _, b₁, .not hb he, hb₁, ?_, Nat.succ_le_succ hdepth, ?_⟩
          · rw [hrest, hrest₁]
            simp
          · rw [Tree.value?, hvalue]
            exact congrArg some (ofBool_decide (w = 0)).symm
      · exact hprimary c v c' h

/-! ### What may follow an expression -/

/-- What may follow an expression with operators of certain levels: behind blanks none of these
operators, and directly behind the expression no digit. -/
structure Follows (ls : List Level) (rest : Text) : Prop where
  silent : ∀ level ∈ ls, ∀ t ∈ level, Text.dropPrefix? t.1 (rest.dropWhile isExprBlank) = none
  no_digit : ∀ d, rest.head? = some d → d.isDigit = false

theorem dropPrefix?_of_head?_ne {u s : Text} (hu : u ≠ []) (h : u.head? ≠ s.head?) :
    Text.dropPrefix? u s = none := by
  cases u with
  | nil => exact absurd rfl hu
  | cons c u =>
      cases s with
      | nil => rfl
      | cons d s =>
          rw [Text.dropPrefix?_cons, if_neg]
          intro hcd
          exact h (by rw [hcd]; rfl)

theorem no_digit_of_space {b s : Text} (hb : IsSpace b)
    (hs : ∀ d, s.head? = some d → d.isDigit = false) :
    ∀ d, (b ++ s).head? = some d → d.isDigit = false := by
  intro d hd
  cases b with
  | nil => exact hs d hd
  | cons c b =>
      obtain rfl : c = d := Option.some.inj hd
      have hc : isExprBlank c = true := isExprBlank_iff.2 (hb c List.mem_cons_self)
      cases hdigit : c.isDigit with
      | false => rfl
      | true =>
          rw [isExprBlank_of_isDigit hdigit] at hc
          cases hc

/-- A character that begins no operator of the levels may follow, behind blanks. -/
theorem follows_cons {ls : List Level} {b : Text} (hb : IsSpace b) {c : Char}
    (hblank : isExprBlank c = false) (hdigit : c.isDigit = false)
    (hc : ∀ level ∈ ls, ∀ t ∈ level, t.1 ≠ [] ∧ t.1.head? ≠ some c) (s : Text) :
    Follows ls (b ++ c :: s) where
  silent := by
    intro level hlevel t ht
    rw [dropWhile_space_cons hb hblank]
    exact dropPrefix?_of_head?_ne (hc level hlevel t ht).1 (hc level hlevel t ht).2
  no_digit := by
    refine no_digit_of_space hb fun d hd => ?_
    obtain rfl : c = d := Option.some.inj hd
    exact hdigit

/-- Blanks at the end may follow. -/
theorem follows_space {b : Text} (hb : IsSpace b) : Follows levels b where
  silent := by
    intro level hlevel t ht
    have hne : ∀ level ∈ levels, ∀ t ∈ level, t.1 ≠ [] := by decide
    have hnil : b.dropWhile isExprBlank = [] := by
      have := dropWhile_space_append hb []
      rwa [List.append_nil] at this
    rw [hnil]
    refine dropPrefix?_of_head?_ne (hne level hlevel t ht) ?_
    simpa using hne level hlevel t ht
  no_digit := by
    have := no_digit_of_space hb (s := []) (by simp)
    rwa [List.append_nil] at this

/-- A closing parenthesis may follow. -/
theorem follows_closer {b : Text} (hb : IsSpace b) (s : Text) : Follows levels (b ++ ')' :: s) :=
  follows_cons hb (by decide) (by decide) (by decide) s

/-- The first character of an operator: it begins no operator of tighter ranks. -/
theorem exists_lead {r r' : Rank} (hnext : r.next? = some r') {token : Text} {op : BinOp}
    (hop : (token, op) ∈ r.operators) :
    ∃ d w, token = d :: w ∧ isExprBlank d = false ∧ d.isDigit = false ∧
      ∀ level ∈ r'.levels, ∀ t ∈ level, t.1 ≠ [] ∧ t.1.head? ≠ some d := by
  have htable : ∀ t ∈ r.operators, t.1 ≠ [] ∧ isExprBlank (t.1.headD ' ') = false ∧
      (t.1.headD ' ').isDigit = false ∧
      ∀ level ∈ r'.levels, ∀ t' ∈ level, t'.1 ≠ [] ∧ t'.1.head? ≠ some (t.1.headD ' ') := by
    cases r with
    | primary => cases hnext
    | or | and | eq | rel | add | mul | unary =>
        obtain rfl := Option.some.inj hnext
        decide
  obtain ⟨hne, h⟩ := htable _ hop
  obtain ⟨d, w, rfl⟩ := List.exists_cons_of_ne_nil hne
  exact ⟨d, w, rfl, h⟩

/-- An operator may follow its left operand. -/
theorem follows_operator {r r' : Rank} (hnext : r.next? = some r') {token : Text} {op : BinOp}
    (hop : (token, op) ∈ r.operators) {b : Text} (hb : IsSpace b) (s : Text) :
    Follows r'.levels (b ++ (token ++ s)) := by
  obtain ⟨d, w, rfl, hblank, hdigit, hd⟩ := exists_lead hnext hop
  exact follows_cons hb hblank hdigit hd (w ++ s)

theorem next?_eq_none {level : Level} {c : Cursor}
    (h : ∀ t ∈ level, Text.dropPrefix? t.1 c.rest = none) : level.next? c = none := by
  induction level with
  | nil => rfl
  | cons t level ih =>
      have heat : c.eat? t.1 = none := by
        rw [Cursor.eat?, h t List.mem_cons_self, Option.map_none]
      rw [Level.next?, heat]
      exact ih fun u hu => h u (List.mem_cons_of_mem _ hu)

/-- An operator is read as itself, unless an equals sign follows it. -/
theorem next?_operator {r : Rank} {token : Text} {op : BinOp} (hop : (token, op) ∈ r.operators)
    {c : Cursor} {rest : Text} (hc : c.rest = token ++ rest) (hrest : rest.head? ≠ some '=') :
    ∃ c', Level.next? r.operators c = some (op, c') ∧ c'.rest = rest := by
  refine ⟨⟨rest, c.offset + token.length⟩, ?_, rfl⟩
  have hlonger : Text.dropPrefix? ['='] rest = none :=
    dropPrefix?_of_head?_ne (by decide) (Ne.symm hrest)
  obtain ⟨text, offset⟩ := c
  dsimp only at hc ⊢
  subst hc
  cases r with
  | unary | primary => cases hop
  | or | and =>
      obtain ⟨rfl, rfl⟩ := Prod.mk.inj (List.mem_singleton.1 hop)
      simp [Rank.operators, Level.next?, Cursor.eat?]
  | eq | rel | add | mul =>
      simp only [Rank.operators, List.mem_cons, List.not_mem_nil, or_false, Prod.mk.injEq] at hop
      -- a token that begins another one is read as the shorter one, since no `=` follows
      casesm* _ ∨ _ <;> obtain ⟨rfl, rfl⟩ := hop <;>
        simp [Rank.operators, Level.next?, Cursor.eat?, hlonger]

theorem head?_space_ne {b : Text} (hb : IsSpace b) {c : Char} (hc : c ≠ '=') (s : Text) :
    (b ++ c :: s).head? ≠ some '=' := by
  cases b with
  | nil => simpa using hc
  | cons d b =>
      intro hd
      obtain rfl : d = '=' := Option.some.inj hd
      exact absurd (hb _ List.mem_cons_self) (by decide)

/-- An expression does not begin with an equals sign. -/
theorem Derives.head?_ne {r : Rank} {e : Tree} {s : Text} (h : Derives r e s) (t : Text) :
    (s ++ t).head? ≠ some '=' := by
  induction h generalizing t with
  | binary _ _ _ _ _ iha => rw [List.append_assoc]; exact iha _
  | lift _ _ ih => exact ih t
  | neg hblanks | not hblanks =>
      rw [List.append_assoc]
      exact head?_space_ne hblanks (by decide) _
  | parens hblanks =>
      rw [List.append_assoc]
      exact head?_space_ne hblanks (by decide) _
  | @number n blanks ds hblanks hds =>
      obtain ⟨d, ds, rfl⟩ := List.exists_cons_of_ne_nil hds.ne_nil
      have hd : d ≠ '=' := by
        rintro rfl
        exact absurd (hds.digits '=' List.mem_cons_self) (by decide)
      rw [List.append_assoc]
      exact head?_space_ne hblanks hd _

/-- A number or an expression in parentheses begins with a digit or a parenthesis. -/
theorem Derives.exists_lead_primary {e : Tree} {s : Text} (h : Derives .primary e s) :
    ∃ b d w, IsSpace b ∧ s = b ++ d :: w ∧ isExprBlank d = false ∧ d ≠ '-' ∧ d ≠ '!' := by
  cases h with
  | lift hnext => cases hnext
  | binary hnext => cases hnext
  | parens hblanks h hblanks' => exact ⟨_, '(', _, hblanks, rfl, by decide, by decide, by decide⟩
  | @number n blanks ds hblanks hds =>
      obtain ⟨d, w, rfl⟩ := List.exists_cons_of_ne_nil hds.ne_nil
      have hd : d.isDigit = true := hds.digits d List.mem_cons_self
      refine ⟨blanks, d, w, hblanks, rfl, isExprBlank_of_isDigit hd, ?_, ?_⟩
      · rintro rfl
        cases hd
      · rintro rfl
        cases hd

/-! ### Expressions are read to their end -/

/-- A cursor at which `rest` is left to read, up to blanks in front. -/
structure LeftAt (c : Cursor) (rest : Text) : Prop where
  skip_eq : c.rest.dropWhile isExprBlank = rest.dropWhile isExprBlank
  length_le : c.rest.length ≤ rest.length

/-- An expression that is read to its end, with the value of its tree, whatever may follow it. -/
def Completes (r : Rank) (e : Tree) (s : Text) : Prop :=
  ∀ depth v c rest, e.depth ≤ depth → e.value? BinOp.inWords = some v → c.rest = s ++ rest →
    Follows r.levels rest → ∃ c', r.reader depth c = .ok (v, c') ∧ LeftAt c' rest

/-- A row of operators that is read so far: behind it, the reader is where the rest of the row is
still to be read, with the value of the row at hand. -/
def Continues (r r' : Rank) (e : Tree) (s : Text) : Prop :=
  ∀ depth v c rest, e.depth ≤ depth → e.value? BinOp.inWords = some v → c.rest = s ++ rest →
    Follows r'.levels rest → ∃ c' n, LeftAt c' rest ∧ c'.rest.length ≤ n ∧
      r.reader depth c = chain (r'.reader depth) r.operators n v c'

namespace Rank

theorem reader_of_ne {r : Rank} (hr : r ≠ primary) (depth : Nat) :
    r.reader depth = climb (Expr.unary depth) r.levels := if_neg hr

theorem ne_primary_of_next? {r r' : Rank} (hnext : r.next? = some r') : r ≠ primary := by
  rintro rfl
  cases hnext

/-- A rank of binary operators is read as an operand and the row behind it. -/
theorem reader_eq {r r' : Rank} (hnext : r.next? = some r') (hr : r' ≠ primary) (depth : Nat)
    (c : Cursor) :
    r.reader depth c = (r'.reader depth c >>= fun p =>
      chain (r'.reader depth) r.operators p.2.rest.length p.1 p.2) := by
  rw [reader_of_ne (ne_primary_of_next? hnext), reader_of_ne hr, levels_eq hnext hr]
  rfl

end Rank

/-! ### The readers, case by case -/

/-- An operator and its right operand are read, and the row goes on behind them. -/
theorem chain_operator {operand : Reader} {level : Level} {n : Nat} {lhs rhs v : Int}
    {c c₁ c₂ : Cursor} {op : BinOp} (hnext : level.next? c.skipBlanks = some (op, c₁))
    (hrhs : operand c₁ = .ok (rhs, c₂))
    (hv : applyAt op c.skipBlanks.offset c₂.offset lhs rhs = .ok v) :
    chain operand level (n + 1) lhs c = chain operand level n v c₂ := by
  rw [chain, hnext]
  dsimp only
  rw [hrhs]
  change (applyAt op c.skipBlanks.offset c₂.offset lhs rhs >>= _) = _
  rw [hv]
  rfl

theorem unary_neg {depth : Nat} {c c' : Cursor} {s : Text} {w : Int}
    (hc : c.skipBlanks.rest = '-' :: s) (hw : unary depth ⟨s, c.skipBlanks.offset + 1⟩ = .ok (w, c'))
    (hrange : InRange (-w)) : unary (depth + 1) c = .ok (-w, c') := by
  rw [unary, hc]
  split
  · next s' hsign =>
      obtain rfl := (List.cons.inj hsign).2
      dsimp only
      rw [hw]
      exact if_pos hrange
  · next hsign => cases hsign
  · next hsign => cases hsign
  · next hminus _ _ => exact absurd rfl (hminus s)

theorem unary_not {depth : Nat} {c c' : Cursor} {s : Text} {w : Int}
    (hc : c.skipBlanks.rest = '!' :: s) (hs : s.head? ≠ some '=')
    (hw : unary depth ⟨s, c.skipBlanks.offset + 1⟩ = .ok (w, c')) :
    unary (depth + 1) c = .ok (truth (w = 0), c') := by
  rw [unary, hc]
  split
  · next hsign => cases hsign
  · next s' hsign =>
      obtain rfl := (List.cons.inj hsign).2
      exact absurd rfl hs
  · next s' _ hsign =>
      obtain rfl := (List.cons.inj hsign).2
      dsimp only
      rw [hw, ← ofBool_decide]
      rfl
  · next hother => exact absurd rfl (hother s)

/-- Where no sign stands, a number or a parenthesis is read. -/
theorem unary_primary {depth : Nat} {c : Cursor} {d : Char} {s : Text}
    (hc : c.skipBlanks.rest = d :: s) (hneg : d ≠ '-') (hnot : d ≠ '!') :
    unary (depth + 1) c = Rank.primary.reader (depth + 1) c := by
  have hreader : Rank.primary.reader (depth + 1) c = primary (climb (unary depth) levels) c := rfl
  rw [hreader, unary, hc]
  split
  · next hsign => exact absurd (List.cons.inj hsign).1 hneg
  · rfl
  · next hsign => exact absurd (List.cons.inj hsign).1 hnot
  · rfl

/-- A row that nothing continues is complete. -/
theorem Continues.completes {r r' : Rank} (hnext : r.next? = some r') (hr : r' ≠ .primary)
    {e : Tree} {s : Text} (h : Continues r r' e s) : Completes r e s := by
  intro depth v c rest hdepth hv hc hfollow
  have hlevels := Rank.levels_eq hnext hr
  have hfollow' : Follows r'.levels rest :=
    ⟨fun level hlevel => hfollow.silent level (hlevels ▸ List.mem_cons_of_mem _ hlevel),
      hfollow.no_digit⟩
  obtain ⟨c₁, n, hleft, -, hread⟩ := h depth v c rest hdepth hv hc hfollow'
  have hsilent := hfollow.silent r.operators (hlevels ▸ List.mem_cons_self)
  rw [← hleft.skip_eq, ← rest_skipBlanks] at hsilent
  refine ⟨c₁.skipBlanks, ?_, ?_, ?_⟩
  · rw [hread]
    cases n with
    | zero => rfl
    | succ n => rw [chain, next?_eq_none hsilent]
  · rw [rest_skipBlanks, ← hleft.skip_eq, List.dropWhile_idempotent]
  · rw [rest_skipBlanks]
    exact Nat.le_trans (List.length_dropWhile_le _ _) hleft.length_le

/-- An operand is a row by itself. -/
theorem Completes.continues {r r' : Rank} (hnext : r.next? = some r') (hr : r' ≠ .primary)
    {e : Tree} {s : Text} (h : Completes r' e s) : Continues r r' e s := by
  intro depth v c rest hdepth hv hc hfollow
  obtain ⟨c₁, hread, hleft⟩ := h depth v c rest hdepth hv hc hfollow
  refine ⟨c₁, c₁.rest.length, hleft, Nat.le_refl _, ?_⟩
  rw [Rank.reader_eq hnext hr, hread]
  rfl

/-- One more operator and operand behind a row. -/
theorem Continues.operator {r r' : Rank} (hnext : r.next? = some r') {token blanks s t : Text}
    {op : BinOp} {a b : Tree} (hop : (token, op) ∈ r.operators) (ha : Derives r a s)
    (hblanks : IsSpace blanks) (hb : Derives r' b t) (hrow : Continues r r' a s)
    (hoperand : Completes r' b t) :
    Continues r r' (.binary op a b) (s ++ (blanks ++ (token ++ t))) := by
  intro depth v c rest hdepth hv hc hfollow
  obtain ⟨hda, hdb⟩ := Nat.max_le.1 hdepth
  simp only [Tree.value?, Option.bind_eq_some_iff] at hv
  obtain ⟨va, hva, vb, hvb, hv⟩ := hv
  -- the row so far is followed by the operator
  obtain ⟨c₁, n, hleft₁, hn, hread⟩ :=
    hrow depth va c (blanks ++ (token ++ (t ++ rest))) hda hva (by simp [hc])
      (follows_operator hnext hop hblanks _)
  have hskip : c₁.skipBlanks.rest = token ++ (t ++ rest) := by
    obtain ⟨d, w, rfl, hblank, -⟩ := exists_lead hnext hop
    rw [rest_skipBlanks, hleft₁.skip_eq]
    exact dropWhile_space_cons hblanks hblank _
  obtain ⟨c₂, hnext?, hc₂⟩ := next?_operator hop hskip (hb.head?_ne rest)
  obtain ⟨c₃, hread₃, hleft₃⟩ := hoperand depth vb c₂ rest hdb hvb hc₂ hfollow
  have happly : applyAt op c₁.skipBlanks.offset c₃.offset va vb = .ok v := by
    rw [applyAt_eq_ok_iff, op.apply_eq_ok_iff (ha.inRange hva) (hb.inRange hvb)]
    exact Option.bind_eq_some_iff.2 hv
  -- at least the operator was read, so there are steps left for what follows
  have hlength : c₃.rest.length + 1 ≤ n := by
    have hle : c₁.skipBlanks.rest.length ≤ c₁.rest.length := by
      rw [rest_skipBlanks]
      exact List.length_dropWhile_le _ _
    obtain ⟨d, w, rfl, -⟩ := exists_lead hnext hop
    have hthree := hleft₃.length_le
    rw [hskip] at hle
    simp only [List.length_append, List.length_cons] at hle
    omega
  obtain ⟨m, rfl⟩ : ∃ m, n = m + 1 := ⟨n - 1, by omega⟩
  exact ⟨c₃, m, hleft₃, by omega, hread.trans (chain_operator hnext? hread₃ happly)⟩

theorem Tree.depth_pos (e : Tree) : 0 < e.depth := by
  induction e with
  | number => exact Nat.one_pos
  | parens | neg | not => exact Nat.succ_pos _
  | binary op a b iha ihb => exact Nat.lt_of_lt_of_le iha (Nat.le_max_left _ _)

/-- A number is read up to the first character that is no digit. -/
theorem completes_number {n : Nat} {blanks ds : Text} (hblanks : IsSpace blanks)
    (hds : Writes ds n) (hmax : n ≤ 0x7fffffffffffffff) :
    Completes .primary (.number n) (blanks ++ ds) := by
  intro depth v c rest hdepth hv hc hfollow
  obtain rfl := Option.some.inj hv
  obtain ⟨d, w, rfl⟩ := List.exists_cons_of_ne_nil hds.ne_nil
  have hd : d.isDigit = true := hds.digits d List.mem_cons_self
  have hskip : c.skipBlanks.rest = d :: (w ++ rest) := by
    rw [rest_skipBlanks, hc, List.append_assoc]
    exact dropWhile_space_cons hblanks (isExprBlank_of_isDigit hd) _
  have hne : d ≠ '(' := by
    rintro rfl
    cases hd
  have hrest : rest.takeWhile Char.isDigit = [] ∧ rest.dropWhile Char.isDigit = rest := by
    cases rest with
    | nil => exact ⟨rfl, rfl⟩
    | cons e rest =>
        have he : ¬ e.isDigit = true := by simp [hfollow.no_digit e rfl]
        exact ⟨List.takeWhile_cons_of_neg he, List.dropWhile_cons_of_neg he⟩
  have htake : (d :: (w ++ rest)).takeWhile Char.isDigit = d :: w := by
    rw [← List.cons_append, List.takeWhile_append_of_pos hds.digits, hrest.1, List.append_nil]
  have hdrop : (d :: (w ++ rest)).dropWhile Char.isDigit = rest := by
    rw [← List.cons_append, List.dropWhile_append_of_pos hds.digits, hrest.2]
  have hvalue : digitsValue (d :: w) = n := by rw [digitsValue_eq, hds.value_eq]
  have hlt : digitsValue (d :: w) < 0x8000000000000000 := by omega
  refine ⟨⟨rest, c.skipBlanks.offset + (d :: w).length⟩, ?_, rfl, Nat.le_refl _⟩
  simp only [Rank.reader, if_pos, primary, hskip, if_neg hne, hd, htake, hdrop, if_pos hlt]
  rw [hvalue]

/-- An expression in parentheses is read up to the closing one. -/
theorem completes_parens {e : Tree} {blanks blanks' s : Text} (hblanks : IsSpace blanks)
    (hblanks' : IsSpace blanks') (h : Completes .or e s) :
    Completes .primary (.parens e) (blanks ++ '(' :: (s ++ (blanks' ++ [')']))) := by
  intro depth v c rest hdepth hv hc hfollow
  have hskip : c.skipBlanks.rest = '(' :: (s ++ (blanks' ++ ')' :: rest)) := by
    rw [rest_skipBlanks, hc]
    simp only [List.append_assoc, List.cons_append, List.nil_append]
    exact dropWhile_space_cons hblanks (by decide) _
  have hdepth' : e.depth ≤ depth - 1 := by
    have : e.depth + 1 ≤ depth := hdepth
    omega
  obtain ⟨c₁, hread, hleft⟩ :=
    h (depth - 1) v ⟨s ++ (blanks' ++ ')' :: rest), c.skipBlanks.offset + 1⟩ _ hdepth' hv rfl
      (follows_closer hblanks' rest)
  have hcloser : c₁.skipBlanks.rest = ')' :: rest := by
    rw [rest_skipBlanks, hleft.skip_eq]
    exact dropWhile_space_cons hblanks' (by decide) _
  have heat : c₁.skipBlanks.eat? [')'] = some ⟨rest, c₁.skipBlanks.offset + 1⟩ :=
    eat?_eq_some_iff.2 ⟨hcloser, rfl⟩
  refine ⟨⟨rest, c₁.skipBlanks.offset + 1⟩, ?_, rfl, Nat.le_refl _⟩
  rw [Rank.reader_of_ne (by decide)] at hread
  have hread' : climb (unary (depth - 1)) levels
      ⟨s ++ (blanks' ++ ')' :: rest), c.skipBlanks.offset + 1⟩ = .ok (v, c₁) := hread
  simp only [Rank.reader, if_pos, primary, hskip, hread']
  simp only [bind, Except.bind, heat]

/-- A sign is read with what follows it, where `hsign` says what the reader does at the sign. -/
theorem completes_sign {e e' : Tree} {sign : Char} {blanks s : Text} (hblanks : IsSpace blanks)
    (hblank : isExprBlank sign = false) (hdepth' : e'.depth = e.depth + 1)
    (h : Completes .unary e s)
    (hsign : ∀ v, e'.value? BinOp.inWords = some v → ∃ w, e.value? BinOp.inWords = some w ∧
      ∀ depth c c' rest, c.skipBlanks.rest = sign :: (s ++ rest) →
        unary depth ⟨s ++ rest, c.skipBlanks.offset + 1⟩ = .ok (w, c') →
          unary (depth + 1) c = .ok (v, c')) :
    Completes .unary e' (blanks ++ sign :: s) := by
  intro depth v c rest hdepth hv hc hfollow
  rw [hdepth'] at hdepth
  obtain ⟨d, rfl⟩ : ∃ d, depth = d + 1 := ⟨depth - 1, by omega⟩
  have hskip : c.skipBlanks.rest = sign :: (s ++ rest) := by
    rw [rest_skipBlanks, hc, List.append_assoc]
    exact dropWhile_space_cons hblanks hblank _
  obtain ⟨w, hw, hstep⟩ := hsign v hv
  obtain ⟨c', hread, hleft⟩ := h d w ⟨s ++ rest, c.skipBlanks.offset + 1⟩ rest
    (Nat.le_of_succ_le_succ hdepth) hw rfl hfollow
  exact ⟨c', hstep d c c' rest hskip hread, hleft⟩

theorem completes_neg {e : Tree} {blanks s : Text} (hblanks : IsSpace blanks)
    (h : Completes .unary e s) : Completes .unary (.neg e) (blanks ++ '-' :: s) := by
  refine completes_sign hblanks (by decide) rfl h fun v hv => ?_
  simp only [Tree.value?, Option.bind_eq_some_iff] at hv
  obtain ⟨w, hw, hv⟩ := hv
  obtain ⟨rfl, hrange⟩ := inRange_of_word? hv
  exact ⟨w, hw, fun depth c c' rest hskip hread => unary_neg hskip hread hrange⟩

theorem completes_not {e : Tree} {blanks s : Text} (hblanks : IsSpace blanks)
    (he : Derives .unary e s) (h : Completes .unary e s) :
    Completes .unary (.not e) (blanks ++ '!' :: s) := by
  refine completes_sign hblanks (by decide) rfl h fun v hv => ?_
  simp only [Tree.value?, Option.bind_eq_some_iff] at hv
  obtain ⟨w, hw, hv⟩ := hv
  obtain rfl := Option.some.inj hv
  exact ⟨w, hw, fun depth c c' rest hskip hread => unary_not hskip (he.head?_ne rest) hread⟩

/-- Where an expression of the last rank stands, no sign does. -/
theorem completes_primary {e : Tree} {s : Text} (he : Derives .primary e s)
    (h : Completes .primary e s) : Completes .unary e s := by
  intro depth v c rest hdepth hv hc hfollow
  obtain ⟨d, rfl⟩ : ∃ d, depth = d + 1 := ⟨depth - 1, by have := e.depth_pos; omega⟩
  obtain ⟨c₁, hread, hleft⟩ := h (d + 1) v c rest hdepth hv hc hfollow
  obtain ⟨b, x, w, hb, rfl, hblank, hneg, hnot⟩ := he.exists_lead_primary
  have hskip : c.skipBlanks.rest = x :: (w ++ rest) := by
    rw [rest_skipBlanks, hc, List.append_assoc]
    exact dropWhile_space_cons hb hblank _
  exact ⟨c₁, (unary_primary hskip hneg hnot).trans hread, hleft⟩

/-- **Expressions are read to their end**, by induction on the grammar.  For a rank of operators it
is shown along with this that the row may go on. -/
theorem Derives.completes {r : Rank} {e : Tree} {s : Text} (h : Derives r e s) :
    Completes r e s ∧ ∀ r', r.next? = some r' → r' ≠ .primary → Continues r r' e s := by
  induction h with
  | @binary r r' token blanks s t op a b hnext hop ha hblanks hb iha ihb =>
      have hr := Rank.ne_primary_of_operator hnext hop
      have hrow := Continues.operator hnext hop ha hblanks hb (iha.2 r' hnext hr) ihb.1
      refine ⟨hrow.completes hnext hr, fun r'' hnext' _ => ?_⟩
      obtain rfl := Option.some.inj (hnext.symm.trans hnext')
      exact hrow
  | @lift r r' e s hnext he ih =>
      by_cases hr : r' = .primary
      · subst hr
        have hunary : r = .unary := by
          cases r with
          | unary => rfl
          | or | and | eq | rel | add | mul | primary => cases hnext
        subst hunary
        refine ⟨completes_primary he ih.1, fun r'' hnext' hr' => ?_⟩
        exact absurd (Option.some.inj hnext').symm hr'
      · have hrow := ih.1.continues hnext hr
        refine ⟨hrow.completes hnext hr, fun r'' hnext' _ => ?_⟩
        obtain rfl := Option.some.inj (hnext.symm.trans hnext')
        exact hrow
  | neg hblanks he ih =>
      exact ⟨completes_neg hblanks ih.1, fun r' hnext hr => absurd (Option.some.inj hnext).symm hr⟩
  | not hblanks he ih =>
      exact ⟨completes_not hblanks he ih.1,
        fun r' hnext hr => absurd (Option.some.inj hnext).symm hr⟩
  | number hblanks hds hmax =>
      exact ⟨completes_number hblanks hds hmax, fun r' hnext _ => by cases hnext⟩
  | parens hblanks he hblanks' ih =>
      exact ⟨completes_parens hblanks hblanks' ih.1, fun r' hnext _ => by cases hnext⟩

/-! ### The value of an expression -/

/-- **The value of an expression is that of its tree.**  A text has a value exactly if it is an
expression, with blanks around its tokens, in which at most 128 signs and parentheses, plus one, are
open at a time, and every step of the evaluation of its tree gives a number of 64 bits, where the
remainder of the least number by `-1` gives none. -/
theorem evalInt_eq_ok_iff (src : Text) (v : Int) :
    evalInt src = .ok v ↔ Denotes BinOp.inWords src v := by
  constructor
  · intro h
    obtain ⟨⟨w, c⟩, hw, h⟩ := exists_of_bind_eq_ok h
    dsimp only at h
    split at h
    · next hend =>
        obtain rfl := Except.ok.inj h
        obtain ⟨e, s, b, he, hb, hrest, hdepth, hv⟩ :=
          reads_climb (reads_unary maxDepth) .or (by decide) _ w c hw
        obtain ⟨b', hb', hc⟩ := exists_space_skipBlanks c
        rw [List.isEmpty_iff.1 hend, List.append_nil] at hc
        refine ⟨e, s, b ++ b', he, isSpace_append hb hb', ?_, hdepth, hv⟩
        rw [hc] at hrest
        exact hrest
    · cases h
  · rintro ⟨e, s, b, he, hb, rfl, hdepth, hv⟩
    obtain ⟨c, hread, hleft⟩ := he.completes.1 128 v ⟨s ++ b, 0⟩ b hdepth hv rfl (follows_space hb)
    have hread' : climb (unary maxDepth) levels ⟨s ++ b, 0⟩ = .ok (v, c) := hread
    have hend : c.skipBlanks.rest = [] := by
      have := dropWhile_space_append hb []
      rw [rest_skipBlanks, hleft.skip_eq]
      rwa [List.append_nil] at this
    rw [evalInt, hread']
    change (if c.skipBlanks.rest.isEmpty then _ else _) = _
    rw [hend]
    rfl

/-! ### The remainder that is left out -/

/-- The greatest number, in digits. -/
def greatestDigits : Text :=
  ['9', '2', '2', '3', '3', '7', '2', '0', '3', '6', '8', '5', '4', '7', '7', '5', '8', '0', '7']

/-- The text `(-9223372036854775807-1)%-1`. -/
def leastRemainder : Text := ['(', '-'] ++ greatestDigits ++ ['-', '1', ')', '%', '-', '1']

theorem derives_number (ds : Text) (hne : ds ≠ []) (hds : ds.all Char.isDigit = true)
    (hmax : digitsValue ds ≤ 0x7fffffffffffffff) :
    Derives .primary (.number (digitsValue ds)) ds :=
  Derives.number isSpace_nil ⟨hne, List.all_eq_true.1 hds, (digitsValue_eq ds).symm⟩ hmax

/-- **A remainder within 64 bits that is no value**: that of the least number by `-1` is zero, and
no step leaves the range on the way to it, but it is refused as an overflow. -/
theorem evalInt_leastRemainder :
    Denotes BinOp.exact leastRemainder 0 ∧
      evalInt leastRemainder = .error ⟨.overflow, 27⟩ := by
  have hgreatest := derives_number greatestDigits (by decide) (by decide) (by decide)
  have hone := derives_number ['1'] (by decide) (by decide) (by decide)
  have hneg := Derives.neg isSpace_nil (.lift rfl hgreatest)
  have hminus := Derives.neg isSpace_nil (.lift rfl hone)
  have hsub : (['-'], BinOp.sub) ∈ Rank.add.operators := by decide
  have hpercent : (['%'], BinOp.rem) ∈ Rank.mul.operators := by decide
  -- the difference, in parentheses
  have hleast := Derives.binary rfl hsub (.lift rfl (.lift rfl hneg)) isSpace_nil
    (.lift rfl (.lift rfl hone))
  have hparens := Derives.parens isSpace_nil
    (.lift rfl (.lift rfl (.lift rfl (.lift rfl hleast)))) isSpace_nil
  have hrem := Derives.binary rfl hpercent (.lift rfl (.lift rfl hparens)) isSpace_nil hminus
  refine ⟨⟨_, _, [], .lift rfl (.lift rfl (.lift rfl (.lift rfl (.lift rfl hrem)))), isSpace_nil,
    rfl, by decide, ?_⟩, ?_⟩
  · decide +kernel
  · rfl

end Expr

end Softcode
