/-
**The machine on bytes evaluates expressions.**

On the bytes of a text the machine gives the value that `Softcode.Expr.evalInt` gives, or the same
error.  A cursor and a state of the machine stand at the same place if the bytes that are left are
those of the text that is left.  The machine decides by single bytes and by rows of ASCII bytes,
and the first byte of a character beyond ASCII is none that it tests for, so both go the same way.
The counter of the machine and the argument of the reader of signs add up to the greatest depth.

Since the machine is safe on all bytes, so is the evaluation of an expression.

Main definitions:

* `Softcode.Expr.Machine.firstChar?` — what the machine sees of a text;
* `Softcode.Expr.Machine.Stands` — a cursor and a state at the same place;
* `Softcode.Expr.Machine.Agrees` — readers and runs that do the same;
* `Softcode.Expr.Machine.outcome` — the value or the error of a run, if it has one of them.

Main results:

* `Softcode.Expr.Machine.agrees_unary` — **signs and operands are read alike**;
* `Softcode.Expr.Machine.outcome_evalInt` — **so are expressions**;
* `Softcode.Expr.evalInt_staysInside` — an expression is evaluated within its bytes.
-/

import Softcode.Proofs.ExprMachine
import Softcode.Proofs.ExprReading

set_option autoImplicit false

namespace Softcode

namespace Expr

/-! ### Readers -/

theorem skipBlanksFrom_eq (s : Text) (n : Nat) :
    skipBlanksFrom s n = ⟨s.dropWhile isExprBlank, n + (s.takeWhile isExprBlank).length⟩ := by
  induction s generalizing n with
  | nil => rfl
  | cons c s ih =>
      rw [skipBlanksFrom]
      split
      · next hc =>
          rw [ih, List.dropWhile_cons_of_pos hc, List.takeWhile_cons_of_pos hc, List.length_cons]
          congr 1
          omega
      · next hc => rw [List.dropWhile_cons_of_neg hc, List.takeWhile_cons_of_neg hc]; rfl

theorem skipBlanks_eq (c : Cursor) :
    c.skipBlanks =
      ⟨c.rest.dropWhile isExprBlank, c.offset + (c.rest.takeWhile isExprBlank).length⟩ :=
  skipBlanksFrom_eq c.rest c.offset

@[simp]
theorem skipBlanks_skipBlanks (c : Cursor) : c.skipBlanks.skipBlanks = c.skipBlanks := by
  have hblank : ∀ s : Text, (s.dropWhile isExprBlank).takeWhile isExprBlank = [] := by
    intro s
    induction s with
    | nil => rfl
    | cons d s ih =>
        by_cases hd : isExprBlank d = true
        · rw [List.dropWhile_cons_of_pos hd, ih]
        · rw [List.dropWhile_cons_of_neg hd, List.takeWhile_cons_of_neg hd]
  rw [skipBlanks_eq c.skipBlanks, skipBlanks_eq c, hblank, List.dropWhile_idempotent]
  rfl

theorem length_skipBlanks_le (c : Cursor) : c.skipBlanks.rest.length ≤ c.rest.length := by
  rw [rest_skipBlanks]
  exact (List.dropWhile_sublist _).length_le

theorem primary_skipBlanks (inner : Reader) (c : Cursor) :
    primary inner c.skipBlanks = primary inner c := by
  unfold primary
  rw [skipBlanks_skipBlanks]

theorem primary_parens {r : Reader} {c : Cursor} {rest : Text}
    (hrest : c.skipBlanks.rest = '(' :: rest) :
    primary r c = r ⟨rest, c.skipBlanks.offset + 1⟩ >>= fun p =>
      match p.2.skipBlanks.eat? [')'] with
      | some c₂ => .ok (p.1, c₂)
      | none => .error ⟨.expectedCloser, p.2.skipBlanks.offset⟩ := by
  rw [primary, hrest]
  exact if_pos rfl

theorem primary_number {r : Reader} {c : Cursor} {d : Char} {rest : Text}
    (hrest : c.skipBlanks.rest = d :: rest) (hd : d.isDigit = true) :
    primary r c =
      if digitsValue (c.skipBlanks.rest.takeWhile Char.isDigit) < 0x8000000000000000 then
        .ok (digitsValue (c.skipBlanks.rest.takeWhile Char.isDigit),
          ⟨c.skipBlanks.rest.dropWhile Char.isDigit,
            c.skipBlanks.offset + (c.skipBlanks.rest.takeWhile Char.isDigit).length⟩)
      else .error ⟨.literalOutOfRange, c.skipBlanks.offset⟩ := by
  have hopen : d ≠ '(' := by
    rintro rfl
    cases hd
  rw [primary, hrest]
  exact (if_neg hopen).trans (if_pos hd)

/-- What is neither a number nor a parenthesis is a fault, by its first character. -/
theorem primary_other {r : Reader} {c : Cursor} {d : Char} {rest : Text}
    (hrest : c.skipBlanks.rest = d :: rest) (hopen : d ≠ '(') (hd : ¬d.isDigit = true) :
    primary r c =
      if (d.isAlpha || d == '_') = true then .error ⟨.unknownName, c.skipBlanks.offset⟩
      else .error ⟨.unexpectedChar, c.skipBlanks.offset⟩ := by
  rw [primary, hrest]
  exact (if_neg hopen).trans (if_neg hd)

/-- The reader of signs by the first characters. -/
theorem unary_succ (depth : Nat) (c : Cursor) :
    unary (depth + 1) c =
      if c.skipBlanks.rest.head? = some '-' then do
        let (v, c₁) ← unary depth ⟨c.skipBlanks.rest.tail, c.skipBlanks.offset + 1⟩
        if InRange (-v) then .ok (-v, c₁) else .error ⟨.overflow, c₁.offset⟩
      else if c.skipBlanks.rest.head? = some '!' ∧ c.skipBlanks.rest.tail.head? ≠ some '=' then do
        let (v, c₁) ← unary depth ⟨c.skipBlanks.rest.tail, c.skipBlanks.offset + 1⟩
        .ok (ofBool (v == 0), c₁)
      else primary (climb (unary depth) levels) c := by
  rw [unary]
  split
  · next rest h => rw [h]; rfl
  · next rest h => rw [h, if_neg (by simp), if_neg (by simp)]
  · next rest hne h =>
      have hhead : rest.head? ≠ some '=' := by
        intro heq
        obtain ⟨rest', hrest⟩ := List.head?_eq_some_iff.1 heq
        exact hne rest' hrest
      rw [h, if_neg (by simp), if_pos ⟨rfl, hhead⟩]
      rfl
  · next hminus hnot hbang =>
      rw [if_neg, if_neg]
      · rintro ⟨hhead, -⟩
        obtain ⟨rest, hrest⟩ := List.head?_eq_some_iff.1 hhead
        exact hbang rest hrest
      · intro hhead
        obtain ⟨rest, hrest⟩ := List.head?_eq_some_iff.1 hhead
        exact hminus rest hrest

namespace Machine

/-! ### What the machine sees of a text -/

/-- Texts of ASCII characters. -/
def isAscii (s : Text) : Bool := s.all (·.toNat < 0x80)

/-- The first byte of a text as a character, if there is one. -/
def firstChar? (s : Text) : Option Char := (Text.toBytes s).head?.map byteChar

theorem byteChar_ofNat {x : Char} (hx : x.toNat < 0x80) : byteChar (UInt8.ofNat x.toNat) = x := by
  rw [byteChar, Utf8.toNat_byte (by omega), Char.ofNat_toNat]

theorem firstChar?_of_lt {d : Char} (hd : d.toNat < 0x80) (s : Text) :
    firstChar? (d :: s) = some d := by
  rw [firstChar?, Text.toBytes_cons, utf8EncodeChar_of_lt hd]
  exact congrArg some (byteChar_ofNat hd)

theorem toNat_byteChar (b : UInt8) : (byteChar b).toNat = b.toNat := by
  have hvalid : b.toNat.isValidChar := .inl (by have := b.toNat_lt; omega)
  rw [byteChar, Char.ofNat, dif_pos hvalid]
  rfl

theorem exists_firstChar?_of_le {d : Char} (hd : 0x80 ≤ d.toNat) (s : Text) :
    ∃ c, firstChar? (d :: s) = some c ∧ 0x80 ≤ c.toNat := by
  obtain ⟨b, bs, hbytes, hb⟩ := exists_lead_of_le hd
  refine ⟨byteChar b, ?_, by rw [toNat_byteChar]; exact hb⟩
  rw [firstChar?, Text.toBytes_cons, hbytes]
  rfl

/-- A test for ASCII characters gives the same on what is seen. -/
theorem exists_firstChar? {test : Char → Bool} (htest : ∀ x, 0x80 ≤ x.toNat → test x = false)
    (d : Char) (s : Text) : ∃ x, firstChar? (d :: s) = some x ∧ test x = test d := by
  by_cases hd : d.toNat < 0x80
  · exact ⟨d, firstChar?_of_lt hd s, rfl⟩
  · have hle := Nat.le_of_not_lt hd
    obtain ⟨x, hx, hlex⟩ := exists_firstChar?_of_le hle s
    exact ⟨x, hx, by rw [htest x hlex, htest d hle]⟩

/-- ASCII characters are seen where they are. -/
theorem firstChar?_eq_some_iff {x : Char} (hx : x.toNat < 0x80) (s : Text) :
    firstChar? s = some x ↔ s.head? = some x := by
  cases s with
  | nil => exact Iff.rfl
  | cons d s =>
      by_cases hd : d.toNat < 0x80
      · rw [firstChar?_of_lt hd, List.head?_cons]
      · obtain ⟨c, hc, hle⟩ := exists_firstChar?_of_le (Nat.le_of_not_lt hd) s
        rw [hc, List.head?_cons, Option.some_inj, Option.some_inj]
        constructor
        · rintro rfl
          omega
        · rintro rfl
          exact absurd hx hd

/-- A text begins with a row of ASCII characters exactly if its bytes begin with theirs. -/
theorem toBytes_prefix_iff {token : Text} (htoken : isAscii token = true) (s : Text) :
    Text.toBytes token <+: Text.toBytes s ↔ token <+: s := by
  constructor
  · intro h
    induction token generalizing s with
    | nil => exact ⟨s, rfl⟩
    | cons x token ih =>
        simp only [isAscii, List.all_cons, Bool.and_eq_true, decide_eq_true_eq] at htoken
        obtain ⟨hx, htoken⟩ := htoken
        rw [Text.toBytes_cons, utf8EncodeChar_of_lt hx] at h
        have hfirst : firstChar? s = some x := by
          obtain ⟨bs, hbs⟩ := h
          rw [firstChar?, ← hbs]
          exact congrArg some (byteChar_ofNat hx)
        obtain ⟨s, rfl⟩ := List.head?_eq_some_iff.1 ((firstChar?_eq_some_iff hx s).1 hfirst)
        rw [Text.toBytes_cons, utf8EncodeChar_of_lt hx] at h
        rw [List.cons_append, List.cons_append, List.prefix_cons_inj] at h
        exact (List.prefix_cons_inj x).2 (ih htoken s h)
  · rintro ⟨t, rfl⟩
    exact ⟨Text.toBytes t, (Text.toBytes_append token t).symm⟩

theorem length_le_byteLength (s : Text) : s.length ≤ Text.byteLength s := by
  induction s with
  | nil => exact le_rfl
  | cons c s ih =>
      rw [List.length_cons, Text.byteLength_cons]
      have := c.utf8Size_pos
      omega

theorem toBytes_of_isAscii {s : Text} (hs : isAscii s = true) :
    Text.toBytes s = s.map fun c => UInt8.ofNat c.toNat := by
  induction s with
  | nil => rfl
  | cons c s ih =>
      simp only [isAscii, List.all_cons, Bool.and_eq_true, decide_eq_true_eq] at hs
      rw [Text.toBytes_cons, utf8EncodeChar_of_lt hs.1, ih hs.2]
      rfl

/-! ### At the same place -/

/-- The cursor `c` and the state `s` stand at the same place of the bytes, at the given depth. -/
structure Stands (src : Bytes) (depth : Nat) (c : Cursor) (s : State) : Prop where
  drop_eq : src.drop s.pos = Text.toBytes c.rest
  pos_le : s.pos ≤ src.length
  pos_eq : s.pos = c.offset
  depth_eq : s.depth = depth

section Agrees

variable {src : Bytes} {depth : Nat} {c c' : Cursor} {s s' : State}

theorem stands_start (src : Text) : Stands (Text.toBytes src) 0 ⟨src, 0⟩ .start :=
  ⟨rfl, Nat.zero_le _, rfl, rfl⟩

theorem Stands.charAt? (h : Stands src depth c s) : charAt? src s.pos = firstChar? c.rest := by
  rw [Machine.charAt?, firstChar?, ← h.drop_eq, List.head?_drop]

theorem Stands.length_le (h : Stands src depth c s) : c.rest.length ≤ src.length := by
  have hle := length_le_byteLength c.rest
  rw [← Text.length_toBytes, ← h.drop_eq, List.length_drop] at hle
  omega

theorem Stands.rest_eq_nil_iff (h : Stands src depth c s) :
    c.rest = [] ↔ s.pos = src.length := by
  have hlength := congrArg List.length h.drop_eq
  rw [List.length_drop] at hlength
  constructor
  · intro hrest
    rw [hrest] at hlength
    have hzero : src.length - s.pos = 0 := hlength
    have := h.pos_le
    omega
  · intro hpos
    by_contra hrest
    have := Text.length_toBytes_pos hrest
    omega

/-- Over a row of ASCII characters both move alike. -/
theorem Stands.moveTo (h : Stands src depth c s) {w rest : Text}
    (hw : isAscii w = true) (hrest : c.rest = w ++ rest) {pos : Nat}
    (hpos : pos = s.pos + w.length) :
    Stands src depth ⟨rest, c.offset + w.length⟩ (s.moveTo pos) := by
  have hlength : (Text.toBytes w).length = w.length := by
    rw [toBytes_of_isAscii hw, List.length_map]
  have hdrop := h.drop_eq
  rw [hrest, Text.toBytes_append] at hdrop
  refine ⟨?_, ?_, ?_, h.depth_eq⟩
  · show src.drop pos = Text.toBytes rest
    rw [hpos, ← List.drop_drop, hdrop, ← hlength, List.drop_left]
  · have hle := congrArg List.length hdrop
    rw [List.length_drop, List.length_append, hlength] at hle
    have := h.pos_le
    show pos ≤ src.length
    omega
  · show pos = c.offset + w.length
    rw [hpos, h.pos_eq]

/-- What lies between two places. -/
theorem Stands.slice_eq (h : Stands src depth c s) {w rest : Text} (hw : isAscii w = true)
    (hrest : c.rest = w ++ rest) {pos : Nat} (hpos : pos = s.pos + w.length) :
    ((src.take pos).drop s.pos).map byteChar = w := by
  have hdrop := h.drop_eq
  rw [hrest, Text.toBytes_append, toBytes_of_isAscii hw] at hdrop
  rw [List.drop_take, hdrop, hpos, Nat.add_sub_cancel_left, List.take_left' (List.length_map _),
    List.map_map]
  refine (List.map_congr_left fun x hx => ?_).trans (List.map_id w)
  exact byteChar_ofNat (of_decide_eq_true (List.all_eq_true.1 hw x hx))

/-- Over the characters of a class of ASCII characters both move alike. -/
theorem stands_advanceWhile {test : Char → Bool} (htest : ∀ x, 0x80 ≤ x.toNat → test x = false)
    (n : Nat) (c : Cursor) (s : State) (h : Stands src depth c s) (hn : c.rest.length < n) :
    Ends (advanceWhile test src n) s
      (fun _ s' => Stands src depth
        ⟨c.rest.dropWhile test, c.offset + (c.rest.takeWhile test).length⟩ s')
      fun _ _ => False := by
  induction n generalizing c s with
  | zero => omega
  | succ n ih =>
      have hchar := h.charAt?
      simp only [advanceWhile, ends_bind, ends_position, ends_ite, ends_moveTo, ends_pure]
      obtain ⟨rest, offset⟩ := c
      cases rest with
      | nil =>
          rw [if_neg (Nat.not_lt.2 (charAt?_eq_none_iff.1 hchar))]
          exact h
      | cons d rest =>
          obtain ⟨x, hx, hsame⟩ := exists_firstChar? htest d rest
          rw [hx] at hchar
          have hlt := lt_of_charAt? hchar
          rw [charAt?, List.getElem?_eq_getElem hlt, Option.map_some, Option.some_inj] at hchar
          rw [if_pos hlt, ends_byteAt hlt, hchar, hsame]
          split
          · next hpos =>
              have hd : d.toNat < 0x80 := by
                by_contra hle
                exact Bool.eq_false_iff.1 (htest d (Nat.le_of_not_lt hle)) hpos
              have hmove : Stands src depth ⟨rest, offset + 1⟩ (s.moveTo (s.pos + 1)) :=
                h.moveTo (by simpa [isAscii] using hd : isAscii [d] = true) rfl rfl
              refine (ih _ _ hmove (Nat.lt_of_succ_lt_succ hn)).imp fun _ s' h' => ?_
              rw [List.dropWhile_cons_of_pos hpos, List.takeWhile_cons_of_pos hpos,
                List.length_cons, Nat.add_comm (List.length _) 1, ← Nat.add_assoc]
              exact h'
          · next hneg =>
              rw [List.dropWhile_cons_of_neg hneg, List.takeWhile_cons_of_neg hneg]
              exact h

theorem isExprBlank_of_le {x : Char} (hx : 0x80 ≤ x.toNat) : isExprBlank x = false := by
  cases hblank : isExprBlank x with
  | false => rfl
  | true =>
      have hmem := isExprBlank_iff.1 hblank
      simp only [List.mem_cons, List.not_mem_nil, or_false] at hmem
      rcases hmem with rfl | rfl | rfl | rfl | rfl <;> exact absurd hx (by decide)

theorem toNat_lt_of_isDigit {x : Char} (hx : x.isDigit = true) : x.toNat < 0x80 := by
  have hle : x.toNat ≤ 57 := of_decide_eq_true (Bool.and_eq_true_iff.1 hx).2
  omega

theorem isDigit_of_le {x : Char} (hx : 0x80 ≤ x.toNat) : x.isDigit = false := by
  cases hdigit : x.isDigit with
  | false => rfl
  | true => exact absurd (toNat_lt_of_isDigit hdigit) (by omega)

theorem not_name_of_le {x : Char} (hx : 0x80 ≤ x.toNat) : ¬(x.isAlpha || x == '_') = true := by
  intro hname
  rcases Bool.or_eq_true_iff.1 hname with halpha | hline
  · rcases Bool.or_eq_true_iff.1 halpha with hupper | hlower
    · have hle : x.toNat ≤ 90 := (of_decide_eq_true hupper).2
      omega
    · have hle : x.toNat ≤ 122 := of_decide_eq_true (Bool.and_eq_true_iff.1 hlower).2
      omega
  · rw [eq_of_beq hline] at hx
    exact absurd hx (by decide)

theorem ne_of_le {x y : Char} (hx : 0x80 ≤ x.toNat) (hy : y.toNat < 0x80) : x ≠ y := by
  rintro rfl
  omega

theorem stands_skip (h : Stands src depth c s) :
    Ends (skip src) s (fun _ s' => Stands src depth c.skipBlanks s') fun _ _ => False := by
  rw [skipBlanks_eq]
  exact stands_advanceWhile (fun _ => isExprBlank_of_le) _ c s h (by have := h.length_le; omega)

theorem stands_eat {token : Text} (htoken : isAscii token = true) (h : Stands src depth c s) :
    Ends (eat src token) s
      (fun found s' => found = (c.skipBlanks.eat? token).isSome ∧
        Stands src depth ((c.skipBlanks.eat? token).getD c.skipBlanks) s')
      fun _ _ => False := by
  rw [eat, ends_bind]
  refine (stands_skip h).mono (fun _ s₁ h₁ => ?_) fun _ _ hwhy => hwhy
  rw [ends_bind, ends_position, ends_bind, ends_slice h₁.pos_le le_rfl, List.take_length,
    h₁.drop_eq]
  simp only [ends_ite, ends_bind, ends_moveTo, ends_pure]
  have hfront : (Text.toBytes token).isPrefixOf (Text.toBytes c.skipBlanks.rest) = true ↔
      token <+: c.skipBlanks.rest :=
    List.isPrefixOf_iff_prefix.trans (toBytes_prefix_iff htoken _)
  cases heat : c.skipBlanks.eat? token with
  | some c' =>
      obtain ⟨hrest, hoffset⟩ := eat?_eq_some_iff.1 heat
      rw [if_pos (hfront.2 ⟨_, hrest.symm⟩)]
      refine ⟨rfl, ?_⟩
      have hpos : s₁.pos + (Text.toBytes token).length = s₁.pos + token.length := by
        rw [toBytes_of_isAscii htoken, List.length_map]
      have hmove := h₁.moveTo htoken hrest hpos
      rw [← hoffset] at hmove
      exact hmove
  | none =>
      rw [if_neg fun hyes => ?_]
      · exact ⟨rfl, h₁⟩
      · obtain ⟨t, ht⟩ := hfront.1 hyes
        have hsome : c.skipBlanks.eat? token = some ⟨t, c.skipBlanks.offset + token.length⟩ :=
          eat?_eq_some_iff.2 ⟨ht.symm, rfl⟩
        rw [heat] at hsome
        cases hsome

theorem stands_eatAny {level : Level} (htokens : ∀ t ∈ level, isAscii t.1 = true)
    (h : Stands src depth c s) (hskip : c.skipBlanks = c) :
    Ends (eatAny src level) s
      (fun op? s' => op? = (level.next? c).map Prod.fst ∧
        Stands src depth (((level.next? c).map Prod.snd).getD c) s')
      fun _ _ => False := by
  induction level generalizing s with
  | nil => exact ⟨rfl, h⟩
  | cons t level ih =>
      obtain ⟨token, op⟩ := t
      rw [eatAny, ends_bind, Level.next?]
      refine (stands_eat (htokens _ (List.mem_cons_self ..)) h).mono (fun found s₁ h₁ => ?_)
        fun _ _ hwhy => hwhy
      obtain ⟨rfl, h₁⟩ := h₁
      rw [hskip] at h₁ ⊢
      cases heat : c.eat? token with
      | some c' =>
          rw [heat] at h₁
          exact ⟨rfl, h₁⟩
      | none =>
          rw [heat] at h₁
          exact ih (fun t ht => htokens t (List.mem_cons_of_mem _ ht)) h₁

/-- Among single characters the next operator is found by the next character. -/
theorem next?_of_isSingle {level : Level} (hsingle : isSingle level = true)
    (htokens : ∀ t ∈ level, isAscii t.1 = true) (c : Cursor) :
    level.next? c =
      (level.find? fun t => t.1.head? == firstChar? c.rest && (firstChar? c.rest).isSome).map
        fun t => (t.2, ⟨c.rest.tail, c.offset + 1⟩) := by
  induction level with
  | nil => rfl
  | cons t level ih =>
      obtain ⟨token, op⟩ := t
      rw [isSingle, List.all_cons, Bool.and_eq_true] at hsingle
      obtain ⟨x, rfl⟩ := List.length_eq_one_iff.1 (eq_of_beq hsingle.1)
      have hascii := htokens _ (List.mem_cons_self ..)
      have hx : x.toNat < 0x80 := by simpa [isAscii] using hascii
      have hlook := firstChar?_eq_some_iff hx c.rest
      have ih := ih hsingle.2 fun t ht => htokens t (List.mem_cons_of_mem _ ht)
      rw [Level.next?]
      by_cases hhead : c.rest.head? = some x
      · obtain ⟨rest, hrest⟩ := List.head?_eq_some_iff.1 hhead
        have heat : c.eat? [x] = some ⟨rest, c.offset + 1⟩ := eat?_eq_some_iff.2 ⟨hrest, rfl⟩
        rw [heat, List.find?_cons_of_pos (by simp [hlook.2 hhead]), Option.map_some, hrest]
        rfl
      · have heat : c.eat? [x] = none := by
          refine Option.eq_none_iff_forall_not_mem.2 fun c' hc' => hhead ?_
          rw [(eat?_eq_some_iff.1 hc').1]
          rfl
        rw [heat, List.find?_cons_of_neg, ih]
        simp only [List.head?_cons, Bool.and_eq_true, beq_iff_eq, not_and]
        exact fun heq => absurd (hlook.1 heq.symm) hhead

theorem stands_operator {level : Level} (htokens : ∀ t ∈ level, isAscii t.1 = true)
    (h : Stands src depth c s) :
    Ends (operator src level) s
      (fun op? s' =>
        op? = (level.next? c.skipBlanks).map (fun t => (t.1, c.skipBlanks.offset)) ∧
        Stands src depth (((level.next? c.skipBlanks).map Prod.snd).getD c.skipBlanks) s')
      fun _ _ => False := by
  rw [operator, ends_bind]
  refine (stands_skip h).mono (fun _ s₁ h₁ => ?_) fun _ _ hwhy => hwhy
  rw [ends_bind, ends_position, ends_ite]
  split
  · next hsingle =>
      rw [next?_of_isSingle hsingle htokens, h₁.charAt?]
      cases hfind : level.find? fun t =>
          t.1.head? == firstChar? c.skipBlanks.rest && (firstChar? c.skipBlanks.rest).isSome with
      | none => exact ⟨rfl, h₁⟩
      | some t =>
          -- The token is the first character of what is left.
          have htest := List.find?_some hfind
          have hmem := List.mem_of_find?_eq_some hfind
          have hlength := List.all_eq_true.1 hsingle t hmem
          obtain ⟨x, hx⟩ := List.length_eq_one_iff.1 (eq_of_beq hlength)
          have hascii : isAscii [x] = true := hx ▸ htokens t hmem
          have hlt : x.toNat < 0x80 := by simpa [isAscii] using hascii
          have hfirst : firstChar? c.skipBlanks.rest = some x := by
            rw [← eq_of_beq (Bool.and_eq_true_iff.1 htest).1, hx]
            rfl
          obtain ⟨rest, hrest⟩ :=
            List.head?_eq_some_iff.1 ((firstChar?_eq_some_iff hlt _).1 hfirst)
          refine ⟨by rw [h₁.pos_eq]; rfl, ?_⟩
          rw [hrest]
          exact h₁.moveTo hascii hrest rfl
  · rw [ends_bind]
    refine (stands_eatAny htokens h₁ (skipBlanks_skipBlanks c)).mono (fun op? s₂ h₂ => ?_)
      fun _ _ hwhy => hwhy
    obtain ⟨rfl, h₂⟩ := h₂
    exact ⟨by rw [Option.map_map, h₁.pos_eq]; rfl, h₂⟩

/-! ### Readers and runs -/

/-- The run `x` from `s` does what `result` says: it gives the value and stands where the cursor is,
with at most `n` characters left, or it finds the fault. -/
def Matches (src : Bytes) (depth n : Nat) (result : Except Error (Int × Cursor)) (x : Run Int)
    (s : State) : Prop :=
  Ends x s
    (fun v s' => ∃ c', result = .ok (v, c') ∧ Stands src depth c' s' ∧ c'.rest.length ≤ n)
    fun why _ => ∃ e, result = .error e ∧ why = .error e

/-- The reader `r` and the run `x` do the same at the given depth. -/
def Agrees (src : Bytes) (depth : Nat) (r : Reader) (x : Run Int) : Prop :=
  ∀ c s, Stands src depth c s → Matches src depth c.rest.length (r c) x s

section Matches

variable {m n : Nat} {result : Except Error (Int × Cursor)} {x : Run Int}

theorem matches_ok {v : Int} (h : Stands src depth c s) (hn : c.rest.length ≤ n) :
    Matches src depth n (.ok (v, c)) (pure v) s := ⟨c, rfl, h, hn⟩

theorem matches_error (f : Fault) {i : Nat} (hi : i = c.offset) :
    Matches src depth n (.error ⟨f, c.offset⟩) (report f i) s := by
  rw [hi]
  exact ⟨_, rfl, rfl⟩

theorem Matches.mono (h : Matches src depth m result x s) (hmn : m ≤ n) :
    Matches src depth n result x s :=
  Ends.imp h fun _ _ h' => h'.imp fun _ hc => ⟨hc.1, hc.2.1, hc.2.2.trans hmn⟩

/-- The rule for sequences. -/
theorem Matches.bind {f : Int × Cursor → Except Error (Int × Cursor)} {g : Int → Run Int}
    (h : Matches src depth m result x s)
    (hf : ∀ v c' s', Stands src depth c' s' → c'.rest.length ≤ m →
      Matches src depth n (f (v, c')) (g v) s') :
    Matches src depth n (result >>= f) (x >>= g) s := by
  refine (ends_bind x g).2 (Ends.mono h (fun v s' h' => ?_) fun why s' hwhy => ?_)
  · obtain ⟨c', rfl, hstands, hle⟩ := h'
    exact hf v c' s' hstands hle
  · obtain ⟨e, rfl, rfl⟩ := hwhy
    exact ⟨e, rfl, rfl⟩

theorem matches_position (g : Nat → Run Int) :
    Matches src depth n result (position >>= g) s ↔ Matches src depth n result (g s.pos) s :=
  Iff.rfl

theorem matches_moveTo (i : Nat) (g : Unit → Run Int) :
    Matches src depth n result (moveTo i >>= g) s ↔
      Matches src depth n result (g ()) (s.moveTo i) :=
  Iff.rfl

/-- A run that does not stop before one that does what is said. -/
theorem Matches.after {α : Type} {y : Run α} {g : α → Run Int} {P : α → State → Prop}
    (h : Ends y s P fun _ _ => False)
    (hg : ∀ a s', P a s' → Matches src depth n result (g a) s') :
    Matches src depth n result (y >>= g) s :=
  (ends_bind y g).2 (h.mono hg fun _ _ => False.elim)

end Matches

theorem agrees_chain {r : Reader} {x : Run Int} (hx : Agrees src depth r x) {level : Level}
    (htokens : ∀ t ∈ level, t.1 ≠ [] ∧ isAscii t.1 = true) (m n : Nat) (lhs : Int) (c : Cursor)
    (s : State) (h : Stands src depth c s) (hm : c.rest.length < m) (hn : c.rest.length ≤ n) :
    Matches src depth c.rest.length (Expr.chain r level n lhs c)
      (Machine.chain src x level m lhs) s := by
  induction m generalizing n lhs c s with
  | zero => omega
  | succ m ih =>
      have hskip := length_skipBlanks_le c
      refine .after (stands_operator (fun t ht => (htokens t ht).2) h) fun op? s₁ hfound => ?_
      obtain ⟨rfl, h₁⟩ := hfound
      cases hnext : level.next? c.skipBlanks with
      | none =>
          rw [hnext] at h₁
          have hchain : Expr.chain r level n lhs c = .ok (lhs, c.skipBlanks) := by
            cases n with
            | zero => rfl
            | succ n => rw [Expr.chain, hnext]
          rw [hchain]
          exact matches_ok h₁ hskip
      | some t =>
          obtain ⟨op, c₁⟩ := t
          rw [hnext] at h₁
          -- The operator is not empty, so less is left than both have rounds for.
          obtain ⟨token, hmem, hrest⟩ := exists_token_of_next? hnext
          have hpos : 0 < token.length := List.length_pos_iff.2 (htokens _ hmem).1
          have hlength := congrArg List.length hrest
          rw [List.length_append] at hlength
          obtain ⟨n, rfl⟩ : ∃ k, n = k + 1 := ⟨n - 1, by omega⟩
          rw [Expr.chain, hnext]
          refine (hx c₁ s₁ h₁).bind fun rhs c₂ s₂ h₂ hle => ?_
          simp only [Matches, ends_bind, ends_position, ends_lift, h₂.pos_eq]
          cases happly : applyAt op c.skipBlanks.offset c₂.offset lhs rhs with
          | error e => exact ⟨e, rfl, rfl⟩
          | ok v => exact (ih n v c₂ s₂ h₂ (by omega) (by omega)).mono (by omega)

theorem agrees_climb {r : Reader} {x : Run Int} (hx : Agrees src depth r x) (ls : List Level)
    (htokens : ∀ level ∈ ls, ∀ t ∈ level, t.1 ≠ [] ∧ isAscii t.1 = true) :
    Agrees src depth (Expr.climb r ls) (Machine.climb src x ls) := by
  induction ls with
  | nil => exact hx
  | cons level tighter ih =>
      have htighter := ih fun l hl => htokens l (List.mem_cons_of_mem _ hl)
      intro c s h
      refine (htighter c s h).bind fun lhs c₁ s₁ h₁ hle => ?_
      exact (agrees_chain htighter (htokens level (List.mem_cons_self ..)) _ _ lhs c₁ s₁ h₁
        (by have := h₁.length_le; omega) le_rfl).mono hle

theorem token_ascii : ∀ level ∈ levels, ∀ t ∈ level, t.1 ≠ [] ∧ isAscii t.1 = true := by
  decide

theorem matches_parens {r : Reader} {x : Run Int} (hx : Agrees src depth r x) {rest : Text}
    (h : Stands src depth c s) (hskip : c.skipBlanks = c) (hrest : c.rest = '(' :: rest) :
    Matches src depth c.rest.length (Expr.primary r c) (parens src x) s := by
  have hmove : Stands src depth ⟨rest, c.offset + 1⟩ (s.moveTo (s.pos + 1)) :=
    h.moveTo (by decide : isAscii ['('] = true) hrest rfl
  rw [primary_parens (hskip.symm ▸ hrest), hskip, parens, matches_position, matches_moveTo]
  refine (hx _ _ hmove).bind fun v c₁ s₁ h₁ hle => ?_
  refine .after (stands_eat (by decide : isAscii [')'] = true) h₁) fun closed s₂ heat => ?_
  obtain ⟨rfl, h₂⟩ := heat
  have hskip₁ := length_skipBlanks_le c₁
  rw [matches_position]
  cases heat : c₁.skipBlanks.eat? [')'] with
  | none =>
      rw [heat] at h₂
      exact matches_error .expectedCloser h₂.pos_eq
  | some c₂ =>
      rw [heat] at h₂
      have hlength := congrArg List.length (eat?_eq_some_iff.1 heat).1
      rw [List.length_append] at hlength
      have hle : c₁.rest.length ≤ rest.length := hle
      exact matches_ok h₂ (by rw [hrest, List.length_cons]; omega)

theorem matches_number {r : Reader} {d : Char} {rest : Text} (hd : d.isDigit = true)
    (h : Stands src depth c s) (hskip : c.skipBlanks = c) (hrest : c.rest = d :: rest) :
    Matches src depth c.rest.length (Expr.primary r c) (number src) s := by
  have hascii : isAscii (c.rest.takeWhile Char.isDigit) = true :=
    List.all_eq_true.2 fun x hx =>
      decide_eq_true (toNat_lt_of_isDigit (List.mem_takeWhile_imp hx))
  have hparts : c.rest = c.rest.takeWhile Char.isDigit ++ c.rest.dropWhile Char.isDigit :=
    List.takeWhile_append_dropWhile.symm
  rw [primary_number (hskip.symm ▸ hrest) hd, hskip, number, matches_position]
  refine .after (stands_advanceWhile (fun _ => isDigit_of_le) _ c s h
    (by have := h.length_le; omega)) fun _ s₁ h₁ => ?_
  have hpos : s₁.pos = s.pos + (c.rest.takeWhile Char.isDigit).length := by
    rw [h₁.pos_eq, h.pos_eq]
  rw [matches_position, Matches, ends_bind, ends_slice (by omega) h₁.pos_le,
    h.slice_eq hascii hparts hpos, ← Matches]
  split
  · exact matches_ok h₁ (List.dropWhile_sublist _).length_le
  · exact matches_error .literalOutOfRange h.pos_eq

theorem agrees_primary {r : Reader} {x : Run Int} (hx : Agrees src depth r x) :
    Agrees src depth (Expr.primary r) (Machine.primary src x) := by
  intro c s h
  refine .after (stands_skip h) fun _ s₁ h₁ => Matches.mono ?_ (length_skipBlanks_le c)
  rw [← primary_skipBlanks]
  have hskip := skipBlanks_skipBlanks c
  generalize c.skipBlanks = c at h₁ hskip
  rw [matches_position, h₁.charAt?]
  cases hrest : c.rest with
  | nil =>
      rw [Expr.primary, hskip, hrest]
      exact matches_error .unexpectedEnd h₁.pos_eq
  | cons d rest =>
      rw [← hrest]
      have hrest' : c.skipBlanks.rest = d :: rest := hskip.symm ▸ hrest
      by_cases hd : d.toNat < 0x80
      · rw [hrest, firstChar?_of_lt hd, ← hrest]
        dsimp only
        split
        · next hopen =>
            subst hopen
            exact matches_parens hx h₁ hskip hrest
        split
        · next hdigit => exact matches_number hdigit h₁ hskip hrest
        · next hopen hdigit =>
            rw [primary_other hrest' hopen hdigit, hskip]
            split <;> exact matches_error _ h₁.pos_eq
      · -- Beyond ASCII both see a character that is none of those tested for.
        have hle := Nat.le_of_not_lt hd
        obtain ⟨y, hy, hley⟩ := exists_firstChar?_of_le hle rest
        have hdigit {z : Char} (hz : 0x80 ≤ z.toNat) : ¬z.isDigit = true :=
          Bool.eq_false_iff.1 (isDigit_of_le hz)
        rw [hrest, hy, ← hrest, primary_other hrest' (ne_of_le hle (by decide)) (hdigit hle),
          if_neg (not_name_of_le hle), hskip]
        dsimp only
        rw [if_neg (ne_of_le hley (by decide)), if_neg (hdigit hley), if_neg (not_name_of_le hley)]
        exact matches_error _ h₁.pos_eq

/-- A character beyond the first is seen as well. -/
theorem Stands.charAt?_succ {y : Char} (h : Stands src depth c s) (hy : y.toNat < 0x80)
    (hhead : c.rest.head? = some y) :
    Machine.charAt? src (s.pos + 1) = firstChar? c.rest.tail ∧
      Stands src depth ⟨c.rest.tail, c.offset + 1⟩ (s.moveTo (s.pos + 1)) := by
  obtain ⟨rest, hrest⟩ := List.head?_eq_some_iff.1 hhead
  have hmove : Stands src depth ⟨rest, c.offset + 1⟩ (s.moveTo (s.pos + 1)) :=
    h.moveTo (by simpa [isAscii] using hy : isAscii [y] = true) hrest rfl
  rw [hrest]
  exact ⟨hmove.charAt?, hmove⟩

theorem agrees_sign {k : Nat} {x inner : Run Int} (hx : Agrees src depth (Expr.unary k) x)
    (hinner : Agrees src depth (Expr.climb (Expr.unary k) levels) inner) :
    Agrees src depth (Expr.unary (k + 1)) (sign src x inner) := by
  intro c s h
  have hle : c.skipBlanks.rest.tail.length ≤ c.rest.length := by
    have := length_skipBlanks_le c
    rw [List.length_tail]
    omega
  refine .after (stands_skip h) fun _ s₁ h₁ => ?_
  have hlook {y : Char} (hy : y.toNat < 0x80) :
      charAt? src s₁.pos = some y ↔ c.skipBlanks.rest.head? = some y := by
    rw [h₁.charAt?, firstChar?_eq_some_iff hy]
  rw [matches_position, unary_succ]
  by_cases hminus : c.skipBlanks.rest.head? = some '-'
  · rw [if_pos hminus, if_pos ((hlook (by decide)).2 hminus), matches_moveTo]
    refine (hx _ _ (h₁.charAt?_succ (by decide) hminus).2).bind fun v c₂ s₂ h₂ hle₂ => ?_
    rw [matches_position]
    dsimp only
    split
    · exact matches_ok h₂ (hle₂.trans hle)
    · exact matches_error _ h₂.pos_eq
  · have hbang : (charAt? src s₁.pos = some '!' ∧ charAt? src (s₁.pos + 1) ≠ some '=') ↔
        c.skipBlanks.rest.head? = some '!' ∧ c.skipBlanks.rest.tail.head? ≠ some '=' := by
      rw [hlook (by decide)]
      refine and_congr_right fun hhead => not_congr ?_
      rw [(h₁.charAt?_succ (by decide) hhead).1, firstChar?_eq_some_iff (by decide)]
    rw [if_neg hminus, if_neg (mt (hlook (by decide)).1 hminus)]
    by_cases hsign : c.skipBlanks.rest.head? = some '!' ∧ c.skipBlanks.rest.tail.head? ≠ some '='
    · rw [if_pos hsign, if_pos (hbang.2 hsign), matches_moveTo]
      exact (hx _ _ (h₁.charAt?_succ (by decide) hsign.1).2).bind fun v c₂ s₂ h₂ hle₂ =>
        matches_ok h₂ (hle₂.trans hle)
    · rw [if_neg hsign, if_neg (mt hbang.1 hsign), ← primary_skipBlanks]
      exact (agrees_primary hinner _ s₁ h₁).mono (length_skipBlanks_le c)

/-- **Signs and operands are read alike**: what may still be opened and what is open add up to the
greatest depth. -/
theorem agrees_unary (k n depth : Nat) (hdepth : depth + k = maxDepth) (hn : k < n) :
    Agrees src depth (Expr.unary k) (Machine.unary src n) := by
  induction k generalizing n depth with
  | zero =>
      obtain ⟨n, rfl⟩ : ∃ m, n = m + 1 := ⟨n - 1, by omega⟩
      intro c s h
      simp only [Matches, Machine.unary, ends_bind, ends_depth, ends_setDepth, ends_position]
      rw [h.depth_eq, if_pos (by omega)]
      exact matches_error .tooDeep h.pos_eq
  | succ k ih =>
      obtain ⟨n, rfl⟩ : ∃ m, n = m + 1 := ⟨n - 1, by omega⟩
      intro c s h
      have hoperand := ih n (depth + 1) (by omega) (by omega)
      have hopened : Stands src (depth + 1) c (s.setDepth (depth + 1)) :=
        ⟨h.drop_eq, h.pos_le, h.pos_eq, rfl⟩
      simp only [Matches, Machine.unary, ends_bind, ends_depth, ends_setDepth, ends_position]
      rw [h.depth_eq, if_neg (by omega), ends_leaving]
      refine Ends.imp (agrees_sign hoperand (agrees_climb hoperand levels token_ascii) c _ hopened)
        fun v s' h' => ?_
      obtain ⟨c', hvalue, hstands, hlength⟩ := h'
      refine ⟨c', hvalue, ⟨hstands.drop_eq, hstands.pos_le, hstands.pos_eq, ?_⟩, hlength⟩
      show s'.depth - 1 = depth
      rw [hstands.depth_eq, Nat.add_sub_cancel]

end Agrees

/-! ### Whole expressions -/

/-- The value of a run, or the fault that it reports. -/
def outcome : EStateM.Result Stop State Int → Option (Except Error Int)
  | .ok v _ => some (.ok v)
  | .error (.error e) _ => some (.error e)
  | .error _ _ => none

/-- **On the bytes of a text the machine gives the value of the expression.** -/
theorem outcome_evalInt (src : Text) :
    outcome (Machine.evalInt (Text.toBytes src) .start) = some (Expr.evalInt src) := by
  have hoperand : Agrees (Text.toBytes src) 0 (Expr.unary maxDepth)
      (Machine.unary (Text.toBytes src) (maxDepth + 1)) :=
    agrees_unary _ _ 0 (Nat.zero_add _) (Nat.lt_succ_self _)
  have hends : Ends (Machine.evalInt (Text.toBytes src)) .start
      (fun v _ => Expr.evalInt src = .ok v)
      fun why _ => ∃ e, Expr.evalInt src = .error e ∧ why = .error e := by
    rw [Machine.evalInt, ends_bind, Expr.evalInt]
    refine Ends.mono (agrees_climb hoperand levels token_ascii _ _ (stands_start src))
      (fun v s₁ h₁ => ?_) fun why _ hwhy => ?_
    · obtain ⟨c₁, hvalue, h₁, -⟩ := h₁
      rw [ends_bind, hvalue]
      refine (stands_skip h₁).mono (fun _ s₂ h₂ => ?_) fun _ _ => False.elim
      rw [ends_bind, ends_position, ends_ite]
      by_cases hrest : c₁.skipBlanks.rest = []
      · rw [if_pos (h₂.rest_eq_nil_iff.1 hrest)]
        exact if_pos (List.isEmpty_iff.2 hrest)
      · rw [if_neg (mt h₂.rest_eq_nil_iff.2 hrest), h₂.pos_eq]
        exact ⟨_, if_neg (mt List.isEmpty_iff.1 hrest), rfl⟩
    · obtain ⟨e, hvalue, rfl⟩ := hwhy
      rw [hvalue]
      exact ⟨e, rfl, rfl⟩
  unfold Ends at hends
  split at hends
  · next v s' hrun => rw [hrun, hends]; rfl
  · next why s' hrun =>
      obtain ⟨e, he, rfl⟩ := hends
      rw [hrun, he]
      rfl

/-- The state in which a run ends. -/
def lastState : EStateM.Result Stop State Int → State
  | .ok _ s => s
  | .error _ s => s

end Machine

/-- **An expression is evaluated within its bytes.**  On all bytes, the machine only passes through
positions up to their number, makes no access outside them, ends, and reports every fault at an
offset up to their number; behind every sign or operand that it reads, in whatever state, as many
signs and parentheses are open as before.  On the bytes of a text it gives the value of the
expression, so an error of an expression has an offset up to the number of its bytes. -/
theorem evalInt_staysInside :
    (∀ src : Bytes,
      (∀ p ∈ (Machine.lastState (Machine.evalInt src .start)).reached, p.1 ≤ src.length) ∧
      (∃ result, Machine.outcome (Machine.evalInt src .start) = some result ∧
        ∀ e, result = .error e → e.offset ≤ src.length) ∧
      ∀ n s v s', Machine.unary src n s = .ok v s' → s'.depth = s.depth) ∧
    ∀ src : Text,
      Machine.outcome (Machine.evalInt (Text.toBytes src) .start) = some (evalInt src) ∧
      ∀ e, evalInt src = .error e → e.offset ≤ Text.byteLength src := by
  have hall : ∀ src : Bytes,
      (∀ p ∈ (Machine.lastState (Machine.evalInt src .start)).reached, p.1 ≤ src.length) ∧
      ∃ result, Machine.outcome (Machine.evalInt src .start) = some result ∧
        ∀ e, result = .error e → e.offset ≤ src.length := by
    intro src
    have hsafe := Machine.safe_evalInt src
    unfold Machine.Ends at hsafe
    split at hsafe
    · next v s' hrun =>
        rw [hrun]
        exact ⟨hsafe, .ok v, rfl, nofun⟩
    · next why s' hrun =>
        obtain ⟨hinside, e, rfl, hoffset⟩ := hsafe
        rw [hrun]
        refine ⟨hinside, .error e, rfl, fun e' he' => ?_⟩
        cases he'
        exact hoffset
  refine ⟨fun src => ⟨(hall src).1, (hall src).2, fun n s v s' hrun => ?_⟩, fun src => ?_⟩
  · exact (Machine.restores_unary n).depth_eq hrun
  · refine ⟨Machine.outcome_evalInt src, fun e he => ?_⟩
    obtain ⟨result, hresult, hoffset⟩ := (hall (Text.toBytes src)).2
    rw [Machine.outcome_evalInt, Option.some_inj] at hresult
    have hle := hoffset e (hresult.symm.trans he)
    rwa [Text.length_toBytes] at hle

/-- A fault before a character of several bytes, bytes that are no text, and a sign that is read
between five that are open. -/
theorem evalInt_staysInside_cases :
    (evalInt ['(', '1', ' ', '€', ')'] = .error ⟨.expectedCloser, 3⟩ ∧
      3 ≤ Text.byteLength ['(', '1', ' ', '€', ')']) ∧
    (Machine.outcome (Machine.evalInt [0x31, 0xFF] .start) = some (.error ⟨.trailingInput, 1⟩) ∧
      1 ≤ ([0x31, 0xFF] : Bytes).length) ∧
    ∃ s', Machine.unary [0x2D, 0x31] 2 ⟨0, 5, []⟩ = .ok (-1) s' ∧ s'.depth = 5 := by
  have hspaced : evalInt ['(', '1', ' ', '€', ')'] = .error ⟨.expectedCloser, 3⟩ := by decide
  have hbytes : Machine.outcome (Machine.evalInt [0x31, 0xFF] .start) =
      some (.error ⟨.trailingInput, 1⟩) := by rfl
  refine ⟨⟨hspaced, (evalInt_staysInside.2 _).2 _ hspaced⟩, ⟨hbytes, ?_⟩, ?_⟩
  · obtain ⟨result, hresult, hoffset⟩ := (evalInt_staysInside.1 [0x31, 0xFF]).2.1
    rw [hbytes, Option.some_inj] at hresult
    exact hoffset _ hresult.symm
  · obtain ⟨s', hrun⟩ : ∃ s', Machine.unary [0x2D, 0x31] 2 ⟨0, 5, []⟩ = .ok (-1) s' := ⟨_, rfl⟩
    exact ⟨s', hrun, (evalInt_staysInside.1 _).2.2 _ _ _ _ hrun⟩

end Expr

end Softcode
