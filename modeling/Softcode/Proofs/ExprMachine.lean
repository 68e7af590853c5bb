/-
**Expressions read by a machine on bytes.**

The readers of `Softcode.Expr` hand on what is left to read.  A program that reads an expression in
place has the bytes of the whole text instead, and two counters that it changes as it goes: the
number of bytes read, and the number of signs and parentheses that are open.  This module writes
that program down as a machine and proves that it is safe on all bytes, whether or not they are a
text.  An access outside the bytes, a slice that is none, and a loop that goes on longer than the
bytes allow are outcomes of the machine that differ from every fault of an expression, so safety is
that they do not occur.

What the machine has passed through is kept in its state.  A statement about all states that a run
reaches is then one about its last state, and each part of the machine is specified by the states it
can end in (`Softcode.Expr.Machine.Ends`); the parts are put together by the rule for sequences.

Main definitions:

* `Softcode.Expr.Machine.State`, `Softcode.Expr.Machine.Stop`, `Softcode.Expr.Machine.Run` — states,
  how a run can stop, and runs;
* `Softcode.Expr.Machine.unary`, `Softcode.Expr.Machine.evalInt` — the machine;
* `Softcode.Expr.Machine.Ends` — what holds behind a run;
* `Softcode.Expr.Machine.Inside`, `Softcode.Expr.Machine.Leads` — states within the bytes, and
  states behind one with as many signs and parentheses open.

Main results:

* `Softcode.Expr.Machine.safe_unary` — **signs and operands are read within the bytes**, by
  recursion on the signs and parentheses that may still be opened;
* `Softcode.Expr.Machine.safe_evalInt` — expressions are;
* `Softcode.Expr.Machine.restores_unary` — behind a sign or operand that is read as many signs and
  parentheses are open as before.
-/

import Softcode.Expr
import Softcode.Proofs.EncodedText

set_option autoImplicit false

namespace Softcode

namespace Expr

namespace Machine

/-! ### States and runs -/

/-- The number of bytes read and the number of signs and parentheses that are open, with all earlier
pairs of them, the latest first. -/
structure State where
  pos : Nat
  depth : Nat
  past : List (Nat × Nat)

namespace State

/-- Nothing is read. -/
def start : State := ⟨0, 0, []⟩

/-- The state at another position. -/
def moveTo (s : State) (pos : Nat) : State := ⟨pos, s.depth, (s.pos, s.depth) :: s.past⟩

/-- The state at another depth. -/
def setDepth (s : State) (depth : Nat) : State := ⟨s.pos, depth, (s.pos, s.depth) :: s.past⟩

/-- All positions and depths up to this state. -/
def reached (s : State) : List (Nat × Nat) := (s.pos, s.depth) :: s.past

end State

/-- How a run can stop before its end: with a fault of the expression, with an access outside the
bytes, or in a loop that was not done when it should have been. -/
inductive Stop where
  | error (e : Error)
  | outOfRange
  | unfinished

/-- A run from a state: it gives a value or stops. -/
abbrev Run := EStateM Stop State

variable {α β : Type}

/-- The position. -/
def position : Run Nat := fun s => .ok s.pos s

/-- The number of signs and parentheses that are open. -/
def depth : Run Nat := fun s => .ok s.depth s

/-- The position is changed. -/
def moveTo (pos : Nat) : Run Unit := fun s => .ok () (s.moveTo pos)

/-- The number of open signs and parentheses is changed. -/
def setDepth (depth : Nat) : Run Unit := fun s => .ok () (s.setDepth depth)

/-- A fault is reported. -/
def report (f : Fault) (offset : Nat) : Run α := fun s => .error (.error ⟨f, offset⟩) s

/-- A loop was not done. -/
def unfinished : Run α := fun s => .error .unfinished s

/-- A value, or the fault that is found instead. -/
def lift (r : Except Error α) : Run α := fun s =>
  match r with
  | .ok a => .ok a s
  | .error e => .error (.error e) s

/-- The byte at an index, which has to be there. -/
def byteAt (src : Bytes) (i : Nat) : Run UInt8 := fun s =>
  match src[i]? with
  | some b => .ok b s
  | none => .error .outOfRange s

/-- The bytes from one index to another, which have to be indices in this order. -/
def slice (src : Bytes) (first last : Nat) : Run Bytes := fun s =>
  if first ≤ last ∧ last ≤ src.length then .ok ((src.take last).drop first) s
  else .error .outOfRange s

/-! ### The machine -/

/-- The character that a byte is, if it is ASCII. -/
def byteChar (b : UInt8) : Char := Char.ofNat b.toNat

/-- The character at an index, if there is one. -/
def charAt? (src : Bytes) (i : Nat) : Option Char := (src[i]?).map byteChar

/-- The position moved on over the characters of a class, in at most `n` rounds. -/
def advanceWhile (test : Char → Bool) (src : Bytes) : Nat → Run Unit
  | 0 => unfinished
  | n + 1 => do
      let i ← position
      if i < src.length then do
        let b ← byteAt src i
        if test (byteChar b) then do
          moveTo (i + 1)
          advanceWhile test src n
        else pure ()
      else pure ()

/-- The position moved on over blanks. -/
def skip (src : Bytes) : Run Unit := advanceWhile isExprBlank src (src.length + 1)

/-- Whether a token comes next, behind blanks.  The position moves on over the blanks in any case,
and over the token if it is there. -/
def eat (src : Bytes) (token : Text) : Run Bool := do
  skip src
  let i ← position
  let rest ← slice src i src.length
  if (Text.toBytes token).isPrefixOf rest then do
    moveTo (i + (Text.toBytes token).length)
    pure true
  else pure false

/-- The first operator of a level whose token comes next. -/
def eatAny (src : Bytes) : Level → Run (Option BinOp)
  | [] => pure none
  | (token, op) :: level => do
      let found ← eat src token
      if found then pure (some op) else eatAny src level

/-- A level whose operators are single characters. -/
def isSingle (level : Level) : Bool := level.all fun t => t.1.length == 1

/-- The operator of a level that comes next, with its position.  Single characters are found by
looking at the next one, other tokens one after the other. -/
def operator (src : Bytes) (level : Level) : Run (Option (BinOp × Nat)) := do
  skip src
  let i ← position
  if isSingle level then
    match level.find? fun t => t.1.head? == charAt? src i && (charAt? src i).isSome with
    | none => pure none
    | some t => do
        moveTo (i + 1)
        pure (some (t.2, i))
  else do
    let op? ← eatAny src level
    pure (op?.map fun op => (op, i))

/-- The rest of a row of operators and operands, in at most `n` rounds. -/
def chain (src : Bytes) (operand : Run Int) (level : Level) : Nat → Int → Run Int
  | 0, _ => unfinished
  | n + 1, lhs => do
      let op? ← operator src level
      match op? with
      | none => pure lhs
      | some (op, i) => do
          let rhs ← operand
          let j ← position
          let v ← lift (applyAt op i j lhs rhs)
          chain src operand level n v

/-- An expression of operators of the given levels over operands. -/
def climb (src : Bytes) (operand : Run Int) : List Level → Run Int
  | [] => operand
  | level :: tighter => do
      let lhs ← climb src operand tighter
      chain src (climb src operand tighter) level (src.length + 1) lhs

/-- An expression in parentheses, of which the first comes next. -/
def parens (src : Bytes) (inner : Run Int) : Run Int := do
  let i ← position
  moveTo (i + 1)
  let v ← inner
  let closed ← eat src [')']
  let j ← position
  if closed then pure v else report .expectedCloser j

/-- A row of digits, of which the first comes next. -/
def number (src : Bytes) : Run Int := do
  let start ← position
  advanceWhile Char.isDigit src (src.length + 1)
  let j ← position
  let digits ← slice src start j
  if digitsValue (digits.map byteChar) < 0x8000000000000000 then
    pure (digitsValue (digits.map byteChar) : Int)
  else report .literalOutOfRange start

/-- A number, or an expression in parentheses. -/
def primary (src : Bytes) (inner : Run Int) : Run Int := do
  skip src
  let i ← position
  match charAt? src i with
  | none => report .unexpectedEnd i
  | some c =>
      if c = '(' then parens src inner
      else if c.isDigit then number src
      else if c.isAlpha || c == '_' then report .unknownName i
      else report .unexpectedChar i

/-- A sign and what it stands before, or a number or an expression in parentheses. -/
def sign (src : Bytes) (operand inner : Run Int) : Run Int := do
  skip src
  let i ← position
  if charAt? src i = some '-' then do
    moveTo (i + 1)
    let v ← operand
    let j ← position
    if InRange (-v) then pure (-v) else report .overflow j
  else if charAt? src i = some '!' ∧ charAt? src (i + 1) ≠ some '=' then do
    moveTo (i + 1)
    let v ← operand
    pure (ofBool (v == 0))
  else primary src inner

/-- A run behind which one sign or parenthesis less is open, whether it gives a value or stops. -/
def leaving (x : Run α) : Run α := fun s =>
  match x s with
  | .ok a s' => .ok a (s'.setDepth (s'.depth - 1))
  | .error why s' => .error why (s'.setDepth (s'.depth - 1))

/-- Signs before a number or a parenthesis, nested at most `n` deep. -/
def unary (src : Bytes) : Nat → Run Int
  | 0 => unfinished
  | n + 1 => do
      let d ← depth
      setDepth (d + 1)
      let i ← position
      if maxDepth < d + 1 then report .tooDeep i
      else leaving (sign src (unary src n) (climb src (unary src n) levels))

/-- **The machine**: an expression and nothing behind it. -/
def evalInt (src : Bytes) : Run Int := do
  let v ← climb src (unary src (maxDepth + 1)) levels
  skip src
  let i ← position
  if i = src.length then pure v else report .trailingInput i

/-! ### What holds behind a run -/

section Ends

/-- Behind a run from `s`: `Q` of the value and the state if there is a value, and `E` of the stop
and the state if there is none. -/
def Ends (x : Run α) (s : State) (Q : α → State → Prop) (E : Stop → State → Prop) : Prop :=
  match x s with
  | .ok a s' => Q a s'
  | .error why s' => E why s'

variable {s : State} {Q : α → State → Prop} {E : Stop → State → Prop}

theorem Ends.mono {x : Run α} {Q' : α → State → Prop} {E' : Stop → State → Prop}
    (h : Ends x s Q E) (hQ : ∀ a s', Q a s' → Q' a s') (hE : ∀ why s', E why s' → E' why s') :
    Ends x s Q' E' := by
  unfold Ends at h ⊢
  cases hx : x s with
  | ok a s' => exact hQ a s' (by simpa only [hx] using h)
  | error why s' => exact hE why s' (by simpa only [hx] using h)

theorem Ends.imp {x : Run α} {Q' : α → State → Prop} (h : Ends x s Q E)
    (hQ : ∀ a s', Q a s' → Q' a s') : Ends x s Q' E :=
  h.mono hQ fun _ _ hwhy => hwhy

@[simp]
theorem ends_pure (a : α) : Ends (pure a) s Q E ↔ Q a s := Iff.rfl

/-- The rule for sequences: the second run is specified in the states behind the first. -/
@[simp]
theorem ends_bind (x : Run β) (f : β → Run α) :
    Ends (x >>= f) s Q E ↔ Ends x s (fun b s' => Ends (f b) s' Q E) E := by
  simp only [Ends, bind, EStateM.bind]
  cases x s <;> rfl

theorem Ends.seq {x : Run β} {f : β → Run α} {P : β → State → Prop} (h : Ends x s P E)
    (hf : ∀ b s', P b s' → Ends (f b) s' Q E) : Ends (x >>= f) s Q E :=
  (ends_bind x f).2 (h.imp hf)

@[simp]
theorem ends_ite (p : Prop) [Decidable p] (x y : Run α) :
    Ends (if p then x else y) s Q E ↔ if p then Ends x s Q E else Ends y s Q E := by
  split <;> rfl

@[simp]
theorem ends_position {Q : Nat → State → Prop} : Ends position s Q E ↔ Q s.pos s := Iff.rfl

@[simp]
theorem ends_depth {Q : Nat → State → Prop} : Ends depth s Q E ↔ Q s.depth s := Iff.rfl

@[simp]
theorem ends_moveTo {Q : Unit → State → Prop} (pos : Nat) :
    Ends (moveTo pos) s Q E ↔ Q () (s.moveTo pos) := Iff.rfl

@[simp]
theorem ends_setDepth {Q : Unit → State → Prop} (depth : Nat) :
    Ends (setDepth depth) s Q E ↔ Q () (s.setDepth depth) := Iff.rfl

@[simp]
theorem ends_report (f : Fault) (offset : Nat) :
    Ends (report f offset : Run α) s Q E ↔ E (.error ⟨f, offset⟩) s := Iff.rfl

@[simp]
theorem ends_unfinished : Ends (unfinished : Run α) s Q E ↔ E .unfinished s := Iff.rfl

theorem ends_lift (r : Except Error α) :
    Ends (lift r) s Q E ↔ match r with | .ok a => Q a s | .error e => E (.error e) s := by
  cases r <;> rfl

theorem ends_byteAt {Q : UInt8 → State → Prop} {src : Bytes} {i : Nat} (h : i < src.length) :
    Ends (byteAt src i) s Q E ↔ Q src[i] s := by
  simp only [Ends, byteAt, List.getElem?_eq_getElem h]

theorem ends_slice {Q : Bytes → State → Prop} {src : Bytes} {first last : Nat} (h : first ≤ last)
    (hlast : last ≤ src.length) :
    Ends (slice src first last) s Q E ↔ Q ((src.take last).drop first) s := by
  simp only [Ends, slice, if_pos (And.intro h hlast)]

theorem ends_leaving (x : Run α) :
    Ends (leaving x) s Q E ↔
      Ends x s (fun a s' => Q a (s'.setDepth (s'.depth - 1)))
        (fun why s' => E why (s'.setDepth (s'.depth - 1))) := by
  simp only [Ends, leaving]
  cases x s <;> rfl

end Ends

/-! ### Safety -/

section Safe

variable {src : Bytes} {s s' s'' : State}

/-- A state whose position, like all before it, lies within the bytes. -/
def Inside (src : Bytes) (s : State) : Prop := ∀ p ∈ s.reached, p.1 ≤ src.length

theorem inside_start : Inside src .start := by
  intro p hp
  rw [List.mem_singleton.1 hp]
  exact Nat.zero_le _

theorem Inside.pos_le (h : Inside src s) : s.pos ≤ src.length := h _ (List.mem_cons_self ..)

theorem Inside.moveTo (h : Inside src s) {pos : Nat} (hpos : pos ≤ src.length) :
    Inside src (s.moveTo pos) := by
  intro p hp
  rcases List.mem_cons.1 hp with rfl | hp
  · exact hpos
  · exact h p hp

theorem Inside.setDepth (h : Inside src s) (depth : Nat) : Inside src (s.setDepth depth) := by
  intro p hp
  rcases List.mem_cons.1 hp with rfl | hp
  · exact h.pos_le
  · exact h p hp

/-- From `s` to `s'` the run stayed within the bytes, did not move back, and closed what it had
opened. -/
structure Leads (src : Bytes) (s s' : State) : Prop where
  inside : Inside src s'
  pos_le : s.pos ≤ s'.pos
  depth_eq : s'.depth = s.depth

theorem Leads.refl (h : Inside src s) : Leads src s s := ⟨h, le_rfl, rfl⟩

theorem Leads.trans (h : Leads src s s') (h' : Leads src s' s'') : Leads src s s'' :=
  ⟨h'.inside, h.pos_le.trans h'.pos_le, h'.depth_eq.trans h.depth_eq⟩

theorem Inside.leads_moveTo (h : Inside src s) {pos : Nat} (hs : s.pos ≤ pos)
    (hpos : pos ≤ src.length) : Leads src s (s.moveTo pos) := ⟨h.moveTo hpos, hs, rfl⟩

/-- A stop with a fault of the expression at an offset within the bytes, in a state within them. -/
def Reported (src : Bytes) (why : Stop) (s : State) : Prop :=
  Inside src s ∧ ∃ e, why = .error e ∧ e.offset ≤ src.length

theorem Inside.reported (h : Inside src s) {f : Fault} {offset : Nat}
    (hoffset : offset ≤ src.length) : Reported src (.error ⟨f, offset⟩) s :=
  ⟨h, _, rfl, hoffset⟩

/-- Runs that stay within the bytes from every state within them at the given depth. -/
def Safe (src : Bytes) (depth : Nat) (x : Run α) : Prop :=
  ∀ s, Inside src s → s.depth = depth → Ends x s (fun _ s' => Leads src s s') (Reported src)

/-- Safe runs go on from any state that is led to. -/
theorem Safe.from {depth : Nat} {x : Run α} (hx : Safe src depth x) (h : Leads src s s')
    (hs : s.depth = depth) :
    Ends x s' (fun _ s'' => Leads src s s'' ∧ s'.pos ≤ s''.pos) (Reported src) :=
  (hx s' h.inside (h.depth_eq.trans hs)).imp fun _ _ h' => ⟨h.trans h', h'.pos_le⟩

theorem safe_advanceWhile (test : Char → Bool) (n : Nat) (s : State) (h : Inside src s)
    (hn : src.length < s.pos + n) :
    Ends (advanceWhile test src n) s (fun _ s' => Leads src s s') (Reported src) := by
  induction n generalizing s with
  | zero => exact absurd hn (by have := h.pos_le; omega)
  | succ n ih =>
      simp only [advanceWhile, ends_bind, ends_position, ends_ite, ends_moveTo, ends_pure]
      split
      · next hlt =>
          rw [ends_byteAt hlt]
          split
          · have hmove : Leads src s (s.moveTo (s.pos + 1)) := h.leads_moveTo (by omega) hlt
            refine (ih _ hmove.inside ?_).imp fun _ _ h' => hmove.trans h'
            show src.length < s.pos + 1 + n
            omega
          · exact .refl h
      · exact .refl h

theorem safe_skip (h : Inside src s) :
    Ends (skip src) s (fun _ s' => Leads src s s') (Reported src) :=
  safe_advanceWhile _ _ s h (by omega)

theorem safe_eat (token : Text) (h : Inside src s) :
    Ends (eat src token) s
      (fun found s' => Leads src s s' ∧
        (found = true → s.pos + (Text.toBytes token).length ≤ s'.pos)) (Reported src) := by
  refine (safe_skip h).seq fun _ s₁ h₁ => ?_
  rw [ends_bind, ends_position, ends_bind, ends_slice h₁.inside.pos_le le_rfl, List.take_length,
    ends_ite]
  split
  · next htoken =>
      -- A token at the front of what is left is no longer than what is left.
      have hfront : Text.toBytes token <+: src.drop s₁.pos := List.isPrefixOf_iff_prefix.1 htoken
      have hle := hfront.length_le
      rw [List.length_drop] at hle
      have hpos := h₁.inside.pos_le
      have hmove : Leads src s₁ (s₁.moveTo (s₁.pos + (Text.toBytes token).length)) :=
        h₁.inside.leads_moveTo (by omega) (by omega)
      exact ⟨h₁.trans hmove, fun _ => Nat.add_le_add_right h₁.pos_le _⟩
  · exact ⟨h₁, nofun⟩

theorem safe_eatAny {level : Level} (htokens : ∀ t ∈ level, t.1 ≠ []) (h : Inside src s) :
    Ends (eatAny src level) s
      (fun op? s' => Leads src s s' ∧ (op?.isSome = true → s.pos < s'.pos)) (Reported src) := by
  induction level generalizing s with
  | nil => exact ⟨.refl h, nofun⟩
  | cons t level ih =>
      obtain ⟨token, op⟩ := t
      refine (safe_eat token h).seq fun found s₁ heat => ?_
      obtain ⟨h₁, hfound⟩ := heat
      rw [ends_ite]
      split
      · next hyes =>
          have hpos : 0 < (Text.toBytes token).length :=
            Text.length_toBytes_pos (htokens _ (List.mem_cons_self ..))
          exact ⟨h₁, fun _ => by have := hfound hyes; omega⟩
      · refine (ih (fun t ht => htokens t (List.mem_cons_of_mem _ ht)) h₁.inside).imp
          fun _ _ h₂ => ⟨h₁.trans h₂.1, fun hop => ?_⟩
        exact h₁.pos_le.trans_lt (h₂.2 hop)

theorem charAt?_eq_none_iff {i : Nat} : charAt? src i = none ↔ src.length ≤ i := by
  rw [charAt?, Option.map_eq_none_iff, List.getElem?_eq_none_iff]

theorem lt_of_charAt? {i : Nat} {c : Char} (h : charAt? src i = some c) : i < src.length := by
  by_contra hle
  rw [charAt?_eq_none_iff.2 (by omega)] at h
  cases h

/-- An operator that is found lies within the bytes, and the position has moved on over it. -/
theorem safe_operator {level : Level} (htokens : ∀ t ∈ level, t.1 ≠ []) (h : Inside src s) :
    Ends (operator src level) s
      (fun op? s' => Leads src s s' ∧ ∀ t ∈ op?, t.2 ≤ src.length ∧ s.pos < s'.pos)
      (Reported src) := by
  refine (safe_skip h).seq fun _ s₁ h₁ => ?_
  rw [ends_bind, ends_position, ends_ite]
  split
  · split
    · exact ⟨h₁, nofun⟩
    · next t hfind =>
        have htest := List.find?_some hfind
        obtain ⟨c, hc⟩ := Option.isSome_iff_exists.1 (Bool.and_eq_true_iff.1 htest).2
        have hmove : Leads src s₁ (s₁.moveTo (s₁.pos + 1)) :=
          h₁.inside.leads_moveTo (by omega) (lt_of_charAt? hc)
        refine ⟨h₁.trans hmove, fun t ht => ?_⟩
        cases ht
        exact ⟨h₁.inside.pos_le, Nat.lt_succ_of_le h₁.pos_le⟩
  · refine (safe_eatAny htokens h₁.inside).seq fun op? s₂ h₂ => ?_
    refine ⟨h₁.trans h₂.1, fun t ht => ?_⟩
    obtain ⟨op, hop, rfl⟩ := Option.map_eq_some_iff.1 ht
    exact ⟨h₁.inside.pos_le, h₁.pos_le.trans_lt (h₂.2 (by rw [hop]; rfl))⟩

theorem offset_of_applyAt {op : BinOp} {opAt endAt : Nat} {a b : Int} {e : Error}
    (h : applyAt op opAt endAt a b = .error e) : e.offset = opAt ∨ e.offset = endAt := by
  unfold applyAt at h
  split at h
  · cases h
  · cases h
    exact .inl rfl
  · cases h
    exact .inr rfl

/-- Every round reads an operator, so the bytes left bound the number of rounds. -/
theorem safe_chain {depth : Nat} {operand : Run Int} (hoperand : Safe src depth operand)
    {level : Level} (htokens : ∀ t ∈ level, t.1 ≠ []) (n : Nat) (lhs : Int) (s : State)
    (h : Inside src s) (hs : s.depth = depth) (hn : src.length < s.pos + n) :
    Ends (chain src operand level n lhs) s (fun _ s' => Leads src s s') (Reported src) := by
  induction n generalizing s lhs with
  | zero => exact absurd hn (by have := h.pos_le; omega)
  | succ n ih =>
      refine (safe_operator htokens h).seq fun op? s₁ hfound => ?_
      obtain ⟨h₁, hop⟩ := hfound
      cases op? with
      | none => exact h₁
      | some t =>
          obtain ⟨hle, hlt⟩ := hop t rfl
          refine (hoperand.from h₁ hs).seq fun rhs s₂ hread => ?_
          obtain ⟨h₂, hpos⟩ := hread
          rw [ends_bind, ends_position, ends_bind, ends_lift]
          split
          · exact (ih _ s₂ h₂.inside (h₂.depth_eq.trans hs) (by omega)).imp
              fun _ _ h₃ => h₂.trans h₃
          · next e he =>
              refine ⟨h₂.inside, e, rfl, ?_⟩
              rcases offset_of_applyAt he with hoff | hoff
              · rw [hoff]; exact hle
              · rw [hoff]; exact h₂.inside.pos_le

theorem safe_climb {depth : Nat} {operand : Run Int} (hoperand : Safe src depth operand)
    (ls : List Level) (htokens : ∀ level ∈ ls, ∀ t ∈ level, t.1 ≠ []) :
    Safe src depth (climb src operand ls) := by
  induction ls with
  | nil => exact hoperand
  | cons level tighter ih =>
      have htighter := ih fun l hl => htokens l (List.mem_cons_of_mem _ hl)
      intro s h hs
      refine (htighter s h hs).seq fun lhs s₁ h₁ => ?_
      exact (safe_chain htighter (htokens level (List.mem_cons_self ..)) _ lhs s₁ h₁.inside
        (h₁.depth_eq.trans hs) (by omega)).imp fun _ _ h₂ => h₁.trans h₂

theorem safe_parens {depth : Nat} {inner : Run Int} (hinner : Safe src depth inner)
    (h : Inside src s) (hs : s.depth = depth) (hlt : s.pos < src.length) :
    Ends (parens src inner) s (fun _ s' => Leads src s s') (Reported src) := by
  have hmove : Leads src s (s.moveTo (s.pos + 1)) := h.leads_moveTo (by omega) hlt
  rw [parens, ends_bind, ends_position, ends_bind, ends_moveTo]
  refine (hinner.from hmove hs).seq fun v s₁ h₁ => ?_
  refine (safe_eat [')'] h₁.1.inside).seq fun closed s₂ h₂ => ?_
  rw [ends_bind, ends_position, ends_ite]
  split
  · exact h₁.1.trans h₂.1
  · exact h₂.1.inside.reported h₂.1.inside.pos_le

theorem safe_number (h : Inside src s) :
    Ends (number src) s (fun _ s' => Leads src s s') (Reported src) := by
  rw [number, ends_bind, ends_position]
  refine (safe_advanceWhile _ _ s h (by omega)).seq fun _ s₁ h₁ => ?_
  rw [ends_bind, ends_position, ends_bind, ends_slice h₁.pos_le h₁.inside.pos_le, ends_ite]
  split
  · exact h₁
  · exact h₁.inside.reported h.pos_le

theorem safe_primary {depth : Nat} {inner : Run Int} (hinner : Safe src depth inner) :
    Safe src depth (primary src inner) := by
  intro s h hs
  refine (safe_skip h).seq fun _ s₁ h₁ => ?_
  rw [ends_bind, ends_position]
  cases hc : charAt? src s₁.pos with
  | none => exact h₁.inside.reported h₁.inside.pos_le
  | some c =>
      simp only [ends_ite, ends_report]
      split
      · exact (safe_parens hinner h₁.inside (h₁.depth_eq.trans hs) (lt_of_charAt? hc)).imp
          fun _ _ h₂ => h₁.trans h₂
      split
      · exact (safe_number h₁.inside).imp fun _ _ h₂ => h₁.trans h₂
      split <;> exact h₁.inside.reported h₁.inside.pos_le

theorem safe_sign {depth : Nat} {operand inner : Run Int} (hoperand : Safe src depth operand)
    (hinner : Safe src depth inner) : Safe src depth (sign src operand inner) := by
  intro s h hs
  refine (safe_skip h).seq fun _ s₁ h₁ => ?_
  have hmove {c : Char} (hc : charAt? src s₁.pos = some c) :
      Leads src s (s₁.moveTo (s₁.pos + 1)) :=
    h₁.trans (h₁.inside.leads_moveTo (by omega) (lt_of_charAt? hc))
  rw [ends_bind, ends_position, ends_ite, ends_ite]
  split
  · next hc =>
      rw [ends_bind, ends_moveTo]
      refine (hoperand.from (hmove hc) hs).seq fun v s₂ h₂ => ?_
      rw [ends_bind, ends_position, ends_ite]
      split
      · exact h₂.1
      · exact h₂.1.inside.reported h₂.1.inside.pos_le
  split
  · next hc =>
      rw [ends_bind, ends_moveTo]
      exact (hoperand.from (hmove hc.1) hs).seq fun v s₂ h₂ => h₂.1
  · exact (safe_primary hinner s₁ h₁.inside (h₁.depth_eq.trans hs)).imp fun _ _ h₂ => h₁.trans h₂

theorem token_ne_nil : ∀ level ∈ levels, ∀ t ∈ level, t.1 ≠ [] := by
  decide

/-- **Signs and operands are read within the bytes**, if the machine may recur as often as signs and
parentheses may still be opened. -/
theorem safe_unary (n depth : Nat) (hdepth : depth ≤ maxDepth) (hn : maxDepth < depth + n) :
    Safe src depth (unary src n) := by
  induction n generalizing depth with
  | zero => omega
  | succ n ih =>
      intro s h hs
      subst hs
      simp only [unary, ends_bind, ends_depth, ends_setDepth, ends_position, ends_ite, ends_report,
        ends_leaving]
      split
      · exact (h.setDepth _).reported h.pos_le
      · next hopen =>
          have hoperand : Safe src (s.depth + 1) (unary src n) := ih _ (by omega) (by omega)
          refine (safe_sign hoperand (safe_climb hoperand levels token_ne_nil) _ (h.setDepth _)
            rfl).mono (fun _ s' h' => ?_) fun why s' hwhy => ?_
          · refine ⟨h'.inside.setDepth _, h'.pos_le, ?_⟩
            show s'.depth - 1 = s.depth
            rw [h'.depth_eq]
            rfl
          · exact ⟨hwhy.1.setDepth _, hwhy.2⟩

/-- Expressions are read within the bytes. -/
theorem safe_evalInt (src : Bytes) :
    Ends (evalInt src) .start (fun _ s' => Inside src s') (Reported src) := by
  have hoperand : Safe src 0 (unary src (maxDepth + 1)) :=
    safe_unary _ 0 (Nat.zero_le _) (by omega)
  refine (safe_climb hoperand levels token_ne_nil _ inside_start rfl).seq fun v s₁ h₁ => ?_
  refine (safe_skip h₁.inside).seq fun _ s₂ h₂ => ?_
  rw [ends_bind, ends_position, ends_ite]
  split
  · exact h₂.inside
  · exact h₂.inside.reported h₂.inside.pos_le

end Safe

/-! ### What is opened is closed -/

section Restores

variable {src : Bytes}

/-- Runs behind which as many signs and parentheses are open as before, if they give a value.  No
state is excluded and no bound on the rounds is needed. -/
def Restores (x : Run α) : Prop :=
  ∀ s, Ends x s (fun _ s' => s'.depth = s.depth) fun _ _ => True

theorem restores_of_depth_eq {x : Run α} (h : ∀ s a s', x s = .ok a s' → s'.depth = s.depth) :
    Restores x := by
  intro s
  unfold Ends
  cases hx : x s with
  | ok a s' => exact h s a s' hx
  | error why s' => trivial

theorem Restores.depth_eq {x : Run α} (h : Restores x) {s s' : State} {a : α}
    (hx : x s = .ok a s') : s'.depth = s.depth := by
  have hends := h s
  rw [Ends, hx] at hends
  exact hends

theorem restores_pure (a : α) : Restores (pure a : Run α) := fun _ => rfl

theorem Restores.bind {x : Run β} {f : β → Run α} (hx : Restores x) (hf : ∀ b, Restores (f b)) :
    Restores (x >>= f) := by
  intro s
  rw [ends_bind]
  exact (hx s).mono (fun b s₁ h₁ => (hf b s₁).mono (fun _ _ h₂ => h₂.trans h₁) fun _ _ hwhy => hwhy)
    fun _ _ hwhy => hwhy

theorem Restores.ite {p : Prop} [Decidable p] {x y : Run α} (hx : Restores x) (hy : Restores y) :
    Restores (if p then x else y) := by
  split
  · exact hx
  · exact hy

theorem restores_report (f : Fault) (offset : Nat) : Restores (report f offset : Run α) :=
  fun _ => trivial

theorem restores_position : Restores position := fun _ => rfl

theorem restores_moveTo (pos : Nat) : Restores (moveTo pos) := fun _ => rfl

theorem restores_lift (r : Except Error α) : Restores (lift r) := by
  intro s
  rw [ends_lift]
  split <;> trivial

theorem restores_byteAt (i : Nat) : Restores (byteAt src i) := by
  refine restores_of_depth_eq fun s a s' h => ?_
  unfold byteAt at h
  split at h <;> cases h
  rfl

theorem restores_slice (first last : Nat) : Restores (slice src first last) := by
  refine restores_of_depth_eq fun s a s' h => ?_
  unfold slice at h
  split at h <;> cases h
  rfl

theorem restores_advanceWhile (test : Char → Bool) (n : Nat) :
    Restores (advanceWhile test src n) := by
  induction n with
  | zero => exact fun _ => trivial
  | succ n ih =>
      refine restores_position.bind fun i => .ite ?_ (restores_pure ())
      exact (restores_byteAt i).bind fun b =>
        .ite ((restores_moveTo _).bind fun _ => ih) (restores_pure ())

theorem restores_eat (token : Text) : Restores (eat src token) :=
  (restores_advanceWhile _ _).bind fun _ => restores_position.bind fun i =>
    (restores_slice i _).bind fun _ =>
      .ite ((restores_moveTo _).bind fun _ => restores_pure true) (restores_pure false)

theorem restores_eatAny (level : Level) : Restores (eatAny src level) := by
  induction level with
  | nil => exact restores_pure none
  | cons t level ih => exact (restores_eat t.1).bind fun _ => .ite (restores_pure _) ih

theorem restores_operator (level : Level) : Restores (operator src level) := by
  refine (restores_advanceWhile _ _).bind fun _ => restores_position.bind fun i => .ite ?_ ?_
  · split
    · exact restores_pure none
    · exact (restores_moveTo _).bind fun _ => restores_pure _
  · exact (restores_eatAny level).bind fun _ => restores_pure _

theorem restores_chain {operand : Run Int} (hoperand : Restores operand) (level : Level) (n : Nat)
    (lhs : Int) : Restores (chain src operand level n lhs) := by
  induction n generalizing lhs with
  | zero => exact fun _ => trivial
  | succ n ih =>
      refine (restores_operator level).bind fun op? => ?_
      cases op? with
      | none => exact restores_pure lhs
      | some t =>
          exact hoperand.bind fun rhs => restores_position.bind fun j =>
            (restores_lift _).bind fun v => ih v

theorem restores_climb {operand : Run Int} (hoperand : Restores operand) (ls : List Level) :
    Restores (climb src operand ls) := by
  induction ls with
  | nil => exact hoperand
  | cons level tighter ih => exact ih.bind fun lhs => restores_chain ih level _ lhs

theorem restores_parens {inner : Run Int} (hinner : Restores inner) :
    Restores (parens src inner) :=
  restores_position.bind fun _ => (restores_moveTo _).bind fun _ => hinner.bind fun v =>
    (restores_eat _).bind fun _ => restores_position.bind fun _ =>
      .ite (restores_pure v) (restores_report _ _)

theorem restores_number : Restores (number src) :=
  restores_position.bind fun _ => (restores_advanceWhile _ _).bind fun _ =>
    restores_position.bind fun _ => (restores_slice _ _).bind fun _ =>
      .ite (restores_pure _) (restores_report _ _)

theorem restores_primary {inner : Run Int} (hinner : Restores inner) :
    Restores (primary src inner) := by
  refine (restores_advanceWhile _ _).bind fun _ => restores_position.bind fun i => ?_
  split
  · exact restores_report _ _
  · exact .ite (restores_parens hinner)
      (.ite restores_number (.ite (restores_report _ _) (restores_report _ _)))

theorem restores_sign {operand inner : Run Int} (hoperand : Restores operand)
    (hinner : Restores inner) : Restores (sign src operand inner) := by
  refine (restores_advanceWhile _ _).bind fun _ => restores_position.bind fun i =>
    .ite ?_ (.ite ?_ (restores_primary hinner))
  · exact (restores_moveTo _).bind fun _ => hoperand.bind fun v => restores_position.bind fun j =>
      .ite (restores_pure _) (restores_report _ _)
  · exact (restores_moveTo _).bind fun _ => hoperand.bind fun v => restores_pure _

/-- Behind a sign or operand that is read as many signs and parentheses are open as before. -/
theorem restores_unary (n : Nat) : Restores (unary src n) := by
  induction n with
  | zero => exact fun _ => trivial
  | succ n ih =>
      intro s
      simp only [unary, ends_bind, ends_depth, ends_setDepth, ends_position, ends_ite, ends_report,
        ends_leaving]
      split
      · trivial
      · refine (restores_sign ih (restores_climb ih levels) _).mono (fun _ s' h' => ?_)
          fun _ _ _ => trivial
        show s'.depth - 1 = s.depth
        rw [h']
        rfl

end Restores

end Machine

end Expr

end Softcode
