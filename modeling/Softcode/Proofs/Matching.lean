/-
**What a pattern matches.**

The search for a match tries one choice after the other and remembers where it has been.  What it
finds is said here without choices, as a relation between two places: a pattern leads from one place
to another if what lies between them can be read as the pattern says.  A search that succeeds has
found such a place, whatever it remembered (`Softcode.Pattern.exists_of_run`); the numbers of the
choices do not matter for the relation.

Which of several matches is found is a matter of the order of choices.  Where the choice that comes
first never turns out to be wrong, the search goes straight on, and all it needs is that none of the
choices ahead has been made before.  This is `Softcode.Pattern.Leads`: behind the pattern the search
goes on at the given place, with the choices ahead still open.  It is put together from left to
right, like the numbers of the choices.

Main definitions:

* `Softcode.Place.Passes` — the text that lies between two places;
* `Softcode.Pattern.Matches` — **the places to which a pattern leads**;
* `Softcode.Pattern.concat` — patterns one after the other;
* `Softcode.Tried.Open` — choices that are still open from a number on;
* `Softcode.Pattern.Leads`, `Softcode.Pattern.Stops` — where a search goes straight on, and where
  it goes back at once;
* `Softcode.Pattern.Reads` — a text that a pattern reads straight on, with what it notes.

Main results:

* `Softcode.Pattern.exists_of_run`, `Softcode.Pattern.exists_of_matchAt?` — **what is found is a
  match**;
* `Softcode.Pattern.matches_label` — numbers do not matter;
* `Softcode.Pattern.leads_star`, `Softcode.Pattern.leads_opt`, `Softcode.Pattern.leads_opt_stop` —
  greedy repetitions of a class, and a part that may be left out;
* `Softcode.Pattern.matchAt?_of_leads` — the match that is found;
* `Softcode.Pattern.replaceAll_whole` — **a text that is read straight on is replaced as a whole**.
-/

import Mathlib.Logic.Relation
import Softcode.Pattern.Basic

set_option autoImplicit false

namespace Softcode

/-! ### The text between two places -/

/-- The text `x` lies between two places. -/
structure Place.Passes (s : Place) (x : Text) (t : Place) : Prop where
  rest : s.rest = x ++ t.rest
  pos : t.pos = s.pos + x.length
  groups : s.groups <:+ t.groups

namespace Place

theorem Passes.refl (s : Place) : s.Passes [] s := ⟨rfl, rfl, List.suffix_refl _⟩

theorem Passes.trans {s t u : Place} {x y : Text} (h : s.Passes x t) (h' : t.Passes y u) :
    s.Passes (x ++ y) u :=
  ⟨by rw [h.rest, h'.rest, List.append_assoc],
    by rw [h'.pos, h.pos, List.length_append, Nat.add_assoc], h.groups.trans h'.groups⟩

theorem Passes.textTo {s t : Place} {x : Text} (h : s.Passes x t) : s.textTo t = x := by
  rw [Place.textTo, h.rest, h.pos, Nat.add_sub_cancel_left, List.take_left]

theorem passes_advance {s : Place} {c : Char} {rest : Text} (h : s.rest = c :: rest) :
    s.Passes [c] (s.advance c rest) :=
  ⟨h, rfl, List.suffix_refl _⟩

end Place

namespace Pattern

/-! ### Matches -/

/-- **The places to which a pattern leads from a place.** -/
def Matches : Pattern → Place → Place → Prop
  | empty, s, t => t = s
  | char a, s, t => ∃ c rest, s.rest = c :: rest ∧ a.contains c = true ∧ t = s.advance c rest
  | look l, s, t => l.holds isWordClass s.before s.rest.head? = true ∧ t = s
  | asciiLook l, s, t =>
      l.holds CharClass.asciiWord.contains s.before s.rest.head? = true ∧ t = s
  | seq p q, s, t => ∃ u, Matches p s u ∧ Matches q u t
  | alt _ p q, s, t => Matches p s t ∨ Matches q s t
  | opt _ _ p, s, t => Matches p s t ∨ t = s
  | star _ _ p, s, t => Relation.ReflTransGen (Matches p) s t
  | plus _ _ p, s, t => ∃ u, Matches p s u ∧ Relation.ReflTransGen (Matches p) u t
  | group index p, s, t =>
      ∃ u, Matches p s u ∧ t = { u with groups := (index, s.textTo u) :: u.groups }

variable {α : Type}

/-- The first of two searches that succeeds is one of them. -/
theorem of_choose {id : Nat} {first second : Search α} {s : Place} {tried : Tried} {r : α}
    (h : (choose id first second s tried).1 = some r) :
    ∃ tried', (first s tried').1 = some r ∨ (second s tried').1 = some r := by
  unfold choose at h
  split at h
  · cases h
  · split at h
    · next r' tried' heq =>
        refine ⟨tried.insert id s.pos, Or.inl ?_⟩
        rw [heq]
        exact h
    · next tried' heq => exact ⟨tried', Or.inr h⟩

theorem of_prefer {id : Nat} {greedy : Bool} {more stop : Search α} {s : Place} {tried : Tried}
    {r : α} (h : (prefer id greedy more stop s tried).1 = some r) :
    ∃ tried', (more s tried').1 = some r ∨ (stop s tried').1 = some r := by
  unfold prefer at h
  split at h
  · exact of_choose h
  · obtain ⟨tried', h⟩ := of_choose h
    exact ⟨tried', h.symm⟩

/-- Rounds that succeed have made some rounds of their body. -/
theorem of_rounds {id : Nat} {greedy : Bool} {body : Search α → Search α} {k : Search α}
    {m : Place → Place → Prop} {r : α}
    (hbody : ∀ (k : Search α) s tried, (body k s tried).1 = some r →
      ∃ t tried', m s t ∧ (k t tried').1 = some r)
    (n : Nat) {s : Place} {tried : Tried}
    (h : (rounds id greedy body k n s tried).1 = some r) :
    ∃ t tried', Relation.ReflTransGen m s t ∧ (k t tried').1 = some r := by
  induction n generalizing s tried with
  | zero => cases h
  | succ n ih =>
      obtain ⟨tried', hmore | hstop⟩ := of_prefer h
      · obtain ⟨u, tried₁, hu, hrest⟩ := hbody _ s tried' hmore
        obtain ⟨t, tried₂, ht, hk⟩ := ih hrest
        exact ⟨t, tried₂, Relation.ReflTransGen.head hu ht, hk⟩
      · exact ⟨s, tried', Relation.ReflTransGen.refl, hstop⟩

/-- **What a search finds is a match**, behind which the search has gone on. -/
theorem exists_of_run (p : Pattern) {k : Search α} {s : Place} {tried : Tried} {r : α}
    (h : (p.run k s tried).1 = some r) :
    ∃ t tried', p.Matches s t ∧ (k t tried').1 = some r := by
  induction p generalizing k s tried with
  | empty => exact ⟨s, tried, rfl, h⟩
  | char a =>
      rw [run] at h
      split at h
      · cases h
      · next c rest hrest =>
          split at h
          · next hc => exact ⟨_, tried, ⟨c, rest, hrest, hc, rfl⟩, h⟩
          · cases h
  | look l =>
      rw [run] at h
      split at h
      · next hl => exact ⟨s, tried, ⟨hl, rfl⟩, h⟩
      · cases h
  | asciiLook l =>
      rw [run] at h
      split at h
      · next hl => exact ⟨s, tried, ⟨hl, rfl⟩, h⟩
      · cases h
  | seq p q ihp ihq =>
      obtain ⟨u, tried₁, hu, hrest⟩ := ihp h
      obtain ⟨t, tried₂, ht, hk⟩ := ihq hrest
      exact ⟨t, tried₂, ⟨u, hu, ht⟩, hk⟩
  | alt id p q ihp ihq =>
      obtain ⟨tried', hp | hq⟩ := of_choose h
      · obtain ⟨t, tried₁, ht, hk⟩ := ihp hp
        exact ⟨t, tried₁, Or.inl ht, hk⟩
      · obtain ⟨t, tried₁, ht, hk⟩ := ihq hq
        exact ⟨t, tried₁, Or.inr ht, hk⟩
  | opt id greedy p ih =>
      obtain ⟨tried', hp | hk⟩ := of_prefer h
      · obtain ⟨t, tried₁, ht, hk⟩ := ih hp
        exact ⟨t, tried₁, Or.inl ht, hk⟩
      · exact ⟨s, tried', Or.inr rfl, hk⟩
  | star id greedy p ih =>
      rw [run] at h
      exact of_rounds (fun _ _ _ hp => ih hp) _ h
  | plus id greedy p ih =>
      obtain ⟨u, tried₁, hu, hrest⟩ := ih h
      obtain ⟨t, tried₂, ht, hk⟩ := of_rounds (fun _ _ _ hp => ih hp) _ hrest
      exact ⟨t, tried₂, ⟨u, hu, ht⟩, hk⟩
  | group index p ih =>
      obtain ⟨u, tried₁, hu, hk⟩ := ih h
      exact ⟨_, tried₁, ⟨u, hu, rfl⟩, hk⟩

/-- **A match that is found leads to a place**, and its text lies before it. -/
theorem exists_of_matchAt? {p : Pattern} {s : Place} {tried : Tried} {m : Match}
    (h : (p.matchAt? s tried).1 = some m) :
    ∃ t, p.Matches s t ∧ m = ⟨s.textTo t, t.groups⟩ := by
  obtain ⟨t', ht', rfl⟩ := Option.map_eq_some_iff.1 h
  obtain ⟨t, tried', ht, hk⟩ := exists_of_run p ht'
  obtain rfl := Option.some.inj hk
  exact ⟨t, ht, rfl⟩

/-- A match reads on from its place. -/
theorem Matches.passes {p : Pattern} {s t : Place} (h : p.Matches s t) : ∃ x, s.Passes x t := by
  have hrounds : ∀ {q : Pattern}, (∀ {s t}, q.Matches s t → ∃ x, Place.Passes s x t) →
      ∀ {s t}, Relation.ReflTransGen q.Matches s t → ∃ x, Place.Passes s x t := by
    intro q hq s t hst
    induction hst with
    | refl => exact ⟨[], .refl s⟩
    | tail _ hstep ih =>
        obtain ⟨x, hx⟩ := ih
        obtain ⟨y, hy⟩ := hq hstep
        exact ⟨x ++ y, hx.trans hy⟩
  induction p generalizing s t with
  | empty => exact ⟨[], h ▸ .refl s⟩
  | char a =>
      obtain ⟨c, rest, hrest, -, rfl⟩ := h
      exact ⟨[c], Place.passes_advance hrest⟩
  | look l => exact ⟨[], h.2 ▸ .refl s⟩
  | asciiLook l => exact ⟨[], h.2 ▸ .refl s⟩
  | seq p q ihp ihq =>
      obtain ⟨u, hp, hq⟩ := h
      obtain ⟨x, hx⟩ := ihp hp
      obtain ⟨y, hy⟩ := ihq hq
      exact ⟨x ++ y, hx.trans hy⟩
  | alt id p q ihp ihq => exact h.elim ihp ihq
  | opt id greedy p ih => exact h.elim ih fun h => ⟨[], h ▸ .refl s⟩
  | star id greedy p ih => exact hrounds ih h
  | plus id greedy p ih =>
      obtain ⟨u, hp, hrest⟩ := h
      obtain ⟨x, hx⟩ := ih hp
      obtain ⟨y, hy⟩ := hrounds ih hrest
      exact ⟨x ++ y, hx.trans hy⟩
  | group index p ih =>
      obtain ⟨u, hp, rfl⟩ := h
      obtain ⟨x, hx⟩ := ih hp
      exact ⟨x, hx.rest, hx.pos, hx.groups.trans (List.suffix_cons _ _)⟩

/-- **The numbers of the choices do not matter** for what a pattern matches. -/
@[simp] theorem matches_label (n : Nat) (p : Pattern) : ((p.label n).1).Matches = p.Matches := by
  induction p generalizing n with
  | empty | char | look | asciiLook => rfl
  | seq p q ihp ihq =>
      funext s t
      change (∃ u, Matches _ s u ∧ Matches _ u t) = (∃ u, Matches p s u ∧ Matches q u t)
      rw [ihp, ihq]
  | alt id p q ihp ihq =>
      funext s t
      change (Matches _ s t ∨ Matches _ s t) = (Matches p s t ∨ Matches q s t)
      rw [ihp, ihq]
  | opt id greedy p ih =>
      funext s t
      change (Matches _ s t ∨ t = s) = (Matches p s t ∨ t = s)
      rw [ih]
  | star id greedy p ih =>
      funext s t
      change Relation.ReflTransGen (Matches _) s t = Relation.ReflTransGen (Matches p) s t
      rw [ih]
  | plus id greedy p ih =>
      funext s t
      change (∃ u, Matches _ s u ∧ Relation.ReflTransGen (Matches _) u t) =
        (∃ u, Matches p s u ∧ Relation.ReflTransGen (Matches p) u t)
      rw [ih]
  | group index p ih =>
      funext s t
      change (∃ u, Matches _ s u ∧ _) = (∃ u, Matches p s u ∧ _)
      rw [ih]

/-! ### Patterns one after the other -/

/-- Patterns one after the other. -/
def concat : List Pattern → Pattern
  | [] => empty
  | [p] => p
  | p :: q :: ps => seq p (concat (q :: ps))

theorem concat_cons {p : Pattern} {ps : List Pattern} (h : ps ≠ []) :
    concat (p :: ps) = seq p (concat ps) := by
  obtain ⟨q, qs, rfl⟩ := List.exists_cons_of_ne_nil h
  rfl

theorem matches_concat_cons {p : Pattern} {ps : List Pattern} {s t : Place} :
    (concat (p :: ps)).Matches s t ↔ ∃ u, p.Matches s u ∧ (concat ps).Matches u t := by
  cases ps with
  | nil =>
      constructor
      · intro h
        exact ⟨t, h, rfl⟩
      · rintro ⟨u, hp, rfl⟩
        exact hp
  | cons q ps => rfl

theorem matches_concat_append {ps qs : List Pattern} {s t : Place} :
    (concat (ps ++ qs)).Matches s t ↔ ∃ u, (concat ps).Matches s u ∧ (concat qs).Matches u t := by
  induction ps generalizing s with
  | nil =>
      constructor
      · intro h
        exact ⟨s, rfl, h⟩
      · rintro ⟨u, rfl, h⟩
        exact h
  | cons p ps ih =>
      rw [List.cons_append, matches_concat_cons]
      constructor
      · rintro ⟨v, hp, h⟩
        obtain ⟨u, hps, hqs⟩ := ih.1 h
        exact ⟨u, matches_concat_cons.2 ⟨v, hp, hps⟩, hqs⟩
      · rintro ⟨u, h, hqs⟩
        obtain ⟨v, hp, hps⟩ := matches_concat_cons.1 h
        exact ⟨v, hp, ih.2 ⟨u, hps, hqs⟩⟩

/-- One of several patterns, or the last one. -/
theorem matches_alternatives {ps : List Pattern} {p : Pattern} {s t : Place} :
    (ps.foldr (alt 0) p).Matches s t ↔ (∃ q ∈ ps, q.Matches s t) ∨ p.Matches s t := by
  induction ps with
  | nil => simp
  | cons q ps ih =>
      rw [List.foldr_cons]
      change (q.Matches s t ∨ (ps.foldr (alt 0) p).Matches s t) ↔ _
      rw [ih, ← or_assoc]
      simp

/-! ### Patterns without groups -/

/-- Whether a pattern has no groups. -/
def groupless : Pattern → Bool
  | empty | char _ | look _ | asciiLook _ => true
  | seq p q | alt _ p q => p.groupless && q.groupless
  | opt _ _ p | star _ _ p | plus _ _ p => p.groupless
  | group _ _ => false

/-- A pattern without groups leaves the groups as they are. -/
theorem Matches.groups_eq {p : Pattern} (hp : p.groupless = true) {s t : Place}
    (h : p.Matches s t) : t.groups = s.groups := by
  have hrounds : ∀ {q : Pattern}, (∀ {s t}, q.Matches s t → t.groups = s.groups) →
      ∀ {s t}, Relation.ReflTransGen q.Matches s t → t.groups = s.groups := by
    intro q hq s t hst
    induction hst with
    | refl => rfl
    | tail _ hstep ih => rw [hq hstep, ih]
  induction p generalizing s t with
  | empty => rw [show t = s from h]
  | char a =>
      obtain ⟨c, rest, -, -, rfl⟩ := h
      rfl
  | look l => rw [h.2]
  | asciiLook l => rw [h.2]
  | seq p q ihp ihq =>
      obtain ⟨hp, hq⟩ := Bool.and_eq_true_iff.1 hp
      obtain ⟨u, hu, ht⟩ := h
      rw [ihq hq ht, ihp hp hu]
  | alt id p q ihp ihq =>
      obtain ⟨hp, hq⟩ := Bool.and_eq_true_iff.1 hp
      exact h.elim (ihp hp) (ihq hq)
  | opt id greedy p ih => exact h.elim (ih hp) fun h => h ▸ rfl
  | star id greedy p ih => exact hrounds (ih hp) h
  | plus id greedy p ih =>
      obtain ⟨u, hu, ht⟩ := h
      rw [hrounds (ih hp) ht, ih hp hu]
  | group index p ih => cases hp

end Pattern

/-! ### Choices that are still open -/

/-- No choice with the number `n` or a higher one has been made. -/
def Tried.Open (n : Nat) (tried : Tried) : Prop := ∀ id pos, n ≤ id → tried.mem id pos = false

namespace Tried

theorem open_nil (n : Nat) : Open n [] := fun id pos _ => mem_nil id pos

theorem Open.mono {n m : Nat} {tried : Tried} (h : tried.Open n) (hnm : n ≤ m) : tried.Open m :=
  fun id pos hid => h id pos (Nat.le_trans hnm hid)

/-- A choice with a lower number leaves the others open. -/
theorem Open.insert_below {n id : Nat} {tried : Tried} (h : tried.Open n) (hid : id < n)
    (pos : Nat) : (tried.insert id pos).Open n := by
  intro id' pos' hid'
  have hne : ¬ id = id' := by omega
  rw [mem_insert, h id' pos' hid']
  simp [hne]

theorem Open.insert {n : Nat} {tried : Tried} (h : tried.Open n) (pos : Nat) :
    (tried.insert n pos).Open (n + 1) :=
  (h.mono (Nat.le_succ n)).insert_below (Nat.lt_succ_self n) pos

/-- A choice that is made here leaves the choice open at the places ahead. -/
theorem mem_insert_ahead {n pos pos' : Nat} {tried : Tried} (h : tried.mem n pos' = false)
    (hpos : pos < pos') : (tried.insert n pos).mem n pos' = false := by
  have hne : ¬ pos = pos' := by omega
  rw [mem_insert, h]
  simp [hne]

end Tried

/-- The place behind the text `x`, with `rest` behind it. -/
def Place.skip (s : Place) (x rest : Text) : Place :=
  { s with before := x.getLast?.or s.before, rest := rest, pos := s.pos + x.length }

namespace Place

theorem skip_nil {s : Place} {rest : Text} (h : s.rest = rest) : s.skip [] rest = s := by
  subst h
  rfl

theorem skip_skip (s : Place) (x y r r' : Text) :
    (s.skip x r).skip y r' = s.skip (x ++ y) r' := by
  simp only [skip, List.getLast?_append, Option.or_assoc, List.length_append, Nat.add_assoc]

end Place

namespace Pattern

/-! ### Searches that go straight on -/

theorem choose_first {α : Type} {id : Nat} {first second : Search α} {s : Place} {tried : Tried}
    {r : α} (hmem : tried.mem id s.pos = false)
    (h : (first s (tried.insert id s.pos)).1 = some r) :
    (choose id first second s tried).1 = some r := by
  unfold choose
  rw [hmem]
  simp only [Bool.false_eq_true, if_false]
  split
  · next heq => rwa [heq] at h
  · next heq =>
      rw [heq] at h
      cases h

theorem choose_second {α : Type} {id : Nat} {first second : Search α} {s : Place}
    {tried tried' : Tried} (hmem : tried.mem id s.pos = false)
    (h : first s (tried.insert id s.pos) = (none, tried')) :
    choose id first second s tried = second s tried' := by
  unfold choose
  rw [hmem]
  simp only [Bool.false_eq_true, if_false, h]

theorem le_label (n : Nat) (p : Pattern) : n ≤ (p.label n).2 := by
  induction p generalizing n with
  | empty | char | look | asciiLook => exact Nat.le_refl n
  | seq p q ihp ihq => exact Nat.le_trans (ihp n) (ihq _)
  | alt id p q ihp ihq => exact Nat.le_trans (Nat.le_succ n) (Nat.le_trans (ihp _) (ihq _))
  | opt id greedy p ih | star id greedy p ih | plus id greedy p ih =>
      exact Nat.le_trans (Nat.le_succ n) (ih _)
  | group index p ih => exact ih n

/-- **A search for the pattern goes straight on** from `s` to `t`: what follows is tried there
first, with the choices ahead still open. -/
def Leads (p : Pattern) (s t : Place) : Prop :=
  ∀ n tried, tried.Open n → ∃ tried', tried'.Open (p.label n).2 ∧
    ∀ (k : Search Place) r, (k t tried').1 = some r → ((p.label n).1.run k s tried).1 = some r

/-- A search for the pattern reads nothing at `s` and has no other choice. -/
def Skips (p : Pattern) (s : Place) : Prop :=
  ∀ n tried, tried.Open n → ∃ tried', tried'.Open (p.label n).2 ∧
    ∀ k : Search Place, (p.label n).1.run k s tried = k s tried'

/-- A search for the pattern fails at `s`, before anything that follows is tried. -/
def Stops (p : Pattern) (s : Place) : Prop :=
  ∀ n tried, tried.Open n → ∃ tried', tried'.Open (p.label n).2 ∧
    ∀ k : Search Place, (p.label n).1.run k s tried = (none, tried')

theorem leads_empty (s : Place) : Leads empty s s :=
  fun _ tried h => ⟨tried, h, fun _ _ hk => hk⟩

theorem leads_char {a : CharClass} {s : Place} {c : Char} {rest : Text} (hs : s.rest = c :: rest)
    (hc : a.contains c = true) : Leads (char a) s (s.skip [c] rest) := by
  intro n tried h
  refine ⟨tried, h, fun k r hk => ?_⟩
  change ((char a).run k s tried).1 = some r
  simp only [run, hs, if_pos hc]
  exact hk

theorem Leads.seq {p q : Pattern} {s u t : Place} (hp : Leads p s u) (hq : Leads q u t) :
    Leads (seq p q) s t := by
  intro n tried h
  obtain ⟨tried₁, h₁, hrun₁⟩ := hp n tried h
  obtain ⟨tried₂, h₂, hrun₂⟩ := hq _ tried₁ h₁
  exact ⟨tried₂, h₂, fun k r hk => hrun₁ _ r (hrun₂ k r hk)⟩

theorem Leads.group {p : Pattern} {s t : Place} (index : Nat) (h : Leads p s t) :
    Leads (group index p) s { t with groups := (index, s.textTo t) :: t.groups } := by
  intro n tried htried
  obtain ⟨tried', h', hrun⟩ := h n tried htried
  exact ⟨tried', h', fun k r hk => hrun _ r hk⟩

theorem leads_opt {p : Pattern} {s t : Place} (id : Nat) (h : Leads p s t) :
    Leads (opt id true p) s t := by
  intro n tried htried
  obtain ⟨tried', h', hrun⟩ := h (n + 1) _ (htried.insert s.pos)
  exact ⟨tried', h', fun k r hk => choose_first (htried n s.pos (Nat.le_refl n)) (hrun k r hk)⟩

/-- What cannot be read is left out. -/
theorem leads_opt_stop {p : Pattern} {s : Place} (id : Nat) (h : Stops p s) :
    Leads (opt id true p) s s := by
  intro n tried htried
  obtain ⟨tried', h', hrun⟩ := h (n + 1) _ (htried.insert s.pos)
  refine ⟨tried', h', fun k r hk => ?_⟩
  change (choose n _ k s tried).1 = some r
  rwa [choose_second (htried n s.pos (Nat.le_refl n)) (hrun k)]

theorem run_char_stop {α : Type} {a : CharClass} {s : Place}
    (hs : ∀ c, s.rest.head? = some c → a.contains c = false) (k : Search α) (tried : Tried) :
    (char a).run k s tried = (none, tried) := by
  rw [run]
  split
  · rfl
  · next c rest hrest =>
      rw [hrest] at hs
      rw [hs c rfl]
      rfl

theorem stops_char {a : CharClass} {s : Place}
    (hs : ∀ c, s.rest.head? = some c → a.contains c = false) : Stops (char a) s :=
  fun _ tried h => ⟨tried, h, fun k => run_char_stop hs k tried⟩

theorem Stops.seq {p : Pattern} {s : Place} (h : Stops p s) (q : Pattern) : Stops (seq p q) s := by
  intro n tried htried
  obtain ⟨tried', h', hrun⟩ := h n tried htried
  exact ⟨tried', h'.mono (le_label _ q), fun k => hrun _⟩

theorem Skips.seq {p q : Pattern} {s : Place} (hp : Skips p s) (hq : Stops q s) :
    Stops (Pattern.seq p q) s := by
  intro n tried h
  obtain ⟨tried₁, h₁, hrun₁⟩ := hp n tried h
  obtain ⟨tried₂, h₂, hrun₂⟩ := hq _ tried₁ h₁
  exact ⟨tried₂, h₂, fun k => (hrun₁ _).trans (hrun₂ k)⟩

/-! ### Repetitions of a class -/

/-- Where no character of the class comes next, the rounds are over. -/
theorem skips_star {a : CharClass} {s : Place} (id : Nat)
    (hs : ∀ c, s.rest.head? = some c → a.contains c = false) : Skips (star id true (char a)) s := by
  intro n tried h
  refine ⟨tried.insert n s.pos, h.insert s.pos, fun k => ?_⟩
  exact choose_second (h n s.pos (Nat.le_refl n)) (run_char_stop hs _ _)

/-- As many rounds are made as there are characters of the class.  The choice is made once at each
place, so it is open at the places ahead. -/
theorem rounds_char {a : CharClass} {n : Nat} {x y : Text} (hx : ∀ c ∈ x, a.contains c = true)
    (hy : ∀ c, y.head? = some c → a.contains c = false) {m : Nat} {s : Place} {tried : Tried}
    (hs : s.rest = x ++ y) (hm : x.length < m) (hopen : tried.Open (n + 1))
    (hahead : ∀ pos, s.pos ≤ pos → tried.mem n pos = false) :
    ∃ tried', tried'.Open (n + 1) ∧ ∀ (k : Search Place) r, (k (s.skip x y) tried').1 = some r →
      (rounds n true (fun k' => (char a).run k') k m s tried).1 = some r := by
  obtain ⟨m, rfl⟩ : ∃ m', m = m' + 1 := ⟨m - 1, by omega⟩
  have hins : (tried.insert n s.pos).Open (n + 1) := hopen.insert_below (Nat.lt_succ_self n) s.pos
  induction x generalizing m s tried with
  | nil =>
      refine ⟨tried.insert n s.pos, hins, fun k r hk => ?_⟩
      rw [List.nil_append] at hs
      rw [Place.skip_nil hs] at hk
      change (choose n _ k s tried).1 = some r
      rw [choose_second (hahead s.pos (Nat.le_refl _)) (run_char_stop (hs ▸ hy) _ _)]
      exact hk
  | cons c x ih =>
      have hlength : x.length < m := by simpa using hm
      obtain ⟨m, rfl⟩ : ∃ m', m = m' + 1 := ⟨m - 1, by omega⟩
      have hrest : (s.skip [c] (x ++ y)).rest = x ++ y := rfl
      obtain ⟨tried', h', hrun⟩ := ih (fun d hd => hx d (List.mem_cons_of_mem c hd)) hrest hins
        (fun pos hpos => Tried.mem_insert_ahead (hahead pos (Nat.le_of_succ_le hpos)) hpos) m
        hlength (hins.insert_below (Nat.lt_succ_self n) _)
      refine ⟨tried', h', fun k r hk => ?_⟩
      refine choose_first (hahead s.pos (Nat.le_refl _)) ?_
      rw [List.cons_append] at hs
      simp only [run, hs, if_pos (hx c List.mem_cons_self)]
      refine hrun k r ?_
      rwa [Place.skip_skip, List.singleton_append]

/-- **A repetition of a class reads all of its characters that come next.** -/
theorem leads_star {a : CharClass} {x y : Text} (id : Nat) (hx : ∀ c ∈ x, a.contains c = true)
    (hy : ∀ c, y.head? = some c → a.contains c = false) {s : Place} (hs : s.rest = x ++ y) :
    Leads (star id true (char a)) s (s.skip x y) := by
  intro n tried h
  have hlength : x.length < s.rest.length + 1 := by
    rw [hs, List.length_append]
    omega
  exact rounds_char hx hy hs hlength (h.mono (Nat.le_succ n)) fun pos _ => h n pos (Nat.le_refl n)

/-- **The match that is found** where a search goes straight on. -/
theorem matchAt?_of_leads {p : Pattern} {s t : Place} (h : Leads p s t) {n : Nat} {tried : Tried}
    (htried : tried.Open n) :
    ((p.label n).1.matchAt? s tried).1 = some ⟨s.textTo t, t.groups⟩ := by
  obtain ⟨tried', -, hrun⟩ := h n tried htried
  change Option.map _ ((p.label n).1.run _ s tried).1 = _
  rw [hrun _ t rfl]
  rfl

/-! ### Texts that are read straight on -/

/-- **A search for the pattern reads the text `x` straight on, where `y` follows it**, and notes the
groups `gs`, the latest first. -/
def Reads (p : Pattern) (x y : Text) (gs : List (Nat × Text)) : Prop :=
  ∀ s : Place, s.rest = x ++ y →
    ∃ t, Leads p s t ∧ t.rest = y ∧ t.pos = s.pos + x.length ∧ t.groups = gs ++ s.groups

theorem reads_empty (y : Text) : Reads empty [] y [] :=
  fun s hs => ⟨s, leads_empty s, hs, rfl, rfl⟩

theorem reads_char {a : CharClass} {c : Char} (hc : a.contains c = true) (y : Text) :
    Reads (char a) [c] y [] :=
  fun _ hs => ⟨_, leads_char hs hc, rfl, rfl, rfl⟩

theorem reads_star {a : CharClass} {x y : Text} (hx : ∀ c ∈ x, a.contains c = true)
    (hy : ∀ c, y.head? = some c → a.contains c = false) :
    Reads (star 0 true (char a)) x y [] :=
  fun _ hs => ⟨_, leads_star 0 hx hy hs, rfl, rfl, rfl⟩

section Combinations

variable {p q : Pattern} {x x' y : Text} {gs gs' : List (Nat × Text)}

theorem Reads.seq (hp : Reads p x (x' ++ y) gs) (hq : Reads q x' y gs') :
    Reads (seq p q) (x ++ x') y (gs' ++ gs) := by
  intro s hs
  rw [List.append_assoc] at hs
  obtain ⟨u, hu, hurest, hupos, hugroups⟩ := hp s hs
  obtain ⟨t, ht, htrest, htpos, htgroups⟩ := hq u hurest
  refine ⟨t, hu.seq ht, htrest, ?_, ?_⟩
  · rw [htpos, hupos, List.length_append, Nat.add_assoc]
  · rw [htgroups, hugroups, List.append_assoc]

theorem Reads.group (index : Nat) (h : Reads p x y gs) :
    Reads (group index p) x y ((index, x) :: gs) := by
  intro s hs
  obtain ⟨t, ht, hrest, hpos, hgroups⟩ := h s hs
  have htext : s.textTo t = x := by
    rw [Place.textTo, hs, hpos, Nat.add_sub_cancel_left, List.take_left]
  refine ⟨_, ht.group index, hrest, hpos, ?_⟩
  rw [htext, hgroups, List.cons_append]

theorem Reads.opt (h : Reads p x y gs) : Reads (opt 0 true p) x y gs := by
  intro s hs
  obtain ⟨t, ht, hrest⟩ := h s hs
  exact ⟨t, leads_opt 0 ht, hrest⟩

/-- A part that cannot be read is left out. -/
theorem reads_opt_stop (h : ∀ s : Place, s.rest = y → Stops p s) : Reads (.opt 0 true p) [] y [] :=
  fun s hs => ⟨s, leads_opt_stop 0 (h s hs), hs, rfl, rfl⟩

theorem Reads.concat_cons {ps : List Pattern} (hp : Reads p x (x' ++ y) gs) (hne : ps ≠ [])
    (hps : Reads (concat ps) x' y gs') : Reads (concat (p :: ps)) (x ++ x') y (gs' ++ gs) := by
  rw [Pattern.concat_cons hne]
  exact hp.seq hps

end Combinations

/-- **The match of a text that is read to its end.** -/
theorem Reads.matchAt? {p : Pattern} {x : Text} {gs : List (Nat × Text)} (h : Reads p x [] gs)
    (before : Option Char) :
    (((p.label 0).1).matchAt? ⟨before, x, 0, []⟩ []).1 = some ⟨x, gs⟩ := by
  obtain ⟨t, ht, hrest, hpos, hgroups⟩ := h ⟨before, x, 0, []⟩ (List.append_nil x).symm
  rw [matchAt?_of_leads ht (Tried.open_nil 0)]
  simp only [Place.textTo, hpos, hgroups, Nat.zero_add, Nat.sub_zero, List.take_length,
    List.append_nil]

/-- Behind a match that goes to the end nothing is left. -/
theorem replaceFrom_matched (p : Pattern) (new : Match → Text) (s : Text) (before : Option Char)
    (pos : Nat) (tried : Tried) : p.replaceFrom new s.length true before pos tried s = [] := by
  induction s generalizing before pos with
  | nil =>
      rw [List.length_nil, replaceFrom]
      split <;> rfl
  | cons c s ih =>
      rw [List.length_cons, replaceFrom]
      exact ih (some c) (pos + 1)

/-- **A text that is one match** is replaced as a whole. -/
theorem replaceAll_whole {p : Pattern} {m : Match} {s : Text} (new : Match → Text) (hs : s ≠ [])
    (hm : m.text = s) (h : (p.matchAt? ⟨none, s, 0, []⟩ []).1 = some m) :
    p.replaceAll new s = new m := by
  obtain ⟨c, s, rfl⟩ := List.exists_cons_of_ne_nil hs
  obtain ⟨tried, h⟩ : ∃ tried, p.matchAt? ⟨none, c :: s, 0, []⟩ [] = (some m, tried) :=
    ⟨_, Prod.ext h rfl⟩
  rw [replaceAll, replaceFrom, h]
  simp only [hm, List.isEmpty_cons, Bool.false_eq_true, if_false, List.length_cons,
    Nat.add_sub_cancel, replaceFrom_matched, List.append_nil]

end Pattern

end Softcode
