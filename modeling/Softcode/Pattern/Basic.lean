/-
**Patterns and how they match.**

A pattern describes texts; this module says which text a pattern matches at a place, and which one
when there are several.  Alternatives are tried from left to right, a greedy repetition prefers one
more round, a lazy one prefers to stop: the match of a pattern at a place is the first one in this
order.  A pattern is run with a continuation that says what has to follow it, so the order of the
choices is the order in which the continuation is tried.

Every point of choice has a number, and what follows a choice depends only on its number and on the
place in the text.  So no choice is made twice at one place: a search remembers which choices it has
made where, and one that is met again fails, since it has failed before or is still being made.  In
particular a round of a repetition that reads nothing is not repeated; and since all other rounds
read a character, the length of what is left to read bounds the rounds.

Main definitions:

* `Softcode.Look` — conditions on the two neighbours of a place;
* `Softcode.Pattern` — patterns;
* `Softcode.Place` — a place in a text, with what has been matched so far;
* `Softcode.Tried` — the choices made so far;
* `Softcode.Pattern.run` — the first way to match a pattern and then what follows;
* `Softcode.Pattern.matchAt?` — the match at a place;
* `Softcode.Pattern.replaceAll` — the replacement of all matches.
-/

import Softcode.Pattern.CharClass
import Softcode.Word

set_option autoImplicit false

namespace Softcode

/-! ### Conditions on a place -/

/-- Conditions on the characters before and after a place. -/
inductive Look where
  | textStart
  | textEnd
  | lineStart
  | lineEnd
  | lineStartCrlf
  | lineEndCrlf
  | boundary
  | notBoundary
  | wordStart
  | wordEnd
  | wordStartHalf
  | wordEndHalf

/-- Whether a condition holds between two neighbours, with the given notion of a word
character. -/
def Look.holds (isWord : Char → Bool) (before after : Option Char) : Look → Bool
  | textStart => before.isNone
  | textEnd => after.isNone
  | lineStart => before.isNone || before == some '\n'
  | lineEnd => after.isNone || after == some '\n'
  | lineStartCrlf =>
      before.isNone || before == some '\n' || (before == some '\r' && after != some '\n')
  | lineEndCrlf =>
      after.isNone || after == some '\r' || (after == some '\n' && before != some '\r')
  | boundary => before.any isWord != after.any isWord
  | notBoundary => before.any isWord == after.any isWord
  | wordStart => !before.any isWord && after.any isWord
  | wordEnd => before.any isWord && !after.any isWord
  | wordStartHalf => !before.any isWord
  | wordEndHalf => !after.any isWord

/-! ### Patterns -/

/-- A pattern.  Choices carry a number; of the repetitions, `star` and `plus` are unbounded and a
flag says whether one more round is preferred. -/
inductive Pattern where
  | empty
  | char (a : CharClass)
  | look (l : Look)
  | asciiLook (l : Look)
  | seq (p q : Pattern)
  | alt (id : Nat) (p q : Pattern)
  | opt (id : Nat) (greedy : Bool) (p : Pattern)
  | star (id : Nat) (greedy : Bool) (p : Pattern)
  | plus (id : Nat) (greedy : Bool) (p : Pattern)
  | group (index : Nat) (p : Pattern)

/-- A place in a text: the character before it, the text after it and its distance from the
beginning; further the texts of the groups matched so far, the latest first. -/
structure Place where
  before : Option Char
  rest : Text
  pos : Nat
  groups : List (Nat × Text)

namespace Place

/-- The place behind the next character `c`. -/
def advance (s : Place) (c : Char) (rest : Text) : Place :=
  { s with before := some c, rest := rest, pos := s.pos + 1 }

/-- The text between a place and a later one. -/
def textTo (s t : Place) : Text := s.rest.take (t.pos - s.pos)

end Place

/-! ### Choices -/

/-- The choices made so far: a row for every number, which has a bit for every place. -/
abbrev Tried := List Nat

namespace Tried

/-- Whether the choice with a number has been made at a place. -/
def mem : Tried → Nat → Nat → Bool
  | [], _, _ => false
  | row :: _, 0, pos => row.testBit pos
  | _ :: rows, id + 1, pos => mem rows id pos

/-- The choice with a number noted at a place. -/
def insert : Tried → Nat → Nat → Tried
  | [], 0, pos => [1 <<< pos]
  | [], id + 1, pos => 0 :: insert [] id pos
  | row :: rows, 0, pos => (row ||| 1 <<< pos) :: rows
  | row :: rows, id + 1, pos => row :: insert rows id pos

@[simp] theorem mem_nil (id pos : Nat) : mem [] id pos = false := rfl

theorem mem_insert (t : Tried) (id pos id' pos' : Nat) :
    (t.insert id pos).mem id' pos' = (t.mem id' pos' || (id = id' && pos = pos')) := by
  induction t generalizing id id' with
  | nil =>
      induction id generalizing id' with
      | zero => cases id' <;> simp [insert, mem, Nat.one_shiftLeft, Nat.testBit_two_pow]
      | succ id ih => cases id' <;> simp_all [insert, mem]
  | cons row rows ih =>
      cases id <;> cases id' <;> simp_all [insert, mem, Nat.one_shiftLeft, Nat.testBit_two_pow]

end Tried

/-- A search: from a place on, where some choices have been made, it finds something or nothing, and
says which choices have been made then. -/
abbrev Search (α : Type) := Place → Tried → Option α × Tried

namespace Pattern

variable {α : Type}

/-- The first success of two searches; nothing, if the choice between them has been made here
before. -/
def choose (id : Nat) (first second : Search α) : Search α := fun s tried =>
  if tried.mem id s.pos then (none, tried)
  else
    match first s (tried.insert id s.pos) with
    | (some r, tried') => (some r, tried')
    | (none, tried') => second s tried'

/-- The choice between one more round and the end of the rounds. -/
def prefer (id : Nat) (greedy : Bool) (more stop : Search α) : Search α :=
  if greedy then choose id more stop else choose id stop more

/-- Rounds of `body` and then `k`, with at most `n` further rounds. -/
def rounds (id : Nat) (greedy : Bool) (body : Search α → Search α) (k : Search α) :
    Nat → Search α
  | 0, _, tried => (none, tried)
  | n + 1, s, tried =>
      prefer id greedy (body fun t tried' => rounds id greedy body k n t tried') k s tried

/-- **The first way to match a pattern at a place such that `k` succeeds behind it.** -/
def run : Pattern → Search α → Search α
  | empty, k, s, tried => k s tried
  | char a, k, s, tried =>
      match s.rest with
      | [] => (none, tried)
      | c :: rest => if a.contains c then k (s.advance c rest) tried else (none, tried)
  | look l, k, s, tried =>
      if l.holds isWordClass s.before s.rest.head? then k s tried else (none, tried)
  | asciiLook l, k, s, tried =>
      if l.holds CharClass.asciiWord.contains s.before s.rest.head? then k s tried
      else (none, tried)
  | seq p q, k, s, tried => run p (run q k) s tried
  | alt id p q, k, s, tried => choose id (run p k) (run q k) s tried
  | opt id greedy p, k, s, tried => prefer id greedy (run p k) k s tried
  | star id greedy p, k, s, tried =>
      rounds id greedy (fun k' => run p k') k (s.rest.length + 1) s tried
  | plus id greedy p, k, s, tried =>
      run p
        (fun t => rounds id greedy (fun k' => run p k') k (t.rest.length + 1) t) s tried
  | group index p, k, s, tried =>
      run p (fun t => k { t with groups := (index, s.textTo t) :: t.groups }) s tried

/-! ### Matches -/

/-- A match: its text and the texts of its groups. -/
structure Match where
  text : Text
  groups : List (Nat × Text)

/-- The text of a group, if it took part in the match; group `0` is the whole match. -/
def Match.group? (m : Match) (index : Nat) : Option Text :=
  if index = 0 then some m.text else (m.groups.find? fun g => g.1 = index).map (·.2)

/-- The match of a pattern at a place of a text, and the choices made. -/
def matchAt? (p : Pattern) : Search Match := fun start tried =>
  let (found, tried') := p.run (fun t tried' => (some t, tried')) start tried
  (found.map fun t => ⟨start.textTo t, t.groups⟩, tried')

/-- The text with all matches replaced, from a place on.  The next `skip` characters belong to a
match that is already replaced; `ended` says that a match ends at this place, where no empty match
is taken.  The choices that have failed since the last match are remembered. -/
def replaceFrom (p : Pattern) (new : Match → Text) :
    Nat → Bool → Option Char → Nat → Tried → Text → Text
  | _ + 1, _, _, _, _, [] => []
  | skip + 1, _, _, pos, tried, c :: s => replaceFrom p new skip true (some c) (pos + 1) tried s
  | 0, ended, before, pos, tried, [] =>
      match (p.matchAt? ⟨before, [], pos, []⟩ tried).1 with
      | none => []
      | some m => if ended then [] else new m
  | 0, ended, before, pos, tried, c :: s =>
      match p.matchAt? ⟨before, c :: s, pos, []⟩ tried with
      | (none, tried') => c :: replaceFrom p new 0 false (some c) (pos + 1) tried' s
      | (some m, _) =>
          if m.text.isEmpty then
            (if ended then [] else new m) ++
              c :: replaceFrom p new 0 false (some c) (pos + 1) [] s
          else new m ++ replaceFrom p new (m.text.length - 1) true (some c) (pos + 1) [] s

/-- **The text with all matches of a pattern replaced, from left to right.** -/
def replaceAll (p : Pattern) (new : Match → Text) (s : Text) : Text :=
  p.replaceFrom new 0 false none 0 [] s

/-! ### Building patterns -/

/-- Whether a pattern matches the empty text only. -/
def onlyEmpty : Pattern → Bool
  | empty | look _ | asciiLook _ => true
  | char _ => false
  | seq p q | alt _ p q => p.onlyEmpty && q.onlyEmpty
  | opt _ _ p | star _ _ p | plus _ _ p | group _ p => p.onlyEmpty

/-- Whether a pattern may match the empty text. -/
def nullable : Pattern → Bool
  | empty | look _ | asciiLook _ | opt .. | star .. => true
  | char _ => false
  | seq p q => p.nullable && q.nullable
  | alt _ p q => p.nullable || q.nullable
  | plus _ _ p | group _ p => p.nullable

/-- `n` times `p` and then `q`. -/
def times (p : Pattern) : Nat → Pattern → Pattern
  | 0, q => q
  | n + 1, q => seq p (times p n q)

/-- At most `n` times `p`. -/
def atMost (greedy : Bool) (p : Pattern) : Nat → Pattern
  | 0 => empty
  | 1 => opt 0 greedy p
  | n + 2 => opt 0 greedy (seq p (atMost greedy p (n + 1)))

/-- Any number of times `p`.  A body that may be empty gets a first round of its own. -/
def anyTimes (greedy : Bool) (p : Pattern) : Pattern :=
  if p.nullable then opt 0 greedy (plus 0 greedy p) else star 0 greedy p

/-- From `min` to `max` times `p`; a body that matches the empty text only is repeated at most
once. -/
def repeated (greedy : Bool) (p : Pattern) (min : Nat) (max : Option Nat) : Pattern :=
  let min' := if p.onlyEmpty then Nat.min min 1 else min
  let max' := if p.onlyEmpty then some ((max.getD 1).min 1) else max
  match min', max' with
  | 0, none => anyTimes greedy p
  | n + 1, none => times p n (plus 0 greedy p)
  | n, some m =>
      if m ≤ n then
        match n with
        | 0 => empty
        | n + 1 => times p n p
      else times p n (atMost greedy p (m - n))

/-- The pattern with its choices numbered from `n` on, and the first number that is not used. -/
def label : Nat → Pattern → Pattern × Nat
  | n, empty => (empty, n)
  | n, char a => (char a, n)
  | n, look l => (look l, n)
  | n, asciiLook l => (asciiLook l, n)
  | n, seq p q =>
      let (p', n₁) := label n p
      let (q', n₂) := label n₁ q
      (seq p' q', n₂)
  | n, alt _ p q =>
      let (p', n₁) := label (n + 1) p
      let (q', n₂) := label n₁ q
      (alt n p' q', n₂)
  | n, opt _ greedy p =>
      let (p', n₁) := label (n + 1) p
      (opt n greedy p', n₁)
  | n, star _ greedy p =>
      let (p', n₁) := label (n + 1) p
      (star n greedy p', n₁)
  | n, plus _ greedy p =>
      let (p', n₁) := label (n + 1) p
      (plus n greedy p', n₁)
  | n, group index p =>
      let (p', n₁) := label n p
      (group index p', n₁)

end Pattern

end Softcode
