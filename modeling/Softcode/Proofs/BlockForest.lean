/-
**Block forests: the sentences of the block language, and what they mean.**

A stream of lines in which every block is closed is a forest printed to lines: text, and blocks with
the forest between their first line and their last.  This module says what such a forest means,
without any scanning for the end of a block: a text is itself, and a block means what its bodies
mean, one after the other.  A loop has a body for each of its numbers, with the number put for the
variable everywhere, in the headers of inner blocks too; a condition and a debug section have one
body or none.

Putting a number in is an operation on forests: the parts carry what makes them parts — text is
neither an opener nor a closer, a bound has no comma, a condition is not blank — and each of these
survives.  So printing commutes with it, and blocks are found where they were printed.

Main definitions:

* `Softcode.Template.Header`, `Softcode.Template.Forest` — **the block language**;
* `Softcode.Template.Forest.lines` — a forest printed to lines;
* `Softcode.Template.Forest.put` — a number put for a variable, everywhere in a forest;
* `Softcode.Template.Header.bodies`, `Softcode.Template.Forest.expansion` — **what a forest means**;
* `Softcode.Template.Forest.Fits` — forests that stay within the limits of processing.

Main results:

* `Softcode.Template.Forest.instantiate_lines` — **printing commutes with putting a number in**;
* `Softcode.Template.Header.parseOpener?_text` — a header is read as what was printed;
* `Softcode.Template.Forest.splitBlock?_lines` — a block ends where it was printed to end.
-/

import Softcode.Proofs.BlockOpener
import Softcode.Proofs.Parentheses

set_option autoImplicit false

namespace Softcode

namespace Template

/-! ### Loop variables -/

/-- A loop variable: a word that is not empty. -/
structure LoopVar where
  name : Text
  ne_nil : name ≠ []
  word : ∀ c ∈ name, isWordChar c = true

namespace LoopVar

variable (v : LoopVar) (n : Int)

/-- A text with a number for the variable. -/
def put (s : Text) : Text := replaceText (placeholder v.name) (Text.ofInt n) s

theorem placeholder_ne_nil : placeholder v.name ≠ [] := List.cons_ne_nil _ _

theorem brace_mem_placeholder : '\x7b' ∈ placeholder v.name := List.mem_cons_self

theorem closing_mem_placeholder : '\x7d' ∈ placeholder v.name := by simp [placeholder]

/-- Apart from braces only characters of words stand for a variable. -/
theorem not_mem_placeholder {c : Char} (hopen : c ≠ '\x7b') (hclose : c ≠ '\x7d')
    (hword : isWordChar c = false) : c ∉ placeholder v.name := by
  intro hc
  simp only [placeholder, List.mem_append, List.mem_cons, List.not_mem_nil, or_false] at hc
  rcases hc with ((h | h) | h) | (h | h)
  · exact hopen h
  · exact hopen h
  · rw [v.word c h] at hword
    cases hword
  · exact hclose h
  · exact hclose h

/-- A number is put in on the two sides of a separator. -/
theorem put_append_sep {c : Char} (hc : c ∈ [' ', '(', ')', ',']) (x y : Text) :
    v.put n (x ++ c :: y) = v.put n x ++ c :: v.put n y := by
  have hseps : ([' ', '(', ')', ','].all fun c =>
      c ≠ '\x7b' ∧ c ≠ '\x7d' ∧ isWordChar c = false) = true := by decide +kernel
  obtain ⟨hopen, hclose, hword⟩ := of_decide_eq_true (List.all_eq_true.1 hseps c hc)
  exact replaceText_append_sep v.placeholder_ne_nil (v.not_mem_placeholder hopen hclose hword) x y

theorem put_of_not_mem_brace {s : Text} (h : '\x7b' ∉ s) : v.put n s = s :=
  replaceText_of_not_mem v.placeholder_ne_nil v.brace_mem_placeholder h

theorem put_of_not_mem_closing {s : Text} (h : '\x7d' ∉ s) : v.put n s = s :=
  replaceText_of_not_mem v.placeholder_ne_nil v.closing_mem_placeholder h

theorem brace_not_mem_name : '\x7b' ∉ v.name := by
  intro h
  exact absurd (v.word _ h) (by decide +kernel)

theorem mem_put {s : Text} {c : Char} (h : c ∈ v.put n s) : c ∈ s ∨ c ∈ Text.ofInt n :=
  mem_replaceText v.placeholder_ne_nil h

end LoopVar

/-! ### The parts of a forest -/

/-- A line that neither opens nor closes a block. -/
structure PlainLine where
  line : Line
  not_opener : isBlockOpener line.text = false
  not_closer : isCloser line.text = false

/-- A bound of a loop: a text without commas. -/
structure Bound where
  text : Text
  no_comma : ',' ∉ text

/-- A condition: a text that is not blank. -/
structure Condition where
  text : Text
  not_blank : ¬ Text.AllBlank text

/-- What a block is: a loop with its variable and bounds, a condition, or a debug section. -/
inductive Header where
  | loop (v : LoopVar) (first last : Bound)
  | cond (c : Condition)
  | debug

/-- Where a line comes from. -/
structure Place where
  file : String
  number : Nat

/-- The line at a place. -/
def Place.line (p : Place) (text : Text) : Line := ⟨text, p.file, p.number⟩

/-- **Block forests**: lines of text, and blocks with the places of their first and last lines and
the forest between these. -/
inductive Forest where
  | nil
  | text (l : PlainLine) (rest : Forest)
  | block (h : Header) (opener closer : Place) (children rest : Forest)

/-! ### Printing -/

/-- What stands between the variable of a loop and its bounds. -/
def inRange : Text := [' ', 'i', 'n', ' ', 'r', 'a', 'n', 'g', 'e', '(']

/-- Two bounds with a comma between them. -/
def boundsText (first last : Bound) : Text := first.text ++ ',' :: ' ' :: last.text

/-- The first line of a block: `#for VAR in range(FIRST, LAST) {`, `#if CONDITION {` or
`#debug {`. -/
def Header.text : Header → Text
  | .loop v first last =>
      '#' :: (forName ++ ' ' ::
        (v.name ++ (inRange ++ (boundsText first last ++ [')', ' ', '\x7b']))))
  | .cond c => '#' :: (ifName ++ ' ' :: (c.text ++ [' ', '\x7b']))
  | .debug => '#' :: (debugName ++ [' ', '\x7b'])

/-- The lines of a forest; a block ends with a line `}`. -/
def Forest.lines : Forest → List Line
  | .nil => []
  | .text l rest => l.line :: rest.lines
  | .block h opener closer children rest =>
      opener.line h.text :: (children.lines ++ closer.line ['\x7d'] :: rest.lines)

/-- How deeply the blocks of a forest are nested. -/
def Forest.depth : Forest → Nat
  | .nil => 0
  | .text _ rest => rest.depth
  | .block _ _ _ children rest => max (children.depth + 1) rest.depth

/-- The number of texts and blocks of a forest. -/
def Forest.size : Forest → Nat
  | .nil => 0
  | .text _ rest => rest.size + 1
  | .block _ _ _ children rest => children.size + rest.size + 1

/-! ### Putting a number in -/

section Put

variable (v : LoopVar) (n : Int)

/-- A line of text stays one. -/
def PlainLine.put (l : PlainLine) : PlainLine where
  line := l.line.withText (v.put n l.line.text)
  not_opener := by
    refine Bool.eq_false_iff.2 fun h => ?_
    have := isBlockOpener_of_replaceText v.placeholder_ne_nil n h
    rw [l.not_opener] at this
    cases this
  not_closer := by
    refine Bool.eq_false_iff.2 fun h => ?_
    have := isCloser_of_replaceText v.placeholder_ne_nil n h
    rw [l.not_closer] at this
    cases this

/-- A bound stays without commas. -/
def Bound.put (b : Bound) : Bound where
  text := v.put n b.text
  no_comma := fun h => (v.mem_put n h).elim b.no_comma (not_mem_ofInt (by decide) n)

/-- A condition does not become blank. -/
def Condition.put (c : Condition) : Condition where
  text := v.put n c.text
  not_blank := by
    intro h
    -- numbers are not blank, so nothing was put in
    have hsame : c.text = v.put n c.text :=
      eq_of_replaceText_eq v.placeholder_ne_nil (ofInt_ne_nil n)
        (fun d hd => not_mem_ofInt (isNumeral_of_blank (h d hd)) n) rfl
    exact c.not_blank (hsame ▸ h)

/-- A header with a number for a variable. -/
def Header.put : Header → Header
  | .loop w first last => .loop w (first.put v n) (last.put v n)
  | .cond c => .cond (c.put v n)
  | .debug => .debug

/-- **A forest with a number for a variable**, everywhere. -/
def Forest.put : Forest → Forest
  | .nil => .nil
  | .text l rest => .text (l.put v n) rest.put
  | .block h opener closer children rest =>
      .block (h.put v n) opener closer children.put rest.put

@[simp] theorem Forest.depth_put (f : Forest) : (f.put v n).depth = f.depth := by
  induction f with
  | nil => rfl
  | text l rest ih => exact ih
  | block h opener closer children rest ihc ihr => simp [put, depth, ihc, ihr]

@[simp] theorem Forest.size_put (f : Forest) : (f.put v n).size = f.size := by
  induction f with
  | nil => rfl
  | text l rest ih => simp [put, size, ih]
  | block h opener closer children rest ihc ihr => simp [put, size, ihc, ihr]

/-- The header of a loop changes in its bounds only, that of a condition in the condition only. -/
theorem Header.put_text (h : Header) : v.put n h.text = (h.put v n).text := by
  have hend : v.put n [' ', '\x7b'] = [' ', '\x7b'] := v.put_of_not_mem_closing n (by decide)
  cases h with
  | loop w first last =>
      -- the bounds stand between a parenthesis, a comma with a blank, and another parenthesis
      have hfront : '\x7b' ∉ '#' :: (forName ++ ' ' :: (w.name ++ inRange.dropLast)) := by
        intro h
        simp only [List.mem_cons, List.mem_append] at h
        rcases h with h | h | h | h | h
        · cases h
        · exact absurd h (by decide)
        · cases h
        · exact w.brace_not_mem_name h
        · exact absurd h (by decide)
      have hcut : (Header.loop w first last).text =
          ('#' :: (forName ++ ' ' :: (w.name ++ inRange.dropLast))) ++ '(' ::
            (first.text ++ ',' :: ([] ++ ' ' :: (last.text ++ ')' :: [' ', '\x7b']))) := by
        simp [text, inRange, boundsText]
      rw [hcut, v.put_append_sep n (by simp), v.put_of_not_mem_brace n hfront,
        v.put_append_sep n (by simp), v.put_append_sep n (by simp), v.put_append_sep n (by simp),
        hend, v.put_of_not_mem_brace n List.not_mem_nil]
      simp [put, text, inRange, boundsText, Bound.put]
  | cond c =>
      have hcut : (Header.cond c).text =
          ('#' :: ifName) ++ ' ' :: (c.text ++ ' ' :: ['\x7b']) := by
        simp [text]
      rw [hcut, v.put_append_sep n (by simp), v.put_append_sep n (by simp),
        v.put_of_not_mem_brace n (s := '#' :: ifName) (by decide),
        v.put_of_not_mem_closing n (s := ['\x7b']) (by decide)]
      simp [put, text, Condition.put]
  | debug => exact v.put_of_not_mem_closing n (by decide)

/-- **Printing commutes with putting a number in.** -/
theorem Forest.instantiate_lines (f : Forest) :
    instantiate v.name n f.lines = (f.put v n).lines := by
  induction f with
  | nil => rfl
  | text l rest ih => exact congrArg (_ :: ·) ih
  | block h opener closer children rest ihc ihr =>
      have hopener : (opener.line h.text).withText (v.put n h.text) =
          opener.line (h.put v n).text := by rw [Header.put_text]; rfl
      have hcloser : (closer.line ['\x7d']).withText (v.put n ['\x7d']) = closer.line ['\x7d'] := by
        rw [v.put_of_not_mem_brace n (by decide)]
        rfl
      calc instantiate v.name n (Forest.block h opener closer children rest).lines
          = (opener.line h.text).withText (v.put n h.text) ::
              (instantiate v.name n children.lines ++
                (closer.line ['\x7d']).withText (v.put n ['\x7d']) ::
                  instantiate v.name n rest.lines) := by
            simp only [lines, instantiate, List.map_cons, List.map_append]
            rfl
        _ = ((Forest.block h opener closer children rest).put v n).lines := by
            rw [hopener, hcloser, ihc, ihr]
            rfl

end Put

/-! ### What a forest means -/

/-- The value of a bound, if it has one. -/
def Bound.value? (b : Bound) : Option Int := (Expr.evalInt (Text.trim b.text)).toOption

/-- The numbers from `first` on, as many as given. -/
def numbersFrom (first : Int) (count : Nat) : List Int :=
  (List.range count).map fun (k : Nat) => first + k

/-- The numbers from `first` to `last`, ascending; there are none if `last` is smaller. -/
def numbers (first last : Int) : List Int := numbersFrom first (last - first + 1).toNat

/-- **The bodies of a block**: one for each number of a loop, and one or none of a condition, which
has to be true, and of a debug section. -/
def Header.bodies (debug : Bool) (h : Header) (children : Forest) : List Forest :=
  match h with
  | .loop v first last =>
      match first.value?, last.value? with
      | some a, some b => (numbers a b).map fun n => children.put v n
      | _, _ => []
  | .cond c =>
      match Expr.evalBool (Text.trim c.text) with
      | .ok true => [children]
      | _ => []
  | .debug => if debug then [children] else []

/-- A body is what stands in the block, perhaps with a number put in. -/
theorem Header.mem_bodies {debug : Bool} {h : Header} {children f : Forest}
    (hf : f ∈ h.bodies debug children) : f = children ∨ ∃ v n, f = children.put v n := by
  cases h with
  | loop v first last =>
      simp only [bodies] at hf
      split at hf
      · obtain ⟨n, -, rfl⟩ := List.mem_map.1 hf
        exact Or.inr ⟨v, n, rfl⟩
      · exact absurd hf List.not_mem_nil
  | cond c =>
      simp only [bodies] at hf
      split at hf
      · exact Or.inl (List.mem_singleton.1 hf)
      · exact absurd hf List.not_mem_nil
  | debug =>
      simp only [bodies] at hf
      split at hf
      · exact Or.inl (List.mem_singleton.1 hf)
      · exact absurd hf List.not_mem_nil

theorem Header.size_of_mem_bodies {debug : Bool} {h : Header} {children f : Forest}
    (hf : f ∈ h.bodies debug children) : f.size = children.size := by
  rcases mem_bodies hf with rfl | ⟨v, n, rfl⟩
  · rfl
  · exact Forest.size_put v n children

theorem Header.depth_of_mem_bodies {debug : Bool} {h : Header} {children f : Forest}
    (hf : f ∈ h.bodies debug children) : f.depth = children.depth := by
  rcases mem_bodies hf with rfl | ⟨v, n, rfl⟩
  · rfl
  · exact Forest.depth_put v n children

/-- **What a forest means**: texts are themselves, and a block is what its bodies mean, in order. -/
def Forest.expansion (debug : Bool) : Forest → List Line
  | .nil => []
  | .text l rest => l.line :: rest.expansion debug
  | .block h _ _ children rest =>
      ((h.bodies debug children).attach.flatMap fun f => f.1.expansion debug) ++
        rest.expansion debug
termination_by f => f.size
decreasing_by
  · simp [size]
  · have hsize := Header.size_of_mem_bodies f.2
    simp only [size]
    omega
  · simp only [size]
    omega

theorem Forest.expansion_block (debug : Bool) (h : Header) (opener closer : Place)
    (children rest : Forest) :
    (Forest.block h opener closer children rest).expansion debug =
      (h.bodies debug children).flatMap (Forest.expansion debug) ++ rest.expansion debug := by
  simp only [expansion, List.flatMap_subtype, List.unattach_attach]

/-! ### Limits -/

/-- A header whose numbers, if it is a loop, are not too many. -/
def Header.FewRounds : Header → Prop
  | .loop _ first last =>
      ∀ a b, first.value? = some a → last.value? = some b → b - a + 1 ≤ maxRounds
  | .cond _ => True
  | .debug => True

/-- Whether a header is that of a loop. -/
def Header.isLoop : Header → Bool
  | .loop .. => true
  | _ => false

/-- A property of bodies that are written one after the other, each with the number of lines that
stand before it; `size` lines stand before all of them. -/
def InTurn (debug : Bool) (p : Nat → Forest → Prop) (size : Nat) (bodies : List Forest) : Prop :=
  ∀ pre f post, bodies = pre ++ f :: post →
    p (size + (pre.flatMap (Forest.expansion debug)).length) f

/-- **Forests that stay within the limits** when `size` lines are written before them: no loop that
is met has too many rounds, and whenever a round begins there is room for the body as it is
printed. -/
inductive Forest.Fits (debug : Bool) : Nat → Forest → Prop where
  | nil (size : Nat) : Fits debug size .nil
  | text {size : Nat} (l : PlainLine) {rest : Forest} (hrest : Fits debug (size + 1) rest) :
      Fits debug size (.text l rest)
  | block {size : Nat} {h : Header} (opener closer : Place) {children rest : Forest}
      (hrounds : h.FewRounds)
      (hroom : h.isLoop = true →
        InTurn debug (fun before _ => before + children.lines.length ≤ maxLines) size
          (h.bodies debug children))
      (hbodies : InTurn debug (fun before f => Fits debug before f) size (h.bodies debug children))
      (hrest : Fits debug
        (size + ((h.bodies debug children).flatMap (Forest.expansion debug)).length) rest) :
      Fits debug size (.block h opener closer children rest)

/-! ### Reading headers -/

/-- The block that a header begins. -/
def Header.opener : Header → Opener
  | .loop v first last => .loop v.name (boundsText first last)
  | .cond c => .cond (Text.trim c.text)
  | .debug => .debug

theorem LoopVar.not_blank (v : LoopVar) : ∀ c ∈ v.name, (!isBlank c) = true := by
  intro c hc
  rw [isBlank_of_isWordChar (v.word c hc)]
  rfl

theorem parseLoop?_append (v : LoopVar) (bounds : Text) :
    parseLoop? (v.name ++ (inRange ++ (bounds ++ [')']))) = some (.loop v.name bounds) := by
  have htake : (v.name ++ (inRange ++ (bounds ++ [')']))).takeWhile (fun c => !isBlank c) =
      v.name := by
    rw [List.takeWhile_append_of_pos v.not_blank]
    simp [inRange, show isBlank ' ' = true by decide]
  have hdrop : (v.name ++ (inRange ++ (bounds ++ [')']))).dropWhile (fun c => !isBlank c) =
      inRange ++ (bounds ++ [')']) := by
    rw [List.dropWhile_append_of_pos v.not_blank]
    simp [inRange, show isBlank ' ' = true by decide]
  have hword : v.name.all isWordChar = true := List.all_eq_true.2 v.word
  have hend : Text.dropSuffix? [')'] (bounds ++ [')']) = some bounds :=
    Text.dropSuffix?_eq_some_iff.2 rfl
  unfold parseLoop?
  simp only [htake, hdrop, hword]
  have hempty : List.isEmpty v.name = false := List.isEmpty_eq_false_iff.2 v.ne_nil
  have hin : Text.dropPrefixCi? ['i', 'n'] (Text.trimStart (inRange ++ (bounds ++ [')']))) =
      some (inRange.drop 3 ++ (bounds ++ [')'])) := rfl
  have hrange : Text.dropPrefixCi? "range".toList
      (Text.trimStart (inRange.drop 3 ++ (bounds ++ [')']))) =
        some ('(' :: (bounds ++ [')'])) := rfl
  have hopen : Text.dropPrefix? ['('] (Text.trimStart ('(' :: (bounds ++ [')']))) =
      some (bounds ++ [')']) := rfl
  simp only [hempty, hin, hrange, hopen, hend, bind, Option.bind]
  rfl

/-- A text that begins with `c` and ends with `d` is trimmed if these are not blank. -/
theorem isTrim_between {c d : Char} (hc : isBlank c = false) (hd : isBlank d = false) (s : Text) :
    Text.IsTrim (c :: (s ++ [d])) := by
  refine ⟨fun e he => ?_, fun e he => ?_⟩
  · obtain rfl := Option.some.inj he
    exact hc
  · have : d = e := by simpa [List.getLast?_cons] using he
    exact this ▸ hd

/-- What stands between a directive and the opening brace is read without the blanks around it. -/
theorem exists_header (name : Text) {s : Text} (hs : ¬ Text.AllBlank s) :
    ∃ arg, directiveArg? '#' name ('#' :: (name ++ ' ' :: (s ++ [' ', '\x7b']))) = some arg ∧
      header? arg = some (Text.trim s) := by
  have hspace : isBlank ' ' = true := by decide
  obtain ⟨b₁, b₂, hb₁, hb₂, hcut⟩ := Text.exists_blanks_trim s
  have hne : Text.trim s ≠ [] := fun h => hs (Text.trim_eq_nil_iff.1 h)
  obtain ⟨c, t, ht⟩ := List.exists_cons_of_ne_nil hne
  have hc : isBlank c = false := (Text.isTrim_trim s).1 c (by rw [ht]; rfl)
  refine ⟨Text.trim s ++ (b₂ ++ [' ', '\x7b']), ?_, ?_⟩
  · refine (directiveArg?_eq_some_iff isBlank_hash).2
      ⟨[], name, ' ' :: (s ++ [' ', '\x7b']), Text.allBlank_nil, ?_, ?_, ?_, rfl⟩
    · simpa using Text.dropPrefixCi?_append name []
    · intro d hd
      obtain rfl := Option.some.inj hd
      decide
    · have htrim : Text.IsTrim (Text.trim s ++ (b₂ ++ [' ', '\x7b'])) := by
        have := isTrim_between hc isBlank_brace (t ++ (b₂ ++ [' ']))
        simpa [ht] using this
      have hfront : Text.AllBlank (' ' :: b₁) := Text.allBlank_cons.2 ⟨hspace, hb₁⟩
      have htail : s ++ [' ', '\x7b'] = b₁ ++ (Text.trim s ++ (b₂ ++ [' ', '\x7b'])) := by
        calc s ++ [' ', '\x7b']
            = (b₁ ++ (Text.trim s ++ b₂)) ++ [' ', '\x7b'] := congrArg (· ++ _) hcut
          _ = b₁ ++ (Text.trim s ++ (b₂ ++ [' ', '\x7b'])) := by simp
      have := Text.trim_eq hfront htrim Text.allBlank_nil
      rw [List.append_nil, List.cons_append, ← htail] at this
      exact this.symm
  · have hend : Text.dropSuffix? ['\x7b'] (Text.trim s ++ (b₂ ++ [' ', '\x7b'])) =
        some (Text.trim s ++ (b₂ ++ [' '])) :=
      Text.dropSuffix?_eq_some_iff.2 (by simp)
    have hback : Text.AllBlank (b₂ ++ [' ']) := by simp [hb₂, hspace]
    have htrim := Text.trim_eq Text.allBlank_nil (Text.isTrim_trim s) hback
    rw [List.nil_append] at htrim
    rw [header?, hend, Option.map_some, htrim]

/-- **A header is read as what was printed.** -/
theorem Header.parseOpener?_text (h : Header) : parseOpener? h.text = some h.opener := by
  cases h with
  | loop v first last =>
      obtain ⟨c, w, hname⟩ := List.exists_cons_of_ne_nil v.ne_nil
      have hc : isBlank c = false := isBlank_of_isWordChar (v.word c (by simp [hname]))
      have htrim : Text.IsTrim (v.name ++ (inRange ++ (boundsText first last ++ [')']))) := by
        have := isTrim_between hc (show isBlank ')' = false by decide)
          (w ++ (inRange ++ boundsText first last))
        simpa [hname] using this
      have hblank : ¬ Text.AllBlank (v.name ++ (inRange ++ (boundsText first last ++ [')']))) := by
        simp [hname, hc]
      obtain ⟨arg, harg, hheader⟩ := exists_header forName hblank
      have hline : (Header.loop v first last).text = '#' :: (forName ++ ' ' ::
          ((v.name ++ (inRange ++ (boundsText first last ++ [')']))) ++ [' ', '\x7b'])) := by
        simp [text]
      rw [Text.trim_of_isTrim htrim] at hheader
      rw [hline, parseOpener?]
      simp only [harg, hheader, Option.map_some, parseLoop?_append, Option.getD_some]
      rfl
  | cond c =>
      obtain ⟨arg, harg, hheader⟩ := exists_header ifName c.not_blank
      have hfor : directiveArg? '#' forName (Header.cond c).text = none := rfl
      have hne : (Text.trim c.text).isEmpty = false :=
        List.isEmpty_eq_false_iff.2 fun h => c.not_blank (Text.trim_eq_nil_iff.1 h)
      rw [parseOpener?, hfor]
      dsimp only
      rw [text, harg]
      simp only [hheader, Option.map_some, hne]
      rfl
  | debug => decide

/-! ### Finding the end of a block -/

theorem Header.isBlockOpener_text (h : Header) : isBlockOpener h.text = true :=
  isBlockOpener_of_parseOpener? h.parseOpener?_text

theorem isBlockOpener_closing : isBlockOpener ['\x7d'] = false := by decide

theorem isCloser_closing : isCloser ['\x7d'] = true := by decide

theorem splitBlock?_opener {l : Line} (h : isBlockOpener l.text = true) (depth : Nat)
    (ls : List Line) :
    splitBlock? depth (l :: ls) = (splitBlock? (depth + 1) ls).map (l :: ·) := by
  cases depth <;> simp [splitBlock?, h]

theorem splitBlock?_plain {l : Line} (ho : isBlockOpener l.text = false)
    (hc : isCloser l.text = false) (depth : Nat) (ls : List Line) :
    splitBlock? depth (l :: ls) = (splitBlock? depth ls).map (l :: ·) := by
  cases depth <;> simp [splitBlock?, ho, hc]

theorem splitBlock?_closing (p : Place) (depth : Nat) (ls : List Line) :
    splitBlock? (depth + 1) (p.line ['\x7d'] :: ls) =
      (splitBlock? depth ls).map (p.line ['\x7d'] :: ·) := by
  have hopener : isBlockOpener (p.line ['\x7d']).text = false := isBlockOpener_closing
  have hcloser : isCloser (p.line ['\x7d']).text = true := isCloser_closing
  simp [splitBlock?, hopener, hcloser]

/-- **A block ends where it was printed to end**: the depth is the same behind a forest. -/
theorem Forest.splitBlock?_lines (f : Forest) (depth : Nat) (ls : List Line) :
    splitBlock? depth (f.lines ++ ls) = (splitBlock? depth ls).map (f.lines ++ ·) := by
  induction f generalizing depth ls with
  | nil => simp [lines]
  | text l rest ih =>
      rw [lines, List.cons_append, splitBlock?_plain l.not_opener l.not_closer, ih]
      simp [Function.comp_def]
  | block h opener closer children rest ihc ihr =>
      -- one level deeper between the two lines of the block, and as before behind it
      have hopener : isBlockOpener (opener.line h.text).text = true := h.isBlockOpener_text
      rw [lines, List.cons_append, splitBlock?_opener hopener, List.append_assoc, ihc,
        List.cons_append, splitBlock?_closing, ihr]
      simp [Function.comp_def]

/-- The body of a printed block. -/
theorem Forest.splitBlock?_body (f : Forest) (closer : Place) (ls : List Line) :
    splitBlock? 0 (f.lines ++ closer.line ['\x7d'] :: ls) = some f.lines := by
  have hopener : isBlockOpener (closer.line ['\x7d']).text = false := isBlockOpener_closing
  have hcloser : isCloser (closer.line ['\x7d']).text = true := isCloser_closing
  rw [f.splitBlock?_lines]
  simp [splitBlock?, hopener, hcloser]

end Template

end Softcode
