/-
**The two tests for openers.**

Whether a line begins a block is decided in two places.  Processing reads its header; the search for
the end of an enclosing block only looks at the directive and at the brace at the end of the line.
This module compares the two.  They agree on every line, headers that cannot be read included, but
for one kind: a debug section has no header, so a line with text between `#debug` and the brace
begins nothing when it is processed, and still counts as an opener when the end of a block around it
is looked for.

The end of a block is where the number of open blocks, `Softcode.Template.openBehind`, has come down
to none.  A line that is text to both tests can therefore be put anywhere without moving the end of
a block around it, and a debug line with text moves it to the closer of one more block.

Main definitions:

* `Softcode.Template.isDebugText` — lines with text between `#debug` and the brace;
* `Softcode.Template.openBehind` — the number of blocks that are open behind lines.

Main results:

* `Softcode.Template.directiveArg?_unique` — a line has one directive of blocks at most;
* `Softcode.Template.isSome_parseOpener?_iff` — the lines that begin a block;
* `Softcode.Template.splitBlock?_append` — the end of a block, from the open blocks behind any of
  its lines;
* `Softcode.Template.openerTests_agree` — **where the two tests agree**, and what follows for the
  ends of blocks.
-/

import Softcode.Proofs.ClosedBodies

set_option autoImplicit false

namespace Softcode

namespace Template

/-! ### One directive per line -/

/-- The name of a directive begins with the letter behind the sigil. -/
theorem exists_letter_of_directiveArg? {sigil : Char} {name line arg : Text} (hname : name ≠ [])
    (h : directiveArg? sigil name line = some arg) :
    ∃ d rest, Text.trimStart line = sigil :: d :: rest ∧
      name.head?.map Char.toLower = some d.toLower := by
  obtain ⟨n, name, rfl⟩ := List.exists_cons_of_ne_nil hname
  unfold directiveArg? at h
  split at h
  · cases h
  · next c rest hline =>
      split at h
      · next hc =>
          subst hc
          cases rest with
          | nil => cases h
          | cons d rest =>
              refine ⟨d, rest, hline, ?_⟩
              by_contra hne
              have hletter : Text.sameLetter n d = false := by
                simpa [Text.sameLetter] using hne
              rw [Text.dropPrefixCi?_cons, hletter] at h
              cases h
      · cases h

/-- **A line has one directive of blocks at most.** -/
theorem directiveArg?_unique {name₁ name₂ line arg₁ arg₂ : Text} (h₁ : name₁ ∈ blockNames)
    (h₂ : name₂ ∈ blockNames) (harg₁ : directiveArg? '#' name₁ line = some arg₁)
    (harg₂ : directiveArg? '#' name₂ line = some arg₂) : name₁ = name₂ := by
  have hne : ∀ name ∈ blockNames, name ≠ [] := by decide
  have hfirst : ∀ m ∈ blockNames, ∀ n ∈ blockNames,
      m.head?.map Char.toLower = n.head?.map Char.toLower → m = n := by decide
  obtain ⟨d₁, rest₁, hline₁, hd₁⟩ := exists_letter_of_directiveArg? (hne name₁ h₁) harg₁
  obtain ⟨d₂, rest₂, hline₂, hd₂⟩ := exists_letter_of_directiveArg? (hne name₂ h₂) harg₂
  rw [hline₁] at hline₂
  obtain ⟨rfl, -⟩ := List.cons.inj (List.cons.inj hline₂).2
  exact hfirst name₁ h₁ name₂ h₂ (hd₁.trans hd₂.symm)

theorem directiveArg?_eq_none {name₁ name₂ line arg : Text} (h₁ : name₁ ∈ blockNames)
    (h₂ : name₂ ∈ blockNames) (hne : name₁ ≠ name₂)
    (harg : directiveArg? '#' name₁ line = some arg) : directiveArg? '#' name₂ line = none := by
  cases h : directiveArg? '#' name₂ line with
  | none => rfl
  | some _ => exact absurd (directiveArg?_unique h₁ h₂ harg h) hne

/-! ### Lines that begin a block -/

theorem header?_append_brace (r : Text) : header? (r ++ ['\x7b']) = some (Text.trim r) := by
  rw [header?, Text.dropSuffix?_eq_some_iff.2 rfl]
  rfl

/-- **The lines that begin a block**: their directive has an argument that ends with a brace, which
is all of it in a debug section. -/
theorem isSome_parseOpener?_iff {s : Text} :
    (parseOpener? s).isSome = true ↔
      ∃ name ∈ blockNames, ∃ r, directiveArg? '#' name s = some (r ++ ['\x7b']) ∧
        (name = debugName → r = []) := by
  constructor
  · intro h
    obtain ⟨o, ho⟩ := Option.isSome_iff_exists.1 h
    obtain ⟨name, hname, arg, r, harg, rfl⟩ := exists_directive_of_parseOpener? ho
    refine ⟨name, hname, r, harg, ?_⟩
    rintro rfl
    have hfor : directiveArg? '#' forName s = none :=
      directiveArg?_eq_none hname (by decide) (by decide) harg
    have hif : directiveArg? '#' ifName s = none :=
      directiveArg?_eq_none hname (by decide) (by decide) harg
    simp only [parseOpener?, hfor, hif, harg] at h
    split at h
    · next heq => simpa using heq
    · cases h
  · rintro ⟨name, hname, r, harg, hdebug⟩
    have hother : ∀ other ∈ blockNames, name ≠ other → directiveArg? '#' other s = none :=
      fun other hmem hne => directiveArg?_eq_none hname hmem hne harg
    simp only [blockNames, List.mem_cons, List.not_mem_nil, or_false] at hname
    rcases hname with rfl | rfl | rfl
    · simp [parseOpener?, harg, header?_append_brace]
    · simp [parseOpener?, hother forName (by decide) (by decide), harg, header?_append_brace]
    · simp [parseOpener?, hother forName (by decide) (by decide),
        hother ifName (by decide) (by decide), harg, hdebug rfl]

/-- A line with a text between `#debug` and the brace at its end. -/
def isDebugText (s : Text) : Bool :=
  match directiveArg? '#' debugName s with
  | none => false
  | some arg => arg.getLast? == some '\x7b' && arg != ['\x7b']

theorem isDebugText_iff {s : Text} :
    isDebugText s = true ↔ ∃ r, r ≠ [] ∧ directiveArg? '#' debugName s = some (r ++ ['\x7b']) := by
  unfold isDebugText
  split
  · next h => simp [h]
  · next arg h =>
      rw [h, Bool.and_eq_true, beq_iff_eq, List.getLast?_eq_some_iff, bne_iff_ne]
      constructor
      · rintro ⟨⟨r, rfl⟩, hne⟩
        refine ⟨r, ?_, rfl⟩
        rintro rfl
        exact hne rfl
      · rintro ⟨r, hr, harg⟩
        obtain rfl := Option.some.inj harg
        exact ⟨⟨r, rfl⟩, by simpa using hr⟩

/-- **A line counts as an opener exactly if it begins a block or is a debug line with text.** -/
theorem isBlockOpener_iff_parseOpener? {s : Text} :
    isBlockOpener s = true ↔ (parseOpener? s).isSome = true ∨ isDebugText s = true := by
  constructor
  · intro h
    obtain ⟨name, hname, r, harg⟩ := exists_directive_of_isBlockOpener h
    by_cases htext : name = debugName ∧ r ≠ []
    · obtain ⟨rfl, hr⟩ := htext
      exact .inr (isDebugText_iff.2 ⟨r, hr, harg⟩)
    · refine .inl (isSome_parseOpener?_iff.2 ⟨name, hname, r, harg, fun hdebug => ?_⟩)
      by_contra hr
      exact htext ⟨hdebug, hr⟩
  · rintro (h | h)
    · obtain ⟨o, ho⟩ := Option.isSome_iff_exists.1 h
      exact isBlockOpener_of_parseOpener? ho
    · obtain ⟨r, -, harg⟩ := isDebugText_iff.1 h
      exact isBlockOpener_of_directive (by decide) harg

/-- A debug line with text begins no block. -/
theorem parseOpener?_of_isDebugText {s : Text} (h : isDebugText s = true) :
    parseOpener? s = none := by
  obtain ⟨r, hr, harg⟩ := isDebugText_iff.1 h
  by_contra hne
  obtain ⟨name, hname, r', harg', hdebug⟩ :=
    isSome_parseOpener?_iff.1 (Option.isSome_iff_ne_none.2 hne)
  obtain rfl := directiveArg?_unique hname (by decide) harg' harg
  rw [harg, hdebug rfl] at harg'
  exact hr (by simpa using harg')

/-! ### Where a block ends -/

/-- The number of blocks, less one, that are open behind lines at whose beginning `depth + 1` are
open, if the last of these is not closed by then. -/
def openBehind : Nat → List Line → Option Nat
  | depth, [] => some depth
  | depth, l :: ls =>
      if isBlockOpener l.text then openBehind (depth + 1) ls
      else if isCloser l.text then
        match depth with
        | 0 => none
        | d + 1 => openBehind d ls
      else openBehind depth ls

/-- **The end of a block** lies among the first of its lines, or is the end that is found behind
them with the blocks that they leave open. -/
theorem splitBlock?_append (depth : Nat) (ls ms : List Line) :
    splitBlock? depth (ls ++ ms) =
      match openBehind depth ls with
      | none => splitBlock? depth ls
      | some d => (splitBlock? d ms).map (ls ++ ·) := by
  fun_induction openBehind depth ls with
  | case1 depth => simp
  | case2 depth l ls hopener ih =>
      rw [List.cons_append, splitBlock?_opener hopener, ih, splitBlock?_opener hopener]
      split <;> simp [Function.comp_def]
  | case3 l ls hopener hcloser =>
      rw [List.cons_append, splitBlock?_closer_zero hcloser, splitBlock?_closer_zero hcloser]
  | case4 l ls hopener hcloser d ih =>
      rw [List.cons_append, splitBlock?_closer_succ hcloser, ih, splitBlock?_closer_succ hcloser]
      split <;> simp [Function.comp_def]
  | case5 depth l ls hopener hcloser ih =>
      rw [Bool.not_eq_true] at hopener hcloser
      rw [List.cons_append, splitBlock?_plain hopener hcloser, ih,
        splitBlock?_plain hopener hcloser]
      split <;> simp [Function.comp_def]

theorem insertIdx_append_length {α : Type} (as bs : List α) (x : α) :
    (as ++ bs).insertIdx as.length x = as ++ x :: bs := by
  induction as with
  | nil => rfl
  | cons a as ih => simp [ih]

/-- **A line of text does not move the end of a block**, wherever it is put. -/
theorem splitBlock?_insert {l : Line} (ho : isBlockOpener l.text = false)
    (hc : isCloser l.text = false) (depth : Nat) (pre post : List Line) :
    splitBlock? depth (pre ++ l :: post) =
      (splitBlock? depth (pre ++ post)).map (·.insertIdx pre.length l) := by
  rw [splitBlock?_append, splitBlock?_append]
  split
  · -- the block ends before the line
    cases hsplit : splitBlock? depth pre with
    | none => rfl
    | some body =>
        obtain ⟨closer, after, rfl, -⟩ := exists_closer hsplit
        rw [Option.map_some, List.insertIdx_of_length_lt (by simp)]
  · rw [splitBlock?_plain ho hc]
    simp [Function.comp_def, insertIdx_append_length]

/-! ### The two tests -/

/-- **Where the two tests for openers agree.**  A line counts as an opener in the search for the end
of a block exactly if it begins a block when it is processed, its header malformed or not, or is a
debug line with text, which begins none.  So a line that is text when it is processed, and no
closer, does not move the end of a block around it, but for debug lines with text: such a line
inside a block moves its end to where one more open block ends. -/
theorem openerTests_agree (s : Text) :
    (isBlockOpener s = true ↔ (parseOpener? s).isSome = true ∨ isDebugText s = true) ∧
    (isDebugText s = true → parseOpener? s = none) ∧
    ∀ l : Line, l.text = s → parseOpener? s = none → isCloser s = false →
      ∀ (depth : Nat) (pre post : List Line),
        (isDebugText s = false →
          splitBlock? depth (pre ++ l :: post) =
            (splitBlock? depth (pre ++ post)).map (·.insertIdx pre.length l)) ∧
        (isDebugText s = true → ∀ d, openBehind depth pre = some d →
          splitBlock? depth (pre ++ post) = (splitBlock? d post).map (pre ++ ·) ∧
          splitBlock? depth (pre ++ l :: post) =
            (splitBlock? (d + 1) post).map (pre ++ l :: ·)) := by
  refine ⟨isBlockOpener_iff_parseOpener?, parseOpener?_of_isDebugText, ?_⟩
  rintro l rfl hparse hcloser depth pre post
  constructor
  · intro htext
    have hopener : isBlockOpener l.text = false := by
      rw [Bool.eq_false_iff, ne_eq, isBlockOpener_iff_parseOpener?, hparse, htext]
      simp
    exact splitBlock?_insert hopener hcloser depth pre post
  · intro htext d hopen
    have hopener : isBlockOpener l.text = true := isBlockOpener_iff_parseOpener?.2 (.inr htext)
    constructor
    · rw [splitBlock?_append, hopen]
    · rw [splitBlock?_append, hopen]
      dsimp only
      rw [splitBlock?_opener hopener, Option.map_map]
      rfl

/-- A debug line with text. -/
def debugTextLine : Line := ⟨['#', 'd', 'e', 'b', 'u', 'g', ' ', 'x', ' ', '\x7b'], "main", 2⟩

/-- The lines behind it: a closer, a line of text and a closer. -/
def behindDebugText : List Line :=
  [⟨['\x7d'], "main", 3⟩, ⟨['k', 'e', 'e', 'p'], "main", 4⟩, ⟨['\x7d'], "main", 5⟩]

theorem openerTests_agree_debugText :
    (isDebugText debugTextLine.text = true ∧ parseOpener? debugTextLine.text = none ∧
      isCloser debugTextLine.text = false ∧ openBehind 0 [] = some 0) ∧
    splitBlock? 0 ([] ++ behindDebugText) = (splitBlock? 0 behindDebugText).map ([] ++ ·) ∧
    splitBlock? 0 ([] ++ debugTextLine :: behindDebugText) =
      (splitBlock? (0 + 1) behindDebugText).map ([] ++ debugTextLine :: ·) := by
  have hdebug : isDebugText debugTextLine.text = true := by decide +kernel
  have hparse : parseOpener? debugTextLine.text = none := by decide +kernel
  have hcloser : isCloser debugTextLine.text = false := by decide +kernel
  exact ⟨⟨hdebug, hparse, hcloser, rfl⟩,
    ((openerTests_agree debugTextLine.text).2.2 debugTextLine rfl hparse hcloser 0 []
      behindDebugText).2 hdebug 0 rfl⟩

/-- A condition that is false, whose first closer is behind a debug line with text. -/
def debugTextBlock : List Line :=
  ⟨['#', 'i', 'f', ' ', '0', ' ', '\x7b'], "main", 1⟩ :: debugTextLine :: behindDebugText

/-- **The tests differ on a debug line with text.**  It begins no block, and still the condition
around it does not end at the next closer: the line of text behind that closer is lost, and nothing
is reported. -/
theorem openerTests_differ :
    isBlockOpener debugTextLine.text = true ∧ parseOpener? debugTextLine.text = none ∧
    expandBlocks false debugTextBlock = ⟨[], []⟩ := by
  refine ⟨by decide +kernel, by decide +kernel, ?_⟩
  rfl

end Template

end Softcode
