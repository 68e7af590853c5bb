/-
**Names are put under an alias once.**

A stream whose names were put under an alias defines no names any more.  Where a line defined a name
the tag went in, and behind the tag the name is not where a definition has it: the word at its place
is the beginning of the alias, and a hyphen or some other character that ends no definition follows.
So a stream that is imported, and imported again together with the source it was imported into, is
changed by the first import only.

What has to be shown is that tags do not make definitions.  The beginning of a definition has no
hyphen in it and ends with a character that no alias has, so it has no room for a tag: it is a
beginning of the text before the tags went in as well.  There it defined the same name, the name
stood as a whole word with no tag before it, and so it has got one.

Main definitions:

* `Softcode.Namespace.Heading` — what stands on both sides of the name in a definition.

Main results:

* `Softcode.Namespace.defined?_eq_some_iff` — **the lines that define a name**;
* `Softcode.Namespace.Inserted.exists_kept` — a part of a text with tags that has no room for one;
* `Softcode.Namespace.defined?_rename` — a line with the names of its stream under an alias defines
  none;
* `Softcode.Namespace.apply_apply` — **a second alias changes nothing**.
-/

import Softcode.Proofs.FiniteSources
import Softcode.Proofs.Tagging

set_option autoImplicit false

namespace Softcode

/-- A blank is no word character. -/
theorem isWordClass_of_blank {c : Char} (hc : isBlank c = true) : isWordClass c = false :=
  forall_blank (p := fun c => isWordClass c = false) (by decide +kernel) hc

namespace Namespace

/-! ### Definitions -/

/-- The beginning of the definition of a function. -/
def functionMark : Text := ['@', 'd', 'e', 'f', '/', 'f', 'u', 'n', 'c']

/-- What stands before the name in a definition, and the character behind the name. -/
inductive Heading : Text → Char → Prop
  | ofAttribute {close : Char} (hclose : isBlank close = true) : Heading ['&'] close
  | ofFunction {blanks : Text} (hne : blanks ≠ []) (hblanks : Text.AllBlank blanks) :
      Heading (functionMark ++ blanks) '('

namespace Heading

variable {front : Text} {close : Char}

theorem getLast?_front (h : Heading front close) : Word.isWordSide front.getLast? = false := by
  cases h with
  | ofAttribute hclose => decide +kernel
  | ofFunction hne hblanks =>
      obtain ⟨b, c, rfl⟩ := (List.eq_nil_or_concat _).resolve_left hne
      rw [List.concat_eq_append] at hblanks ⊢
      rw [← List.append_assoc, List.getLast?_concat]
      exact isWordClass_of_blank (hblanks c (by simp))

theorem hyphen_not_mem_front (h : Heading front close) : '-' ∉ front := by
  cases h with
  | ofAttribute hclose => decide
  | ofFunction hne hblanks =>
      intro hmem
      rcases List.mem_append.1 hmem with hmark | hblank
      · exact absurd hmark (by decide)
      · exact absurd (hblanks '-' hblank) (by decide)

theorem isWordClass_close (h : Heading front close) : isWordClass close = false := by
  cases h with
  | ofAttribute hclose => exact isWordClass_of_blank hclose
  | ofFunction hne hblanks => decide +kernel

/-- No alias has the character behind the name. -/
theorem isAliasChar_close (h : Heading front close) : Instruction.isAliasChar close = false := by
  cases h with
  | ofAttribute hclose =>
      exact forall_blank (p := fun c => Instruction.isAliasChar c = false) (by decide +kernel)
        hclose
  | ofFunction hne hblanks => decide +kernel

end Heading

/-- A word is read up to the first character that is none. -/
theorem span_word {name : Text} (hname : Word.IsRun true name) {close : Char}
    (hclose : isWordClass close = false) (rest : Text) :
    (name ++ close :: rest).takeWhile isWordClass = name ∧
      (name ++ close :: rest).dropWhile isWordClass = close :: rest := by
  have htake : (name ++ close :: rest).takeWhile isWordClass = name :=
    hname.takeWhile_append hclose
  have hboth := List.takeWhile_append_dropWhile (p := isWordClass) (l := name ++ close :: rest)
  rw [htake] at hboth
  exact ⟨htake, List.append_cancel_left hboth⟩

/-- The lines that define an attribute. -/
theorem definedAttribute?_eq_some_iff {line name : Text} :
    definedAttribute? line = some name ↔
      ∃ close rest, isBlank close = true ∧ Word.IsRun true name ∧
        line = '&' :: (name ++ close :: rest) := by
  constructor
  · intro h
    have hname := isRun_of_definedAttribute? h
    simp only [definedAttribute?, Option.bind_eq_bind, Option.bind_eq_some_iff] at h
    obtain ⟨after, hafter, h⟩ := h
    obtain rfl := Text.dropPrefix?_eq_some_iff.1 hafter
    split at h
    · next hgood =>
        obtain rfl := Option.some.inj h
        obtain ⟨-, hblank⟩ := Bool.and_eq_true_iff.1 hgood
        cases hrest : after.dropWhile isWordClass with
        | nil =>
            rw [hrest] at hblank
            cases hblank
        | cons close rest =>
            rw [hrest] at hblank
            refine ⟨close, rest, hblank, hname, ?_⟩
            rw [← hrest, List.takeWhile_append_dropWhile]
            rfl
    · cases h
  · rintro ⟨close, rest, hclose, hname, rfl⟩
    obtain ⟨htake, hdrop⟩ := span_word hname (isWordClass_of_blank hclose) rest
    have hnonempty : name.isEmpty = false := List.isEmpty_eq_false_iff.2 hname.ne_nil
    have hgood : (!name.isEmpty && (close :: rest).head?.any isBlank) = true := by
      rw [hnonempty]
      exact hclose
    simp only [definedAttribute?, Text.dropPrefix?_cons, Text.dropPrefix?_nil, if_true,
      Option.bind_eq_bind, Option.bind_some, htake, hdrop]
    rw [if_pos hgood]

/-- The lines that define a function. -/
theorem definedFunction?_eq_some_iff {line name : Text} :
    definedFunction? line = some name ↔
      ∃ blanks rest, blanks ≠ [] ∧ Text.AllBlank blanks ∧ Word.IsRun true name ∧
        line = functionMark ++ (blanks ++ (name ++ '(' :: rest)) := by
  have hmark : "@def/func".toList = functionMark := by decide
  constructor
  · intro h
    have hname := isRun_of_definedFunction? h
    simp only [definedFunction?, Option.bind_eq_bind, Option.bind_eq_some_iff] at h
    obtain ⟨after, hafter, h⟩ := h
    rw [hmark] at hafter
    obtain rfl := Text.dropPrefix?_eq_some_iff.1 hafter
    split at h
    · next hgood =>
        obtain rfl := Option.some.inj h
        obtain ⟨hgood, hparen⟩ := Bool.and_eq_true_iff.1 hgood
        obtain ⟨blanks, hne, hblanks, hafter'⟩ :=
          Text.exists_blanks_trimStart_of_head (Bool.and_eq_true_iff.1 hgood).1
        obtain ⟨rest, hrest⟩ := List.head?_eq_some_iff.1 (beq_iff_eq.1 hparen)
        refine ⟨blanks, rest, hne, hblanks, hname, ?_⟩
        rw [← hrest, List.takeWhile_append_dropWhile, ← hafter']
    · cases h
  · rintro ⟨blanks, rest, hne, hblanks, hname, rfl⟩
    have hparen : isWordClass '(' = false := by decide +kernel
    obtain ⟨htake, hdrop⟩ := span_word hname hparen rest
    have hstart : Text.trimStart (blanks ++ (name ++ '(' :: rest)) = name ++ '(' :: rest := by
      obtain ⟨c, x, rfl⟩ := List.exists_cons_of_ne_nil hname.ne_nil
      refine Text.trimStart_blanks_cons hblanks ?_ _
      refine Bool.eq_false_iff.2 fun hblank => ?_
      have hclass := hname.class_eq c List.mem_cons_self
      rw [isWordClass_of_blank hblank] at hclass
      cases hclass
    have hhead : (blanks ++ (name ++ '(' :: rest)).head?.any isBlank = true := by
      obtain ⟨c, b, rfl⟩ := List.exists_cons_of_ne_nil hne
      exact hblanks c List.mem_cons_self
    have hnonempty : name.isEmpty = false := List.isEmpty_eq_false_iff.2 hname.ne_nil
    have hdropped : Text.dropPrefix? functionMark
        (functionMark ++ (blanks ++ (name ++ '(' :: rest))) = some _ :=
      Text.dropPrefix?_eq_some_iff.2 rfl
    simp only [definedFunction?, hmark, hdropped, Option.bind_eq_bind, Option.bind_some, hstart,
      htake, hdrop, hhead, hnonempty]
    rfl

/-- **The lines that define a name.** -/
theorem defined?_eq_some_iff {line name : Text} :
    defined? line = some name ↔
      ∃ front close rest, Heading front close ∧ Word.IsRun true name ∧
        line = front ++ (name ++ close :: rest) := by
  rw [defined?, Option.or_eq_some_iff, definedAttribute?_eq_some_iff,
    definedFunction?_eq_some_iff]
  constructor
  · rintro (⟨close, rest, hclose, hname, rfl⟩ | ⟨-, blanks, rest, hne, hblanks, hname, rfl⟩)
    · exact ⟨['&'], close, rest, .ofAttribute hclose, hname, rfl⟩
    · exact ⟨functionMark ++ blanks, '(', rest, .ofFunction hne hblanks, hname,
        (List.append_assoc _ _ _).symm⟩
  · rintro ⟨front, close, rest, hheading, hname, rfl⟩
    cases hheading with
    | ofAttribute hclose => exact Or.inl ⟨close, rest, hclose, hname, rfl⟩
    | ofFunction hne hblanks =>
        refine Or.inr ⟨?_, _, rest, hne, hblanks, hname, List.append_assoc _ _ _⟩
        exact Option.eq_none_iff_forall_ne_some.2 fun other hother => by
          obtain ⟨_, _, -, -, hline⟩ := definedAttribute?_eq_some_iff.1 hother
          cases (List.cons.inj hline).1

/-! ### Tags do not make definitions -/

section Tags

variable {tag : Text} {p : Text → Text → Prop}

/-- A part at the front of a text with tags, without a hyphen and before a character that the tag
does not have, has no room for a tag: it was at the front before, and no tag was to go in there. -/
theorem Inserted.exists_kept {before s x t : Text} {close : Char} (hx : '-' ∉ x)
    (htag : '-' ∈ tag) (hclose : close ∉ tag) (h : Inserted tag p before s (x ++ close :: t)) :
    ∃ s', s = x ++ close :: s' ∧
      ∀ y c z, x = y ++ c :: z → ¬ p (before ++ y) (c :: z ++ close :: s') := by
  generalize htext : x ++ close :: t = text at h
  induction h generalizing x with
  | nil before => cases (List.append_eq_nil_iff.1 htext).2
  | @keep before s text c hp _ ih =>
      cases x with
      | nil =>
          obtain ⟨rfl, -⟩ := List.cons.inj htext
          refine ⟨s, rfl, fun y c z hyz => ?_⟩
          cases y <;> cases hyz
      | cons d x =>
          obtain ⟨rfl, hmore⟩ := List.cons.inj htext
          obtain ⟨s', rfl, hkept⟩ := ih (fun hmem => hx (List.mem_cons_of_mem d hmem)) hmore
          refine ⟨s', rfl, fun y c z hyz => ?_⟩
          cases y with
          | nil =>
              obtain ⟨rfl, rfl⟩ := List.cons.inj hyz
              rw [List.append_nil]
              exact hp
          | cons c' y =>
              obtain ⟨rfl, hmore⟩ := List.cons.inj hyz
              have := hkept y c z hmore
              rwa [List.append_assoc, List.singleton_append] at this
  | put _ _ _ =>
      -- the tag would lie within the part, with its hyphen, or reach over the character behind it
      rcases List.append_eq_append_iff.1 htext with ⟨a, ha, hmore⟩ | ⟨a, rfl, -⟩
      · cases a with
        | nil =>
            rw [ha, List.append_nil] at htag
            exact absurd htag hx
        | cons d a =>
            obtain ⟨rfl, -⟩ := List.cons.inj hmore
            exact absurd (by rw [ha]; simp) hclose
      · exact absurd (List.mem_append_left a htag) hx

end Tags

/-- **A line with the names of its stream under an alias defines none.** -/
theorem defined?_rename {lines : List Line} {l : Line} (hl : l ∈ lines) {label : Text}
    (hlabel : ∀ c ∈ label, Instruction.isAliasChar c = true) :
    defined? (rename (names lines) label l.text) = none := by
  refine Option.eq_none_iff_forall_ne_some.2 fun name hdefined => ?_
  obtain ⟨front, close, rest, hheading, hname, htext⟩ := defined?_eq_some_iff.1 hdefined
  have htags := inserted_rename (areWords_names lines) label l.text
  rw [htext, ← List.append_assoc] at htags
  have hhyphen : '-' ∉ front ++ name := by
    intro hmem
    rcases List.mem_append.1 hmem with hfront | hword
    · exact hheading.hyphen_not_mem_front hfront
    · exact absurd (hname.class_eq '-' hword) (by decide +kernel)
  have hclose : close ∉ label ++ ['-'] := by
    intro hmem
    have halias : Instruction.isAliasChar close = true := by
      rcases List.mem_append.1 hmem with h | h
      · exact hlabel close h
      · rw [List.mem_singleton.1 h]
        decide +kernel
    rw [hheading.isAliasChar_close] at halias
    cases halias
  -- so the line defined the name before, and the name had no tag
  obtain ⟨s', hs, hkept⟩ := htags.exists_kept hhyphen (by simp) hclose
  have hmem : name ∈ names lines := by
    refine Word.mem_longestFirst.2 (List.mem_filterMap.2 ⟨l, hl, ?_⟩)
    exact defined?_eq_some_iff.2 ⟨front, close, s', hheading, hname, by simpa using hs⟩
  obtain ⟨c, z, rfl⟩ := List.exists_cons_of_ne_nil hname.ne_nil
  refine hkept front c z rfl ⟨⟨c :: z, hmem, close :: s', rfl, ?_, ?_⟩, ?_⟩
  · exact hname.boundary_head.2 hheading.getLast?_front
  · exact hname.boundary_getLast.2 hheading.isWordClass_close
  · intro hsuffix
    exact hheading.hyphen_not_mem_front (hsuffix.subset (by simp))

/-! ### Streams -/

theorem rename_nil (label s : Text) : rename [] label s = s := by
  have hfrom : ∀ (new : Text → Text → Text) before s, Word.replaceFrom [] new 0 before s = s := by
    intro new before s
    induction s generalizing before with
    | nil => rfl
    | cons c s ih =>
        have hmiss : Word.matchAt? [] (List.head? before) (c :: s) = none := by
          rw [Word.matchAt?_eq]
          split <;> rfl
        rw [Word.replaceFrom_miss hmiss, ih]
  exact hfrom _ [] s

theorem names_of_undefined {lines : List Line} (h : ∀ l ∈ lines, defined? l.text = none) :
    names lines = [] := by
  rw [names, List.filterMap_eq_nil_iff.2 h]
  rfl

/-- A stream that defines no names stays as it is. -/
theorem apply_of_undefined {lines : List Line} (h : ∀ l ∈ lines, defined? l.text = none)
    (label : Text) : apply lines label = lines := by
  rw [apply, names_of_undefined h]
  conv_rhs => rw [← List.map_id lines]
  refine List.map_congr_left fun l _ => ?_
  rw [rename_nil]
  rfl

/-- **A second alias changes nothing.**  A stream that was put under an alias of an import defines
no name, so it may be put under any other one. -/
theorem apply_apply {arg reference label : Text}
    (h : Instruction.parseImport? arg = some (reference, label)) (lines : List Line) :
    (∀ l ∈ apply lines label, defined? l.text = none) ∧
      ∀ other, apply (apply lines label) other = apply lines label := by
  have hundefined : ∀ l ∈ apply lines label, defined? l.text = none := by
    intro l hl
    obtain ⟨l₀, hl₀, rfl⟩ := List.mem_map.1 hl
    exact defined?_rename hl₀ fun c hc => Instruction.isAliasChar_of_mem h hc
  exact ⟨hundefined, apply_of_undefined hundefined⟩

/-- An attribute and a function that use each other. -/
def fractionStream : List Line :=
  [⟨"&A x=[u(sum)]".toList, "lib", 1⟩, ⟨"@def/func sum(n)=u(A)".toList, "lib", 2⟩]

/-- Both under an alias that begins with one of their names and ends with a numeral. -/
def fractionTagged : List Line :=
  [⟨"&A-½-A x=[u(A-½-sum)]".toList, "lib", 1⟩, ⟨"@def/func A-½-sum(n)=u(A-½-A)".toList, "lib", 2⟩]

theorem apply_apply_fraction :
    Instruction.parseImport? "\"lib\" as A-½".toList = some ("lib".toList, "A-½".toList) ∧
      names fractionStream = ["sum".toList, "A".toList] ∧
      apply fractionStream "A-½".toList = fractionTagged ∧
      names fractionTagged = [] ∧ apply fractionTagged "sum".toList = fractionTagged := by
  have himport : Instruction.parseImport? "\"lib\" as A-½".toList =
      some ("lib".toList, "A-½".toList) := by decide +kernel
  have happly : apply fractionStream "A-½".toList = fractionTagged := by decide +kernel
  obtain ⟨hundefined, hsecond⟩ := apply_apply himport fractionStream
  rw [happly] at hundefined hsecond
  exact ⟨himport, by decide +kernel, happly, names_of_undefined hundefined, hsecond "sum".toList⟩

end Namespace

end Softcode
