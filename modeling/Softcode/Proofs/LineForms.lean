/-
**How instructions are written.**

The loader finds out what a line asks for by trying directive after directive.  Here the forms of
lines are described one by one, each by what the line consists of and none by what is tried before:
blanks, a number sign and a name in any case, an argument in the form that the name asks for, or
`@debug` on a line of its own.  A line is text if it has none of these forms.

No two forms overlap.  The name of a directive ends at a blank, a parenthesis, a brace or the end of
the line, and the names have no such character, so that a line has one name at most.  Therefore the
order in which directives are tried makes no difference, and the instruction that a line is read as
is the one it is written as.

Main definitions:

* `Softcode.IsDirective` — lines with a directive, and its argument;
* `Softcode.IsImport`, `Softcode.IsBanner` — the arguments of imports, and of headers and footers;
* `Softcode.Instruction.Written` — **lines and the instructions they are written as**.

Main results:

* `Softcode.IsDirective.unique` — a line has one directive at most;
* `Softcode.Instruction.parse_eq_iff` — **instructions are read as they are written**.
-/

import Softcode.Instruction
import Softcode.Proofs.Text

set_option autoImplicit false

namespace Softcode

/-! ### Directives -/

/-- A line with the directive `#NAME ARGUMENT`: blanks, a number sign, the name in any case, and
what follows it, which is the argument with blanks around it. -/
def IsDirective (name line arg : Text) : Prop :=
  ∃ blanks word tail : Text, line = blanks ++ '#' :: (word ++ tail) ∧ Text.AllBlank blanks ∧
    word.map Char.toLower = name ∧
    (∀ d, tail.head? = some d → isBlank d = true ∨ d = '(' ∨ d = '\x7b') ∧ arg = Text.trim tail

/-- The directives to the loader. -/
def directiveNames : List Text :=
  ["include", "file", "import", "author", "version", "desc", "description", "header",
    "footer"].map String.toList

theorem map_toLower_of_mem_directiveNames {name : Text} (h : name ∈ directiveNames) :
    name.map Char.toLower = name := by
  have hall : ∀ name ∈ directiveNames, name.map Char.toLower = name := by decide
  exact hall name h

/-- What ends a name is no letter. -/
theorem isAlphanum_of_endsName {d : Char} (h : isBlank d = true ∨ d = '(' ∨ d = '\x7b') :
    d.isAlphanum = false := by
  rcases h with h | rfl | rfl
  · exact forall_blank (p := fun c => c.isAlphanum = false) (by decide +kernel) h
  · decide
  · decide

theorem isBlank_of_isAlphanum {c : Char} (h : c.isAlphanum = true) : isBlank c = false := by
  by_contra hblank
  rw [isAlphanum_of_endsName (Or.inl (by simpa using hblank))] at h
  cases h

/-- A word that is the name of a directive consists of letters. -/
theorem isAlphanum_of_mem_word {name word : Text} (hname : name ∈ directiveNames)
    (hword : word.map Char.toLower = name) {c : Char} (hc : c ∈ word) : c.isAlphanum = true := by
  have hall : ∀ name ∈ directiveNames, name.all Char.isAlphanum = true := by decide
  refine Text.isAlphanum_of_toLower (List.all_eq_true.1 (hall name hname) c.toLower ?_)
  rw [← hword]
  exact List.mem_map_of_mem hc

namespace IsDirective

variable {name name' line arg arg' : Text}

/-- The loader finds the directives that are written. -/
theorem iff_directiveArg? (hname : name ∈ directiveNames) :
    directiveArg? '#' name line = some arg ↔ IsDirective name line arg := by
  have hlower := map_toLower_of_mem_directiveNames hname
  rw [directiveArg?_eq_some_iff isBlank_hash]
  constructor
  · rintro ⟨b, w, tail, hb, hw, htail, harg, hline⟩
    refine ⟨b, w, tail, hline, hb, ?_, fun d hd => ?_, harg⟩
    · rw [Text.dropPrefixCi?_eq_nil_iff.1 hw, hlower]
    · simpa [endsName, or_assoc] using htail d hd
  · rintro ⟨b, w, tail, hline, hb, hw, htail, harg⟩
    refine ⟨b, w, tail, hb, ?_, fun d hd => ?_, harg, hline⟩
    · rw [Text.dropPrefixCi?_eq_nil_iff, hw, hlower]
    · simpa [endsName, or_assoc] using htail d hd

/-- **A line has one directive at most**: its name is all that is in front of the first character
that is no letter. -/
theorem unique (hname : name ∈ directiveNames) (hname' : name' ∈ directiveNames)
    (h : IsDirective name line arg) (h' : IsDirective name' line arg') :
    name = name' ∧ arg = arg' := by
  have hsplit : ∀ {name line arg : Text}, name ∈ directiveNames → IsDirective name line arg →
      ((Text.trimStart line).tail.takeWhile Char.isAlphanum).map Char.toLower = name ∧
        Text.trim ((Text.trimStart line).tail.dropWhile Char.isAlphanum) = arg := by
    rintro name line arg hname ⟨b, w, tail, rfl, hb, hw, htail, rfl⟩
    have hword : ∀ c ∈ w, c.isAlphanum = true := fun c hc => isAlphanum_of_mem_word hname hw hc
    have hends : tail.takeWhile Char.isAlphanum = [] ∧ tail.dropWhile Char.isAlphanum = tail := by
      cases tail with
      | nil => exact ⟨rfl, rfl⟩
      | cons d tail =>
          have hd := isAlphanum_of_endsName (htail d rfl)
          simp [hd]
    rw [Text.trimStart_blanks_cons hb isBlank_hash, List.tail_cons,
      List.takeWhile_append_of_pos hword, List.dropWhile_append_of_pos hword, hends.1, hends.2,
      List.append_nil]
    exact ⟨hw, rfl⟩
  obtain ⟨hn, ha⟩ := hsplit hname h
  obtain ⟨hn', ha'⟩ := hsplit hname' h'
  exact ⟨hn.symm.trans hn', ha.symm.trans ha'⟩

/-- A line with a directive has that one and no other. -/
theorem directiveArg?_eq (hname : name ∈ directiveNames) (h : IsDirective name line arg)
    (hname' : name' ∈ directiveNames) :
    directiveArg? '#' name' line = if name' = name then some arg else none := by
  split
  · next heq => exact heq ▸ (iff_directiveArg? hname).2 h
  · next hne =>
      refine Option.eq_none_iff_forall_ne_some.2 fun arg' harg' => ?_
      exact hne (unique hname' hname ((iff_directiveArg? hname').1 harg') h).1

end IsDirective

/-! ### Arguments -/

/-- The argument `"REFERENCE" as ALIAS` of an import.  The reference is not blank, and the alias
consists of letters, digits, `_` and `-`. -/
def IsImport (arg reference label : Text) : Prop :=
  ∃ quoted blanks word tail : Text,
    arg = '"' :: (quoted ++ '"' :: (blanks ++ (word ++ tail))) ∧ '"' ∉ quoted ∧
    Text.AllBlank blanks ∧ word.map Char.toLower = "as".toList ∧
    (∃ c, tail.head? = some c ∧ isBlank c = true) ∧
    ¬ Text.AllBlank quoted ∧ reference = Text.trim quoted ∧
    label = Text.trim tail ∧ label ≠ [] ∧
    ∀ c ∈ label, isAlphanumeric c = true ∨ c = '_' ∨ c = '-'

/-- The argument `NAME = VALUE` of a header or footer, or `NAME` alone. -/
def IsBanner (arg : Text) (b : Banner) : Prop :=
  (∃ name value : Text, arg = name ++ '=' :: value ∧ '=' ∉ name ∧
    b = ⟨Text.trim name, Text.trim value⟩) ∨
  ('=' ∉ arg ∧ b = ⟨Text.trim arg, []⟩)

namespace Instruction

theorem isImport_of_parseImport? {arg reference label : Text}
    (h : parseImport? arg = some (reference, label)) : IsImport arg reference label := by
  simp only [parseImport?, Option.bind_eq_bind, Option.bind_eq_some_iff, Prod.exists] at h
  obtain ⟨rest, hrest, quoted, tail, hcut, after, hafter, hend⟩ := h
  obtain ⟨rfl, hquoted⟩ := Text.cut?_eq_some_iff.1 hcut
  obtain ⟨blanks, hblanks, htail⟩ := Text.exists_blanks_trimStart tail
  obtain ⟨word, hword, has⟩ := Text.dropPrefixCi?_eq_some_iff.1 hafter
  split at hend
  · cases hend
  · next hblank =>
      split at hend
      · cases hend
      · next hgood =>
          obtain ⟨rfl, rfl⟩ := Prod.mk.inj (Option.some.inj hend)
          simp only [Bool.or_eq_true, Bool.not_eq_true', not_or, Bool.not_eq_false,
            List.isEmpty_iff] at hgood
          refine ⟨quoted, blanks, word, after, ?_, hquoted, hblanks,
            Text.dropPrefixCi?_eq_nil_iff.1 has, ?_, ?_, rfl, rfl, hgood.1.2, ?_⟩
          · rw [Text.dropPrefix?_eq_some_iff.1 hrest, htail, hword]
            rfl
          · simpa [Option.any_eq_true] using hblank
          · exact fun h => hgood.1.1 (List.all_eq_true.2 h)
          · intro c hc
            simpa [isAliasChar, or_assoc] using List.all_eq_true.1 hgood.2 c hc

theorem parseImport?_of_isImport {arg reference label : Text} (h : IsImport arg reference label) :
    parseImport? arg = some (reference, label) := by
  obtain ⟨quoted, blanks, word, tail, rfl, hquoted, hblanks, hword, ⟨c, hc, hblank⟩, hnonblank,
    rfl, rfl, hlabel, hchars⟩ := h
  -- the word begins with a letter, so that it is not taken for blanks
  have hstart : Text.trimStart (blanks ++ (word ++ tail)) = word ++ tail := by
    cases word with
    | nil => cases hword
    | cons d word =>
        have hd : d.isAlphanum = true := by
          refine Text.isAlphanum_of_toLower ?_
          rw [(List.cons.inj hword).1]
          decide
        exact Text.trimStart_blanks_cons hblanks (isBlank_of_isAlphanum hd) (word ++ tail)
  have has : Text.dropPrefixCi? ['a', 's'] (word ++ tail) = some tail :=
    Text.dropPrefixCi?_eq_some_iff.2 ⟨word, rfl, Text.dropPrefixCi?_eq_nil_iff.2 hword⟩
  have hcut : Text.cut? '"' (quoted ++ '"' :: (blanks ++ (word ++ tail))) =
      some (quoted, blanks ++ (word ++ tail)) := Text.cut?_eq_some_iff.2 ⟨rfl, hquoted⟩
  have hlabel' : ∀ c ∈ Text.trim tail, isAliasChar c = true := fun c hc => by
    simpa [isAliasChar, or_assoc] using hchars c hc
  have hquoted' : Text.isBlankText quoted = false :=
    Bool.eq_false_iff.2 fun h => hnonblank (List.all_eq_true.1 h)
  simpa [parseImport?, hcut, hstart, has, hc, hblank, hquoted', hlabel] using hlabel'

theorem parseImport?_eq_some_iff {arg reference label : Text} :
    parseImport? arg = some (reference, label) ↔ IsImport arg reference label :=
  ⟨isImport_of_parseImport?, parseImport?_of_isImport⟩

theorem isBanner_parseBanner (arg : Text) : IsBanner arg (parseBanner arg) := by
  unfold parseBanner
  split
  · next name value hcut =>
      obtain ⟨harg, hname⟩ := Text.cut?_eq_some_iff.1 hcut
      exact Or.inl ⟨name, value, harg, hname, rfl⟩
  · next hcut => exact Or.inr ⟨Text.cut?_eq_none_iff.1 hcut, rfl⟩

theorem parseBanner_of_isBanner {arg : Text} {b : Banner} (h : IsBanner arg b) :
    parseBanner arg = b := by
  rcases h with ⟨name, value, harg, hname, rfl⟩ | ⟨harg, rfl⟩
  · rw [parseBanner, Text.cut?_eq_some_iff.2 ⟨harg, hname⟩]
  · rw [parseBanner, Text.cut?_eq_none_iff.2 harg]

/-! ### Lines -/

/-- **Lines and the instructions they are written as.** -/
inductive Written (line : Text) : Instruction → Prop where
  | splice {reference : Text} (h : IsDirective "include".toList line reference) :
      Written line (.splice reference)
  | embed {reference : Text} (h : IsDirective "file".toList line reference) :
      Written line (.embed reference)
  | importAs {arg reference label : Text} (h : IsDirective "import".toList line arg)
      (himport : IsImport arg reference label) : Written line (.importAs reference label)
  | badImport {arg : Text} (h : IsDirective "import".toList line arg)
      (hbad : ∀ reference label, ¬ IsImport arg reference label) : Written line .badImport
  | about {name value : Text}
      (hname : name ∈ ["author".toList, "version".toList, "desc".toList, "description".toList])
      (h : IsDirective name line value) : Written line (.header ⟨name, value⟩)
  | header {arg : Text} {b : Banner} (h : IsDirective "header".toList line arg)
      (hb : IsBanner arg b) : Written line (.header b)
  | footer {arg : Text} {b : Banner} (h : IsDirective "footer".toList line arg)
      (hb : IsBanner arg b) : Written line (.footer b)
  | debug (h : (Text.trim line).map Char.toLower = "@debug".toList) : Written line .debug
  | text (h : ∀ name ∈ directiveNames, ∀ arg, ¬ IsDirective name line arg)
      (hdebug : (Text.trim line).map Char.toLower ≠ "@debug".toList) : Written line .text

/-- A line that asks for debug mode has no directive. -/
theorem not_isDirective_of_debug {line : Text}
    (h : (Text.trim line).map Char.toLower = "@debug".toList) (name arg : Text) :
    ¬ IsDirective name line arg := by
  rintro ⟨b, w, tail, rfl, hb, -⟩
  obtain ⟨c, -, hc⟩ := Text.exists_trimEnd_blanks (Text.trimStart (b ++ '#' :: (w ++ tail)))
  rw [← Text.trim, Text.trimStart_blanks_cons hb isBlank_hash] at hc
  cases htrim : Text.trim (b ++ '#' :: (w ++ tail)) with
  | nil =>
      rw [htrim] at h
      cases h
  | cons d rest =>
      rw [htrim] at h hc
      obtain ⟨rfl, -⟩ := List.cons.inj hc
      exact absurd (List.cons.inj h).1 (by decide)

theorem isDebug_iff {line : Text} :
    Text.sameLetters (Text.trim line) "@debug".toList = true ↔
      (Text.trim line).map Char.toLower = "@debug".toList := by
  have hlower : "@debug".toList.map Char.toLower = "@debug".toList := by decide
  rw [Text.sameLetters, hlower, beq_iff_eq]

/-- A line without a directive may still ask for debug mode. -/
theorem parse_of_not_isDirective {line : Text}
    (h : ∀ name ∈ directiveNames, ∀ arg, ¬ IsDirective name line arg) :
    parse line =
      if Text.sameLetters (Text.trim line) "@debug".toList then .debug else .text := by
  have hnone : ∀ name ∈ directiveNames, directiveArg? '#' name line = none := fun name hname =>
    Option.eq_none_iff_forall_ne_some.2 fun arg harg =>
      h name hname arg ((IsDirective.iff_directiveArg? hname).1 harg)
  have hnames : ∀ name ∈ metaNames, name ∈ directiveNames := by decide
  have hmeta : parseMeta? line = none := by
    refine List.findSome?_eq_none_iff.2 fun name hname => ?_
    rw [hnone name (hnames name hname), Option.map_none]
  simp only [parse, parseSetting, hmeta, hnone "include".toList (by decide),
    hnone "file".toList (by decide), hnone "import".toList (by decide),
    hnone "header".toList (by decide), hnone "footer".toList (by decide)]

/-- An instruction is read as it is written: the directives that are tried before do not apply. -/
theorem parse_of_written {line : Text} {i : Instruction} (h : Written line i) : parse line = i := by
  cases h with
  | splice h =>
      simp [parse, IsDirective.directiveArg?_eq (by decide) h, directiveNames]
  | embed h =>
      simp [parse, IsDirective.directiveArg?_eq (by decide) h, directiveNames]
  | importAs h himport =>
      simp [parse, IsDirective.directiveArg?_eq (by decide) h, directiveNames,
        parseImport?_eq_some_iff.2 himport]
  | badImport h hbad =>
      have hnone : parseImport? _ = none :=
        Option.eq_none_iff_forall_ne_some.2 fun p hp => hbad p.1 p.2 (parseImport?_eq_some_iff.1 hp)
      simp [parse, IsDirective.directiveArg?_eq (by decide) h, directiveNames, hnone]
  | about hname h =>
      simp only [List.mem_cons, List.not_mem_nil, or_false] at hname
      rcases hname with rfl | rfl | rfl | rfl <;>
        simp [parse, parseSetting, parseMeta?, metaNames,
          IsDirective.directiveArg?_eq (by decide) h, directiveNames]
  | header h hb =>
      simp [parse, parseSetting, parseMeta?, metaNames,
        IsDirective.directiveArg?_eq (by decide) h, directiveNames, parseBanner_of_isBanner hb]
  | footer h hb =>
      simp [parse, parseSetting, parseMeta?, metaNames,
        IsDirective.directiveArg?_eq (by decide) h, directiveNames, parseBanner_of_isBanner hb]
  | debug h =>
      rw [parse_of_not_isDirective fun name _ => not_isDirective_of_debug h name,
        if_pos (isDebug_iff.2 h)]
  | text h hdebug => rw [parse_of_not_isDirective h, if_neg (mt isDebug_iff.1 hdebug)]

/-- Every line has one of the forms. -/
theorem exists_written (line : Text) : ∃ i, Written line i := by
  by_cases h : ∃ name ∈ directiveNames, ∃ arg, IsDirective name line arg
  · obtain ⟨name, hname, arg, h⟩ := h
    have hbanner := isBanner_parseBanner arg
    simp only [directiveNames, List.map_cons, List.map_nil, List.mem_cons, List.not_mem_nil,
      or_false] at hname
    rcases hname with rfl | rfl | rfl | rfl | rfl | rfl | rfl | rfl | rfl
    · exact ⟨_, .splice h⟩
    · exact ⟨_, .embed h⟩
    · by_cases himport : ∃ reference label, IsImport arg reference label
      · obtain ⟨reference, label, himport⟩ := himport
        exact ⟨_, .importAs h himport⟩
      · exact ⟨_, .badImport h fun reference label hi => himport ⟨reference, label, hi⟩⟩
    · exact ⟨_, .about (by decide) h⟩
    · exact ⟨_, .about (by decide) h⟩
    · exact ⟨_, .about (by decide) h⟩
    · exact ⟨_, .about (by decide) h⟩
    · exact ⟨_, .header h hbanner⟩
    · exact ⟨_, .footer h hbanner⟩
  · by_cases hdebug : (Text.trim line).map Char.toLower = "@debug".toList
    · exact ⟨_, .debug hdebug⟩
    · exact ⟨_, .text (fun name hname arg hd => h ⟨name, hname, arg, hd⟩) hdebug⟩

/-- **Instructions are read as they are written.** -/
theorem parse_eq_iff {line : Text} {i : Instruction} : parse line = i ↔ Written line i := by
  refine ⟨?_, parse_of_written⟩
  rintro rfl
  obtain ⟨i, hi⟩ := exists_written line
  rw [parse_of_written hi]
  exact hi

end Instruction

end Softcode
