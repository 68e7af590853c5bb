/-
**One line of output for every line.**

The lines that come out of a compilation are joined by line feeds, and whoever reads the output cuts
it there again.  That gives the lines back only if no text among them has a line feed of its own.
Sources are cut into lines when they are loaded, so none has one in the beginning, and most stages
only rearrange characters that are there.  Two stages make texts of several lines: the sides of a
self-check are read across line ends, and the body of a macro may have several lines, as may the
macros of the options.  The first puts its lines together again, and the second cuts its result into
lines.

What a stage does to a single text is said by the characters of the result: where they come from,
and that no line feed is among those that the stage adds.  The recursions of the stages are those of
`Softcode.Proofs.StageInvariants`.

Main definitions:

* `Softcode.Line.Unbroken` — a line whose text has no line feed.

Main results:

* `Softcode.Text.splitOn_join` — **cutting gives back what was joined**;
* `Softcode.Word.mem_replace` — where the characters of a replacement come from;
* `Softcode.IncludeTree.unbroken_splice` — the lines of an include tree;
* `Softcode.SelfCheck.unbroken_expand`, `Softcode.Macro.unbroken_applyAll` — the two stages that
  make texts of several lines;
* `Softcode.Session.unbroken_stages` — all stages;
* `Softcode.run_unbroken` — **the output has as many lines as there are, and the same ones**.
-/

import Softcode.Proofs.BlockOpener
import Softcode.Proofs.Provenance
import Softcode.Proofs.Splitting
import Softcode.Proofs.WordRuns

set_option autoImplicit false

namespace Softcode

/-! ### Cutting and joining -/

namespace Text

/-- No part has the separator. -/
theorem not_mem_of_mem_splitOn {sep : Char} {s part : Text} (h : part ∈ splitOn sep s) :
    sep ∉ part := by
  induction s generalizing part with
  | nil =>
      rw [List.mem_singleton.1 h]
      exact List.not_mem_nil
  | cons c s ih =>
      rw [splitOn_cons] at h
      split at h
      · rcases List.mem_cons.1 h with rfl | h
        · exact List.not_mem_nil
        · exact ih h
      · next hc =>
          cases hs : splitOn sep s with
          | nil =>
              rw [hs] at h
              exact absurd h List.not_mem_nil
          | cons first more =>
              rw [hs] at h ih
              rcases List.mem_cons.1 h with rfl | h
              · rw [List.mem_cons, not_or]
                exact ⟨fun heq => hc heq.symm, ih List.mem_cons_self⟩
              · exact ih (List.mem_cons_of_mem first h)

theorem join_eq_intercalate (sep : Text) (ts : List Text) : join sep ts = sep.intercalate ts := by
  fun_induction join sep ts with
  | case1 => simp
  | case2 s => simp
  | case3 s t rest ih => rw [List.intercalate_cons_cons, ih]

/-- **Cutting gives back what was joined**, if no part has the separator. -/
theorem splitOn_join {sep : Char} {ts : List Text} (hne : ts ≠ []) (h : ∀ t ∈ ts, sep ∉ t) :
    splitOn sep (join [sep] ts) = ts := by
  rw [splitOn_eq, join_eq_intercalate]
  exact List.splitOn_intercalate sep h hne

theorem mem_of_mem_trimStart {s : Text} {c : Char} (h : c ∈ trimStart s) : c ∈ s :=
  (List.dropWhile_sublist _).subset h

theorem mem_of_mem_trimEnd {s : Text} {c : Char} (h : c ∈ trimEnd s) : c ∈ s := by
  obtain ⟨b, -, hs⟩ := exists_trimEnd_blanks s
  rw [hs]
  exact List.mem_append_left b h

end Text

/-- A line whose text has no line feed. -/
def Line.Unbroken (l : Line) : Prop := '\n' ∉ l.text

/-! ### Whole words -/

namespace Word

/-- A name that occurs is one of the names, and its characters stand in the text. -/
theorem of_matchAt? {names : List Text} {before : Option Char} {s name : Text}
    (h : matchAt? names before s = some name) : name ∈ names ∧ ∀ c ∈ name, c ∈ s := by
  rw [matchAt?_eq] at h
  split at h
  · refine ⟨List.mem_of_find?_eq_some h, fun c hc => ?_⟩
    have hfits := List.find?_some h
    unfold fits at hfits
    split at hfits
    · cases hfits
    · next rest hdrop =>
        rw [Text.dropPrefix?_eq_some_iff.1 hdrop]
        exact List.mem_append_left rest hc
  · cases h

/-- **Where the characters of a replacement come from**: they stood in the text, or belong to what
is put in for a name that occurs in it. -/
theorem mem_replaceFrom {names : List Text} {new : Text → Text → Text} {skip : Nat}
    {before s : Text} {c : Char} (h : c ∈ replaceFrom names new skip before s) :
    c ∈ s ∨ ∃ before' name, name ∈ names ∧ (∀ d ∈ name, d ∈ s) ∧ c ∈ new before' name := by
  have hlater : ∀ {d : Char} {s : Text},
      (c ∈ s ∨ ∃ before' name, name ∈ names ∧ (∀ d ∈ name, d ∈ s) ∧ c ∈ new before' name) →
      c ∈ d :: s ∨ ∃ before' name, name ∈ names ∧ (∀ e ∈ name, e ∈ d :: s) ∧
        c ∈ new before' name := by
    rintro d s (hc | ⟨before', name, hname, hsub, hc⟩)
    · exact Or.inl (List.mem_cons_of_mem d hc)
    · exact Or.inr ⟨before', name, hname, fun e he => List.mem_cons_of_mem d (hsub e he), hc⟩
  fun_induction replaceFrom names new skip before s with
  | case1 => exact absurd h List.not_mem_nil
  | case2 skip before d s ih => exact hlater (ih h)
  | case3 before d s name hmatch ih =>
      rcases List.mem_append.1 h with h | h
      · obtain ⟨hname, hsub⟩ := of_matchAt? hmatch
        exact Or.inr ⟨before, name, hname, hsub, h⟩
      · exact hlater (ih h)
  | case4 before d s hmatch ih =>
      rcases List.mem_cons.1 h with rfl | h
      · exact Or.inl List.mem_cons_self
      · exact hlater (ih h)

theorem mem_replace {names : List Text} {new : Text → Text → Text} {s : Text} {c : Char}
    (h : c ∈ replace names new s) :
    c ∈ s ∨ ∃ before name, name ∈ names ∧ (∀ d ∈ name, d ∈ s) ∧ c ∈ new before name :=
  mem_replaceFrom h

end Word

/-! ### Loading -/

theorem Line.unbroken_ofSource (src : Text) (file : String) :
    ∀ l ∈ ofSource src file, l.Unbroken := by
  intro l hl
  refine Text.not_mem_of_mem_lines (s := src) ?_
  rw [← map_text_ofSource src file]
  exact List.mem_map_of_mem hl

/-- The bounds of a raw block. -/
theorem Resolver.unbroken_rawBound (l : Line) {word reference : Text} (hword : '\n' ∉ word)
    (href : '\n' ∉ reference) : (rawBound l word reference).Unbroken := by
  have hunquote : '\n' ∉ unquote reference := fun h => href (mem_of_mem_unquote h)
  simp [Line.Unbroken, rawBound, rawMarker, hword, hunquote]

theorem Resolver.unbroken_rawBlock (l : Line) {reference : Text} (href : '\n' ∉ reference)
    {nested : List Line} (h : ∀ m ∈ nested, m.Unbroken) :
    ∀ m ∈ rawBlock l reference nested, m.Unbroken := by
  have hbounds : ∀ word, '\n' ∉ word → ∀ m ∈ [rawBound l word reference], m.Unbroken :=
    fun word hword => List.forall_mem_singleton.2 (unbroken_rawBound l hword href)
  have hinner : ∀ m ∈ nested.map rawLine, m.Unbroken := by
    refine List.forall_mem_map.2 fun m hm => ?_
    have hm' : '\n' ∉ m.text := h m hm
    simp [Line.Unbroken, rawLine, rawMarker, hm']
  exact List.forall_mem_append.2 ⟨List.forall_mem_append.2
    ⟨hbounds _ (by decide +kernel), hinner⟩, hbounds _ (by decide +kernel)⟩

/-- Names under an alias. -/
theorem Namespace.unbroken_apply {ls : List Line} (h : ∀ l ∈ ls, l.Unbroken) {label : Text}
    (hlabel : '\n' ∉ label) : ∀ m ∈ apply ls label, m.Unbroken := by
  refine List.forall_mem_map.2 fun l hl hmem => ?_
  rcases Word.mem_replace hmem with hmem | ⟨before, name, -, hsub, hmem⟩
  · exact h l hl hmem
  · have hname : '\n' ∉ name := fun hname => h l hl (hsub _ hname)
    split at hmem
    · exact hname hmem
    · simp [hlabel, hname] at hmem

namespace Instruction

theorem exists_parseImport? {line reference label : Text}
    (h : parse line = .importAs reference label) :
    ∃ arg, parseImport? arg = some (reference, label) := by
  unfold parse at h
  split at h
  · cases h
  · split at h
    · cases h
    · split at h
      · have hnone := reference?_parseSetting line
        rw [h] at hnone
        cases hnone
      · next arg harg =>
          split at h
          · next reference' label' hparse =>
              obtain ⟨rfl, rfl⟩ := Instruction.importAs.inj h
              exact ⟨arg, hparse⟩
          · cases h

/-- An alias has no line feed. -/
theorem not_mem_label {line reference label : Text} (h : parse line = .importAs reference label) :
    '\n' ∉ label := by
  obtain ⟨arg, himport⟩ := exists_parseImport? h
  intro hmem
  exact absurd (isAliasChar_of_mem himport hmem) (by decide +kernel)

/-- Lines in place of a reference. -/
theorem unbroken_place {l : Line} (hl : l.Unbroken) {nested : List Line}
    (h : ∀ m ∈ nested, m.Unbroken) : ∀ m ∈ (parse l.text).place l nested, m.Unbroken := by
  cases hparse : parse l.text with
  | embed reference =>
      have href : (parse l.text).reference? = some reference := by rw [hparse]; rfl
      exact Resolver.unbroken_rawBlock l (fun hmem => hl (mem_of_mem_reference? href hmem)) h
  | importAs reference label => exact Namespace.unbroken_apply h (not_mem_label hparse)
  | splice | badImport | header | footer | debug | text => exact h

end Instruction

/-- **The lines of an include tree.** -/
theorem IncludeTree.unbroken_splice {s : Sources} {b : Base} {ls : List Line}
    (t : IncludeTree s b ls) (h : ∀ l ∈ ls, l.Unbroken) : ∀ m ∈ t.splice, m.Unbroken :=
  t.forall_splice (fun _ _ hl hnested => Instruction.unbroken_place hl hnested) h
    fun _ _ _ _ _ _ _ l' _ => Line.unbroken_ofSource l'.text l'.id

/-! ### Constants -/

namespace Constant

/-- A value is part of its declaration. -/
theorem mem_of_mem_value {line key value : Text} (h : parse? line = some (key, value)) {c : Char}
    (hc : c ∈ value) : c ∈ line := by
  simp only [parse?, Option.bind_eq_bind, Option.bind_eq_some_iff] at h
  obtain ⟨arg, harg, ⟨k, v⟩, hcut, h⟩ := h
  split at h
  · cases h
  · obtain ⟨-, rfl⟩ := Prod.mk.inj (Option.some.inj h)
    obtain ⟨rfl, -⟩ := Text.cut?_eq_some_iff.1 hcut
    refine mem_of_mem_directiveArg? harg ?_
    simp [Text.mem_of_mem_trim hc]

theorem unbroken_resolve {ls : List Line} (h : ∀ l ∈ ls, l.Unbroken) :
    ∀ m ∈ resolve ls, m.Unbroken := by
  refine List.forall_mem_map.2 fun l hl hmem => ?_
  have hl' := h l (List.mem_filter.1 hl).1
  rcases Word.mem_replace hmem with hmem | ⟨before, name, -, hsub, hmem⟩
  · exact hl' hmem
  · cases hvalue : value? (table ls) name with
    | none =>
        rw [hvalue] at hmem
        exact hl' (hsub _ hmem)
    | some value =>
        rw [hvalue] at hmem
        obtain ⟨before, after, hdecls, -⟩ := value?_eq_some_iff.1 hvalue
        have hdecl : (name, value) ∈ table ls := by rw [hdecls]; simp
        obtain ⟨d, hd, hparse⟩ := List.mem_filterMap.1 hdecl
        exact h d hd (mem_of_mem_value hparse hmem)

end Constant

/-! ### Self-checks and blocks -/

namespace SelfCheck

/-- A side has the characters of its lines, and no line end. -/
theorem not_mem_joinSide (s : Text) : '\n' ∉ joinSide s := by
  intro h
  obtain ⟨line, hline, hmem⟩ := List.mem_flatMap.1 h
  exact Text.not_mem_of_mem_lines hline (Text.mem_of_mem_trim hmem)

theorem mem_of_mem_name {line name after : Text} (h : parseName? line = some (name, after))
    {c : Char} (hc : c ∈ name) : c ∈ line := by
  simp only [parseName?, Option.bind_eq_bind, Option.bind_eq_some_iff] at h
  obtain ⟨rest, hkeyword, rest', hquote, ⟨name', after'⟩, hcut, h⟩ := h
  split at h
  · cases h
  · obtain ⟨rfl, rfl⟩ := Prod.mk.inj (Option.some.inj h)
    obtain ⟨w, hw, -⟩ := Text.dropPrefixCi?_eq_some_iff.1 hkeyword
    refine Text.mem_of_mem_trimStart ?_
    rw [hw]
    refine List.mem_append_right w (Text.mem_of_mem_trimStart ?_)
    rw [Text.dropPrefix?_eq_some_iff.1 hquote, (Text.cut?_eq_some_iff.1 hcut).1]
    simp [hc]

/-- The command for a check adds no line end to its name and its sides. -/
theorem not_mem_render {t : SelfCheck} (hname : '\n' ∉ t.name) (hbody : '\n' ∉ t.body)
    (hexpected : '\n' ∉ t.expected) : '\n' ∉ t.render := by
  delta render
  simp only [List.mem_append, not_or, hname, hbody, hexpected, not_false_eq_true, and_true]
  decide +kernel

/-- **The command for a check stands on one line**, wherever its sides are. -/
theorem unbroken_render {l : Line} (hl : l.Unbroken) {later : List Line} {t : SelfCheck} {n : Nat}
    (h : parse? l.text later = some (t, n)) : (l.withText t.render).Unbroken := by
  simp only [parse?, Option.bind_eq_bind, Option.bind_eq_some_iff] at h
  obtain ⟨⟨name, after⟩, hname, ⟨body, expected, left⟩, hsides, h⟩ := h
  obtain ⟨rfl, -⟩ := Prod.mk.inj (Option.some.inj h)
  simp only [parseSides?, Option.bind_eq_bind, Option.bind_eq_some_iff] at hsides
  obtain ⟨_, -, ⟨body', _⟩, -, _, -, _, -, ⟨expected', _⟩, -, hsides⟩ := hsides
  split at hsides
  · obtain ⟨rfl, hrest⟩ := Prod.mk.inj (Option.some.inj hsides)
    obtain ⟨rfl, -⟩ := Prod.mk.inj hrest
    have hname' : '\n' ∉ name := fun hmem => hl (mem_of_mem_name hname hmem)
    exact not_mem_render hname' (not_mem_joinSide body') (not_mem_joinSide expected')
  · cases hsides

theorem unbroken_expand {ls : List Line} (h : ∀ l ∈ ls, l.Unbroken) :
    ∀ m ∈ (expand ls).lines, m.Unbroken := by
  have hdone : (expand ls).Holds Line.Unbroken fun _ => True :=
    holds_expandFrom (fun _ _ _ _ hl _ hparse => unbroken_render hl hparse) (fun _ _ => trivial) 0 h
  exact hdone.lines

end SelfCheck

theorem Template.unbroken_expand (debug : Bool) {ls : List Line} (h : ∀ l ∈ ls, l.Unbroken) :
    ∀ m ∈ (expand debug ls).lines, m.Unbroken := by
  have hput : ∀ var n (l : Line), l.Unbroken →
      (l.withText (replaceTextFrom (placeholder var) (Text.ofInt n) 0 l.text)).Unbroken := by
    intro var n l hl hmem
    have hold : placeholder var ≠ [] := List.cons_ne_nil _ _
    rcases mem_replaceText hold hmem with hmem | hmem
    · exact hl hmem
    · exact not_mem_ofInt (by decide) n hmem
  have hdone : (expandBlocks debug (SelfCheck.expand ls).lines).Holds Line.Unbroken fun _ => True :=
    holds_expandBlocks hput (fun _ _ _ => trivial) debug (SelfCheck.unbroken_expand h)
  exact hdone.lines

/-! ### Macros -/

namespace Macro

/-- What stands beside the beginning of a definition is part of the line. -/
theorem mem_of_mem_beside {line : Text} {o : Opener} (h : parseOpener? line = some o) {t : Text}
    (ht : t ∈ o.beside) {c : Char} (hc : c ∈ t) : c ∈ line := by
  simp only [parseOpener?, Option.bind_eq_bind, Option.bind_eq_some_iff] at h
  obtain ⟨rest, hkeyword, h⟩ := h
  obtain ⟨w, rfl, -⟩ := Text.dropPrefixCi?_eq_some_iff.1 hkeyword
  refine List.mem_append_right w ?_
  split at h
  · cases h
  · simp only [Option.bind_eq_some_iff] at h
    obtain ⟨⟨trigger, after⟩, hcut, h⟩ := h
    obtain ⟨rfl, -⟩ := Text.cut?_eq_some_iff.1 hcut
    refine List.mem_append_right trigger (List.mem_cons_of_mem _ (Text.mem_of_mem_trim ?_))
    split at h
    · cases h
    · split at h
      · obtain rfl := Option.some.inj h
        exact absurd ht List.not_mem_nil
      · split at h
        · next body hbody =>
            obtain rfl := Option.some.inj h
            rw [List.mem_singleton.1 ht] at hc
            rw [Text.dropSuffix?_eq_some_iff.1 hbody]
            exact List.mem_append_left _ (Text.mem_of_mem_trim hc)
        · obtain rfl := Option.some.inj h
          rwa [List.mem_singleton.1 ht] at hc

theorem unbroken_extract {ls : List Line} (h : ∀ l ∈ ls, l.Unbroken) :
    ∀ m ∈ (extract ls).lines, m.Unbroken := by
  have hdone : (extract ls).Holds Line.Unbroken fun _ => True :=
    holds_extract (fun _ _ hl hparse _ ht hmem => hl (mem_of_mem_beside hparse ht hmem))
      (fun _ _ _ => trivial) h
  exact hdone.lines

/-- **Macros may put several lines in for one**, and these become lines of their own. -/
theorem unbroken_applyAll (macros : List Macro) {ls : List Line} (h : ∀ l ∈ ls, l.Unbroken) :
    ∀ m ∈ applyAll macros ls, m.Unbroken := by
  refine List.forall_mem_flatMap.2 fun l hl => ?_
  have hself := List.forall_mem_singleton.2 (h l hl)
  unfold applyLine
  split
  · exact hself
  · dsimp only
    split
    · exact hself
    · exact List.forall_mem_map.2 fun t ht => Text.not_mem_of_mem_splitOn ht

end Macro

/-! ### Commands -/

theorem mem_of_mem_keepCode {t : Text} {roles : List Role} {c : Char} (h : c ∈ keepCode t roles) :
    c ∈ t := by
  fun_induction keepCode t roles with
  | case1 d t rs ih => exact List.mem_cons_of_mem d (ih h)
  | case2 d t r rs hrole ih =>
      rcases List.mem_cons.1 h with rfl | h
      · exact List.mem_cons_self
      · exact List.mem_cons_of_mem d (ih h)
  | case3 => exact absurd h List.not_mem_nil

theorem mem_of_mem_stripLine {mode : Mode} {t : Text} {c : Char} (h : c ∈ (stripLine mode t).1) :
    c ∈ t := by
  unfold stripLine at h
  dsimp only at h
  split at h
  · exact mem_of_mem_keepCode (Text.mem_of_mem_trimEnd h)
  · exact mem_of_mem_keepCode h

theorem unbroken_stripComments {ls : List Line} (h : ∀ l ∈ ls, l.Unbroken) :
    ∀ m ∈ stripComments ls, m.Unbroken :=
  forall_stripComments (fun _ _ hl hmem => hl (mem_of_mem_stripLine hmem)) h

theorem unbroken_joinLines {ls : List Line} (h : ∀ l ∈ ls, l.Unbroken) :
    ∀ m ∈ joinLines ls, m.Unbroken := by
  refine forall_joinFrom (fun p l hp hl hmem => ?_)
    (fun l hl hmem => hl (Text.mem_of_mem_trimStart hmem)) (List.forall_mem_nil _) h
  rcases List.mem_append.1 hmem with hmem | hmem
  · exact hp hmem
  · exact hl (Text.mem_of_mem_trimStart hmem)

namespace Assignment

theorem IsName.not_mem {s : Text} (h : IsName s) : '\n' ∉ s := by
  intro hmem
  exact absurd (h.2 _ hmem) (by decide)

/-- A command that appends adds no line end to its parts. -/
theorem not_mem_appendCommand {delay attr obj : Text}
    (hnames : IsName delay ∧ IsName attr ∧ IsName obj) {added : Text} (hadded : '\n' ∉ added) :
    '\n' ∉ appendCommand delay attr obj added := by
  obtain ⟨hdelay, hattr, hobj⟩ := hnames
  delta appendCommand currentValue
  simp only [List.mem_append, not_or, hdelay.not_mem, hattr.not_mem, hobj.not_mem, hadded,
    not_false_eq_true, and_true]
  decide +kernel

end Assignment

/-- A line that is split has its own characters in all its parts. -/
theorem unbroken_splitCommand (limit : Nat) {l : Line} (hl : l.Unbroken) :
    ∀ m ∈ (splitCommand limit l).lines, m.Unbroken := by
  cases hparse : Assignment.parse? l.text with
  | none =>
      have hself : (splitCommand limit l).lines = [l] := by
        unfold splitCommand
        rw [hparse]
        split
        · rfl
        · rfl
      rw [hself]
      exact List.forall_mem_singleton.2 hl
  | some a =>
      obtain ⟨hhead, htext⟩ := Assignment.parse?_eq_some_iff.1 hparse
      obtain ⟨texts, first, more, hlines, hsplit⟩ := splitCommand_isSplit limit hparse
      have hvalue : '\n' ∉ a.head ∧ '\n' ∉ first ∧ ∀ p ∈ more, '\n' ∉ p := by
        rw [Line.Unbroken, htext, ← hsplit.joined] at hl
        simpa using hl
      rw [hlines, hsplit.texts_eq]
      refine List.forall_mem_map.2
        (List.forall_mem_cons.2 ⟨?_, List.forall_mem_map.2 fun p hp => ?_⟩)
      · exact List.not_mem_append hvalue.1 hvalue.2.1
      · exact Assignment.not_mem_appendCommand hhead.names (hvalue.2.2 p hp)

theorem unbroken_compress (macros : List Macro) (limit : Nat) {ls : List Line}
    (h : ∀ l ∈ ls, l.Unbroken) : ∀ m ∈ (compress macros limit ls).lines, m.Unbroken := by
  have happlied := Macro.unbroken_applyAll macros (unbroken_joinLines (unbroken_stripComments h))
  intro m hm
  simp only [compress, Staged.each, List.mem_flatMap, List.mem_map] at hm
  obtain ⟨r, ⟨l, hl, rfl⟩, hm⟩ := hm
  exact unbroken_splitCommand limit (happlied l hl) m hm

/-! ### All stages -/

/-- **No stage leaves a line feed in a line.** -/
theorem Session.unbroken_stages {s : Session} (h : ∀ l ∈ s.lines, l.Unbroken) (limit : Nat) :
    ∀ m ∈ (s.stages limit).lines, m.Unbroken :=
  unbroken_compress _ limit (Macro.unbroken_extract
    (Template.unbroken_expand _ (Constant.unbroken_resolve h)))

/-- The output of a run is made of its lines. -/
theorem output_of_run {o : Options} {s : Sources} {entry : Text} {out : Output}
    (h : run o s entry = .ok out) : out.output = Line.joined out.lines := by
  unfold run at h
  split at h
  · cases h
  · next lines r hresolve =>
      dsimp only at h
      generalize (Session.ofResolver o lines r).stages o.safeLimit = done at h
      obtain rfl := Except.ok.inj h
      rfl

/-- **One line of output for every line.**  Whatever the options and the sources, no line that comes
out of a compilation has a line feed in its text; so, if there is one, cutting the output at line
feeds gives the texts of the lines, in order and number. -/
theorem run_unbroken {o : Options} {s : Sources} {entry : Text} {out : Output}
    (h : run o s entry = .ok out ∨ compile o s entry = .ok out) :
    (∀ m ∈ out.lines, '\n' ∉ m.text) ∧
      (out.lines ≠ [] → Text.splitOn '\n' out.output = out.lines.map (·.text)) := by
  have hrun : run o s entry = .ok out := h.elim (fun h => h) run_of_compile
  obtain ⟨lines, r, done, hresolve, rfl, hlines, -, -⟩ := exists_of_run hrun
  obtain ⟨l, t, -, -, rfl, -⟩ := Resolver.exists_tree_of_resolveEntry rfl hresolve
  have hloaded := t.unbroken_splice (Line.unbroken_ofSource l.text l.id)
  have hunbroken : ∀ m ∈ out.lines, m.Unbroken := by
    rw [hlines]
    exact Session.unbroken_stages hloaded o.safeLimit
  refine ⟨hunbroken, fun hne => ?_⟩
  rw [output_of_run hrun, Line.joined]
  exact Text.splitOn_join (List.map_eq_nil_iff.not.2 hne) (List.forall_mem_map.2 hunbroken)

/-- A macro of the options puts two lines in for `x`. -/
def twoLineMacro : Options := { defines := [(['x'], ['a', '\n', 'b'])] }

/-- The first line of two becomes two lines, and the output has three. -/
theorem run_unbroken_twoLineMacro :
    ∃ out, run twoLineMacro bracketSources ['/', 'm'] = .ok out ∧
      out.lines = [⟨['a'], "/c", 1⟩, ⟨['b'], "/c", 1⟩, ⟨['[', 'y'], "/m", 2⟩] ∧
      (∀ m ∈ out.lines, '\n' ∉ m.text) ∧
      Text.splitOn '\n' out.output = [['a'], ['b'], ['[', 'y']] := by
  -- loading does not depend on macros
  have hresolve : Resolver.resolveEntry bracketSources ['/', 'm']
      (twoLineMacro.resolver bracketSources.tree) = _ := resolveEntry_bracket
  obtain ⟨out, hrun⟩ := exists_run hresolve
  obtain ⟨lines, r, done, hresolve', hstages, hlines, -, -⟩ := exists_of_run hrun
  obtain ⟨hloaded, rfl⟩ := Prod.mk.inj (hresolve.symm.trans hresolve')
  obtain rfl := Except.ok.inj hloaded
  have hout : out.lines = [⟨['a'], "/c", 1⟩, ⟨['b'], "/c", 1⟩, ⟨['[', 'y'], "/m", 2⟩] := by
    rw [hlines, ← hstages]
    decide +kernel
  obtain ⟨hunbroken, hsplit⟩ := run_unbroken (Or.inl hrun)
  refine ⟨out, hrun, hout, hunbroken, ?_⟩
  rw [hsplit (by rw [hout]; exact List.cons_ne_nil _ _), hout]
  rfl

end Softcode
