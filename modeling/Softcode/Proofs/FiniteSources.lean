/-
**Where sources come from.**

Only finitely many sources can be reached from an entry, and all that is needed to see this is known
before anything is loaded.  A file that is loaded is an entry of the file tree, an address is that
of a page, and a module is named by a line of a source that is reached; the texts of all these
sources are known, apart from that of the entry.  A reference in a line is never a source itself,
because it has no line feed.

Main definitions:

* `Softcode.Sources.ReadsPages` — bases relative to which addresses are those of pages.

Main results:

* `Softcode.Instruction.mem_of_mem_reference?` — the reference of a line is part of it;
* `Softcode.Reference.classify_spec` — what a reference without a line feed may be;
* `Softcode.Sources.find_spec` — the text and the identifier of a source that is found;
* `Softcode.Sources.mem_identifiers_of_find` — **what a known source refers to is known**.
-/

import Softcode.Proofs.Text
import Softcode.Resolver

set_option autoImplicit false

namespace Softcode

/-! ### The references of lines -/

theorem mem_of_mem_unquoteWith? {q : Char} {s t : Text} (ht : unquoteWith? q s = some t) {c : Char}
    (h : c ∈ t) : c ∈ s := by
  cases s with
  | nil => cases ht
  | cons d s =>
      rw [unquoteWith?] at ht
      split at ht
      · rw [Text.dropSuffix?_eq_some_iff.1 ht]
        exact List.mem_cons_of_mem _ (List.mem_append_left _ h)
      · cases ht

theorem mem_of_mem_unquote {s : Text} {c : Char} (h : c ∈ unquote s) : c ∈ s := by
  refine Text.mem_of_mem_trim ?_
  unfold unquote at h
  dsimp only at h
  cases hdouble : unquoteWith? '"' (Text.trim s) with
  | some t =>
      rw [hdouble] at h
      exact mem_of_mem_unquoteWith? hdouble h
  | none =>
      cases hsingle : unquoteWith? '\'' (Text.trim s) with
      | some t =>
          rw [hdouble, hsingle] at h
          exact mem_of_mem_unquoteWith? hsingle h
      | none =>
          rw [hdouble, hsingle] at h
          exact h

theorem mem_of_mem_directiveArg? {name line arg : Text}
    (harg : directiveArg? '#' name line = some arg) {c : Char} (h : c ∈ arg) : c ∈ line := by
  obtain ⟨b, w, tail, -, -, -, rfl, rfl⟩ :=
    (directiveArg?_eq_some_iff isBlank_hash).1 harg
  have := Text.mem_of_mem_trim h
  simp [this]

namespace Instruction

theorem mem_of_mem_parseImport? {arg reference label : Text}
    (himport : parseImport? arg = some (reference, label)) {c : Char} (h : c ∈ reference) :
    c ∈ arg := by
  unfold parseImport? at himport
  simp only [Option.bind_eq_bind, Option.bind_eq_some_iff] at himport
  obtain ⟨rest, hrest, ⟨quoted, tail⟩, hcut, label', -, hend⟩ := himport
  split at hend
  · cases hend
  · split at hend
    · cases hend
    · obtain ⟨rfl, -⟩ := Prod.mk.inj (Option.some.inj hend)
      have hquoted : c ∈ quoted := Text.mem_of_mem_trim h
      obtain ⟨rfl, -⟩ := Text.cut?_eq_some_iff.1 hcut
      rw [Text.dropPrefix?_eq_some_iff.1 hrest]
      simp [hquoted]

/-- An alias consists of characters that an alias may have. -/
theorem isAliasChar_of_mem {arg reference label : Text}
    (h : parseImport? arg = some (reference, label)) {c : Char} (hc : c ∈ label) :
    isAliasChar c = true := by
  simp only [parseImport?, Option.bind_eq_bind, Option.bind_eq_some_iff] at h
  obtain ⟨rest, -, ⟨quoted, tail⟩, -, label', -, hend⟩ := h
  split at hend
  · cases hend
  · split at hend
    · cases hend
    · next hgood =>
        obtain ⟨-, rfl⟩ := Prod.mk.inj (Option.some.inj hend)
        simp only [Bool.or_eq_true, Bool.not_eq_true', not_or, Bool.not_eq_false] at hgood
        exact List.all_eq_true.1 hgood.2 c hc

theorem reference?_parseSetting (line : Text) : (parseSetting line).reference? = none := by
  unfold parseSetting
  split
  · rfl
  · split
    · rfl
    · split
      · rfl
      · split <;> rfl

/-- The reference of a line is part of it. -/
theorem mem_of_mem_reference? {line reference : Text}
    (href : (parse line).reference? = some reference) {c : Char} (h : c ∈ reference) :
    c ∈ line := by
  unfold parse at href
  split at href
  · next arg harg =>
      obtain rfl : arg = reference := Option.some.inj href
      exact mem_of_mem_directiveArg? harg h
  · split at href
    · next arg harg =>
        obtain rfl : arg = reference := Option.some.inj href
        exact mem_of_mem_directiveArg? harg h
    · split at href
      · rw [reference?_parseSetting] at href
        cases href
      · next arg harg =>
          split at href
          · next reference' label himport =>
              obtain rfl : reference' = reference := Option.some.inj href
              exact mem_of_mem_directiveArg? harg (mem_of_mem_parseImport? himport h)
          · cases href

end Instruction

/-! ### Where sources are found -/

theorem mem_of_lookup_eq_some {α β : Type} [BEq α] [LawfulBEq α] {ps : List (α × β)} {a : α} {b : β}
    (h : ps.lookup a = some b) : (a, b) ∈ ps := by
  obtain ⟨front, back, rfl, -⟩ := List.lookup_eq_some_iff.1 h
  simp

namespace FileTree

variable {t : FileTree}

/-- A file is an entry; what merely stands above entries is a directory. -/
theorem mem_entries_of_lookup? {p : Place} {content : Bytes}
    (h : t.lookup? p = some (.file content)) : (p, Entry.file content) ∈ t.entries := by
  unfold lookup? at h
  split at h
  · next e he =>
      obtain rfl : e = .file content := Option.some.inj h
      exact mem_of_lookup_eq_some he
  · split at h <;> cases h

theorem exists_entry_of_read {path : Text} {content : Bytes} (h : t.read path = .ok content) :
    ∃ p, (p, Entry.file content) ∈ t.entries := by
  obtain ⟨p, -, h⟩ := exists_of_bind_eq_ok h
  split at h
  · cases h
  · cases h
  · next content' hlookup =>
      obtain rfl : content' = content := Except.ok.inj h
      exact ⟨p, mem_entries_of_lookup? hlookup⟩

/-- A path that leads to a file leads to an entry. -/
theorem exists_entry_of_isFile {path : Text} (h : t.isFile path = true) :
    ∃ p content, t.canonical path = .ok (render p) ∧ (p, Entry.file content) ∈ t.entries := by
  unfold isFile at h
  split at h
  · cases h
  · next p hp =>
      split at h
      · next content hlookup =>
          refine ⟨p, content, ?_, mem_entries_of_lookup? hlookup⟩
          rw [canonical, hp]
          rfl
      · cases h

end FileTree

namespace Reference

theorem relative_spec {base : Base} {text : Text} {r : Reference}
    (h : relative base text = .ok r) : (∃ u, r = .url u) ∨ ∃ path, r = .file path := by
  unfold relative at h
  split at h
  · exact Or.inr ⟨text, (Except.ok.inj h).symm⟩
  · split at h
    · next dir => exact Or.inr ⟨Path.join dir text, (Except.ok.inj h).symm⟩
    · split at h
      · next v _ => exact Or.inl ⟨v, (Except.ok.inj h).symm⟩
      · cases h

/-- What a reference without a line feed may be: never a source itself. -/
theorem classify_spec {reference : Text} (hline : '\n' ∉ reference) {base : Base} {ext : Text}
    {r : Reference} (h : classify reference base ext = .ok r) :
    (∃ name, r = .std name ∧ stdName? (Text.trim reference) = some name) ∨
      (∃ u, r = .url u) ∨ ∃ path, r = .file path := by
  have htrim : '\n' ∉ Text.trim reference := fun h => hline (Text.mem_of_mem_trim h)
  unfold classify at h
  dsimp only at h
  rw [if_neg htrim] at h
  split at h
  · next name hname => exact Or.inl ⟨name, (Except.ok.inj h).symm, hname⟩
  · refine Or.inr ?_
    split at h
    · next rest _ =>
        cases hu : repositoryUrl (Text.trim rest) ext with
        | error e => rw [hu] at h; cases h
        | ok u =>
            rw [hu] at h
            exact Or.inl ⟨u, (Except.ok.inj h).symm⟩
    · split at h
      · split at h
        · next u _ => exact Or.inl ⟨u, (Except.ok.inj h).symm⟩
        · cases h
      · exact relative_spec h

end Reference

namespace Sources

variable {s : Sources}

theorem mem_texts_of_readText {path text : Text} (h : s.readText path = .ok text) :
    text ∈ s.texts := by
  unfold readText at h
  split at h
  · cases h
  · next content hread =>
      split at h
      · next text' hdecode =>
          obtain rfl : text' = text := Except.ok.inj h
          obtain ⟨p, hp⟩ := FileTree.exists_entry_of_read hread
          refine List.mem_append_left _ (List.mem_append_left _ (List.mem_filterMap.2 ⟨_, hp, ?_⟩))
          dsimp only
          rw [hdecode]
          rfl
      · cases h

theorem mem_texts_of_source? {name text : Text} (h : Bundled.source? name = some text) :
    text ∈ s.texts :=
  List.mem_append_right _ (List.mem_map.2 ⟨(name, text), mem_of_lookup_eq_some h, rfl⟩)

theorem mem_texts_of_pages {ps : List (Text × Text)} (hps : s.fetcher = .pages ps)
    {page : Text × Text} (h : page ∈ ps) : page.2 ∈ s.texts := by
  unfold texts
  rw [hps]
  exact List.mem_append_left _ (List.mem_append_right _ (List.mem_map.2 ⟨page, h, rfl⟩))

/-- A module has a known text and the identifier of its name. -/
theorem loadModule_spec {name : Text} {base : Base} {l : Loaded}
    (h : s.loadModule name base = .ok l) :
    l.text ∈ s.texts ∧ l.id.toList = s.moduleId name := by
  have hbundled : s.loadBundled name base = .ok l →
      l.text ∈ s.texts ∧ l.id.toList = s.moduleId name := by
    intro h
    unfold loadBundled at h
    dsimp only at h
    split at h
    · next text hsource =>
        obtain rfl := Except.ok.inj h
        exact ⟨mem_texts_of_source? hsource, String.toList_ofList⟩
    · cases h
  unfold loadModule at h
  split at h
  · exact hbundled h
  · dsimp only at h
    split at h
    · obtain ⟨text, htext, h⟩ := exists_of_bind_eq_ok h
      obtain rfl := Except.ok.inj h
      exact ⟨mem_texts_of_readText htext, String.toList_ofList⟩
    · exact hbundled h

/-- A file that is there has a known text, and the path of its entry as its identifier. -/
theorem loadFile_spec {path : Text} {l : Loaded} (hfile : s.tree.isFile path = true)
    (h : s.loadFile path = .ok l) :
    l.text ∈ s.texts ∧ ∃ e ∈ s.tree.entries, l.id.toList = FileTree.render e.1 := by
  obtain ⟨p, content, hcanonical, hentry⟩ := FileTree.exists_entry_of_isFile hfile
  unfold loadFile at h
  rw [hcanonical] at h
  obtain ⟨text, htext, h⟩ := exists_of_bind_eq_ok h
  obtain rfl := Except.ok.inj h
  exact ⟨mem_texts_of_readText htext, _, hentry, String.toList_ofList⟩

/-- A source that is one of the pages. -/
def IsPage (s : Sources) (l : Loaded) : Prop :=
  ∃ ps, s.fetcher = .pages ps ∧ ∃ page ∈ ps, page.2 = l.text ∧ l.id.toList = page.1

/-- What addresses that are relative to a base are read from are pages. -/
def ReadsPages (s : Sources) (base : Base) : Prop :=
  ∀ reference u l, Reference.classify reference base s.ext = .ok (.url u) →
    s.loadAny (.url u) base = .ok l → s.IsPage l

theorem readsPages_of_pages {ps : List (Text × Text)} (hps : s.fetcher = .pages ps) (base : Base) :
    s.ReadsPages base := by
  intro reference u l _ h
  unfold loadAny at h
  rw [hps] at h
  dsimp only at h
  split at h
  · next text hfetch =>
      obtain rfl := Except.ok.inj h
      unfold Fetcher.fetch at hfetch
      dsimp only at hfetch
      split at hfetch
      · next text' hlookup =>
          obtain rfl : text' = text := Except.ok.inj hfetch
          exact ⟨ps, hps, (u.render, text'), mem_of_lookup_eq_some hlookup, rfl,
            String.toList_ofList⟩
      · cases hfetch
  · cases h

theorem loadAny_of_load {r : Reference} {base : Base} {l : Loaded} (h : s.load r base = .ok l) :
    s.loadAny r base = .ok l := by
  obtain ⟨l', hany, h⟩ := exists_of_bind_eq_ok h
  dsimp only at h
  split at h
  · cases h
  · rw [hany, Except.ok.inj h]

/-- A source that is found by a reference, which is not empty, is loaded; if it is a file it is
there. -/
theorem exists_load_of_find {base : Base} {reference : Text} {l : Loaded}
    (h : s.find base reference = .ok l) :
    unquote reference ≠ [] ∧
      ∃ r, Reference.classify (unquote reference) base s.ext = .ok r ∧ s.load r base = .ok l ∧
        ∀ path, r = .file path → s.tree.isFile path = true := by
  unfold find at h
  dsimp only at h
  split at h
  · cases h
  · next hempty =>
      obtain ⟨r, hr, h⟩ := exists_of_bind_eq_ok h
      refine ⟨fun hnil => hempty (List.isEmpty_iff.2 hnil), r, hr, ?_⟩
      split at h
      · next path =>
          split at h
          · next hfile =>
              refine ⟨h, fun path' hpath => ?_⟩
              obtain rfl := Reference.file.inj hpath
              exact hfile
          · cases h
      · next hne => exact ⟨h, fun path hpath => absurd hpath (hne path)⟩

/-- **A source that a line refers to** has a known text, and its identifier is that of a file, of a
page or of the module that the line names. -/
theorem find_spec {base : Base} (hpages : s.ReadsPages base) {reference : Text}
    (hline : '\n' ∉ reference) {l : Loaded} (h : s.find base reference = .ok l) :
    l.text ∈ s.texts ∧
      ((∃ e ∈ s.tree.entries, l.id.toList = FileTree.render e.1) ∨ s.IsPage l ∨
        s.moduleIdOf? reference = some l.id.toList) := by
  obtain ⟨-, r, hr, hload, hfile⟩ := exists_load_of_find h
  replace hload := loadAny_of_load hload
  have hline' : '\n' ∉ unquote reference := fun h => hline (mem_of_mem_unquote h)
  rcases Reference.classify_spec hline' hr with ⟨name, rfl, hname⟩ | ⟨u, rfl⟩ | ⟨path, rfl⟩
  · obtain ⟨htext, hid⟩ := loadModule_spec hload
    refine ⟨htext, Or.inr (Or.inr ?_)⟩
    rw [moduleIdOf?, hname, hid]
    rfl
  · obtain ⟨ps, hps, page, hpage, htext, hid⟩ := hpages _ u l hr hload
    exact ⟨htext ▸ mem_texts_of_pages hps hpage,
      Or.inr (Or.inl ⟨ps, hps, page, hpage, htext, hid⟩)⟩
  · obtain ⟨htext, hentry⟩ := loadFile_spec (hfile path rfl) hload
    exact ⟨htext, Or.inl hentry⟩

/-- **A source that a line of a known source refers to is known**: its text, and its identifier. -/
theorem mem_identifiers_of_find {base : Base} (hpages : s.ReadsPages base) {entry l : Loaded}
    {text line reference : Text} (htext : text ∈ entry.text :: s.texts)
    (hline : line ∈ Text.lines text)
    (href : (Instruction.parse line).reference? = some reference)
    (hfind : s.find base reference = .ok l) :
    l.text ∈ entry.text :: s.texts ∧ l.id.toList ∈ s.identifiers entry := by
  have hfeed : '\n' ∉ reference := fun h =>
    Text.not_mem_of_mem_lines hline (Instruction.mem_of_mem_reference? href h)
  obtain ⟨hl, hid⟩ := find_spec hpages hfeed hfind
  refine ⟨List.mem_cons_of_mem _ hl, ?_⟩
  unfold identifiers
  rcases hid with ⟨e, he, hid⟩ | ⟨ps, hps, page, hpage, -, hid⟩ | hid
  · simp only [List.mem_append, List.mem_map]
    exact Or.inl (Or.inl (Or.inr ⟨e, he, hid.symm⟩))
  · rw [hps]
    simp only [List.mem_append, List.mem_map]
    exact Or.inl (Or.inr ⟨page, hpage, hid.symm⟩)
  · simp only [List.mem_append, List.mem_flatMap]
    refine Or.inr ⟨text, htext, List.mem_filterMap.2 ⟨line, hline, ?_⟩⟩
    rw [href]
    exact hid

end Sources

end Softcode
