/-
**What references name.**

A reference in a line is text, and which source it names depends on the source it stands in.  Here
this is described in three steps, without the order in which the loader tries things: the quotes
around a reference, the kinds of reference and how they are told apart, and the source of each kind
with the base that it sets for its own references.  A file sets its own directory and an address
itself; a module from the directory of modules sets that directory, and a bundled one has no place
and leaves the base as it is.

The kinds exclude each other, since none of the words they begin with is the beginning of another.

Main definitions:

* `Softcode.IsUnquoted` — a text without the quotes around it;
* `Softcode.Reference.Denotes` — **what a reference stands for** in a source with a certain base;
* `Softcode.Sources.Supplies` — the source of a reference, with its base;
* `Softcode.Sources.Names`, `Softcode.Sources.IsEntry` — the source that a reference in a line
  names, and the one that an entry is.

Main results:

* `Softcode.Reference.classify_eq_ok_iff`, `Softcode.Sources.load_eq_ok_iff` — references are read
  and sources are loaded as described;
* `Softcode.Sources.find_eq_ok_iff`, `Softcode.Sources.findEntry_eq_ok_iff` — **the loader finds the
  sources that references name**.
-/

import Softcode.Proofs.FiniteSources

set_option autoImplicit false

namespace Softcode

/-! ### Quotes -/

/-- A text without blanks and one pair of quotes around it. -/
inductive IsUnquoted (s : Text) : Text → Prop where
  | quoted {q : Char} {t : Text} (hq : q = '"' ∨ q = '\'')
      (h : Text.trim s = q :: (t ++ [q])) : IsUnquoted s t
  | plain (h : ∀ q t, q = '"' ∨ q = '\'' → Text.trim s ≠ q :: (t ++ [q])) :
      IsUnquoted s (Text.trim s)

theorem unquoteWith?_eq_some_iff {q : Char} {s t : Text} :
    unquoteWith? q s = some t ↔ s = q :: (t ++ [q]) := by
  cases s with
  | nil => simp [unquoteWith?]
  | cons c s =>
      rw [unquoteWith?]
      split
      · next hc => rw [Text.dropSuffix?_eq_some_iff, hc, List.cons.injEq, and_iff_right rfl]
      · next hc =>
          constructor
          · intro h
            cases h
          · intro h
            exact absurd (List.cons.inj h).1 hc

theorem unquote_of_isUnquoted {s t : Text} (h : IsUnquoted s t) : unquote s = t := by
  have hnone : ∀ q, (∀ t, Text.trim s ≠ q :: (t ++ [q])) → unquoteWith? q (Text.trim s) = none :=
    fun q hq => Option.eq_none_iff_forall_ne_some.2 fun t ht =>
      hq t (unquoteWith?_eq_some_iff.1 ht)
  unfold unquote
  cases h with
  | quoted hq h =>
      rcases hq with rfl | rfl
      · simp [unquoteWith?_eq_some_iff.2 h]
      · have hdouble := hnone '"' fun t ht => absurd (List.cons.inj (h.symm.trans ht)).1 (by decide)
        simp [hdouble, unquoteWith?_eq_some_iff.2 h]
  | plain h => simp [hnone '"' (h '"' · (Or.inl rfl)), hnone '\'' (h '\'' · (Or.inr rfl))]

theorem unquote_eq_iff {s t : Text} : unquote s = t ↔ IsUnquoted s t := by
  refine ⟨?_, unquote_of_isUnquoted⟩
  rintro rfl
  obtain ⟨t, ht⟩ : ∃ t, IsUnquoted s t := by
    by_cases h : ∃ q t, (q = '"' ∨ q = '\'') ∧ Text.trim s = q :: (t ++ [q])
    · obtain ⟨q, t, hq, h⟩ := h
      exact ⟨t, .quoted hq h⟩
    · exact ⟨_, .plain fun q t hq ht => h ⟨q, t, hq, ht⟩⟩
  rw [unquote_of_isUnquoted ht]
  exact ht

/-! ### Kinds of references -/

/-- A text begins with a word in any case. -/
def Begins (word t rest : Text) : Prop := ∃ w, t = w ++ rest ∧ w.map Char.toLower = word

/-- A text that is a path: one line, which begins with none of the words for other references. -/
def IsPlainPath (t : Text) : Prop :=
  '\n' ∉ t ∧ (∀ name, t ≠ "std/".toList ++ name) ∧
    ∀ word ∈ ["git:".toList, "github:".toList, "http://".toList, "https://".toList],
      ∀ rest, ¬ Begins word t rest

/-- **What a reference stands for** in a source with a certain base.  Relative paths are those that
depend on it. -/
inductive Reference.Denotes (b : Base) (ext t : Text) : Reference → Prop where
  | inline (h : '\n' ∈ t) : Denotes b ext t (.inline t)
  | std {name : Text} (hline : '\n' ∉ t) (h : t = "std/".toList ++ name) :
      Denotes b ext t (.std name)
  | repository {word rest : Text} {u : Url} (hline : '\n' ∉ t)
      (hword : word ∈ ["git:".toList, "github:".toList]) (h : Begins word t rest)
      (hu : repositoryUrl (Text.trim rest) ext = .ok u) : Denotes b ext t (.url u)
  | address {word rest : Text} {u : Url} (hline : '\n' ∉ t)
      (hword : word ∈ ["http://".toList, "https://".toList]) (h : Begins word t rest)
      (hu : Url.parse t = .ok u) : Denotes b ext t (.url u)
  | absolute (hplain : IsPlainPath t) (h : t.head? = some '/') : Denotes b ext t (.file t)
  | below {dir : Text} (hplain : IsPlainPath t) (h : t.head? ≠ some '/') (hb : b = .dir dir) :
      Denotes b ext t (.file (Path.join dir t))
  | beside {u v : Url} (hplain : IsPlainPath t) (h : t.head? ≠ some '/') (hb : b = .url u)
      (hv : u.join t = .ok v) : Denotes b ext t (.url v)

namespace Reference

variable {b : Base} {ext t reference : Text} {r : Reference}

/-- The words that references begin with, apart from paths. -/
def kindWords : List Text :=
  ["std/".toList, "git:".toList, "github:".toList, "http://".toList, "https://".toList]

theorem begins_iff {word rest : Text} (hword : word ∈ kindWords) :
    Begins word t rest ↔ Text.dropPrefixCi? word t = some rest := by
  have hlower : ∀ word ∈ kindWords, word.map Char.toLower = word := by decide
  rw [Text.dropPrefixCi?_eq_some_iff, Begins]
  simp only [Text.dropPrefixCi?_eq_nil_iff, hlower word hword]

/-- **A text does not begin with two of the words**, since any two of them differ in a letter. -/
theorem begins_unique {word word' rest rest' : Text} (hword : word ∈ kindWords)
    (hword' : word' ∈ kindWords) (h : Begins word t rest) (h' : Begins word' t rest') :
    word = word' := by
  have hdiffer : ∀ word ∈ kindWords, ∀ word' ∈ kindWords, word ≠ word' →
      ∃ n < min word.length word'.length, word[n]? ≠ word'[n]? := by decide
  by_contra hne
  obtain ⟨n, hn, hletter⟩ := hdiffer word hword word' hword' hne
  obtain ⟨w, hw, rfl⟩ := h
  obtain ⟨w', hw', rfl⟩ := h'
  rw [List.length_map, List.length_map, Nat.lt_min] at hn
  refine hletter ?_
  rw [List.getElem?_map, List.getElem?_map, ← List.getElem?_append_left hn.1,
    ← List.getElem?_append_left hn.2, ← hw, ← hw']

theorem stdName?_eq_none_iff : stdName? t = none ↔ ∀ name, t ≠ "std/".toList ++ name := by
  rw [Option.eq_none_iff_forall_ne_some]
  exact forall_congr' fun name => not_congr Text.dropPrefix?_eq_some_iff

theorem stdName?_of_begins {word rest : Text} (hword : word ∈ kindWords)
    (hne : word ≠ "std/".toList) (h : Begins word t rest) : stdName? t = none :=
  stdName?_eq_none_iff.2 fun name hname =>
    hne (begins_unique hword (by decide) h ⟨_, hname, by decide⟩)

theorem shorthand?_eq_some_iff {rest : Text} :
    shorthand? t = some rest ↔ ∃ word ∈ ["git:".toList, "github:".toList], Begins word t rest := by
  rw [shorthand?, Option.or_eq_some_iff, ← begins_iff (by decide), ← begins_iff (by decide)]
  constructor
  · rintro (h | ⟨-, h⟩)
    · exact ⟨_, by decide, h⟩
    · exact ⟨_, by decide, h⟩
  · rintro ⟨word, hword, h⟩
    simp only [List.mem_cons, List.not_mem_nil, or_false] at hword
    rcases hword with rfl | rfl
    · refine Or.inr ⟨Option.eq_none_iff_forall_ne_some.2 fun rest' hrest' => ?_, h⟩
      exact absurd (begins_unique (by decide) (by decide) h ((begins_iff (by decide)).2 hrest'))
        (by decide)
    · exact Or.inl h

theorem isWebAddress_iff :
    isWebAddress t = true ↔
      ∃ word ∈ ["http://".toList, "https://".toList], ∃ rest, Begins word t rest := by
  have hbegins : ∀ word ∈ kindWords,
      (Text.dropPrefixCi? word t).isSome = true ↔ ∃ rest, Begins word t rest := by
    intro word hword
    simp only [Option.isSome_iff_exists, begins_iff hword]
  rw [isWebAddress, Bool.or_eq_true, hbegins _ (by decide), hbegins _ (by decide)]
  simp only [List.mem_cons, List.not_mem_nil, or_false, exists_eq_or_imp, exists_eq_left]

/-- A path is what is none of the other references. -/
theorem isPlainPath_iff :
    IsPlainPath t ↔
      '\n' ∉ t ∧ stdName? t = none ∧ shorthand? t = none ∧ isWebAddress t = false := by
  rw [IsPlainPath, stdName?_eq_none_iff, Option.eq_none_iff_forall_ne_some, Bool.eq_false_iff]
  refine and_congr_right fun _ => and_congr_right fun _ => ?_
  simp only [ne_eq, shorthand?_eq_some_iff, isWebAddress_iff]
  constructor
  · intro h
    refine ⟨fun rest ⟨word, hword, hbegins⟩ => h word ?_ rest hbegins,
      fun ⟨word, hword, rest, hbegins⟩ => h word ?_ rest hbegins⟩
    · exact List.mem_append_left ["http://".toList, "https://".toList] hword
    · exact List.mem_append_right ["git:".toList, "github:".toList] hword
  · rintro ⟨hshort, hweb⟩ word hword rest hbegins
    rcases List.mem_append.1
      (show word ∈ ["git:".toList, "github:".toList] ++ ["http://".toList, "https://".toList]
        from hword) with hword | hword
    · exact hshort rest ⟨word, hword, hbegins⟩
    · exact hweb ⟨word, hword, rest, hbegins⟩

theorem denotes_of_relative (hplain : IsPlainPath t) (h : relative b t = .ok r) :
    Denotes b ext t r := by
  unfold relative at h
  split at h
  · next habsolute =>
      obtain rfl := Except.ok.inj h
      exact .absolute hplain (beq_iff_eq.1 habsolute)
  · next habsolute =>
      have hhead : t.head? ≠ some '/' := fun h => habsolute (beq_iff_eq.2 h)
      split at h
      · obtain rfl := Except.ok.inj h
        exact .below hplain hhead rfl
      · split at h
        · next v hv =>
            obtain rfl := Except.ok.inj h
            exact .beside hplain hhead rfl hv
        · cases h

theorem denotes_of_classify (h : classify reference b ext = .ok r) :
    Denotes b ext (Text.trim reference) r := by
  unfold classify at h
  dsimp only at h
  split at h
  · next hline =>
      obtain rfl := Except.ok.inj h
      exact .inline hline
  · next hline =>
      split at h
      · next name hname =>
          obtain rfl := Except.ok.inj h
          exact .std hline (Text.dropPrefix?_eq_some_iff.1 hname)
      · next hstd =>
          split at h
          · next rest hrest =>
              obtain ⟨word, hword, hbegins⟩ := shorthand?_eq_some_iff.1 hrest
              cases hu : repositoryUrl (Text.trim rest) ext with
              | error e => rw [hu] at h; cases h
              | ok u =>
                  rw [hu] at h
                  obtain rfl := Except.ok.inj h
                  exact .repository hline hword hbegins hu
          · next hshort =>
              split at h
              · next hweb =>
                  obtain ⟨word, hword, rest, hbegins⟩ := isWebAddress_iff.1 hweb
                  split at h
                  · next u hu =>
                      obtain rfl := Except.ok.inj h
                      exact .address hline hword hbegins hu
                  · cases h
              · next hweb =>
                  have hplain := isPlainPath_iff.2
                    ⟨hline, hstd, hshort, Bool.eq_false_iff.2 hweb⟩
                  exact denotes_of_relative hplain h

/-- What is none of the other references is a path. -/
theorem classify_of_isPlainPath (h : IsPlainPath (Text.trim reference)) :
    classify reference b ext = relative b (Text.trim reference) := by
  obtain ⟨hline, hstd, hshort, hweb⟩ := isPlainPath_iff.1 h
  simp only [classify, if_neg hline, hstd, hshort, hweb, Bool.false_eq_true, if_false]

theorem classify_of_denotes (h : Denotes b ext (Text.trim reference) r) :
    classify reference b ext = .ok r := by
  cases h with
  | inline h => simp only [classify, if_pos h]
  | std hline h =>
      have hstd := Text.dropPrefix?_eq_some_iff.2 h
      simp only [classify, if_neg hline, stdName?, hstd]
  | @repository word rest u hline hword h hu =>
      have hkind : ∀ word ∈ ["git:".toList, "github:".toList],
          word ∈ kindWords ∧ word ≠ "std/".toList := by decide
      have hstd := stdName?_of_begins (hkind word hword).1 (hkind word hword).2 h
      have hshort := shorthand?_eq_some_iff.2 ⟨word, hword, h⟩
      simp only [classify, if_neg hline, hstd, hshort, hu]
      rfl
  | @address word rest u hline hword h hu =>
      have hkind : ∀ word ∈ ["http://".toList, "https://".toList], word ∈ kindWords ∧
          word ≠ "std/".toList ∧ word ∉ ["git:".toList, "github:".toList] := by decide
      have hshortKind : ∀ word ∈ ["git:".toList, "github:".toList], word ∈ kindWords := by decide
      obtain ⟨hmem, hne, hother⟩ := hkind word hword
      have hstd := stdName?_of_begins hmem hne h
      have hshort : shorthand? (Text.trim reference) = none := by
        refine Option.eq_none_iff_forall_ne_some.2 fun rest' hrest' => hother ?_
        obtain ⟨word', hword', h'⟩ := shorthand?_eq_some_iff.1 hrest'
        rw [begins_unique hmem (hshortKind word' hword') h h']
        exact hword'
      have hweb := isWebAddress_iff.2 ⟨word, hword, rest, h⟩
      simp only [classify, if_neg hline, hstd, hshort, hweb, hu, if_true]
  | absolute hplain h =>
      rw [classify_of_isPlainPath hplain]
      unfold relative
      rw [Path.isAbsolute, if_pos (beq_iff_eq.2 h)]
  | below hplain h hb =>
      rw [classify_of_isPlainPath hplain, hb]
      unfold relative
      rw [Path.isAbsolute, if_neg (mt beq_iff_eq.1 h)]
  | beside hplain h hb hv =>
      rw [classify_of_isPlainPath hplain, hb]
      unfold relative
      rw [Path.isAbsolute, if_neg (mt beq_iff_eq.1 h)]
      simp only [hv]

/-- **References are read as described.** -/
theorem classify_eq_ok_iff :
    classify reference b ext = .ok r ↔ Denotes b ext (Text.trim reference) r :=
  ⟨denotes_of_classify, classify_of_denotes⟩

end Reference

/-! ### Sources -/

namespace Sources

/-- A module by its name, which may be written with the extension or without it. -/
def IsModule (s : Sources) (name stem : Text) : Prop :=
  name = stem ++ '.' :: s.ext ∨ name = stem ∧ ∀ t, name ≠ t ++ '.' :: s.ext

/-- **The source of a reference**: its identifier, its text, the base of the references in it, and
the file that it is, if it is one. -/
inductive Supplies (s : Sources) (b : Base) : Reference → Loaded → Prop where
  | inline {text : Text} : Supplies s b (.inline text) ⟨"<input>", text, b, none⟩
  | file {path place text : Text} {content : Bytes} (hfile : s.tree.isFile path = true)
      (hplace : s.tree.canonical path = .ok place) (hread : s.tree.read place = .ok content)
      (htext : Utf8.decode content = .ok text) :
      Supplies s b (.file path)
        ⟨String.ofList place, text, .dir ((Path.parent? place).getD ['.']), some place⟩
  | page {u : Url} {text : Text} (hfetch : s.fetcher.fetch s.tree u = .ok text) :
      Supplies s b (.url u) ⟨String.ofList u.render, text, .url u, none⟩
  | moduleFile {root name stem text : Text} {content : Bytes} (hroot : s.stdRoot = some root)
      (hname : s.IsModule name stem)
      (hfile : s.tree.isFile (Path.join root (stem ++ '.' :: s.ext)) = true)
      (hread : s.tree.read (Path.join root (stem ++ '.' :: s.ext)) = .ok content)
      (htext : Utf8.decode content = .ok text) :
      Supplies s b (.std name)
        ⟨String.ofList ("std/".toList ++ (stem ++ '.' :: s.ext)), text, .dir root, none⟩
  | bundled {name stem text : Text} (hname : s.IsModule name stem)
      (hroot : ∀ root, s.stdRoot = some root →
        s.tree.isFile (Path.join root (stem ++ '.' :: s.ext)) = false)
      (htext : Bundled.modules.lookup stem = some text) :
      Supplies s b (.std name)
        ⟨String.ofList ("std/".toList ++ (stem ++ '.' :: s.ext)), text, b, none⟩

/-- **The source that a reference in a line names**, in a source with a certain base. -/
def Names (s : Sources) (b : Base) (reference : Text) (l : Loaded) : Prop :=
  ∃ name r, IsUnquoted reference name ∧ name ≠ [] ∧
    Reference.Denotes b s.ext (Text.trim name) r ∧ s.Supplies b r l ∧
    Text.byteLength l.text ≤ s.maxBytes

/-- The source that an entry is: one that it refers to, or the entry itself if it names no file. -/
def IsEntry (s : Sources) (b : Base) (entry : Text) (l : Loaded) : Prop :=
  ∃ r, Reference.Denotes b s.ext (Text.trim entry) r ∧
    (s.Supplies b r l ∨ ∃ path, r = .file path ∧ s.tree.isFile path = false ∧
      l = ⟨"<input>", entry, b, none⟩) ∧
    Text.byteLength l.text ≤ s.maxBytes

variable {s : Sources} {b : Base} {l : Loaded}

theorem readText_eq_ok_iff {path text : Text} :
    s.readText path = .ok text ↔
      ∃ content, s.tree.read path = .ok content ∧ Utf8.decode content = .ok text := by
  unfold readText
  constructor
  · intro h
    split at h
    · cases h
    · next content hread =>
        split at h
        · next text' htext =>
            obtain rfl := Except.ok.inj h
            exact ⟨content, hread, htext⟩
        · cases h
  · rintro ⟨content, hread, htext⟩
    simp only [hread, htext]

theorem exists_isModule (s : Sources) (name : Text) : ∃ stem, s.IsModule name stem := by
  by_cases h : ∃ stem, name = stem ++ '.' :: s.ext
  · obtain ⟨stem, h⟩ := h
    exact ⟨stem, Or.inl h⟩
  · exact ⟨name, Or.inr ⟨rfl, fun t ht => h ⟨t, ht⟩⟩⟩

/-- The file of a module has the extension, however the name is written. -/
theorem moduleFile_eq {name stem : Text} (h : s.IsModule name stem) :
    s.moduleFile name = stem ++ '.' :: s.ext := by
  unfold moduleFile
  dsimp only
  rcases h with rfl | ⟨rfl, hplain⟩
  · rw [Text.dropSuffix?_eq_some_iff.2 rfl]
    rfl
  · have hnone : Text.dropSuffix? ('.' :: s.ext) name = none :=
      Option.eq_none_iff_forall_ne_some.2 fun t ht => hplain t (Text.dropSuffix?_eq_some_iff.1 ht)
    rw [hnone]
    rfl

/-- A module that is there as a file is read from it. -/
theorem loadModule_of_file {name stem root : Text} (hname : s.IsModule name stem)
    (hroot : s.stdRoot = some root)
    (hfile : s.tree.isFile (Path.join root (stem ++ '.' :: s.ext)) = true) :
    s.loadModule name b = (do
      let text ← s.readText (Path.join root (stem ++ '.' :: s.ext))
      .ok ⟨String.ofList ("std/".toList ++ (stem ++ '.' :: s.ext)), text, .dir root, none⟩) := by
  simp only [loadModule, hroot, moduleId, moduleFile_eq hname, hfile, if_true]

/-- A module that is not there as a file is a bundled one. -/
theorem loadModule_of_bundled {name stem : Text} (hname : s.IsModule name stem)
    (hroot : ∀ root, s.stdRoot = some root →
      s.tree.isFile (Path.join root (stem ++ '.' :: s.ext)) = false) :
    s.loadModule name b = s.loadBundled name b := by
  unfold loadModule
  split
  · rfl
  · next root hr => simp only [moduleFile_eq hname, hroot root hr, Bool.false_eq_true, if_false]

theorem loadBundled_eq_ok_iff {name stem : Text} (hname : s.IsModule name stem) :
    s.loadBundled name b = .ok l ↔ ∃ text, Bundled.modules.lookup stem = some text ∧
      l = ⟨String.ofList ("std/".toList ++ (stem ++ '.' :: s.ext)), text, b, none⟩ := by
  have hstem : (Text.dropSuffix? ('.' :: s.ext) (s.moduleFile name)).getD (s.moduleFile name) =
      stem := by
    rw [moduleFile_eq hname, Text.dropSuffix?_eq_some_iff.2 rfl, Option.getD_some]
  have hid : s.moduleId name = "std/".toList ++ (stem ++ '.' :: s.ext) := by
    rw [moduleId, moduleFile_eq hname]
  unfold loadBundled
  dsimp only
  rw [hstem, hid]
  constructor
  · intro h
    split at h
    · next text htext => exact ⟨text, htext, (Except.ok.inj h).symm⟩
    · cases h
  · rintro ⟨text, htext, rfl⟩
    have hsource : Bundled.source? stem = some text := htext
    simp only [hsource]

theorem loadModule_eq_ok_iff {name : Text} :
    s.loadModule name b = .ok l ↔ s.Supplies b (.std name) l := by
  obtain ⟨stem, hname⟩ := s.exists_isModule name
  constructor
  · intro h
    by_cases hroot : ∃ root, s.stdRoot = some root ∧
        s.tree.isFile (Path.join root (stem ++ '.' :: s.ext)) = true
    · obtain ⟨root, hroot, hfile⟩ := hroot
      rw [loadModule_of_file hname hroot hfile] at h
      obtain ⟨text, htext, h⟩ := exists_of_bind_eq_ok h
      obtain rfl := Except.ok.inj h
      obtain ⟨content, hread, htext⟩ := readText_eq_ok_iff.1 htext
      exact .moduleFile hroot hname hfile hread htext
    · have hbundled : ∀ root, s.stdRoot = some root →
          s.tree.isFile (Path.join root (stem ++ '.' :: s.ext)) = false := fun root h =>
        Bool.eq_false_iff.2 fun hfile => hroot ⟨root, h, hfile⟩
      rw [loadModule_of_bundled hname hbundled] at h
      obtain ⟨text, htext, rfl⟩ := (loadBundled_eq_ok_iff hname).1 h
      exact .bundled hname hbundled htext
  · intro h
    cases h with
    | moduleFile hroot hname hfile hread hdecode =>
        rw [loadModule_of_file hname hroot hfile, readText_eq_ok_iff.2 ⟨_, hread, hdecode⟩]
        rfl
    | bundled hname hroot htext =>
        rw [loadModule_of_bundled hname hroot, loadBundled_eq_ok_iff hname]
        exact ⟨_, htext, rfl⟩

theorem loadFile_eq_ok_iff {path : Text} (hfile : s.tree.isFile path = true) :
    s.loadFile path = .ok l ↔ s.Supplies b (.file path) l := by
  obtain ⟨p, -, hcanonical, -⟩ := FileTree.exists_entry_of_isFile hfile
  unfold loadFile
  rw [hcanonical]
  constructor
  · intro h
    obtain ⟨text, htext, h⟩ := exists_of_bind_eq_ok h
    obtain rfl := Except.ok.inj h
    obtain ⟨content, hread, htext⟩ := readText_eq_ok_iff.1 htext
    exact .file hfile hcanonical hread htext
  · intro h
    cases h with
    | file _ hplace hread hdecode =>
        obtain rfl := Except.ok.inj (hcanonical.symm.trans hplace)
        have htext := readText_eq_ok_iff.2 ⟨_, hread, hdecode⟩
        change (s.readText (FileTree.render p) >>= _) = _
        rw [htext]
        rfl

/-- **Sources are loaded as described**, files if they are there. -/
theorem loadAny_eq_ok_iff {r : Reference}
    (hfile : ∀ path, r = .file path → s.tree.isFile path = true) :
    s.loadAny r b = .ok l ↔ s.Supplies b r l := by
  cases r with
  | inline text =>
      constructor
      · intro h
        obtain rfl := Except.ok.inj h
        exact .inline
      · intro h
        cases h
        rfl
  | std name => exact loadModule_eq_ok_iff
  | url u =>
      dsimp only [loadAny]
      constructor
      · intro h
        split at h
        · next text hfetch =>
            obtain rfl := Except.ok.inj h
            exact .page hfetch
        · cases h
      · intro h
        cases h with
        | page hfetch => simp only [hfetch]
  | file path => exact loadFile_eq_ok_iff (hfile path rfl)

theorem load_eq_ok_iff {r : Reference} :
    s.load r b = .ok l ↔ s.loadAny r b = .ok l ∧ Text.byteLength l.text ≤ s.maxBytes := by
  constructor
  · intro h
    refine ⟨loadAny_of_load h, ?_⟩
    rw [load, loadAny_of_load h] at h
    by_contra hsize
    change (if s.maxBytes < Text.byteLength l.text then _ else _) = _ at h
    rw [if_pos (Nat.lt_of_not_le hsize)] at h
    cases h
  · rintro ⟨h, hsize⟩
    rw [load, h]
    exact if_neg (Nat.not_lt.2 hsize)

/-- A file that is a source is there. -/
theorem Supplies.isFile {path : Text} (h : s.Supplies b (.file path) l) :
    s.tree.isFile path = true := by
  cases h with
  | file hfile => exact hfile

theorem load_of_supplies {r : Reference} (h : s.Supplies b r l)
    (hsize : Text.byteLength l.text ≤ s.maxBytes) : s.load r b = .ok l := by
  have hfile : ∀ path, r = .file path → s.tree.isFile path = true := by
    rintro path rfl
    exact h.isFile
  exact load_eq_ok_iff.2 ⟨(loadAny_eq_ok_iff hfile).2 h, hsize⟩

/-- **The loader finds the source that a reference names.** -/
theorem find_eq_ok_iff {reference : Text} :
    s.find b reference = .ok l ↔ s.Names b reference l := by
  constructor
  · intro h
    obtain ⟨hne, r, hr, hload, hfile⟩ := exists_load_of_find h
    obtain ⟨hany, hsize⟩ := load_eq_ok_iff.1 hload
    exact ⟨unquote reference, r, unquote_eq_iff.1 rfl, hne, Reference.classify_eq_ok_iff.1 hr,
      (loadAny_eq_ok_iff hfile).1 hany, hsize⟩
  · rintro ⟨name, r, hname, hne, hr, hsupplies, hsize⟩
    obtain rfl := unquote_eq_iff.2 hname
    have hload := load_of_supplies hsupplies hsize
    have hempty : ¬ (unquote reference).isEmpty = true := fun h => hne (List.isEmpty_iff.1 h)
    unfold find
    dsimp only
    rw [if_neg hempty, Reference.classify_eq_ok_iff.2 hr]
    cases r with
    | file path =>
        change (if s.tree.isFile path = true then _ else _) = _
        rw [if_pos hsupplies.isFile, hload]
    | std | url | inline => exact hload

/-- The loader takes an entry for the source that it is. -/
theorem findEntry_eq_ok_iff {entry : Text} :
    s.findEntry b entry = .ok l ↔ s.IsEntry b entry l := by
  constructor
  · intro h
    obtain ⟨r, hr, h⟩ := exists_of_bind_eq_ok h
    refine ⟨r, Reference.classify_eq_ok_iff.1 hr, ?_⟩
    cases r with
    | file path =>
        change s.load (if s.tree.isFile path = true then _ else _) b = _ at h
        split at h
        · next hfile =>
            obtain ⟨hany, hsize⟩ := load_eq_ok_iff.1 h
            exact ⟨Or.inl ((loadFile_eq_ok_iff hfile).1 hany), hsize⟩
        · next hfile =>
            obtain ⟨hany, hsize⟩ := load_eq_ok_iff.1 h
            exact ⟨Or.inr ⟨path, rfl, Bool.eq_false_iff.2 hfile, (Except.ok.inj hany).symm⟩, hsize⟩
    | std | url | inline =>
        obtain ⟨hany, hsize⟩ := load_eq_ok_iff.1 h
        exact ⟨Or.inl ((loadAny_eq_ok_iff (by intro _ h; cases h)).1 hany), hsize⟩
  · rintro ⟨r, hr, hsource, hsize⟩
    unfold findEntry
    rw [Reference.classify_eq_ok_iff.2 hr]
    rcases hsource with hsupplies | ⟨path, rfl, hfile, rfl⟩
    · have hload := load_of_supplies hsupplies hsize
      cases r with
      | file path =>
          change s.load (if s.tree.isFile path = true then _ else _) b = _
          rw [if_pos hsupplies.isFile, hload]
      | std | url | inline => exact hload
    · change s.load (if s.tree.isFile path = true then _ else _) b = _
      rw [if_neg (Bool.eq_false_iff.1 hfile)]
      exact load_of_supplies .inline hsize

end Sources

end Softcode
