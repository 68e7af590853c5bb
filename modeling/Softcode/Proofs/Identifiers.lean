/-
**Identifiers stand for texts.**

A source that is loaded has an identifier.  That of a file is its absolute path, that of a module
begins with `std/`, that of an address is its writing, which begins with a scheme and a colon, and
an entry that is given as text has a name of its own.  These kinds exclude each other, and within
each of them the identifier decides what is read; so two sources that are reached from one entry and
have the same identifier have the same text.

Addresses of files need some care: they are read from the file tree, and two of them may name one
file.  But nothing leads to one of them: where addresses are read from the file tree, an entry that
is looked for in a directory never reaches an address.

Main definitions:

* `Softcode.Sources.textOf?` — **the text that an identifier stands for**;
* `Softcode.Sources.GoodBase` — bases that sources come to have.

Main results:

* `Softcode.Url.scheme_resolve` — where the scheme of an address comes from;
* `Softcode.Reference.classify_url` — the addresses that references stand for;
* `Softcode.Sources.loadAny_spec` — the text and the base of a source that is loaded;
* `Softcode.Sources.textOf?_of_path` — **the identifier of a source that is reached stands for its
  text**.
-/

import Softcode.Proofs.IncludePaths

set_option autoImplicit false

namespace Softcode

namespace Url

/-! ### Schemes -/

@[simp] theorem scheme_finish (k : Kind) (u : Url) (s : Text) :
    (finish k u s).scheme = u.scheme := by
  unfold finish
  split <;> rfl

theorem scheme_afterSlashes {k : Kind} {scheme s : Text} {u : Url}
    (h : afterSlashes k scheme s = .ok u) : u.scheme = scheme := by
  obtain ⟨⟨a, rest⟩, -, h⟩ := exists_of_bind_eq_ok h
  rw [← Except.ok.inj h, scheme_finish]

/-- An address relative to a base that is no file has the scheme of the base. -/
theorem scheme_relative {k : Kind} {base u : Url} {s : Text} (h : relative k base s = .ok u) :
    u.scheme = base.scheme := by
  unfold relative at h
  split at h
  · rw [← Except.ok.inj h]
  · rw [← Except.ok.inj h, scheme_finish]
  · rw [← Except.ok.inj h]
    rfl
  · split at h
    · split at h
      · exact scheme_afterSlashes h
      · rw [← Except.ok.inj h, scheme_finish]
    · rw [← Except.ok.inj h, scheme_finish]

@[simp] theorem scheme_fileWith (host : Option Host) (segs : List Text) (s : Text) :
    (fileWith host segs s).scheme = fileScheme := by
  rw [fileWith, scheme_finish]

theorem scheme_fileAfterSlashes {s : Text} {u : Url} (h : fileAfterSlashes s = .ok u) :
    u.scheme = fileScheme := by
  unfold fileAfterSlashes at h
  dsimp only at h
  split at h
  · rw [← Except.ok.inj h, scheme_fileWith]
  · obtain ⟨host, -, h⟩ := exists_of_bind_eq_ok h
    split at h
    · rw [← Except.ok.inj h, scheme_fileWith]
    · rw [← Except.ok.inj h]
      unfold dropHostAtDrive
      split
      · exact scheme_finish _ _ _
      · exact scheme_finish _ _ _

theorem scheme_fileFrom {base : Option Url} (hbase : ∀ b, base = some b → b.scheme = fileScheme)
    {s : Text} {u : Url} (h : fileFrom base s = .ok u) : u.scheme = fileScheme := by
  cases s with
  | nil =>
      cases base with
      | none => rw [← Except.ok.inj h, scheme_fileWith]
      | some b =>
          rw [← Except.ok.inj h]
          exact hbase b rfl
  | cons c t =>
      simp only [fileFrom] at h
      split at h
      · split at h
        · exact scheme_fileAfterSlashes h
        · cases base with
          | none => rw [← Except.ok.inj h, scheme_fileWith]
          | some b =>
              dsimp only at h
              split at h
              · rw [← Except.ok.inj h, scheme_fileWith]
              · split at h
                · rw [← Except.ok.inj h, scheme_fileWith]
                · rw [← Except.ok.inj h, scheme_fileWith]
      · cases base with
        | none => rw [← Except.ok.inj h, scheme_fileWith]
        | some b =>
            dsimp only at h
            split at h
            · rw [← Except.ok.inj h, scheme_finish]
              exact hbase b rfl
            · split at h
              · rw [← Except.ok.inj h]
                exact hbase b rfl
              · split at h
                · rw [← Except.ok.inj h, scheme_fileWith]
                · rw [← Except.ok.inj h, scheme_fileWith]

theorem eq_fileScheme_of_kindOf {scheme : Text} (h : kindOf scheme = .file) :
    scheme = fileScheme := by
  unfold kindOf at h
  split at h
  · next hfile => exact hfile
  · split at h <;> cases h

/-- An address with a scheme has this scheme, whatever it is relative to. -/
theorem scheme_withScheme {base : Option Url} {scheme s : Text} {u : Url}
    (h : withScheme base scheme s = .ok u) : u.scheme = scheme := by
  unfold withScheme at h
  split at h
  · next hkind =>
      rw [eq_fileScheme_of_kindOf hkind]
      refine scheme_fileFrom (fun b hb => ?_) h
      simpa using (Option.filter_eq_some_iff.1 hb).2
  · have hsame : ∀ b, (base.filter fun b => b.scheme = scheme) = some b → b.scheme = scheme :=
      fun b hb => by simpa using (Option.filter_eq_some_iff.1 hb).2
    dsimp only at h
    split at h
    · next b hb _ => rw [scheme_relative h, hsame b hb]
    · next b hb _ => rw [scheme_relative h, hsame b hb]
    · exact scheme_afterSlashes h
  · split at h
    · exact scheme_afterSlashes h
    · rw [← Except.ok.inj h, scheme_finish]
    · rw [← Except.ok.inj h, scheme_finish]

/-- **Where the scheme of an address comes from**: the text, or else the base. -/
theorem scheme_resolve {base : Option Url} {s : Text} {u : Url} (h : resolve base s = .ok u) :
    (∃ rest, scheme? (clean s) = some (u.scheme, rest)) ∨
      ∃ b, base = some b ∧ u.scheme = b.scheme := by
  unfold resolve at h
  dsimp only at h
  split at h
  · next scheme rest hscheme =>
      rw [scheme_withScheme h]
      exact Or.inl ⟨rest, hscheme⟩
  · cases h
  · next b _ =>
      refine Or.inr ⟨b, rfl, ?_⟩
      split at h
      · rw [← Except.ok.inj h]
        rfl
      · split at h
        · cases h
        · split at h
          · next hkind =>
              have hfile := eq_fileScheme_of_kindOf hkind
              rw [hfile]
              refine scheme_fileFrom (fun b' hb' => ?_) h
              rw [← Option.some.inj hb', hfile]
          · exact scheme_relative h

/-- A scheme has neither a colon nor a slash. -/
def IsPlain (scheme : Text) : Prop := ∀ c ∈ scheme, c ≠ ':' ∧ c ≠ '/'

theorem isPlain_of_scheme? {s scheme rest : Text} (h : scheme? s = some (scheme, rest)) :
    IsPlain scheme := by
  simp only [scheme?, Option.bind_eq_bind, Option.bind_eq_some_iff] at h
  obtain ⟨⟨name, after⟩, -, h⟩ := h
  dsimp only at h
  split at h
  · next hok =>
      obtain ⟨rfl, -⟩ := Prod.mk.inj (Option.some.inj h)
      intro c hc
      obtain ⟨d, hd, rfl⟩ := List.mem_map.1 hc
      have hname := List.all_eq_true.1 (Bool.and_eq_true_iff.1 hok).2 d hd
      constructor
      · intro hcolon
        rw [Text.eq_of_toLower_eq hcolon (by decide)] at hname
        exact absurd hname (by decide)
      · intro hslash
        rw [Text.eq_of_toLower_eq hslash (by decide)] at hname
        exact absurd hname (by decide)
  · cases h

/-! ### Addresses of the web -/

theorem not_isMargin_of_isAlphanum {c : Char} (h : c.isAlphanum = true) : isMargin c = false := by
  have hle : '0'.val.toNat ≤ c.val.toNat := by
    rcases Bool.or_eq_true_iff.1 h with halpha | hdigit
    · rcases Bool.or_eq_true_iff.1 halpha with hupper | hlower
      · have := UInt32.le_iff_toNat_le.1 (of_decide_eq_true hupper).1
        exact Nat.le_trans (by decide) this
      · have := UInt32.le_iff_toNat_le.1 (of_decide_eq_true (Bool.and_eq_true_iff.1 hlower).1)
        exact Nat.le_trans (by decide) this
    · exact UInt32.le_iff_toNat_le.1 (of_decide_eq_true (Bool.and_eq_true_iff.1 hdigit).1)
  refine decide_eq_false fun hmargin => ?_
  exact absurd (Nat.le_trans hle hmargin) (by decide)

theorem not_isDropped_of_isAlphanum {c : Char} (h : c.isAlphanum = true) :
    isDropped c = false := by
  refine Bool.eq_false_iff.2 fun hdropped => ?_
  simp only [isDropped, Bool.or_eq_true, beq_iff_eq] at hdropped
  rcases hdropped with (rfl | rfl) | rfl <;> exact absurd h (by decide)

/-- A letter at the front of a text is the first character that is read. -/
theorem head?_clean {c : Char} (h : c.isAlphanum = true) (s : Text) :
    (clean (c :: s)).head? = some c := by
  have hmargin := not_isMargin_of_isAlphanum h
  have hfront : (c :: s).dropWhile isMargin = c :: s := by simp [hmargin]
  have hback : ∃ r, ((c :: s).reverse.dropWhile isMargin).reverse = c :: r := by
    rw [List.reverse_cons, List.dropWhile_append]
    split
    · exact ⟨[], by simp [hmargin]⟩
    · exact ⟨(s.reverse.dropWhile isMargin).reverse, by simp⟩
  obtain ⟨r, hr⟩ := hback
  rw [clean, hfront, hr, List.filter_cons, if_pos (by simp [not_isDropped_of_isAlphanum h])]
  rfl

/-- The scheme that is read begins with the letter at the front. -/
theorem head?_scheme {c : Char} (hc : c.isAlphanum = true) {s scheme rest : Text}
    (h : scheme? (clean (c :: s)) = some (scheme, rest)) : scheme.head? = some c.toLower := by
  simp only [scheme?, Option.bind_eq_bind, Option.bind_eq_some_iff] at h
  obtain ⟨⟨name, after⟩, hcut, h⟩ := h
  dsimp only at h
  split at h
  · next hok =>
      obtain ⟨rfl, -⟩ := Prod.mk.inj (Option.some.inj h)
      have hhead := head?_clean hc s
      rw [(Text.cut?_eq_some_iff.1 hcut).1] at hhead
      cases name with
      | nil => simp at hok
      | cons d name =>
          obtain rfl : d = c := Option.some.inj hhead
          rfl
  · cases h

/-- An address that can be read in any place: its scheme has neither a colon nor a slash, and it is
not that of files. -/
def IsRemote (u : Url) : Prop := IsPlain u.scheme ∧ u.scheme ≠ fileScheme

theorem isRemote_of_isWebAddress {s : Text} (hweb : Reference.isWebAddress s = true) {u : Url}
    (h : parse s = .ok u) : u.IsRemote := by
  rcases scheme_resolve h with ⟨rest, hscheme⟩ | ⟨b, hb, -⟩
  · refine ⟨isPlain_of_scheme? hscheme, fun hfile => ?_⟩
    -- the text begins with the letter h
    obtain ⟨c, t, rfl, hc⟩ : ∃ c t, s = c :: t ∧ c.toLower = 'h' := by
      cases s with
      | nil => simp [Reference.isWebAddress, Text.dropPrefixCi?] at hweb
      | cons c t =>
          refine ⟨c, t, rfl, ?_⟩
          by_contra hne
          have hletter : Text.sameLetter 'h' c = false :=
            Bool.eq_false_iff.2 fun h => hne (beq_iff_eq.1 h).symm
          simp [Reference.isWebAddress, hletter] at hweb
    have halpha : c.isAlphanum = true := by
      refine Text.isAlphanum_of_toLower ?_
      rw [hc]
      decide
    have hhead := head?_scheme halpha hscheme
    rw [hfile, hc] at hhead
    exact absurd hhead (by decide)
  · cases hb

theorem isRemote_repository (r : Repository) (ext : Text) : (r.url ext).IsRemote := by
  have hscheme : ∀ (segs : List Text) (u : Url), (segs.foldl pushSegment u).scheme = u.scheme := by
    intro segs
    induction segs with
    | nil => exact fun u => rfl
    | cons seg segs ih =>
        intro u
        rw [List.foldl_cons, ih]
        unfold pushSegment
        split <;> rfl
  have hroot : (r.url ext).scheme = "https".toList := hscheme _ Repository.root
  have hplain : "https".toList.all (fun c => c != ':' && c != '/') = true := by decide
  rw [IsRemote, hroot]
  refine ⟨fun c hc => ?_, by decide⟩
  simpa using List.all_eq_true.1 hplain c hc

end Url

/-- **The addresses that references stand for** are remote, or relative to an address. -/
theorem Reference.classify_url {reference : Text} {base : Base} {ext : Text} {u : Url}
    (h : classify reference base ext = .ok (.url u)) :
    u.IsRemote ∨ ∃ b, base = .url b ∧ b.join (Text.trim reference) = .ok u := by
  unfold classify at h
  dsimp only at h
  split at h
  · cases h
  · split at h
    · cases h
    · split at h
      · next rest _ =>
          left
          unfold repositoryUrl at h
          split at h
          · cases h
          · next r _ =>
              obtain rfl := Reference.url.inj (Except.ok.inj h)
              exact Url.isRemote_repository r ext
      · split at h
        · next hweb =>
            left
            split at h
            · next v hparse =>
                obtain rfl := Reference.url.inj (Except.ok.inj h)
                exact Url.isRemote_of_isWebAddress hweb hparse
            · cases h
        · unfold relative at h
          split at h
          · cases h
          · split at h
            · cases h
            · next b =>
                split at h
                · next v hjoin =>
                    obtain rfl := Reference.url.inj (Except.ok.inj h)
                    exact Or.inr ⟨b, rfl, hjoin⟩
                · cases h

/-- Only addresses of files are read from the file tree. -/
theorem Fetcher.fetch_disk_ne_ok {u : Url} (h : u.scheme ≠ Url.fileScheme) (tree : FileTree)
    (text : Text) : Fetcher.disk.fetch tree u ≠ .ok text := by
  have hne : u.scheme ≠ "file".toList := h
  unfold Fetcher.fetch
  dsimp only
  rw [if_neg hne]
  split <;> nofun

/-! ### Identifiers -/

namespace Sources

/-- The text of the module with a file name. -/
def moduleText? (s : Sources) (file : Text) : Option Text :=
  let bundled := Bundled.source? ((Text.dropSuffix? ('.' :: s.ext) file).getD file)
  match s.stdRoot with
  | none => bundled
  | some root =>
      let path := Path.join root file
      if s.tree.isFile path then (s.readText path).toOption else bundled

/-- The text of the page with an identifier. -/
def pageText? (s : Sources) (id : Text) : Option Text :=
  match s.fetcher with
  | .pages ps => ps.lookup id
  | .disk => none

/-- **The text that an identifier stands for**, where `input` is the text of an entry that is given
as text. -/
def textOf? (s : Sources) (input id : Text) : Option Text :=
  if id = inputId.toList then some input
  else
    match Reference.stdName? id with
    | some file => s.moduleText? file
    | none => if Path.isAbsolute id then (s.readText id).toOption else s.pageText? id

variable {s : Sources}

theorem textOf?_input (input : Text) : s.textOf? input inputId.toList = some input := by
  rw [textOf?, if_pos rfl]

theorem textOf?_module (input file : Text) :
    s.textOf? input ("std/".toList ++ file) = s.moduleText? file := by
  have hne : "std/".toList ++ file ≠ inputId.toList := by
    intro h
    have hhead : some 's' = some '<' := congrArg List.head? h
    exact absurd hhead (by decide)
  have hname : Reference.stdName? ("std/".toList ++ file) = some file :=
    Text.dropPrefix?_eq_some_iff.2 rfl
  rw [textOf?, if_neg hne, hname]

theorem textOf?_file (input : Text) {path : Text} (h : Path.isAbsolute path = true) :
    s.textOf? input path = (s.readText path).toOption := by
  have hhead : path.head? = some '/' := beq_iff_eq.1 h
  have hne : path ≠ inputId.toList := by
    rintro rfl
    exact absurd hhead (by decide)
  have hname : Reference.stdName? path = none := by
    cases hstd : Reference.stdName? path with
    | none => rfl
    | some file =>
        rw [Text.dropPrefix?_eq_some_iff.1 hstd] at hhead
        exact absurd hhead (by simp)
  rw [textOf?, if_neg hne, hname]
  exact if_pos h

/-- The first colon or slash of a text. -/
def firstMark? (t : Text) : Option Char := t.find? fun c => c == ':' || c == '/'

theorem firstMark?_render {u : Url} (h : Url.IsPlain u.scheme) :
    firstMark? u.render = some ':' := by
  have hnone : u.scheme.find? (fun c => c == ':' || c == '/') = none := by
    refine List.find?_eq_none.2 fun c hc => ?_
    obtain ⟨hcolon, hslash⟩ := h c hc
    simp [hcolon, hslash]
  simp [firstMark?, Url.render, List.find?_append, hnone]

theorem textOf?_page (input : Text) {u : Url} (h : Url.IsPlain u.scheme) :
    s.textOf? input u.render = s.pageText? u.render := by
  have hmark := firstMark?_render h
  have hne : u.render ≠ inputId.toList := by
    intro heq
    rw [heq] at hmark
    exact absurd hmark (by decide)
  have hname : Reference.stdName? u.render = none := by
    cases hstd : Reference.stdName? u.render with
    | none => rfl
    | some file =>
        rw [Text.dropPrefix?_eq_some_iff.1 hstd] at hmark
        exact absurd hmark (by simp [firstMark?])
  have habsolute : ¬ Path.isAbsolute u.render = true := by
    intro habs
    obtain ⟨t, ht⟩ := List.head?_eq_some_iff.1 (beq_iff_eq.1 habs)
    rw [ht] at hmark
    exact absurd hmark (by simp [firstMark?])
  rw [textOf?, if_neg hne, hname]
  exact if_neg habsolute

/-! ### Sources that are loaded -/

/-- **The bases that sources come to have**: directories, and addresses, if these are not read from
the file tree. -/
def GoodBase (s : Sources) : Base → Prop
  | .dir _ => True
  | .url u => s.fetcher ≠ .disk ∧ Url.IsPlain u.scheme

theorem isAbsolute_render (p : FileTree.Place) : Path.isAbsolute (FileTree.render p) = true := by
  cases p with
  | nil => rfl
  | cons name p => rfl

theorem loadFile_text {path : Text} {l : Loaded} (hfile : s.tree.isFile path = true)
    (h : s.loadFile path = .ok l) (input : Text) :
    s.GoodBase l.base ∧ s.textOf? input l.id.toList = some l.text := by
  obtain ⟨p, content, hcanonical, -⟩ := FileTree.exists_entry_of_isFile hfile
  unfold loadFile at h
  rw [hcanonical] at h
  obtain ⟨text, htext, h⟩ := exists_of_bind_eq_ok h
  obtain rfl := Except.ok.inj h
  refine ⟨trivial, ?_⟩
  change s.textOf? input (String.ofList (FileTree.render p)).toList = some text
  rw [String.toList_ofList, textOf?_file input (isAbsolute_render p)]
  exact congrArg Except.toOption htext

theorem loadModule_text {name : Text} {base : Base} (hbase : s.GoodBase base) {l : Loaded}
    (h : s.loadModule name base = .ok l) (input : Text) :
    s.GoodBase l.base ∧ s.textOf? input l.id.toList = some l.text := by
  have hbundled : s.loadBundled name base = .ok l → s.GoodBase l.base ∧
      l.id.toList = s.moduleId name ∧
      Bundled.source? ((Text.dropSuffix? ('.' :: s.ext) (s.moduleFile name)).getD
        (s.moduleFile name)) = some l.text := by
    intro h
    unfold loadBundled at h
    dsimp only at h
    split at h
    · next text hsource =>
        obtain rfl := Except.ok.inj h
        exact ⟨hbase, String.toList_ofList, hsource⟩
    · cases h
  unfold loadModule at h
  split at h
  · next hroot =>
      obtain ⟨hgood, hid, hsource⟩ := hbundled h
      rw [hid, moduleId, textOf?_module, moduleText?, hroot]
      exact ⟨hgood, hsource⟩
  · next root hroot =>
      dsimp only at h
      split at h
      · next hfile =>
          obtain ⟨text, htext, h⟩ := exists_of_bind_eq_ok h
          obtain rfl := Except.ok.inj h
          refine ⟨trivial, ?_⟩
          dsimp only
          rw [String.toList_ofList, moduleId, textOf?_module, moduleText?, hroot]
          dsimp only
          rw [if_pos hfile, htext]
          rfl
      · next hfile =>
          obtain ⟨hgood, hid, hsource⟩ := hbundled h
          rw [hid, moduleId, textOf?_module, moduleText?, hroot]
          dsimp only
          rw [if_neg hfile]
          exact ⟨hgood, hsource⟩

/-- Relative to a base that sources come to have, addresses are read from pages. -/
theorem readsPages_of_goodBase {base : Base} (hbase : s.GoodBase base) : s.ReadsPages base := by
  cases hfetcher : s.fetcher with
  | pages ps => exact readsPages_of_pages hfetcher base
  | disk =>
      intro reference u l hr h
      rcases Reference.classify_url hr with hremote | ⟨b, rfl, -⟩
      · unfold loadAny at h
        rw [hfetcher] at h
        dsimp only at h
        split at h
        · next text hfetch =>
            exact absurd hfetch (Fetcher.fetch_disk_ne_ok hremote.2 s.tree text)
        · cases h
      · exact absurd hfetcher hbase.1

/-- An address that is loaded is a page: a remote one is not read from the file tree. -/
theorem loadUrl_text {u : Url} (hplain : Url.IsPlain u.scheme)
    (hdisk : s.fetcher = .disk → u.scheme ≠ Url.fileScheme) {base : Base} {l : Loaded}
    (h : s.loadAny (.url u) base = .ok l) (input : Text) :
    s.GoodBase l.base ∧ s.textOf? input l.id.toList = some l.text := by
  unfold loadAny at h
  dsimp only at h
  split at h
  · next text hfetch =>
      obtain rfl := Except.ok.inj h
      dsimp only
      rw [String.toList_ofList, textOf?_page input hplain, pageText?]
      cases hfetcher : s.fetcher with
      | pages ps =>
          refine ⟨⟨by rw [hfetcher]; nofun, hplain⟩, ?_⟩
          rw [hfetcher] at hfetch
          unfold Fetcher.fetch at hfetch
          dsimp only at hfetch
          split at hfetch
          · next text' hlookup =>
              obtain rfl := Except.ok.inj hfetch
              exact hlookup
          · cases hfetch
      | disk =>
          rw [hfetcher] at hfetch
          exact absurd hfetch (Fetcher.fetch_disk_ne_ok (hdisk hfetcher) _ text)
  · cases h

/-- **The text and the base of a source that is loaded**: its identifier stands for its text. -/
theorem loadAny_spec {reference : Text} {base : Base} (hbase : s.GoodBase base) {r : Reference}
    (hr : Reference.classify reference base s.ext = .ok r)
    (hfile : ∀ path, r = .file path → s.tree.isFile path = true)
    (hinline : ∀ text, r ≠ .inline text) {l : Loaded} (h : s.loadAny r base = .ok l)
    (input : Text) : s.GoodBase l.base ∧ s.textOf? input l.id.toList = some l.text := by
  cases r with
  | inline text => exact absurd rfl (hinline text)
  | std name => exact loadModule_text hbase h input
  | file path => exact loadFile_text (hfile path rfl) h input
  | url u =>
      rcases Reference.classify_url hr with hremote | ⟨b, rfl, hjoin⟩
      · exact loadUrl_text hremote.1 (fun _ => hremote.2) h input
      · obtain ⟨hdisk, hplain⟩ := hbase
        refine loadUrl_text ?_ (fun hfetcher => absurd hfetcher hdisk) h input
        rcases Url.scheme_resolve hjoin with ⟨rest, hscheme⟩ | ⟨b', hb', hscheme⟩
        · exact Url.isPlain_of_scheme? hscheme
        · rw [hscheme, ← Option.some.inj hb']
          exact hplain

theorem textOf?_of_find {base : Base} (hbase : s.GoodBase base) {reference : Text}
    (hline : '\n' ∉ reference) {l : Loaded} (h : s.find base reference = .ok l) (input : Text) :
    s.GoodBase l.base ∧ s.textOf? input l.id.toList = some l.text := by
  obtain ⟨-, r, hr, hload, hfile⟩ := exists_load_of_find h
  replace hload := loadAny_of_load hload
  have hline' : '\n' ∉ unquote reference := fun h => hline (mem_of_mem_unquote h)
  refine loadAny_spec hbase hr hfile (fun text htext => ?_) hload input
  rcases Reference.classify_spec hline' hr with ⟨name, rfl, -⟩ | ⟨u, rfl⟩ | ⟨path, rfl⟩ <;>
    cases htext

/-- The entry, also one that is given as text. -/
theorem textOf?_of_findEntry {base : Base} (hbase : s.GoodBase base) {entry : Text} {l : Loaded}
    (h : s.findEntry base entry = .ok l) :
    s.GoodBase l.base ∧ s.textOf? l.text l.id.toList = some l.text := by
  have hinline : ∀ text, s.loadAny (.inline text) base = .ok l →
      s.GoodBase l.base ∧ s.textOf? l.text l.id.toList = some l.text := by
    intro text h
    obtain rfl := Except.ok.inj h
    exact ⟨hbase, textOf?_input text⟩
  obtain ⟨r, hr, h⟩ := exists_of_bind_eq_ok h
  cases r with
  | inline text => exact hinline text (loadAny_of_load h)
  | std name => exact loadAny_spec hbase hr nofun nofun (loadAny_of_load h) l.text
  | url u => exact loadAny_spec hbase hr nofun nofun (loadAny_of_load h) l.text
  | file path =>
      dsimp only at h
      split at h
      · next hfile =>
          refine loadAny_spec hbase hr (fun path' hpath => ?_) nofun (loadAny_of_load h) l.text
          rw [← Reference.file.inj hpath]
          exact hfile
      · exact hinline entry (loadAny_of_load h)

/-- **The identifier of a source that is reached stands for its text.** -/
theorem textOf?_of_path {base : Base} (hbase : s.GoodBase base) {entry : Text} {l : Loaded}
    (hentry : s.findEntry base entry = .ok l) {ids : List String} {l' : Loaded}
    (h : s.IncludePath l ids l') :
    s.GoodBase l'.base ∧ s.textOf? l.text l'.id.toList = some l'.text := by
  induction h with
  | entry => exact textOf?_of_findEntry hbase hentry
  | step _ href ih =>
      obtain ⟨line, hline, reference, hreference, hfind⟩ := href
      have hfeed : '\n' ∉ reference := fun h =>
        Text.not_mem_of_mem_lines hline (Instruction.mem_of_mem_reference? hreference h)
      exact textOf?_of_find ih.1 hfeed hfind l.text

end Sources

end Softcode
