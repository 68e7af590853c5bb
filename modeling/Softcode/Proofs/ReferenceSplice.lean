/-
**Loading is splicing.**

What an entry is loaded to can be said without a loader.  Every line of a source either stays, or is
taken out and adds a header line, a footer line or debug mode, or is replaced by the lines of the
source that it refers to: as they are, as a raw block between two marks, or with their names under
an alias.  This is a relation between lines and what is left of them.  It has no state, so that it
knows neither the sources that are being read nor those that were; it refers to what lines are
written as and what references name, and not to how the loader finds this out.

Include trees are what this relation and the loader have in common: they are the derivations of the
relation, and reading the lines of a tree splices it.

Main definitions:

* `Softcode.Loaded.tagged` — the lines of a source with their places;
* `Softcode.InPlace` — lines in place of a reference;
* `Softcode.Spliced`, `Softcode.Sources.Splices` — **what lines are spliced to**.

Main results:

* `Softcode.IncludeTree.splices`, `Softcode.Sources.Splices.eq_spliced` — splicing lines is splicing
  their include tree;
* `Softcode.Resolver.resolveEntry_splices` — **loading an entry splices its lines**.
-/

import Softcode.Proofs.FoundSources
import Softcode.Proofs.IncludePaths
import Softcode.Proofs.LineForms

set_option autoImplicit false

namespace Softcode

/-! ### Splicing, without a loader -/

/-- The lines of a source, each with its identifier and its number, counted from one. -/
def Loaded.tagged (l : Loaded) : List Line :=
  ((Text.lines l.text).zipIdx 1).map fun line => ⟨line.1, l.id, line.2⟩

/-- **Lines in place of a reference**, where `nested` are those of the source that it names: as they
are; as raw lines between two marks, which are at the place of the line with the reference; or with
their names under an alias. -/
inductive InPlace (l : Line) (nested : List Line) : Text → List Line → Prop where
  | splice {reference : Text} (h : Instruction.Written l.text (.splice reference)) :
      InPlace l nested reference nested
  | embed {reference label : Text} (h : Instruction.Written l.text (.embed reference))
      (hlabel : IsUnquoted reference label) :
      InPlace l nested reference
        ([⟨"@@ ==== begin ".toList ++ label ++ " ====".toList, l.file, l.number⟩] ++
          nested.map (fun n => ⟨"@@ ".toList ++ n.text, n.file, n.number⟩) ++
          [⟨"@@ ==== end ".toList ++ label ++ " ====".toList, l.file, l.number⟩])
  | importAs {reference label : Text} (h : Instruction.Written l.text (.importAs reference label)) :
      InPlace l nested reference (Namespace.apply nested label)

/-- What lines are spliced to: lines, header and footer lines, whether debug mode is asked for, and
the first file that is read. -/
structure Spliced where
  lines : List Line
  headers : List Banner
  footers : List Banner
  debug : Bool
  file : Option Text

/-- **What the lines of a source with a certain base are spliced to.**  Lines about the source, with
headers and footers and for debug mode are taken out; in place of a reference are the lines of the
source that it names, which are spliced by themselves, with its own base. -/
inductive Sources.Splices (s : Sources) : Base → List Line → Spliced → Prop where
  | nil (b : Base) : Splices s b [] ⟨[], [], [], false, none⟩
  | text {b : Base} {l : Line} {ls : List Line} {out : Spliced}
      (h : Instruction.Written l.text .text) (rest : Splices s b ls out) :
      Splices s b (l :: ls) { out with lines := l :: out.lines }
  | header {b : Base} {l : Line} {ls : List Line} {out : Spliced} {banner : Banner}
      (h : Instruction.Written l.text (.header banner)) (rest : Splices s b ls out) :
      Splices s b (l :: ls) { out with headers := banner :: out.headers }
  | footer {b : Base} {l : Line} {ls : List Line} {out : Spliced} {banner : Banner}
      (h : Instruction.Written l.text (.footer banner)) (rest : Splices s b ls out) :
      Splices s b (l :: ls) { out with footers := banner :: out.footers }
  | debug {b : Base} {l : Line} {ls : List Line} {out : Spliced}
      (h : Instruction.Written l.text .debug) (rest : Splices s b ls out) :
      Splices s b (l :: ls) { out with debug := true }
  | nested {b : Base} {l : Line} {ls : List Line} {reference : Text} {source : Loaded}
      {inner out : Spliced} {placed : List Line} (hplaced : InPlace l inner.lines reference placed)
      (hnames : s.Names b reference source) (hinner : Splices s source.base source.tagged inner)
      (rest : Splices s b ls out) :
      Splices s b (l :: ls)
        { lines := placed ++ out.lines
          headers := inner.headers ++ out.headers
          footers := inner.footers ++ out.footers
          debug := inner.debug || out.debug
          file := (source.path.or inner.file).or out.file }

/-! ### Splicing lines is splicing their tree -/

theorem Line.numbered_eq_zipIdx (file : String) (n : Nat) (ts : List Text) :
    numbered file n ts = (ts.zipIdx n).map fun line => ⟨line.1, file, line.2⟩ := by
  induction ts generalizing n with
  | nil => rfl
  | cons t ts ih => rw [numbered, ih, List.zipIdx_cons, List.map_cons]

theorem Loaded.ofSource_eq_tagged (l : Loaded) : Line.ofSource l.text l.id = l.tagged :=
  Line.numbered_eq_zipIdx l.id 1 l.text.lines

section Harvest

variable (l : Loaded) (h : Harvest)

/-! A source adds nothing to what its lines yield but its identifier and perhaps the first file. -/

theorem Loaded.headers_harvest : (l.harvest h).headers = h.headers := List.append_nil _

theorem Loaded.footers_harvest : (l.harvest h).footers = h.footers := List.append_nil _

theorem Loaded.debug_harvest : (l.harvest h).debug = h.debug := Bool.or_false _

theorem Loaded.file_harvest : (l.harvest h).file = l.path.or h.file := Option.or_none

end Harvest

/-- The raw block in place of a line, with its marks. -/
theorem Resolver.rawBlock_eq (l : Line) (reference : Text) (nested : List Line) :
    rawBlock l reference nested =
      [⟨"@@ ==== begin ".toList ++ unquote reference ++ " ====".toList, l.file, l.number⟩] ++
        nested.map (fun n => ⟨"@@ ".toList ++ n.text, n.file, n.number⟩) ++
        [⟨"@@ ==== end ".toList ++ unquote reference ++ " ====".toList, l.file, l.number⟩] := by
  have hbegin : rawMarker ++ " ==== ".toList ++ "begin".toList ++ [' '] = "@@ ==== begin ".toList :=
    by decide
  have hend : rawMarker ++ " ==== ".toList ++ "end".toList ++ [' '] = "@@ ==== end ".toList := by
    decide
  have hraw : rawLine = fun n => ⟨"@@ ".toList ++ n.text, n.file, n.number⟩ := by
    funext n
    have hmarker : rawMarker ++ [' '] = "@@ ".toList := by decide
    rw [rawLine, hmarker]
    rfl
  rw [rawBlock, rawBound, rawBound, hbegin, hend, hraw]
  rfl

/-- A reference is put in place as its instruction says. -/
theorem inPlace_iff {l : Line} {nested placed : List Line} {reference : Text} :
    InPlace l nested reference placed ↔
      (Instruction.parse l.text).reference? = some reference ∧
        placed = (Instruction.parse l.text).place l nested := by
  constructor
  · intro h
    cases h with
    | splice h =>
        rw [Instruction.parse_eq_iff.2 h]
        exact ⟨rfl, rfl⟩
    | embed h hlabel =>
        rw [Instruction.parse_eq_iff.2 h, Instruction.place, Resolver.rawBlock_eq,
          unquote_eq_iff.2 hlabel]
        exact ⟨rfl, rfl⟩
    | importAs h =>
        rw [Instruction.parse_eq_iff.2 h]
        exact ⟨rfl, rfl⟩
  · rintro ⟨href, rfl⟩
    cases hi : Instruction.parse l.text with
    | splice =>
        obtain rfl := Option.some.inj (hi ▸ href)
        exact .splice (Instruction.parse_eq_iff.1 hi)
    | embed =>
        obtain rfl := Option.some.inj (hi ▸ href)
        rw [Instruction.place, Resolver.rawBlock_eq]
        exact .embed (Instruction.parse_eq_iff.1 hi) (unquote_eq_iff.1 rfl)
    | importAs =>
        obtain rfl := Option.some.inj (hi ▸ href)
        exact .importAs (Instruction.parse_eq_iff.1 hi)
    | badImport | header | footer | debug | text =>
        rw [hi] at href
        cases href

theorem Sources.splices_tagged_iff {s : Sources} {l : Loaded} {out : Spliced} :
    s.Splices l.base l.tagged out ↔ s.Splices l.base (Line.ofSource l.text l.id) out := by
  rw [l.ofSource_eq_tagged]

namespace IncludeTree

variable {s : Sources} {b : Base} {ls : List Line}

/-- What a tree is spliced to. -/
def spliced (t : IncludeTree s b ls) : Spliced :=
  ⟨t.splice, t.harvest.headers, t.harvest.footers, t.harvest.debug, t.harvest.file⟩

theorem spliced_nested {l : Line} {reference : Text} (source : Loaded)
    (href : (Instruction.parse l.text).reference? = some reference)
    (hfind : s.find b reference = .ok source) (inner : source.Tree s) (rest : IncludeTree s b ls) :
    (nested source href hfind inner rest).spliced =
      { lines := (Instruction.parse l.text).place l inner.spliced.lines ++ rest.spliced.lines
        headers := inner.spliced.headers ++ rest.spliced.headers
        footers := inner.spliced.footers ++ rest.spliced.footers
        debug := inner.spliced.debug || rest.spliced.debug
        file := (source.path.or inner.spliced.file).or rest.spliced.file } := by
  change Spliced.mk _ ((source.harvest inner.harvest).headers ++ _)
    ((source.harvest inner.harvest).footers ++ _) ((source.harvest inner.harvest).debug || _)
    ((source.harvest inner.harvest).file.or _) = _
  rw [source.headers_harvest, source.footers_harvest, source.debug_harvest, source.file_harvest]
  rfl

/-- **Lines are spliced as their tree is.** -/
theorem splices (t : IncludeTree s b ls) : s.Splices b ls t.spliced := by
  induction t with
  | nil b => exact .nil b
  | @plain b l ls href hgood rest ih =>
      rw [spliced, splice, harvest]
      cases hi : Instruction.parse l.text with
      | text => exact .text (Instruction.parse_eq_iff.1 hi) ih
      | header banner => exact .header (Instruction.parse_eq_iff.1 hi) ih
      | footer banner => exact .footer (Instruction.parse_eq_iff.1 hi) ih
      | debug => exact .debug (Instruction.parse_eq_iff.1 hi) ih
      | badImport => exact absurd hi hgood
      | splice | embed | importAs =>
          rw [hi] at href
          cases href
  | nested source href hfind inner rest ihi ihr =>
      rw [spliced_nested]
      exact .nested (inPlace_iff.2 ⟨href, rfl⟩) (Sources.find_eq_ok_iff.1 hfind)
        (Sources.splices_tagged_iff.2 ihi) ihr

/-- A tree with a line without a reference in front. -/
theorem exists_plain {l : Line} {i : Instruction} (h : Instruction.Written l.text i)
    (href : i.reference? = none) (hgood : i ≠ .badImport) (t : IncludeTree s b ls) :
    ∃ t' : IncludeTree s b (l :: ls),
      t'.splice = i.ownLines l ++ t.splice ∧ t'.harvest = i.harvest ++ t.harvest := by
  obtain rfl := Instruction.parse_eq_iff.2 h
  exact ⟨.plain href hgood t, rfl, rfl⟩

end IncludeTree

/-- What is spliced has a tree. -/
theorem Sources.Splices.exists_tree {s : Sources} {b : Base} {ls : List Line} {out : Spliced}
    (h : s.Splices b ls out) : ∃ t : IncludeTree s b ls, t.spliced = out := by
  induction h with
  | nil b => exact ⟨.nil b, rfl⟩
  | text h _ ih | header h _ ih | footer h _ ih | debug h _ ih =>
      obtain ⟨t, rfl⟩ := ih
      obtain ⟨t', hsplice, hharvest⟩ := IncludeTree.exists_plain h rfl nofun t
      refine ⟨t', ?_⟩
      rw [IncludeTree.spliced, hsplice, hharvest]
      rfl
  | @nested b l ls reference source inner out placed hplaced hnames _ _ ihi ihr =>
      rw [← source.ofSource_eq_tagged] at ihi
      obtain ⟨ti, rfl⟩ := ihi
      obtain ⟨tr, rfl⟩ := ihr
      obtain ⟨href, rfl⟩ := inPlace_iff.1 hplaced
      exact ⟨.nested source href (Sources.find_eq_ok_iff.2 hnames) ti tr,
        IncludeTree.spliced_nested ..⟩

theorem Sources.Splices.eq_spliced {s : Sources} {b : Base} {ls : List Line} {out : Spliced}
    (h : s.Splices b ls out) (t : IncludeTree s b ls) : out = t.spliced := by
  obtain ⟨t', rfl⟩ := h.exists_tree
  rw [t'.unique t]

/-! ### Loading is splicing -/

/-- **Loading an entry splices its lines.**  Lines are the instructions they are written as, and
sources are found by what names them.  If the instructions of every source that a path from the
entry leads to can be carried out, and no path comes back to a source, then loading succeeds with
what the lines of the entry are spliced to, which is one thing only: its lines are the result, its
header and footer lines stand behind those from before, and debug mode is on if it was or is asked
for.  The base and the chain are as before, and the sources that are known are those from before and
those that are reached. -/
theorem Resolver.resolveEntry_splices {s : Sources} {ps : List (Text × Text)}
    (hps : s.fetcher = .pages ps) {entry : Text} {r : Resolver} (hstart : r.visiting = [])
    {l : Loaded} (hentry : s.IsEntry r.base entry l)
    (hloads : ∀ ids l', s.IncludePath l ids l' → s.LoadsAll l')
    (hsimple : ∀ ids l', s.IncludePath l ids l' → ids.Nodup) :
    (∀ line i, Instruction.parse line = i ↔ Instruction.Written line i) ∧
    (∀ b reference source, s.find b reference = .ok source ↔ s.Names b reference source) ∧
    ∃ (out : Spliced) (r' : Resolver), resolveEntry s entry r = (.ok out.lines, r') ∧
      s.Splices l.base l.tagged out ∧ (∀ out', s.Splices l.base l.tagged out' → out' = out) ∧
      r'.headers = r.headers ++ out.headers ∧ r'.footers = r.footers ++ out.footers ∧
      r'.debug = (r.debug || out.debug) ∧ r'.entryFile = r.entryFile.or (l.path.or out.file) ∧
      r'.base = r.base ∧ r'.visiting = r.visiting ∧
      ∀ id, id ∈ r'.loaded ↔ id ∈ r.loaded ∨ s.Reaches l id := by
  refine ⟨fun _ _ => Instruction.parse_eq_iff, fun _ _ _ => Sources.find_eq_ok_iff, ?_⟩
  obtain ⟨t, hresult, hloaded⟩ :=
    resolveEntry_eq_splice hps hstart (Sources.findEntry_eq_ok_iff.2 hentry) hloads hsimple
  exact ⟨t.spliced, _, hresult, Sources.splices_tagged_iff.2 t.splices,
    fun out' h => (Sources.splices_tagged_iff.1 h).eq_spliced t,
    congrArg (r.headers ++ ·) (l.headers_harvest _),
    congrArg (r.footers ++ ·) (l.footers_harvest _), congrArg (r.debug || ·) (l.debug_harvest _),
    congrArg r.entryFile.or (l.file_harvest _), rfl, rfl, hloaded⟩

/-! ### A source that is referred to in three ways -/

/-- The file `/c` has a header line and defines an attribute. -/
def mixedLeaf : Loaded := rootFile 'c' "#header h\n&F x=u(F)".toList

/-- The file `/m` splices `/c` in as it is, as raw text and under an alias. -/
def mixedEntry : Loaded :=
  rootFile 'm'
    "#author Jane\n#include c\n#file \"c\"\n#import \"c\" as L\n#footer k = v\n@debug\nx".toList

/-- The two files. -/
def mixedSources : Sources where
  tree := ⟨[], [
    ([['m']], .file (Text.toBytes mixedEntry.text)),
    ([['c']], .file (Text.toBytes mixedLeaf.text))]⟩
  fetcher := .pages []
  stdRoot := none
  ext := "mush".toList
  maxBytes := 100

theorem find_mixedLeaf {reference : Text} (h : unquote reference = ['c']) :
    mixedSources.find (.dir ['/']) reference = .ok mixedLeaf := by
  unfold Sources.find
  rw [h]
  rfl

theorem exists_mixedTree : ∃ t : mixedEntry.Tree mixedSources, t.Simple [mixedEntry.id] := by
  have hleaf : ∀ chain, ∃ t : mixedLeaf.Tree mixedSources, t.height + 1 ≤ 1 ∧ t.Simple chain := by
    have hforms : ∀ l ∈ mixedLeaf.tagged,
        Instruction.parse l.text ≠ .badImport ∧ (Instruction.parse l.text).reference? = none := by
      decide +kernel
    intro chain
    obtain ⟨t, hheight, ht⟩ : ∃ t : mixedLeaf.Tree mixedSources, t.height ≤ 0 ∧ t.Simple chain := by
      refine Sources.exists_tree_of_lines fun l hl => ?_
      rw [mixedLeaf.ofSource_eq_tagged] at hl
      obtain ⟨hgood, hnone⟩ := hforms l hl
      refine ⟨hgood, fun reference href => ?_⟩
      rw [hnone] at href
      cases href
    exact ⟨t, Nat.succ_le_succ hheight, ht⟩
  have hforms : ∀ l ∈ mixedEntry.tagged, Instruction.parse l.text ≠ .badImport ∧
      (Instruction.parse l.text).reference?.all (fun r => decide (unquote r = ['c'])) = true := by
    decide +kernel
  obtain ⟨t, -, ht⟩ : ∃ t : mixedEntry.Tree mixedSources, t.height ≤ 1 ∧
      t.Simple [mixedEntry.id] := by
    refine Sources.exists_tree_of_lines fun l hl => ?_
    rw [mixedEntry.ofSource_eq_tagged] at hl
    obtain ⟨hgood, href⟩ := hforms l hl
    refine ⟨hgood, fun reference h => ⟨mixedLeaf, find_mixedLeaf ?_, by decide, hleaf _⟩⟩
    rw [h] at href
    exact of_decide_eq_true href
  exact ⟨t, ht⟩

theorem splices_mixedLeaf : mixedSources.Splices (.dir ['/']) mixedLeaf.tagged
    ⟨[⟨"&F x=u(F)".toList, "/c", 2⟩], [⟨['h'], []⟩], [], false, none⟩ := by
  have hlines : mixedLeaf.tagged =
      [⟨"#header h".toList, "/c", 1⟩, ⟨"&F x=u(F)".toList, "/c", 2⟩] := by decide +kernel
  rw [hlines]
  exact .header (Instruction.parse_eq_iff.1 (by decide +kernel))
    (.text (Instruction.parse_eq_iff.1 (by decide +kernel)) (.nil _))

/-- All three references are replaced, the lines about the source are taken out, and what they ask
for is collected in the order in which the sources are read. -/
theorem splices_mixedEntry : mixedSources.Splices (.dir ['/']) mixedEntry.tagged
    { lines := [⟨"&F x=u(F)".toList, "/c", 2⟩, ⟨"@@ ==== begin c ====".toList, "/m", 3⟩,
        ⟨"@@ &F x=u(F)".toList, "/c", 2⟩, ⟨"@@ ==== end c ====".toList, "/m", 3⟩,
        ⟨"&L-F x=u(L-F)".toList, "/c", 2⟩, ⟨"x".toList, "/m", 7⟩]
      headers := [⟨"author".toList, "Jane".toList⟩, ⟨['h'], []⟩, ⟨['h'], []⟩, ⟨['h'], []⟩]
      footers := [⟨['k'], ['v']⟩]
      debug := true
      file := some "/c".toList } := by
  have hlines : mixedEntry.tagged =
      [⟨"#author Jane".toList, "/m", 1⟩, ⟨"#include c".toList, "/m", 2⟩,
        ⟨"#file \"c\"".toList, "/m", 3⟩, ⟨"#import \"c\" as L".toList, "/m", 4⟩,
        ⟨"#footer k = v".toList, "/m", 5⟩, ⟨"@debug".toList, "/m", 6⟩, ⟨"x".toList, "/m", 7⟩] := by
    decide +kernel
  have hnames : ∀ reference, unquote reference = ['c'] →
      mixedSources.Names (.dir ['/']) reference mixedLeaf := fun reference h =>
    Sources.find_eq_ok_iff.1 (find_mixedLeaf h)
  have hauthor : Instruction.Written (Line.text ⟨"#author Jane".toList, "/m", 1⟩)
      (.header ⟨"author".toList, "Jane".toList⟩) := Instruction.parse_eq_iff.1 (by decide +kernel)
  have hinclude : Instruction.Written (Line.text ⟨"#include c".toList, "/m", 2⟩) (.splice ['c']) :=
    Instruction.parse_eq_iff.1 (by decide +kernel)
  have hfile : Instruction.Written (Line.text ⟨"#file \"c\"".toList, "/m", 3⟩)
      (.embed ['"', 'c', '"']) := Instruction.parse_eq_iff.1 (by decide +kernel)
  have hlabel : IsUnquoted ['"', 'c', '"'] ['c'] := .quoted (Or.inl rfl) rfl
  have himport : Instruction.Written (Line.text ⟨"#import \"c\" as L".toList, "/m", 4⟩)
      (.importAs ['c'] ['L']) := Instruction.parse_eq_iff.1 (by decide +kernel)
  have hrenamed : Namespace.apply [⟨"&F x=u(F)".toList, "/c", 2⟩] ['L'] =
      [⟨"&L-F x=u(L-F)".toList, "/c", 2⟩] := by decide +kernel
  have himported : InPlace ⟨"#import \"c\" as L".toList, "/m", 4⟩ [⟨"&F x=u(F)".toList, "/c", 2⟩]
      ['c'] [⟨"&L-F x=u(L-F)".toList, "/c", 2⟩] := by
    rw [← hrenamed]
    exact .importAs himport
  have hfooter : Instruction.Written (Line.text ⟨"#footer k = v".toList, "/m", 5⟩)
      (.footer ⟨['k'], ['v']⟩) := Instruction.parse_eq_iff.1 (by decide +kernel)
  have hdebug : Instruction.Written (Line.text ⟨"@debug".toList, "/m", 6⟩) .debug :=
    Instruction.parse_eq_iff.1 (by decide +kernel)
  have htext : Instruction.Written (Line.text ⟨"x".toList, "/m", 7⟩) .text :=
    Instruction.parse_eq_iff.1 (by decide +kernel)
  rw [hlines]
  exact .header hauthor
    (.nested (.splice hinclude) (hnames _ rfl) splices_mixedLeaf
      (.nested (.embed hfile hlabel) (hnames _ rfl) splices_mixedLeaf
        (.nested himported (hnames _ rfl) splices_mixedLeaf
          (.footer hfooter (.debug hdebug (.text htext (.nil _)))))))

theorem Resolver.resolveEntry_splices_mixed :
    (resolveEntry mixedSources ['/', 'm'] (start (.dir ['/']) false)).1 = .ok
        [⟨"&F x=u(F)".toList, "/c", 2⟩, ⟨"@@ ==== begin c ====".toList, "/m", 3⟩,
          ⟨"@@ &F x=u(F)".toList, "/c", 2⟩, ⟨"@@ ==== end c ====".toList, "/m", 3⟩,
          ⟨"&L-F x=u(L-F)".toList, "/c", 2⟩, ⟨"x".toList, "/m", 7⟩] ∧
      (resolveEntry mixedSources ['/', 'm'] (start (.dir ['/']) false)).2.headers =
        [⟨"author".toList, "Jane".toList⟩, ⟨['h'], []⟩, ⟨['h'], []⟩, ⟨['h'], []⟩] ∧
      (resolveEntry mixedSources ['/', 'm'] (start (.dir ['/']) false)).2.footers =
        [⟨['k'], ['v']⟩] ∧
      (resolveEntry mixedSources ['/', 'm'] (start (.dir ['/']) false)).2.debug = true := by
  have hentry : mixedSources.findEntry (.dir ['/']) ['/', 'm'] = .ok mixedEntry := rfl
  obtain ⟨hloads, hsimple⟩ := (Sources.exists_simple_tree_iff rfl).1 exists_mixedTree
  obtain ⟨-, -, out, r', hresult, -, hunique, hheaders, hfooters, hdebug, -⟩ :=
    resolveEntry_splices (r := start (.dir ['/']) false) rfl rfl
      (Sources.findEntry_eq_ok_iff.1 hentry) hloads hsimple
  obtain rfl := hunique _ splices_mixedEntry
  rw [hresult]
  exact ⟨rfl, hheaders, hfooters, hdebug⟩

end Softcode
