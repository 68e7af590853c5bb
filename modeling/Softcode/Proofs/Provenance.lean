/-
**Everything has a place in a source.**

A compilation reads an entry with all that it refers to and puts the lines through the stages.  What
comes out, the commands as well as the findings, names places: a source and the number of a line.
These places are real.  Every source that is named has been read, and every number is that of a line
of its text.  The sources that are listed are exactly those that were read.

The lines of an include tree stand at places of the sources that a path leads to, because splicing
keeps the places of lines and puts its own lines at the place of the reference.  No stage invents a
place, and an identifier stands for one text only, so it does not matter which source of that name
is looked at.

Main definitions:

* `Softcode.Sources.Expanded` — **the sources that are read**;
* `Softcode.Sources.HasLine` — the number is one of a line of the source.

Main results:

* `Softcode.IncludeTree.forall_splice`, `Softcode.IncludeTree.placed_splice` — what the lines of a
  tree have from its sources, and their places;
* `Softcode.Sources.arrives_of_path` — what a path leads to is read;
* `Softcode.Resolver.exists_tree_of_resolveEntry` — what loading an entry gives;
* `Softcode.run_places` — **commands and findings have places in the sources that were read**.
-/

import Softcode.Compiler
import Softcode.Proofs.CycleDetection
import Softcode.Proofs.Identifiers
import Softcode.Proofs.Places

set_option autoImplicit false

namespace Softcode

variable {P : String → Nat → Prop}

/-! ### The places of sources -/

namespace Line

theorem mem_numbered {file : String} {n : Nat} {ts : List Text} {l : Line}
    (h : l ∈ numbered file n ts) : l.file = file ∧ n ≤ l.number ∧ l.number < n + ts.length := by
  induction ts generalizing n with
  | nil => exact absurd h List.not_mem_nil
  | cons t ts ih =>
      rw [List.length_cons]
      rcases List.mem_cons.1 h with rfl | h
      · exact ⟨rfl, Nat.le_refl n, by dsimp only; omega⟩
      · obtain ⟨hfile, hge, hlt⟩ := ih h
        exact ⟨hfile, by omega, by omega⟩

/-- The lines of a source are numbered from one. -/
theorem mem_ofSource {src : Text} {file : String} {l : Line} (h : l ∈ ofSource src file) :
    l.file = file ∧ 1 ≤ l.number ∧ l.number ≤ (Text.lines src).length := by
  obtain ⟨hfile, hge, hlt⟩ := mem_numbered h
  exact ⟨hfile, hge, by omega⟩

end Line

/-! ### The places of trees -/

/-- Lines in place of a reference stand at its place or keep their own. -/
theorem Instruction.placed_place (i : Instruction) {l : Line} (hl : P l.file l.number)
    {nested : List Line} (h : Placed P nested) : Placed P (i.place l nested) := by
  cases i with
  | embed reference =>
      have hbounds : ∀ word, Placed P [Resolver.rawBound l word reference] := fun word =>
        placed_texts hl [_]
      exact placed_append.2 ⟨placed_append.2 ⟨hbounds _, h.map_withText _⟩, hbounds _⟩
  | importAs reference label => exact Namespace.placed_apply h label
  | splice | badImport | header | footer | debug | text => exact h

/-- A line without a reference is left as it is, or goes. -/
theorem Instruction.eq_of_mem_ownLines {i : Instruction} {l m : Line} (h : m ∈ i.ownLines l) :
    m = l := by
  cases i with
  | text => exact List.mem_singleton.1 h
  | splice | embed | importAs | badImport | header | footer | debug =>
      exact absurd h List.not_mem_nil

/-- **What the lines of the sources of a tree have, the lines of the tree have**, if it goes through
the lines in place of a reference. -/
theorem IncludeTree.forall_splice {Q : Line → Prop}
    (hplace : ∀ l nested, Q l → (∀ m ∈ nested, Q m) →
      ∀ m ∈ (Instruction.parse l.text).place l nested, Q m)
    {s : Sources} {b : Base} {ls : List Line} (t : IncludeTree s b ls) (h : ∀ l ∈ ls, Q l)
    (hsources : ∀ line ∈ ls, ∀ reference source,
      (Instruction.parse line.text).reference? = some reference →
      s.find b reference = .ok source → ∀ ids l', s.IncludePath source ids l' →
      ∀ m ∈ Line.ofSource l'.text l'.id, Q m) : ∀ m ∈ t.splice, Q m := by
  induction t with
  | nil b => exact List.forall_mem_nil _
  | plain href hgood rest ih =>
      obtain ⟨hl, hls⟩ := List.forall_mem_cons.1 h
      refine List.forall_mem_append.2 ⟨fun m hm => ?_, ih hls fun line hline => ?_⟩
      · rw [Instruction.eq_of_mem_ownLines hm]
        exact hl
      · exact hsources line (List.mem_cons_of_mem _ hline)
  | nested source href hfind inner rest ihi ihr =>
      obtain ⟨hl, hls⟩ := List.forall_mem_cons.1 h
      have hreached := hsources _ List.mem_cons_self _ source href hfind
      refine List.forall_mem_append.2 ⟨hplace _ _ hl (ihi (hreached _ _ .entry) ?_),
        ihr hls fun line hline => hsources line (List.mem_cons_of_mem _ hline)⟩
      -- what the source refers to is reached one step later
      intro line hline reference' source' href' hfind' ids l' hpath
      exact hreached _ _ (hpath.cons (Sources.refers_of_line hline href' hfind'))

/-- **The lines of a tree stand at places of its sources.** -/
theorem IncludeTree.placed_splice {s : Sources} {b : Base} {ls : List Line}
    (t : IncludeTree s b ls) (h : Placed P ls)
    (hsources : ∀ line ∈ ls, ∀ reference source,
      (Instruction.parse line.text).reference? = some reference →
      s.find b reference = .ok source → ∀ ids l', s.IncludePath source ids l' →
      Placed P (Line.ofSource l'.text l'.id)) : Placed P t.splice := by
  refine t.forall_splice (Q := fun l => P l.file l.number) (fun l nested hl hnested => ?_) h
    hsources
  exact Instruction.placed_place _ hl hnested

/-! ### The sources that are read -/

namespace Sources

/-- **The sources that are read**: reading comes to them, and they are not on their own chain. -/
def Expanded (s : Sources) (entry l : Loaded) : Prop :=
  ∃ chain, s.Arrives entry chain l ∧ chain.Nodup

variable {s : Sources}

/-- The first lines of a tree have a tree. -/
theorem exists_tree_of_prefix {b : Base} {ls : List Line} (t : IncludeTree s b ls)
    {chain : List String} (ht : t.Simple chain) {before after : List Line}
    (hls : ls = before ++ after) : ∃ t' : IncludeTree s b before, t'.Simple chain := by
  induction t generalizing before with
  | nil b =>
      obtain ⟨rfl, -⟩ := List.append_eq_nil_iff.1 hls.symm
      exact ⟨.nil b, trivial⟩
  | @plain b l ls href hgood rest ih =>
      cases before with
      | nil => exact ⟨.nil b, trivial⟩
      | cons l' before =>
          obtain ⟨rfl, hmore⟩ := List.cons.inj hls
          obtain ⟨rest', hrest'⟩ := ih ht hmore
          exact ⟨.plain href hgood rest', hrest'⟩
  | @nested b l ls reference source href hfind inner rest _ ihr =>
      cases before with
      | nil => exact ⟨.nil b, trivial⟩
      | cons l' before =>
          obtain ⟨rfl, hmore⟩ := List.cons.inj hls
          obtain ⟨hid, hinner, hrest⟩ := ht
          obtain ⟨rest', hrest'⟩ := ihr hrest hmore
          exact ⟨.nested source href hfind inner rest', hid, hinner, hrest'⟩

/-- **What a path leads to is read**, if the entry has a tree. -/
theorem arrives_of_path {entry l : Loaded} {ids : List String} (t : entry.Tree s)
    (ht : t.Simple [entry.id]) (h : s.IncludePath entry ids l) : s.Arrives entry ids l := by
  induction h with
  | entry => exact .entry
  | @step ids l l' hpath href ih =>
      obtain ⟨hnodup, t', ht'⟩ := exists_tree_of_path t ht hpath
      obtain ⟨text, htext, reference, href, hfind⟩ := href
      rw [← Line.map_text_ofSource l.text l.id] at htext
      obtain ⟨line, hline, rfl⟩ := List.mem_map.1 htext
      obtain ⟨before, after, hlines⟩ := List.append_of_mem hline
      obtain ⟨t₁, ht₁⟩ := exists_tree_of_prefix t' ht' hlines
      exact ih.step hnodup hlines t₁ ht₁ href hfind

/-- The sources that are read are those that a path leads to, if the entry has a tree. -/
theorem expanded_iff {entry l : Loaded} (t : entry.Tree s) (ht : t.Simple [entry.id]) :
    s.Expanded entry l ↔ ∃ ids, s.IncludePath entry ids l := by
  constructor
  · rintro ⟨chain, harrives, -⟩
    exact ⟨chain, harrives.path⟩
  · rintro ⟨ids, hpath⟩
    exact ⟨ids, arrives_of_path t ht hpath, (exists_tree_of_path t ht hpath).1⟩

/-- **The number is one of a line of the source**, whichever source of that name is read. -/
def HasLine (s : Sources) (entry : Loaded) (file : String) (n : Nat) : Prop :=
  ∀ src, s.Expanded entry src → src.id = file → 1 ≤ n ∧ n ≤ (Text.lines src.text).length

/-- The lines of sources that are read have numbers of lines of their sources. -/
theorem hasLine_of_mem {base : Base} (hbase : s.GoodBase base) {text : Text} {entry : Loaded}
    (hentry : s.findEntry base text = .ok entry) {ids : List String} {l : Loaded}
    (hpath : s.IncludePath entry ids l) {line : Line} (hline : line ∈ Line.ofSource l.text l.id) :
    s.HasLine entry line.file line.number := by
  rintro src ⟨chain, harrives, -⟩ hid
  obtain ⟨hfile, hnumber⟩ := Line.mem_ofSource hline
  -- a source of the same name has the same text
  have htext : src.text = l.text := by
    have hsrc := (textOf?_of_path hbase hentry harrives.path).2
    rw [hid, hfile, (textOf?_of_path hbase hentry hpath).2] at hsrc
    exact (Option.some.inj hsrc).symm
  rw [htext]
  exact hnumber

end Sources

/-! ### Loading -/

/-- **What loading an entry gives**: the lines of its tree, and the state with what the tree
yields. -/
theorem Resolver.exists_tree_of_resolveEntry {s : Sources} {entry : Text} {r r' : Resolver}
    (hstart : r.visiting = []) {lines : List Line}
    (h : resolveEntry s entry r = (.ok lines, r')) :
    ∃ (l : Loaded) (t : l.Tree s), s.findEntry r.base entry = .ok l ∧ t.Simple [l.id] ∧
      lines = t.splice ∧ r' = r.gather (l.harvest t.harvest) := by
  unfold resolveEntry at h
  split at h
  · cases h
  · next l hentry =>
      obtain ⟨hid, t, hheight, ht⟩ := exists_tree_of_expand (congrArg Prod.fst h)
      have hvisiting : (r.note l).visiting = [] := hstart
      rw [hvisiting] at ht
      have hid' : l.id ∉ r.visiting := by rw [hstart]; exact List.not_mem_nil
      have ht' : t.Simple (r.visiting ++ [l.id]) := by rw [hstart]; exact ht
      rw [t.expand_eq (Nat.le_of_succ_le_succ hheight) hid' ht'] at h
      obtain ⟨hlines, hstate⟩ := Prod.mk.inj h
      exact ⟨l, t, hentry, ht, (Except.ok.inj hlines).symm, hstate.symm⟩

/-- The identifiers that are known behind a tree are those of the sources that are read. -/
theorem Resolver.mem_loaded_iff {s : Sources} {l : Loaded} (t : l.Tree s) (ht : t.Simple [l.id])
    {r : Resolver} (hstart : r.loaded = []) (id : String) :
    id ∈ (r.gather (l.harvest t.harvest)).loaded ↔ ∃ src, s.Expanded l src ∧ src.id = id := by
  rw [mem_loaded_gather, hstart, Sources.mem_ids_source (Sources.mem_ids_iff t id)]
  constructor
  · rintro (h | ⟨ids, src, hpath, hid⟩)
    · exact absurd h List.not_mem_nil
    · exact ⟨src, (Sources.expanded_iff t ht).2 ⟨ids, hpath⟩, hid⟩
  · rintro ⟨src, hsrc, hid⟩
    obtain ⟨ids, hpath⟩ := (Sources.expanded_iff t ht).1 hsrc
    exact Or.inr ⟨ids, src, hpath, hid⟩

/-- The lines of the tree of an entry have places in the sources that are read. -/
theorem Sources.placed_splice {s : Sources} {base : Base} (hbase : s.GoodBase base) {text : Text}
    {l : Loaded} (hentry : s.findEntry base text = .ok l) (t : l.Tree s) (ht : t.Simple [l.id]) :
    Placed (fun file n => (∃ src, s.Expanded l src ∧ src.id = file) ∧ s.HasLine l file n)
      t.splice := by
  have hplaced : ∀ ids l', s.IncludePath l ids l' →
      Placed (fun file n => (∃ src, s.Expanded l src ∧ src.id = file) ∧ s.HasLine l file n)
        (Line.ofSource l'.text l'.id) := by
    intro ids l' hpath line hline
    refine ⟨⟨l', (expanded_iff t ht).2 ⟨ids, hpath⟩, ?_⟩,
      hasLine_of_mem hbase hentry hpath hline⟩
    exact (Line.mem_ofSource hline).1.symm
  refine t.placed_splice (hplaced _ _ .entry) fun line hline reference source href hfind => ?_
  intro ids l' hpath
  exact hplaced _ _ (hpath.cons (refers_of_line hline href hfind))

/-! ### Compilation -/

/-- A run of all stages gives what they leave of the lines of the entry. -/
theorem exists_of_run {o : Options} {s : Sources} {entry : Text} {out : Output}
    (h : run o s entry = .ok out) :
    ∃ lines r done, Resolver.resolveEntry s entry (o.resolver s.tree) = (.ok lines, r) ∧
      (Session.ofResolver o lines r).stages o.safeLimit = done ∧ out.lines = done.lines ∧
      out.report = done.report o.linter ∧
      out.sources = r.loaded.mergeSort fun a b => decide (a ≤ b) := by
  unfold run at h
  split at h
  · cases h
  · next lines r hresolve =>
      dsimp only at h
      generalize hdone : (Session.ofResolver o lines r).stages o.safeLimit = done at h
      obtain rfl := Except.ok.inj h
      exact ⟨lines, r, done, hresolve, hdone, rfl, rfl, rfl⟩

/-- Nothing behind the loading of an entry fails. -/
theorem exists_run {o : Options} {s : Sources} {entry : Text} {lines : List Line} {r : Resolver}
    (h : Resolver.resolveEntry s entry (o.resolver s.tree) = (.ok lines, r)) :
    ∃ out, run o s entry = .ok out := by
  unfold run
  rw [h]
  exact ⟨_, rfl⟩

/-- A compilation succeeds if all stages do and no error is reported. -/
theorem compile_eq_ok_iff {o : Options} {s : Sources} {entry : Text} {out : Output} :
    compile o s entry = .ok out ↔ run o s entry = .ok out ∧ out.report.ok = true := by
  unfold compile
  cases hrun : run o s entry with
  | error e => exact iff_of_false nofun fun h => nomatch h.1
  | ok out' =>
      dsimp only
      split
      · next hok =>
          constructor
          · intro h
            obtain rfl := Except.ok.inj h
            exact ⟨rfl, hok⟩
          · exact fun h => h.1
      · next hfailed =>
          refine iff_of_false nofun ?_
          rintro ⟨h, hok⟩
          obtain rfl := Except.ok.inj h
          exact hfailed hok

/-- A compilation that succeeds is a run of all stages. -/
theorem run_of_compile {o : Options} {s : Sources} {entry : Text} {out : Output}
    (h : compile o s entry = .ok out) : run o s entry = .ok out :=
  (compile_eq_ok_iff.1 h).1

/-- **Commands and findings have places in the sources that were read.**  The sources that are
listed are those that were read; and every line that comes out, and every finding that has a place,
names one of them and the number of one of its lines. -/
theorem run_places {o : Options} {s : Sources} {entry : Text} {out : Output}
    (h : run o s entry = .ok out ∨ compile o s entry = .ok out) :
    ∃ l, s.findEntry (.dir (o.baseDir.getD s.tree.currentDir)) entry = .ok l ∧
      (∀ id, id ∈ out.sources ↔ ∃ src, s.Expanded l src ∧ src.id = id) ∧
      (∀ m ∈ out.lines, m.file ∈ out.sources ∧ s.HasLine l m.file m.number) ∧
      ∀ d ∈ out.report.diagnostics, ∀ loc, d.loc = some loc →
        loc.file ∈ out.sources ∧ s.HasLine l loc.file loc.line := by
  have hrun : run o s entry = .ok out := h.elim (fun h => h) run_of_compile
  obtain ⟨lines, r, done, hresolve, hstages, hlines, hreport, hsources⟩ := exists_of_run hrun
  obtain ⟨l, t, hentry, ht, rfl, rfl⟩ := Resolver.exists_tree_of_resolveEntry rfl hresolve
  have hread : ∀ id, id ∈ out.sources ↔ ∃ src, s.Expanded l src ∧ src.id = id := by
    intro id
    rw [hsources, List.mem_mergeSort, Resolver.mem_loaded_iff t ht rfl id]
  -- the property of places holds of the lines that are loaded, and so behind all stages
  have hbase : s.GoodBase (o.resolver s.tree).base := trivial
  have hloaded := Sources.placed_splice hbase hentry t ht
  have hbegin : (Session.ofResolver o t.splice
      ((o.resolver s.tree).gather (l.harvest t.harvest))).Within _ :=
    ⟨hloaded, Session.located_start o⟩
  have hdone := hbegin.stages o.safeLimit
  rw [hstages] at hdone
  refine ⟨l, hentry, hread, fun m hm => ?_, fun d hd loc hloc => ?_⟩
  · rw [hlines] at hm
    obtain ⟨hsource, hline⟩ := hdone.lines m hm
    exact ⟨(hread m.file).2 hsource, hline⟩
  · rw [hreport] at hd
    obtain ⟨hsource, hline⟩ := hdone.report o.linter d hd loc hloc
    exact ⟨(hread loc.file).2 hsource, hline⟩

/-! ### A bracket that is never closed -/

/-- The file `/m` includes `/c`, and has a bracket on its second line. -/
def bracketEntry : Loaded := rootFile 'm' (includeLine 'c' ++ ['\n', '[', 'y'])

/-- The two files. -/
def bracketSources : Sources where
  tree := ⟨[], [
    ([['m']], .file (Text.toBytes bracketEntry.text)),
    ([['c']], .file (Text.toBytes sharedLeaf.text))]⟩
  fetcher := .pages []
  stdRoot := none
  ext := ['m', 'u', 's', 'h']
  maxBytes := 100

/-- The tree of `/m`, with its lines and what it yields. -/
theorem exists_bracketTree :
    ∃ t : bracketEntry.Tree bracketSources, t.height ≤ 1 ∧ t.Simple [bracketEntry.id] ∧
      t.splice = [⟨['x'], "/c", 1⟩, ⟨['[', 'y'], "/m", 2⟩] ∧
      (Resolver.start (.dir ['/']) false).gather (bracketEntry.harvest t.harvest) =
        ⟨.dir ['/'], [], ["/c", "/m"], some ['/', 'm'], false, [], []⟩ := by
  have hleaf : Instruction.parse ['x'] ≠ .badImport := by decide
  have hbracket : Instruction.parse ['[', 'y'] ≠ .badImport := by decide
  refine ⟨.nested sharedLeaf rfl rfl (.plain rfl hleaf (.nil _)) (.plain rfl hbracket (.nil _)),
    Nat.le_refl 1, ⟨?_, trivial, trivial⟩, rfl, rfl⟩
  decide

/-- What loading `/m` gives. -/
theorem resolveEntry_bracket :
    Resolver.resolveEntry bracketSources ['/', 'm'] (({} : Options).resolver bracketSources.tree) =
      (.ok [⟨['x'], "/c", 1⟩, ⟨['[', 'y'], "/m", 2⟩],
        ⟨.dir ['/'], [], ["/c", "/m"], some ['/', 'm'], false, [], []⟩) := by
  obtain ⟨t, hheight, hsimple, hsplice, hgather⟩ := exists_bracketTree
  have hentry : bracketSources.findEntry (.dir ['/']) ['/', 'm'] = .ok bracketEntry := rfl
  have hknown : bracketEntry.id.toList ∈ bracketSources.identifiers bracketEntry :=
    List.mem_append_left _ (List.mem_append_left _ (List.mem_append_left _ List.mem_cons_self))
  have hstart : ({} : Options).resolver bracketSources.tree =
      Resolver.start (.dir ['/']) false := rfl
  rw [← hsplice, ← hgather, hstart]
  unfold Resolver.resolveEntry
  rw [Resolver.start, hentry]
  exact t.expand_eq (Nat.le_trans hheight (List.length_pos_of_mem hknown)) List.not_mem_nil hsimple

theorem run_places_bracket :
    ∃ out, run {} bracketSources ['/', 'm'] = .ok out ∧
      out.lines = [⟨['x'], "/c", 1⟩, ⟨['[', 'y'], "/m", 2⟩] ∧
      out.report.diagnostics.map (·.loc) = [some ⟨"/m", 2, some 1⟩] ∧
      "/c" ∈ out.sources ∧ "/m" ∈ out.sources := by
  obtain ⟨out, hrun⟩ := exists_run resolveEntry_bracket
  obtain ⟨lines, r, done, hresolve, hstages, hlines, hreport, -⟩ := exists_of_run hrun
  obtain ⟨hloaded, rfl⟩ := Prod.mk.inj (resolveEntry_bracket.symm.trans hresolve)
  obtain rfl := Except.ok.inj hloaded
  have hlines' : out.lines = [⟨['x'], "/c", 1⟩, ⟨['[', 'y'], "/m", 2⟩] := by
    rw [hlines, ← hstages]
    decide +kernel
  have hlocs : out.report.diagnostics.map (·.loc) = [some ⟨"/m", 2, some 1⟩] := by
    rw [hreport, ← hstages]
    decide +kernel
  obtain ⟨l, -, -, hplaces, -⟩ := run_places (Or.inl hrun)
  refine ⟨out, hrun, hlines', hlocs, ?_, ?_⟩
  · exact (hplaces ⟨['x'], "/c", 1⟩ (by rw [hlines']; decide)).1
  · exact (hplaces ⟨['[', 'y'], "/m", 2⟩ (by rw [hlines']; decide)).1

end Softcode
