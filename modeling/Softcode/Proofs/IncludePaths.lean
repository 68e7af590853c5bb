/-
**Loading an entry splices its include tree.**

The depth of loading is bounded by the number of identifiers that sources may have.  If no path of
references from the entry comes back to a source, the bound is never met: the identifiers along a
path are different, and all of them are known.  The same counting shows that the include tree of the
entry exists, by recursion on the number of identifiers that a path has not used up.

So what loading gives is the tree, spliced, and the sources that are known afterwards are those that
a path leads to.

Main definitions:

* `Softcode.Sources.Refers` — a source refers to another;
* `Softcode.Sources.IncludePath` — **include paths**, with the identifiers of the sources on them;
* `Softcode.Sources.LoadsAll` — sources whose instructions can be carried out;
* `Softcode.Sources.Paged` — entries from which addresses are read from pages.

Main results:

* `Softcode.Sources.IncludePath.length_le` — include paths without repetition are short;
* `Softcode.Sources.exists_tree`, `Softcode.Sources.exists_simple_tree_iff` — **when include trees
  exist**;
* `Softcode.Sources.mem_ids_iff` — the sources that are read are those that a path leads to;
* `Softcode.Resolver.resolveEntry_eq_splice` — **loading an entry splices its include tree**.
-/

import Softcode.Proofs.FiniteSources
import Softcode.Proofs.IncludeTree
import Mathlib.Data.List.Nodup

set_option autoImplicit false

namespace Softcode

namespace Line

theorem map_text_numbered (file : String) (n : Nat) (ts : List Text) :
    (numbered file n ts).map (·.text) = ts := by
  induction ts generalizing n with
  | nil => rfl
  | cons t ts ih => rw [numbered, List.map_cons, ih]

/-- The texts of the lines of a source. -/
theorem map_text_ofSource (src : Text) (file : String) :
    (ofSource src file).map (·.text) = src.lines :=
  map_text_numbered file 1 src.lines

theorem text_mem_of_mem_ofSource {src : Text} {file : String} {l : Line}
    (h : l ∈ ofSource src file) : l.text ∈ src.lines := by
  rw [← map_text_ofSource src file]
  exact List.mem_map.2 ⟨l, h, rfl⟩

end Line

namespace Sources

variable {s : Sources}

/-! ### Include paths -/

/-- A chain with one more identifier has no repetition exactly if the identifier is new. -/
theorem nodup_snoc {ids : List String} {id : String} :
    (ids ++ [id]).Nodup ↔ ids.Nodup ∧ id ∉ ids := by
  rw [← List.concat_eq_append, List.nodup_concat, and_comm]

/-- A source refers to another: one of its lines has a reference by which the other one is found,
relative to the base of the first. -/
def Refers (s : Sources) (l l' : Loaded) : Prop :=
  ∃ line ∈ Text.lines l.text, ∃ reference,
    (Instruction.parse line).reference? = some reference ∧ s.find l.base reference = .ok l'

theorem refers_of_line {l l' : Loaded} {line : Line} {reference : Text}
    (hline : line ∈ Line.ofSource l.text l.id)
    (href : (Instruction.parse line.text).reference? = some reference)
    (hfind : s.find l.base reference = .ok l') : s.Refers l l' :=
  ⟨line.text, Line.text_mem_of_mem_ofSource hline, reference, href, hfind⟩

/-- **Include paths** from an entry to a source, with the identifiers of the sources on them. -/
inductive IncludePath (s : Sources) (entry : Loaded) : List String → Loaded → Prop where
  | entry : IncludePath s entry [entry.id] entry
  | step {ids : List String} {l l' : Loaded} (h : IncludePath s entry ids l)
      (href : s.Refers l l') : IncludePath s entry (ids ++ [l'.id]) l'

/-- A source whose instructions can be carried out: its imports are well formed, and what its lines
refer to is found. -/
def LoadsAll (s : Sources) (l : Loaded) : Prop :=
  ∀ line ∈ Text.lines l.text, Instruction.parse line ≠ .badImport ∧
    ∀ reference, (Instruction.parse line).reference? = some reference →
      ∃ l', s.find l.base reference = .ok l'

/-- The sources that paths from an entry lead to read addresses from pages. -/
def Paged (s : Sources) (entry : Loaded) : Prop :=
  ∀ ids l, s.IncludePath entry ids l → s.ReadsPages l.base

theorem paged_of_pages {ps : List (Text × Text)} (hps : s.fetcher = .pages ps) (entry : Loaded) :
    s.Paged entry :=
  fun _ l _ => readsPages_of_pages hps l.base

namespace IncludePath

section Known

variable {entry : Loaded} (hpaged : s.Paged entry)

include hpaged

/-- What a path leads to is known. -/
theorem known {l : Loaded} {ids : List String} (h : s.IncludePath entry ids l) :
    l.text ∈ entry.text :: s.texts ∧ ∀ id ∈ ids, id.toList ∈ s.identifiers entry := by
  induction h with
  | entry =>
      refine ⟨List.mem_cons_self, fun id hid => ?_⟩
      rw [List.mem_singleton.1 hid]
      simp [identifiers]
  | step hpath href ih =>
      obtain ⟨line, hline, reference, hreference, hfind⟩ := href
      obtain ⟨htext, hid⟩ :=
        mem_identifiers_of_find (hpaged _ _ hpath) ih.1 hline hreference hfind
      refine ⟨htext, fun id h => ?_⟩
      rcases List.mem_append.1 h with h | h
      · exact ih.2 id h
      · rw [List.mem_singleton.1 h]
        exact hid

/-- **A path without repetition is no longer than the list of identifiers.** -/
theorem length_le {l : Loaded} {ids : List String} (h : s.IncludePath entry ids l)
    (hnodup : ids.Nodup) : ids.length ≤ (s.identifiers entry).length := by
  have htexts : (ids.map String.toList).Nodup :=
    List.Pairwise.map _ (fun a b hne heq => hne (String.toList_inj.1 heq)) hnodup
  have hsubset : ids.map String.toList ⊆ s.identifiers entry := by
    intro t ht
    obtain ⟨id, hid, rfl⟩ := List.mem_map.1 ht
    exact (h.known hpaged).2 id hid
  rw [← List.length_map (f := String.toList)]
  exact htexts.length_le_of_subset hsubset

/-- Below a path without repetition there is a level left, as long as the depth is counted from the
number of identifiers. -/
theorem exists_depth {l : Loaded} {ids : List String} {id : String}
    (h : s.IncludePath entry (ids ++ [id]) l) (hnodup : (ids ++ [id]).Nodup) {depth : Nat}
    (hdepth : (s.identifiers entry).length ≤ depth + ids.length) :
    ∃ d, depth = d + 1 ∧ (s.identifiers entry).length ≤ d + (ids ++ [id]).length := by
  have hlength := h.length_le hpaged hnodup
  rw [List.length_append, List.length_singleton] at hlength
  refine ⟨depth - 1, by omega, ?_⟩
  rw [List.length_append, List.length_singleton]
  omega

end Known

/-- A path may begin one source earlier. -/
theorem cons {l₀ l l' : Loaded} {ids : List String} (href : s.Refers l₀ l)
    (h : s.IncludePath l ids l') : s.IncludePath l₀ (l₀.id :: ids) l' := by
  induction h with
  | entry => exact IncludePath.entry.step href
  | step _ href' ih => exact ih.step href'

/-- A path that leads to another source begins with a reference. -/
theorem eq_or_refers {l l' : Loaded} {ids : List String} (h : s.IncludePath l ids l') :
    l' = l ∨ ∃ l₁ ids₁, s.Refers l l₁ ∧ s.IncludePath l₁ ids₁ l' := by
  induction h with
  | entry => exact Or.inl rfl
  | @step ids l₂ l₃ _ href ih =>
      refine Or.inr ?_
      rcases ih with rfl | ⟨l₁, ids₁, hfirst, hpath⟩
      · exact ⟨l₃, _, href, .entry⟩
      · exact ⟨l₁, _, hfirst, hpath.step href⟩

end IncludePath

/-! ### Include trees exist -/

/-- A tree for lines, from trees for what they refer to. -/
theorem exists_tree_of_lines {base : Base} {chain : List String} {n : Nat} {ls : List Line}
    (h : ∀ l ∈ ls, Instruction.parse l.text ≠ .badImport ∧
      ∀ reference, (Instruction.parse l.text).reference? = some reference →
        ∃ source, s.find base reference = .ok source ∧ source.id ∉ chain ∧
          ∃ t : source.Tree s, t.height + 1 ≤ n ∧ t.Simple (chain ++ [source.id])) :
    ∃ t : IncludeTree s base ls, t.height ≤ n ∧ t.Simple chain := by
  induction ls with
  | nil => exact ⟨.nil base, Nat.zero_le n, trivial⟩
  | cons l ls ih =>
      obtain ⟨rest, hrest, hsimple⟩ := ih fun l' hl' => h l' (List.mem_cons_of_mem _ hl')
      obtain ⟨hgood, hfound⟩ := h l List.mem_cons_self
      cases href : (Instruction.parse l.text).reference? with
      | none => exact ⟨.plain href hgood rest, hrest, hsimple⟩
      | some reference =>
          obtain ⟨source, hfind, hid, t, ht, htsimple⟩ := hfound reference href
          exact ⟨.nested source href hfind t rest, Nat.max_le.2 ⟨ht, hrest⟩, hid, htsimple, hsimple⟩

section Reached

variable {ps : List (Text × Text)} (hps : s.fetcher = .pages ps) {entry : Loaded}
  (hloads : ∀ ids l, s.IncludePath entry ids l → s.LoadsAll l)
  (hsimple : ∀ ids l, s.IncludePath entry ids l → ids.Nodup)

include hps hloads hsimple

/-- **Include trees exist**: the tree of a source that a path leads to is no higher than the number
of identifiers that are not on the path. -/
theorem exists_tree (n : Nat) {ids : List String} {l : Loaded} (h : s.IncludePath entry ids l)
    (hn : (s.identifiers entry).length ≤ ids.length + n) :
    ∃ t : l.Tree s, t.height ≤ n ∧ t.Simple ids := by
  induction n using Nat.strong_induction_on generalizing ids l with
  | _ n ih =>
      refine exists_tree_of_lines fun line hline => ?_
      obtain ⟨hgood, hfound⟩ := hloads ids l h line.text (Line.text_mem_of_mem_ofSource hline)
      refine ⟨hgood, fun reference href => ?_⟩
      obtain ⟨l', hfind⟩ := hfound reference href
      have hpath : s.IncludePath entry (ids ++ [l'.id]) l' :=
        h.step (refers_of_line hline href hfind)
      have hnodup : (ids ++ [l'.id]).Nodup := hsimple _ _ hpath
      have hid : l'.id ∉ ids := (nodup_snoc.1 hnodup).2
      -- the path is longer by one, and still not longer than the list of identifiers
      have hlength := hpath.length_le (paged_of_pages hps entry) hnodup
      rw [List.length_append, List.length_singleton] at hlength
      obtain ⟨t, ht, htsimple⟩ := ih (n - 1) (by omega) hpath (by
        rw [List.length_append, List.length_singleton]
        omega)
      exact ⟨l', hfind, hid, t, by omega, htsimple⟩

end Reached

/-! ### Paths stay in the tree -/

/-- What a line of a tree refers to has a tree of its own, one level further down. -/
theorem exists_inner {base : Base} {ls : List Line} (t : IncludeTree s base ls)
    {chain : List String} (ht : t.Simple chain) {line : Line} (hline : line ∈ ls) :
    Instruction.parse line.text ≠ .badImport ∧
      ∀ reference, (Instruction.parse line.text).reference? = some reference →
        ∃ source, s.find base reference = .ok source ∧ source.id ∉ chain ∧
          ∃ inner : source.Tree s, inner.Simple (chain ++ [source.id]) := by
  induction t with
  | nil base => exact absurd hline List.not_mem_nil
  | plain href hgood rest ih =>
      rcases List.mem_cons.1 hline with rfl | hline
      · refine ⟨hgood, fun reference href' => ?_⟩
        rw [href] at href'
        cases href'
      · exact ih ht hline
  | nested source href hfind inner rest _ ihr =>
      obtain ⟨hid, hinner, hrest⟩ := ht
      rcases List.mem_cons.1 hline with rfl | hline
      · refine ⟨fun hbad => ?_, fun reference href' => ?_⟩
        · rw [hbad] at href
          cases href
        · obtain rfl := Option.some.inj (href.symm.trans href')
          exact ⟨source, hfind, hid, inner, hinner⟩
      · exact ihr hrest hline

theorem exists_tree_of_path {entry l : Loaded} {ids : List String} (t : entry.Tree s)
    (ht : t.Simple [entry.id]) (h : s.IncludePath entry ids l) :
    ids.Nodup ∧ ∃ t' : l.Tree s, t'.Simple ids := by
  induction h with
  | entry => exact ⟨by simp, t, ht⟩
  | @step ids l l' _ href ih =>
      obtain ⟨hnodup, t', ht'⟩ := ih
      obtain ⟨text, htext, reference, href, hfind⟩ := href
      rw [← Line.map_text_ofSource l.text l.id] at htext
      obtain ⟨line, hline, rfl⟩ := List.mem_map.1 htext
      obtain ⟨source, hfind', hid, inner, hinner⟩ := (exists_inner t' ht' hline).2 reference href
      obtain rfl := Except.ok.inj (hfind.symm.trans hfind')
      exact ⟨nodup_snoc.2 ⟨hnodup, hid⟩, inner, hinner⟩

/-- **The tree of an entry exists, with no source below itself, exactly if** the instructions of
every source that a path leads to can be carried out and no path comes back to a source. -/
theorem exists_simple_tree_iff {ps : List (Text × Text)} (hps : s.fetcher = .pages ps)
    {entry : Loaded} :
    (∃ t : entry.Tree s, t.Simple [entry.id]) ↔
      (∀ ids l, s.IncludePath entry ids l → s.LoadsAll l) ∧
        ∀ ids l, s.IncludePath entry ids l → ids.Nodup := by
  constructor
  · rintro ⟨t, ht⟩
    refine ⟨fun ids l hpath text htext => ?_, fun ids l hpath => (exists_tree_of_path t ht hpath).1⟩
    obtain ⟨-, t', ht'⟩ := exists_tree_of_path t ht hpath
    rw [← Line.map_text_ofSource l.text l.id] at htext
    obtain ⟨line, hline, rfl⟩ := List.mem_map.1 htext
    obtain ⟨hgood, hfound⟩ := exists_inner t' ht' hline
    refine ⟨hgood, fun reference href => ?_⟩
    obtain ⟨source, hfind, -⟩ := hfound reference href
    exact ⟨source, hfind⟩
  · rintro ⟨hloads, hsimple⟩
    obtain ⟨t, -, ht⟩ := exists_tree hps hloads hsimple (s.identifiers entry).length .entry
      (Nat.le_add_left _ _)
    exact ⟨t, ht⟩

/-! ### The sources that are read -/

theorem ids_append (h k : Harvest) : (h ++ k).ids = h.ids ++ k.ids := rfl

theorem ids_harvest (i : Instruction) : i.harvest.ids = [] := by
  cases i <;> rfl

/-- A path leads from a source to one with a certain identifier. -/
def Reaches (s : Sources) (l : Loaded) (id : String) : Prop :=
  ∃ ids l', s.IncludePath l ids l' ∧ l'.id = id

theorem reaches_iff {l : Loaded} {id : String} :
    s.Reaches l id ↔ l.id = id ∨ ∃ l', s.Refers l l' ∧ s.Reaches l' id := by
  constructor
  · rintro ⟨ids, l', hpath, hid⟩
    rcases hpath.eq_or_refers with rfl | ⟨l₁, ids₁, href, hrest⟩
    · exact Or.inl hid
    · exact Or.inr ⟨l₁, href, ids₁, l', hrest, hid⟩
  · rintro (hid | ⟨l₁, href, ids, l', hpath, hid⟩)
    · exact ⟨_, l, .entry, hid⟩
    · exact ⟨_, l', hpath.cons href, hid⟩

/-- The identifier is one of those that are reached from what lines refer to. -/
def ReachedFrom (s : Sources) (base : Base) (ls : List Line) (id : String) : Prop :=
  ∃ line ∈ ls, ∃ reference source, (Instruction.parse line.text).reference? = some reference ∧
    s.find base reference = .ok source ∧ s.Reaches source id

theorem reachedFrom_cons {base : Base} {l : Line} {ls : List Line} {id : String} :
    s.ReachedFrom base (l :: ls) id ↔
      (∃ reference source, (Instruction.parse l.text).reference? = some reference ∧
        s.find base reference = .ok source ∧ s.Reaches source id) ∨ s.ReachedFrom base ls id := by
  simp [ReachedFrom]

theorem reachedFrom_ofSource {l : Loaded} {id : String} :
    s.ReachedFrom l.base (Line.ofSource l.text l.id) id ↔
      ∃ l', s.Refers l l' ∧ s.Reaches l' id := by
  constructor
  · rintro ⟨line, hline, reference, l', href, hfind, hreach⟩
    exact ⟨l', refers_of_line hline href hfind, hreach⟩
  · rintro ⟨l', ⟨text, htext, reference, href, hfind⟩, hreach⟩
    rw [← Line.map_text_ofSource l.text l.id] at htext
    obtain ⟨line, hline, rfl⟩ := List.mem_map.1 htext
    exact ⟨line, hline, reference, l', href, hfind, hreach⟩

/-- A source adds itself to what its lines reach. -/
theorem mem_ids_source {l : Loaded} {h : Harvest} {id : String}
    (hinner : id ∈ h.ids ↔ s.ReachedFrom l.base (Line.ofSource l.text l.id) id) :
    id ∈ (l.harvest h).ids ↔ s.Reaches l id := by
  have hids : (l.harvest h).ids = h.ids ++ [l.id] := rfl
  rw [hids, List.mem_append, List.mem_singleton, hinner, reachedFrom_ofSource, reaches_iff,
    or_comm, eq_comm]

/-- **The sources that are read** with lines are those that are reached from what the lines refer
to. -/
theorem mem_ids_iff {base : Base} {ls : List Line} (t : IncludeTree s base ls) (id : String) :
    id ∈ t.harvest.ids ↔ s.ReachedFrom base ls id := by
  induction t with
  | nil base => simp [IncludeTree.harvest, ReachedFrom]
  | plain href hgood rest ih =>
      rw [IncludeTree.harvest, ids_append, ids_harvest, List.nil_append, ih, reachedFrom_cons]
      simp [href]
  | nested source href hfind inner rest ihi ihr =>
      rw [IncludeTree.harvest, ids_append, List.mem_append, mem_ids_source ihi, ihr,
        reachedFrom_cons]
      simp [href, hfind]

end Sources

/-- **Loading an entry splices its include tree.**  If the entry is found, the instructions of every
source that a path leads to can be carried out, and no path comes back to a source, then the lines
are those of the include tree; the state is the one before, with what the tree yields; and the
sources that are known afterwards are those from before and those that are reached. -/
theorem Resolver.resolveEntry_eq_splice {s : Sources} {ps : List (Text × Text)}
    (hps : s.fetcher = .pages ps) {entry : Text} {r : Resolver} (hstart : r.visiting = [])
    {l : Loaded} (hentry : s.findEntry r.base entry = .ok l)
    (hloads : ∀ ids l', s.IncludePath l ids l' → s.LoadsAll l')
    (hsimple : ∀ ids l', s.IncludePath l ids l' → ids.Nodup) :
    ∃ t : l.Tree s, resolveEntry s entry r = (.ok t.splice, r.gather (l.harvest t.harvest)) ∧
      ∀ id, id ∈ (r.gather (l.harvest t.harvest)).loaded ↔ id ∈ r.loaded ∨ s.Reaches l id := by
  obtain ⟨t, hheight, ht⟩ := Sources.exists_tree hps hloads hsimple (s.identifiers l).length
    (Sources.IncludePath.entry) (Nat.le_add_left _ _)
  have hid : l.id ∉ r.visiting := by rw [hstart]; exact List.not_mem_nil
  have ht' : t.Simple (r.visiting ++ [l.id]) := by rw [hstart]; exact ht
  refine ⟨t, ?_, fun id => ?_⟩
  · rw [resolveEntry, hentry]
    exact t.expand_eq hheight hid ht'
  · rw [mem_loaded_gather, Sources.mem_ids_source (Sources.mem_ids_iff t id)]

/-! ### Small sources -/

/-- A line that includes a file with a name of one character. -/
def includeLine (name : Char) : Text := ['#', 'i', 'n', 'c', 'l', 'u', 'd', 'e', ' ', name]

/-- A file in the root directory. -/
def rootFile (name : Char) (text : Text) : Loaded :=
  ⟨String.ofList ['/', name], text, .dir ['/'], some ['/', name]⟩

/-- The file `/c` is a line of text. -/
def sharedLeaf : Loaded := rootFile 'c' ['x']

end Softcode
