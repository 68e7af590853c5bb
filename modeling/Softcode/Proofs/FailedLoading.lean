/-
**Loading that fails.**

Loading changes its state in many places, and it may fail at any of them, at any depth.  Whatever
happens, the state is the one before together with something that was yielded: the base of
references and the chain of the sources that are being read are put back, banners are only added,
and so on.

An error belongs to a line.  The sources that reading comes to are described here without any state:
a source is arrived at, with the chain of the sources it is included by, if it is the entry, or if a
source that is arrived at refers to it behind lines that have an include tree.  Loading fails at a
line of such a source if the lines before it have an include tree and the line itself cannot be
carried out; the error is then the one for this line, put at its place, and none of the lines further
out changes that.  Only an error of the entry itself has no place.

In one direction the error is followed inwards through the calls that it ended; in the other, the
lines in front of a reference are read by the run lemma of include trees, and the failure goes
through to the entry.  Both need that the depth is never used up.

Main definitions:

* `Softcode.Resolver.Restored` — what a state keeps when something is loaded;
* `Softcode.Sources.Arrives` — **the sources that reading comes to**, each with its chain;
* `Softcode.Sources.LineFails`, `Softcode.Sources.FailsAt` — why a line fails, and **the line at
  which loading fails**.

Main results:

* `Softcode.Resolver.expand_restores` — **loading puts its state back**, whether it fails or not;
* `Softcode.Resolver.scan_append`, `Softcode.Resolver.scan_error_iff` — lines are read one part after
  the other, and fail at one of them;
* `Softcode.Resolver.exists_tree_of_expand` — what is read has an include tree;
* `Softcode.IncludeTree.height_add_length_le` — include trees are no higher than there are
  identifiers left;
* `Softcode.Resolver.exists_failsAt_of_error`, `Softcode.Resolver.expand_error_of_failsAt` — an error
  comes from a line at which loading fails, and goes through to the entry;
* `Softcode.Resolver.resolveEntry_error_iff` — **errors are put at the line that failed**.
-/

import Softcode.Proofs.Identifiers
import Softcode.Proofs.LoadingSteps

set_option autoImplicit false

namespace Softcode

namespace Resolver

/-! ### The state is put back -/

/-- What a state keeps when something is loaded: the base and the chain are the same, header and
footer lines and sources that were read are only added, debug mode stays on, and so does the first
file. -/
structure Restored (r r' : Resolver) : Prop where
  base : r'.base = r.base
  visiting : r'.visiting = r.visiting
  headers : r.headers <+: r'.headers
  footers : r.footers <+: r'.footers
  loaded : r.loaded <+: r'.loaded
  debug : r.debug = true → r'.debug = true
  entryFile : ∀ path, r.entryFile = some path → r'.entryFile = some path

theorem prefix_foldl_addId (ids known : List String) : known <+: ids.foldl addId known := by
  induction ids generalizing known with
  | nil => exact List.prefix_refl known
  | cons id ids ih =>
      have hadd : known <+: addId known id := by
        unfold addId
        split
        · exact List.prefix_refl known
        · exact List.prefix_append known [id]
      exact hadd.trans (ih (addId known id))

theorem Gathers.restored {r r' : Resolver} (h : r.Gathers r') : r.Restored r' := by
  obtain ⟨k, rfl⟩ := h
  refine ⟨rfl, rfl, List.prefix_append _ _, List.prefix_append _ _,
    prefix_foldl_addId k.ids r.loaded, fun hdebug => ?_, fun path hpath => ?_⟩
  · change (r.debug || k.debug) = true
    rw [hdebug, Bool.true_or]
  · change r.entryFile.or k.file = some path
    rw [hpath, Option.some_or]

/-- **Loading puts its state back.**  Whether a source or a reference is read or fails, and wherever
it fails, the base and the chain are those from before, and all else has only grown. -/
theorem expand_restores (s : Sources) (depth : Nat) (source : Loaded) (reference : Text)
    (line : Line) (r : Resolver) :
    r.Restored (expand s depth source r).2 ∧
      r.Restored (resolveReference s depth reference line r).2 :=
  ⟨(expand_gathers s depth source r).restored,
    (resolveWith_gathers s (expand_gathers s depth) reference line r).restored⟩

/-! ### Lines in two parts -/

theorem andThen_assoc (result : Result) (next next' : Resolver → Result) :
    andThen (andThen result next) next' = andThen result fun r => andThen (next r) next' := by
  obtain ⟨outcome, r₁⟩ := result
  cases outcome with
  | error e => rfl
  | ok lines =>
      rw [andThen_ok, andThen_ok]
      cases hnext : next r₁ with
      | mk outcome' r₂ =>
          cases outcome' with
          | error e => simp [andThen, Except.map]
          | ok lines' =>
              cases hnext' : next' r₂ with
              | mk outcome'' r₃ => cases outcome'' <;> simp [andThen, Except.map, hnext']

theorem exists_of_andThen_eq_ok {result : Result} {next : Resolver → Result} {lines : List Line}
    {r' : Resolver} (h : andThen result next = (.ok lines, r')) :
    ∃ xs r₁ ys, result = (.ok xs, r₁) ∧ next r₁ = (.ok ys, r') := by
  obtain ⟨outcome, r₁⟩ := result
  cases outcome with
  | error e => cases h
  | ok xs =>
      rw [andThen_ok] at h
      cases hnext : next r₁ with
      | mk outcome' r₂ =>
          rw [hnext] at h
          cases outcome' with
          | error e => cases h
          | ok ys =>
              obtain rfl : r₂ = r' := congrArg Prod.snd h
              exact ⟨xs, r₁, ys, rfl, hnext⟩

/-- **Lines are read one part after the other.** -/
theorem scan_append (refer : Text → Line → Resolver → Result) (xs ys : List Line) (r : Resolver) :
    scan refer (xs ++ ys) r = andThen (scan refer xs r) (scan refer ys) := by
  induction xs generalizing r with
  | nil => exact (andThen_nil r (scan refer ys)).symm
  | cons x xs ih =>
      have hnext : scan refer (xs ++ ys) = fun r => andThen (scan refer xs r) (scan refer ys) :=
        funext ih
      rw [List.cons_append, scan_cons, scan_cons, andThen_assoc, hnext]

/-- One result after another is an error if the first one is, or the second one behind it. -/
theorem andThen_error_iff {result : Result} {next : Resolver → Result} {e : CompileError} :
    (andThen result next).1 = .error e ↔
      result.1 = .error e ∨ ∃ lines r₁, result = (.ok lines, r₁) ∧ (next r₁).1 = .error e := by
  obtain ⟨outcome, r₁⟩ := result
  cases outcome with
  | error e => simp [andThen]
  | ok lines =>
      rw [andThen_ok]
      cases hnext : next r₁ with
      | mk outcome' r₂ => cases outcome' <;> simp [hnext, Except.map]

/-- **Lines fail at one of them**, when those before it have been read. -/
theorem scan_error_iff {refer : Text → Line → Resolver → Result} {ls : List Line} {r : Resolver}
    {e : CompileError} :
    (scan refer ls r).1 = .error e ↔
      ∃ before l after lines r₁, ls = before ++ l :: after ∧
        scan refer before r = (.ok lines, r₁) ∧ (scanOne refer l r₁).1 = .error e := by
  constructor
  · intro h
    induction ls generalizing r with
    | nil => cases h
    | cons l ls ih =>
        rw [scan_cons, andThen_error_iff] at h
        rcases h with h | ⟨xs, r₁, hline, hrest⟩
        · exact ⟨[], l, ls, [], r, rfl, rfl, h⟩
        · obtain ⟨before, l', after, lines, r₂, rfl, hbefore, herror⟩ := ih hrest
          refine ⟨l :: before, l', after, xs ++ lines, r₂, rfl, ?_, herror⟩
          rw [scan_cons, hline, andThen_ok, hbefore]
          rfl
  · rintro ⟨before, l, after, lines, r₁, rfl, hbefore, herror⟩
    rw [scan_append, andThen_error_iff]
    refine Or.inr ⟨lines, r₁, hbefore, ?_⟩
    rw [scan_cons, andThen_error_iff]
    exact Or.inl herror

/-! ### What is read has an include tree -/

/-- A line that is read is well formed, and the source that it refers to is found and read. -/
theorem scanOne_eq_ok {s : Sources} {f : Loaded → Resolver → Result} {l : Line} {lines : List Line}
    {r r' : Resolver} (h : scanOne (resolveWith s f) l r = (.ok lines, r')) :
    ((Instruction.parse l.text).reference? = none ∧ Instruction.parse l.text ≠ .badImport) ∨
      ∃ reference source nested, (Instruction.parse l.text).reference? = some reference ∧
        s.find r.base reference = .ok source ∧ (f source (r.note source)).1 = .ok nested := by
  cases href : (Instruction.parse l.text).reference? with
  | none =>
      refine Or.inl ⟨rfl, fun hbad => ?_⟩
      rw [scanOne_badImport hbad] at h
      cases h
  | some reference =>
      rw [scanOne_nested href] at h
      cases hfind : s.find r.base reference with
      | error e =>
          rw [resolveWith, hfind] at h
          cases h
      | ok source =>
          rw [resolveWith_of_find hfind] at h
          cases hresult : f source (r.note source) with
          | mk outcome r₁ =>
              rw [hresult] at h
              cases outcome with
              | error e => cases h
              | ok nested =>
                  exact Or.inr ⟨reference, source, nested, rfl, hfind, by rw [hresult]⟩

/-- Lines that are read have an include tree with no source below one of the chain, if the sources
that they refer to do. -/
theorem exists_tree_of_scan {s : Sources} {f : Loaded → Resolver → Result}
    (hyields : ∀ l (r : Resolver), r.Gathers (f l r).2)
    {n : Nat} (htree : ∀ l (r : Resolver) lines, (f l r).1 = .ok lines →
      l.id ∉ r.visiting ∧ ∃ t : l.Tree s, t.height + 1 ≤ n ∧ t.Simple (r.visiting ++ [l.id]))
    {ls : List Line} {r : Resolver} {lines : List Line} {r' : Resolver}
    (h : scan (resolveWith s f) ls r = (.ok lines, r')) :
    ∃ t : IncludeTree s r.base ls, t.height ≤ n ∧ t.Simple r.visiting := by
  induction ls generalizing r lines with
  | nil => exact ⟨.nil r.base, Nat.zero_le n, trivial⟩
  | cons l ls ih =>
      rw [scan_cons] at h
      obtain ⟨xs, r₁, ys, hline, hnext⟩ := exists_of_andThen_eq_ok h
      -- the line gives base and chain back, so the rest has a tree in the same place
      have hkept := (scanOne_gathers (resolveWith_gathers s hyields) l r).samePlace
      rw [hline] at hkept
      have hrest := ih hnext
      rw [hkept.1, hkept.2] at hrest
      obtain ⟨rest, hheight, hrest⟩ := hrest
      rcases scanOne_eq_ok hline with ⟨href, hgood⟩ | ⟨reference, source, nested, href, hfind, hok⟩
      · exact ⟨.plain href hgood rest, hheight, hrest⟩
      · obtain ⟨hid, inner, hdeep, hinner⟩ := htree source (r.note source) nested hok
        exact ⟨.nested source href hfind inner rest, Nat.max_le.2 ⟨hdeep, hheight⟩, hid, hinner,
          hrest⟩

/-- **What is read has an include tree**, with no source below itself or one of the chain, and the
depth is enough for it. -/
theorem exists_tree_of_expand {s : Sources} {depth : Nat} {l : Loaded} {r : Resolver}
    {lines : List Line} (h : (expand s depth l r).1 = .ok lines) :
    l.id ∉ r.visiting ∧ ∃ t : l.Tree s, t.height + 1 ≤ depth ∧
      t.Simple (r.visiting ++ [l.id]) := by
  induction depth generalizing l r lines with
  | zero => cases h
  | succ depth ih =>
      rw [expand] at h
      split at h
      · cases h
      · next hid =>
          have hscan : scan (resolveWith s fun l' r' => expand s depth l' r')
              (Line.ofSource l.text l.id) (r.enter l) = (.ok lines, _) := Prod.ext h rfl
          obtain ⟨t, hheight, ht⟩ :=
            exists_tree_of_scan (expand_gathers s depth) (fun _ _ _ => ih) hscan
          exact ⟨hid, t, Nat.succ_le_succ hheight, ht⟩

end Resolver

/-! ### The order of reading -/

namespace Sources

/-- **The sources that reading comes to**, each with the identifiers of the sources by which it is
included, from the entry on, and with its own.  A source on whose chain no identifier is twice is
read, and the lines of it that come before a reference have been read with all that they refer
to. -/
inductive Arrives (s : Sources) (entry : Loaded) : List String → Loaded → Prop where
  | entry : Arrives s entry [entry.id] entry
  | step {chain : List String} {l l' : Loaded} {before after : List Line} {line : Line}
      {reference : Text} (h : Arrives s entry chain l) (hnodup : chain.Nodup)
      (hlines : Line.ofSource l.text l.id = before ++ line :: after)
      (t : IncludeTree s l.base before) (ht : t.Simple chain)
      (href : (Instruction.parse line.text).reference? = some reference)
      (hfind : s.find l.base reference = .ok l') : Arrives s entry (chain ++ [l'.id]) l'

variable {s : Sources} {entry : Loaded}

/-- Reading comes to sources along include paths. -/
theorem Arrives.path {chain : List String} {l : Loaded} (h : s.Arrives entry chain l) :
    s.IncludePath entry chain l := by
  induction h with
  | entry => exact .entry
  | step _ _ hlines _ _ href hfind ih =>
      have hline := hlines ▸ List.mem_append_right _ List.mem_cons_self
      exact ih.step (refers_of_line hline href hfind)

/-- A source that reading comes to is the last one of its chain. -/
theorem Arrives.exists_chain {chain : List String} {l : Loaded} (h : s.Arrives entry chain l) :
    ∃ outer, chain = outer ++ [l.id] := by
  cases h with
  | entry => exact ⟨[], rfl⟩
  | step => exact ⟨_, rfl⟩

end Sources

/-- **Include trees are no higher than there are identifiers left**, for lines of a source that a
path without repetition leads to. -/
theorem IncludeTree.height_add_length_le {s : Sources} {entry : Loaded}
    (hpaged : s.Paged entry) {b : Base} {ls : List Line}
    (t : IncludeTree s b ls) {chain : List String} {l : Loaded} (hbase : b = l.base)
    (hlines : ls ⊆ Line.ofSource l.text l.id) (hpath : s.IncludePath entry chain l)
    (hnodup : chain.Nodup) (ht : t.Simple chain) :
    t.height + chain.length ≤ (s.identifiers entry).length := by
  induction t generalizing chain l with
  | nil b =>
      rw [height, Nat.zero_add]
      exact hpath.length_le hpaged hnodup
  | plain href hgood rest ih =>
      exact ih hbase (List.subset_of_cons_subset hlines) hpath hnodup ht
  | nested source href hfind inner rest ihi ihr =>
      obtain ⟨hid, hinner, hrest⟩ := ht
      subst hbase
      -- the source is one step further, and its identifier is new
      have hpath' := hpath.step
        (Sources.refers_of_line (hlines List.mem_cons_self) href hfind)
      have hnodup' := Sources.nodup_snoc.2 ⟨hnodup, hid⟩
      have hheight := ihi rfl (List.Subset.refl _) hpath' hnodup' hinner
      have hheight' := ihr rfl (List.subset_of_cons_subset hlines) hpath hnodup hrest
      rw [List.length_append, List.length_singleton] at hheight
      rw [height]
      omega

/-! ### Lines that fail -/

namespace Line

theorem eq_of_numbered_eq_append {file : String} {n : Nat} {ts : List Text} {before after : List Line}
    {l : Line} (h : numbered file n ts = before ++ l :: after) :
    l = ⟨l.text, file, n + before.length⟩ := by
  induction ts generalizing n before with
  | nil => cases (List.append_eq_nil_iff.1 h.symm).2
  | cons t ts ih =>
      cases before with
      | nil =>
          obtain ⟨rfl, -⟩ := List.cons.inj h
          rfl
      | cons b before =>
          have hl := ih (List.cons.inj h).2
          rw [hl, List.length_cons, Nat.add_assoc, Nat.add_comm 1]

/-- A line of a source has the number of lines before it, and one, as its number. -/
theorem eq_of_ofSource_eq_append {src : Text} {file : String} {before after : List Line} {l : Line}
    (h : ofSource src file = before ++ l :: after) : l = ⟨l.text, file, before.length + 1⟩ := by
  have hl := eq_of_numbered_eq_append h
  rwa [Nat.add_comm] at hl

end Line

namespace Sources

/-- **Why a line fails**, where references are relative to a base and the sources of a chain are
being read: it is an import that is not well formed, what it refers to is not found, or what it
refers to is on the chain. -/
inductive LineFails (s : Sources) (base : Base) (chain : List String) (line : Text) :
    SourceError → Prop where
  | malformed (hbad : Instruction.parse line = .badImport) :
      LineFails s base chain line (.malformedImport line)
  | notFound {reference : Text} {cause : SourceError}
      (href : (Instruction.parse line).reference? = some reference)
      (hfind : s.find base reference = .error cause) : LineFails s base chain line cause
  | circular {reference : Text} {source : Loaded}
      (href : (Instruction.parse line).reference? = some reference)
      (hfind : s.find base reference = .ok source) (hid : source.id ∈ chain) :
      LineFails s base chain line (.circular (chain ++ [source.id]))

/-- **The line at which loading fails**: reading comes to a source, with a chain on which no
identifier is twice, the lines before the one with the number `n` are read with all that they refer
to, and this line fails. -/
structure FailsAt (s : Sources) (entry : Loaded) (chain : List String) (source : Loaded) (n : Nat)
    (cause : SourceError) : Prop where
  arrives : s.Arrives entry chain source
  nodup : chain.Nodup
  line : ∃ before text after,
    Line.ofSource source.text source.id = before ++ ⟨text, source.id, n⟩ :: after ∧
      n = before.length + 1 ∧ (∃ t : IncludeTree s source.base before, t.Simple chain) ∧
      s.LineFails source.base chain text cause

/-- What is reached from an entry that is found relative to a directory, or to the address of a page,
reads addresses from pages. -/
theorem paged_of_goodBase {s : Sources} {base : Base} (hbase : s.GoodBase base) {text : Text}
    {entry : Loaded} (hentry : s.findEntry base text = .ok entry) : s.Paged entry :=
  fun _ _ hpath => readsPages_of_goodBase (textOf?_of_path hbase hentry hpath).1

end Sources

namespace Resolver

open Sources

/-- **A line is an error** if it is an import that is not well formed, if what it refers to is not
found, or if what it refers to is an error, which is put at the line unless it has a place. -/
theorem scanOne_error_iff {s : Sources} {f : Loaded → Resolver → Result} {l : Line} {r : Resolver}
    {e : CompileError} :
    (scanOne (resolveWith s f) l r).1 = .error e ↔
      (Instruction.parse l.text = .badImport ∧
          e = (SourceError.malformedImport l.text).toError.at_ l.location) ∨
        ∃ reference, (Instruction.parse l.text).reference? = some reference ∧
          ((∃ cause, s.find r.base reference = .error cause ∧ e = cause.toError.at_ l.location) ∨
            ∃ source e', s.find r.base reference = .ok source ∧
              (f source (r.note source)).1 = .error e' ∧ e = e'.orAt l.location) := by
  cases href : (Instruction.parse l.text).reference? with
  | none =>
      by_cases hbad : Instruction.parse l.text = .badImport
      · rw [scanOne_badImport hbad]
        simp [hbad, eq_comm]
      · rw [scanOne_plain href hbad]
        simp [hbad]
  | some reference =>
      have hgood : Instruction.parse l.text ≠ .badImport := by
        intro hbad
        rw [hbad] at href
        cases href
      rw [scanOne_nested href]
      cases hfind : s.find r.base reference with
      | error cause =>
          rw [resolveWith, hfind]
          simp [hgood, hfind, Except.map, eq_comm]
      | ok source =>
          rw [resolveWith_of_find hfind]
          cases hresult : f source (r.note source) with
          | mk outcome r₁ =>
              cases outcome <;>
                simp [hgood, hfind, hresult, Except.map, Except.mapError, eq_comm]

/-- A source that is on the chain is an error, at any depth. -/
theorem expand_of_mem_visiting {s : Sources} {depth : Nat} {l : Loaded} {r : Resolver}
    (hid : l.id ∈ r.visiting) : expand s depth l r = (.error (r.circular l), r) := by
  cases depth with
  | zero => rfl
  | succ depth => rw [expand, if_pos hid]

section Directions

variable {s : Sources} {entry : Loaded} (hpaged : s.Paged entry)

include hpaged

/-- **An error comes from a line at which loading fails**, and is put there. -/
theorem exists_failsAt_of_error (depth : Nat) {l : Loaded} {r : Resolver}
    (h : s.Arrives entry (r.visiting ++ [l.id]) l) (hnodup : (r.visiting ++ [l.id]).Nodup)
    (hdepth : (s.identifiers entry).length ≤ depth + r.visiting.length) {e : CompileError}
    (herror : (expand s depth l r).1 = .error e) :
    ∃ chain source n cause, s.FailsAt entry (chain ++ [source.id]) source n cause ∧
      e = cause.toError.at_ ⟨source.id, n, none⟩ := by
  induction depth generalizing l r e with
  | zero =>
      obtain ⟨d, hd, -⟩ := h.path.exists_depth hpaged hnodup hdepth
      cases hd
  | succ d ih =>
      rw [expand, if_neg (nodup_snoc.1 hnodup).2] at herror
      obtain ⟨before, line, after, lines, r₁, hlines, hbefore, hline⟩ := scan_error_iff.1 herror
      -- the lines before the one that fails have a tree and give base and chain back
      have hkept := (scan_gathers (resolveWith_gathers s (expand_gathers s d)) before
        (r.enter l)).samePlace
      obtain ⟨t, -, ht⟩ := exists_tree_of_scan (expand_gathers s d)
        (fun _ _ _ => exists_tree_of_expand) hbefore
      rw [hbefore] at hkept
      obtain ⟨text, file, n⟩ := line
      obtain ⟨rfl, rfl⟩ : file = l.id ∧ n = before.length + 1 := by
        have := Line.eq_of_ofSource_eq_append hlines
        simpa using this
      have hfails : ∀ cause, s.LineFails l.base (r.visiting ++ [l.id]) text cause →
          s.FailsAt entry (r.visiting ++ [l.id]) l (before.length + 1) cause := fun cause hcause =>
        ⟨h, hnodup, before, text, after, hlines, rfl, ⟨t, ht⟩, hcause⟩
      rcases scanOne_error_iff.1 hline with ⟨hbad, rfl⟩ | ⟨reference, href, hcause⟩
      · exact ⟨r.visiting, l, _, _, hfails _ (.malformed hbad), rfl⟩
      · rw [hkept.1] at hcause
        rcases hcause with ⟨cause, hfind, rfl⟩ | ⟨source, e', hfind, herror', rfl⟩
        · exact ⟨r.visiting, l, _, _, hfails _ (.notFound href hfind), rfl⟩
        · have hchain : (r₁.note source).visiting = r.visiting ++ [l.id] := hkept.2
          by_cases hid : source.id ∈ r.visiting ++ [l.id]
          · rw [expand_of_mem_visiting (hchain ▸ hid)] at herror'
            obtain rfl := Except.error.inj herror'
            rw [circular, hchain]
            exact ⟨r.visiting, l, _, _, hfails _ (.circular href hfind hid), rfl⟩
          · -- the error of the source has a place already, which is kept
            have harrives := h.step hnodup hlines t ht href hfind
            have hnodup' := nodup_snoc.2 ⟨hnodup, hid⟩
            obtain ⟨d', hd', hdepth'⟩ := h.path.exists_depth hpaged hnodup hdepth
            obtain rfl := Nat.succ.inj hd'
            rw [← hchain] at harrives hnodup' hdepth'
            obtain ⟨chain, source', n, cause, hat, rfl⟩ := ih harrives hnodup' hdepth' herror'
            exact ⟨chain, source', n, cause, hat, rfl⟩

/-- The failure of a line is one of its source, if reading comes to the source and the lines before
have a tree. -/
theorem expand_error_of_line {chain : List String} {l : Loaded} (h : s.Arrives entry chain l)
    (hnodup : chain.Nodup) {before after : List Line} {line : Line}
    (hlines : Line.ofSource l.text l.id = before ++ line :: after)
    (t : IncludeTree s l.base before) (ht : t.Simple chain) {e : CompileError}
    (hline : ∀ d (r : Resolver), r.base = l.base → r.visiting = chain →
      (s.identifiers entry).length ≤ d + chain.length →
        (scanOne (resolveWith s fun l' r' => expand s d l' r') line r).1 = .error e)
    {depth : Nat} {r : Resolver} (hchain : r.visiting ++ [l.id] = chain)
    (hdepth : (s.identifiers entry).length ≤ depth + r.visiting.length) :
    (expand s depth l r).1 = .error e := by
  subst hchain
  obtain ⟨d, rfl, hd⟩ := h.path.exists_depth hpaged hnodup hdepth
  have hbefore : before ⊆ Line.ofSource l.text l.id := by
    rw [hlines]
    exact List.subset_append_left _ _
  have hheight := t.height_add_length_le hpaged rfl hbefore h.path hnodup ht
  have hheight' : t.height ≤ d := by omega
  rw [expand, if_neg (nodup_snoc.1 hnodup).2]
  refine scan_error_iff.2 ⟨before, line, after, t.splice, (r.enter l).gather t.harvest, hlines,
    t.scan_eq hheight' rfl ht, hline d _ rfl rfl hd⟩

/-- **The error of a source that reading comes to goes through to the entry**, if it has a place. -/
theorem expand_error_of_arrives {chain : List String} {l : Loaded} (h : s.Arrives entry chain l)
    {e : CompileError} (hloc : ∀ loc, e.orAt loc = e)
    (herror : ∀ depth (r : Resolver), r.visiting ++ [l.id] = chain →
      (s.identifiers entry).length ≤ depth + r.visiting.length → (expand s depth l r).1 = .error e)
    {depth : Nat} {r : Resolver} (hstart : r.visiting = [])
    (hdepth : (s.identifiers entry).length ≤ depth) : (expand s depth entry r).1 = .error e := by
  induction h generalizing depth r with
  | entry =>
      refine herror depth r ?_ ?_
      · rw [hstart]
        rfl
      · omega
  | @step chain l l' before after line reference h hnodup hlines t ht href hfind ih =>
      refine ih (fun depth r hchain hdepth => ?_) hstart hdepth
      refine expand_error_of_line hpaged h hnodup hlines t ht (fun d r hbase hvisiting hd => ?_)
        hchain hdepth
      refine scanOne_error_iff.2 (Or.inr ⟨reference, href, Or.inr ⟨l', e, ?_, ?_, (hloc _).symm⟩⟩)
      · rw [hbase]
        exact hfind
      · refine herror d (r.note l') (congrArg (· ++ [l'.id]) hvisiting) ?_
        change _ ≤ d + r.visiting.length
        rw [hvisiting]
        exact hd

/-- **The error of a line at which loading fails goes through to the entry.** -/
theorem expand_error_of_failsAt {chain : List String} {l : Loaded} {n : Nat} {cause : SourceError}
    (h : s.FailsAt entry chain l n cause) {depth : Nat} {r : Resolver} (hstart : r.visiting = [])
    (hdepth : (s.identifiers entry).length ≤ depth) :
    (expand s depth entry r).1 = .error (cause.toError.at_ ⟨l.id, n, none⟩) := by
  obtain ⟨harrives, hnodup, before, text, after, hlines, -, ⟨t, ht⟩, hcause⟩ := h
  refine expand_error_of_arrives hpaged harrives (fun loc => rfl) (fun depth r hchain hdepth => ?_)
    hstart hdepth
  refine expand_error_of_line hpaged harrives hnodup hlines t ht (fun d r hbase hvisiting _ => ?_)
    hchain hdepth
  rw [scanOne_error_iff, hbase]
  cases hcause with
  | malformed hbad => exact Or.inl ⟨hbad, rfl⟩
  | notFound href hfind => exact Or.inr ⟨_, href, Or.inl ⟨cause, hfind, rfl⟩⟩
  | @circular reference source href hfind hid =>
      refine Or.inr ⟨reference, href, Or.inr
        ⟨source, (SourceError.circular (chain ++ [source.id])).toError, hfind, ?_, rfl⟩⟩
      have hkept : (r.note source).visiting = chain := hvisiting
      rw [expand_of_mem_visiting (hkept ▸ hid), circular, hkept]

/-- **A source is an error exactly if loading fails at a line**, and the error is put there. -/
theorem expand_error_iff {r : Resolver} (hstart : r.visiting = []) {e : CompileError} :
    (expand s ((s.identifiers entry).length + 1) entry r).1 = .error e ↔
      ∃ chain source n cause, s.FailsAt entry (chain ++ [source.id]) source n cause ∧
        e = cause.toError.at_ ⟨source.id, n, none⟩ := by
  constructor
  · intro h
    have harrives : s.Arrives entry (r.visiting ++ [entry.id]) entry := by
      rw [hstart]
      exact .entry
    have hnodup : (r.visiting ++ [entry.id]).Nodup := by
      rw [hstart]
      exact List.nodup_singleton entry.id
    exact exists_failsAt_of_error hpaged _ harrives hnodup (by omega) h
  · rintro ⟨chain, source, n, cause, hfails, rfl⟩
    exact expand_error_of_failsAt hpaged hfails hstart (Nat.le_succ _)

end Directions

/-- **Errors are put at the line that failed.**  An entry that is not found is an error without a
place.  Otherwise there is an error exactly if loading fails at a line, and its place is the number
of this line in the source in which it stands, which is the last one on the chain. -/
theorem resolveEntry_error_iff {s : Sources} {r : Resolver} (hstart : r.visiting = [])
    (hbase : s.GoodBase r.base) (text : Text) (e : CompileError) :
    (resolveEntry s text r).1 = .error e ↔
      (∃ cause, s.findEntry r.base text = .error cause ∧ e = { cause.toError with loc := none }) ∨
        ∃ entry chain source n cause, s.findEntry r.base text = .ok entry ∧
          s.FailsAt entry (chain ++ [source.id]) source n cause ∧
          e = { cause.toError with loc := some ⟨source.id, n, none⟩ } := by
  rw [resolveEntry]
  cases hentry : s.findEntry r.base text with
  | error cause =>
      constructor
      · intro h
        exact Or.inl ⟨cause, rfl, (Except.error.inj h).symm⟩
      · rintro (⟨cause', hcause, rfl⟩ | ⟨entry, -, -, -, -, hok, -⟩)
        · obtain rfl := Except.error.inj hcause
          rfl
        · cases hok
  | ok entry =>
      have hpaged := paged_of_goodBase hbase hentry
      have hchain : (r.note entry).visiting = [] := hstart
      rw [expand_error_iff hpaged hchain]
      constructor
      · rintro ⟨chain, source, n, cause, hfails, he⟩
        exact Or.inr ⟨entry, chain, source, n, cause, rfl, hfails, he⟩
      · rintro (⟨cause, hcause, -⟩ | ⟨entry', chain, source, n, cause, hok, hfails, he⟩)
        · cases hcause
        · obtain rfl := Except.ok.inj hok
          exact ⟨chain, source, n, cause, hfails, he⟩

end Resolver

/-! ### A file that is missing, further in -/

/-- The file `/m` includes `/a`. -/
def brokenEntry : Loaded := rootFile 'm' (includeLine 'a')

/-- The file `/a` includes `/c`, and `/b`, which there is not. -/
def brokenMiddle : Loaded := rootFile 'a' (includeLine 'c' ++ '\n' :: includeLine 'b')

/-- The three files. -/
def brokenSources : Sources where
  tree := ⟨[], [
    ([['m']], .file (Text.toBytes brokenEntry.text)),
    ([['a']], .file (Text.toBytes brokenMiddle.text)),
    ([['c']], .file (Text.toBytes sharedLeaf.text))]⟩
  fetcher := .pages []
  stdRoot := none
  ext := ['m', 'u', 's', 'h']
  maxBytes := 100

/-- A line that includes `/c` has a tree. -/
theorem exists_leafTree {s : Sources} (hfind : s.find (.dir ['/']) ['c'] = .ok sharedLeaf)
    {chain : List String} (hchain : sharedLeaf.id ∉ chain) (file : String) (n : Nat) :
    ∃ t : IncludeTree s (.dir ['/']) [⟨includeLine 'c', file, n⟩], t.Simple chain := by
  have htext : Instruction.parse ['x'] ≠ .badImport := by decide
  refine ⟨.nested sharedLeaf rfl hfind (.plain rfl htext (.nil _)) (.nil _), ?_⟩
  exact ⟨hchain, trivial, trivial⟩

theorem Resolver.resolveEntry_error_iff_nested :
    (resolveEntry brokenSources ['/', 'm'] (start (.dir ['/']) false)).1 =
      .error ⟨.notFound, "file not found: \"b\" (searched: /b)", some ⟨"/a", 2, none⟩, []⟩ := by
  have hentry : brokenSources.Arrives brokenEntry ["/m"] brokenEntry := .entry
  have hmiddle : brokenSources.Arrives brokenEntry (["/m"] ++ [brokenMiddle.id]) brokenMiddle :=
    hentry.step (by decide) rfl (.nil _) trivial rfl rfl
  have htree := exists_leafTree (s := brokenSources) rfl
    (by decide : sharedLeaf.id ∉ ["/m", "/a"]) "/a" 1
  have hfails : brokenSources.FailsAt brokenEntry ["/m", "/a"] brokenMiddle 2
      (.fileNotFound ['b'] ['/', 'b']) :=
    ⟨hmiddle, by decide, [⟨includeLine 'c', "/a", 1⟩], includeLine 'b', [], rfl, rfl, htree,
      .notFound rfl rfl⟩
  have hiff := resolveEntry_error_iff (s := brokenSources) (r := start (.dir ['/']) false) rfl
    trivial ['/', 'm']
  exact (hiff _).2 (Or.inr ⟨brokenEntry, ["/m"], brokenMiddle, 2, _, rfl, hfails, rfl⟩)

end Softcode
