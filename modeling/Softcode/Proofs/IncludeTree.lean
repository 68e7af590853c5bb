/-
**Include trees, and what they are spliced to.**

A source and all that it refers to form a tree: the lines of the source in order, and for each line
with a reference the tree of the source that the reference names, found against the base of the
source the line stands in.  Splicing a tree is a recursion on it.  There is no state in that
recursion — no chain of sources, no set of sources that were seen — and what a source adds to the
outcome depends on nothing but the source.

Loading, on the other hand, passes one state through everything.  The run lemma of this module says
that this makes no difference: behind a tree the state is the one before it together with what the
tree yields, so nothing of what a source changes for itself is left when the next one is read.

Main definitions:

* `Softcode.IncludeTree` — **include trees**, which carry the evidence that their references are
  found;
* `Softcode.IncludeTree.splice` — the lines of a tree;
* `Softcode.Harvest`, `Softcode.IncludeTree.harvest` — what a tree yields apart from lines;
* `Softcode.IncludeTree.Simple` — trees in which no source is below itself;
* `Softcode.Resolver.gather` — a state together with what was yielded;
* `Softcode.Resolver.scanOne`, `Softcode.Resolver.andThen` — what one line gives, and results one
  after the other.

Main results:

* `Softcode.IncludeTree.unique` — there is at most one include tree;
* `Softcode.Resolver.scan_cons` — lines are read one after the other;
* `Softcode.IncludeTree.scan_eq` — **reading the lines of a tree splices it**, in any state;
* `Softcode.IncludeTree.expand_eq` — the same for a source;
* `Softcode.Resolver.mem_loaded_gather` — the identifiers that are known afterwards.
-/

import Softcode.Resolver

set_option autoImplicit false

namespace Softcode

/-! ### What instructions do to lines and yield -/

/-- The lines that a line without a reference leaves. -/
def Instruction.ownLines (i : Instruction) (l : Line) : List Line :=
  match i with
  | .text => [l]
  | _ => []

/-- The lines in place of a line with a reference, where `nested` are those of the source. -/
def Instruction.place (i : Instruction) (l : Line) (nested : List Line) : List Line :=
  match i with
  | .embed reference => Resolver.rawBlock l reference nested
  | .importAs _ label => Namespace.apply nested label
  | _ => nested

/-- What loading yields apart from lines: header and footer lines, whether debug mode is asked for,
the identifiers of the sources that were read, in the order in which they were finished, and the
first file. -/
structure Harvest where
  headers : List Banner := []
  footers : List Banner := []
  debug : Bool := false
  ids : List String := []
  file : Option Text := none

/-- Two yields, one after the other. -/
def Harvest.append (h k : Harvest) : Harvest where
  headers := h.headers ++ k.headers
  footers := h.footers ++ k.footers
  debug := h.debug || k.debug
  ids := h.ids ++ k.ids
  file := h.file.or k.file

instance : Append Harvest := ⟨Harvest.append⟩

/-- What an instruction yields by itself. -/
def Instruction.harvest : Instruction → Harvest
  | .header b => { headers := [b] }
  | .footer b => { footers := [b] }
  | .debug => { debug := true }
  | _ => {}

/-- What a source yields, where `inner` is what its lines do. -/
def Loaded.harvest (l : Loaded) (inner : Harvest) : Harvest :=
  { file := l.path } ++ inner ++ { ids := [l.id] }

/-! ### Include trees -/

/-- **Include trees** of lines that stand in a source with a certain base: for every line with a
reference, the source that it names and the tree of the lines of that source. -/
inductive IncludeTree (s : Sources) : Base → List Line → Type where
  | nil (b : Base) : IncludeTree s b []
  | plain {b : Base} {l : Line} {ls : List Line}
      (href : (Instruction.parse l.text).reference? = none)
      (hgood : Instruction.parse l.text ≠ .badImport) (rest : IncludeTree s b ls) :
      IncludeTree s b (l :: ls)
  | nested {b : Base} {l : Line} {ls : List Line} {reference : Text} (source : Loaded)
      (href : (Instruction.parse l.text).reference? = some reference)
      (hfind : s.find b reference = .ok source)
      (inner : IncludeTree s source.base (Line.ofSource source.text source.id))
      (rest : IncludeTree s b ls) : IncludeTree s b (l :: ls)

/-- The include tree of a source. -/
abbrev Loaded.Tree (s : Sources) (l : Loaded) : Type :=
  IncludeTree s l.base (Line.ofSource l.text l.id)

namespace IncludeTree

variable {s : Sources} {b : Base} {ls : List Line}

/-- **The lines of a tree.** -/
def splice {s : Sources} : {b : Base} → {ls : List Line} → IncludeTree s b ls → List Line
  | _, _, .nil _ => []
  | _, l :: _, .plain _ _ rest => (Instruction.parse l.text).ownLines l ++ rest.splice
  | _, l :: _, .nested _ _ _ inner rest =>
      (Instruction.parse l.text).place l inner.splice ++ rest.splice

/-- What a tree yields apart from lines. -/
def harvest {s : Sources} : {b : Base} → {ls : List Line} → IncludeTree s b ls → Harvest
  | _, _, .nil _ => {}
  | _, l :: _, .plain _ _ rest => (Instruction.parse l.text).harvest ++ rest.harvest
  | _, _, .nested source _ _ inner rest => source.harvest inner.harvest ++ rest.harvest

/-- How deeply sources are nested in a tree. -/
def height {s : Sources} : {b : Base} → {ls : List Line} → IncludeTree s b ls → Nat
  | _, _, .nil _ => 0
  | _, _, .plain _ _ rest => rest.height
  | _, _, .nested _ _ _ inner rest => max (inner.height + 1) rest.height

/-- No source of the tree is below itself or one of those on a chain. -/
def Simple {s : Sources} (chain : List String) :
    {b : Base} → {ls : List Line} → IncludeTree s b ls → Prop
  | _, _, .nil _ => True
  | _, _, .plain _ _ rest => rest.Simple chain
  | _, _, .nested source _ _ inner rest =>
      source.id ∉ chain ∧ inner.Simple (chain ++ [source.id]) ∧ rest.Simple chain

/-- **There is at most one include tree**, since every reference names one source. -/
theorem unique (t t' : IncludeTree s b ls) : t = t' := by
  induction t with
  | nil b =>
      cases t'
      rfl
  | plain href hgood rest ih =>
      cases t' with
      | plain href' hgood' rest' => rw [ih rest']
      | nested source href' hfind inner rest' =>
          rw [href] at href'
          cases href'
  | nested source href hfind inner rest ihi ihr =>
      cases t' with
      | plain href' hgood rest' =>
          rw [href] at href'
          cases href'
      | nested source' href' hfind' inner' rest' =>
          obtain rfl := Option.some.inj (href.symm.trans href')
          obtain rfl := Except.ok.inj (hfind.symm.trans hfind')
          rw [ihi inner', ihr rest']

end IncludeTree

/-! ### The state behind a tree -/

namespace Resolver

/-- An identifier among others, once. -/
def addId (ids : List String) (id : String) : List String := if id ∈ ids then ids else ids ++ [id]

/-- A state together with what was yielded. -/
def gather (r : Resolver) (h : Harvest) : Resolver :=
  { r with
    headers := r.headers ++ h.headers
    footers := r.footers ++ h.footers
    debug := r.debug || h.debug
    loaded := h.ids.foldl addId r.loaded
    entryFile := r.entryFile.or h.file }

variable (r : Resolver)

@[simp] theorem gather_empty : r.gather {} = r := by
  simp [gather]

/-- What is yielded in two steps is gathered in two steps. -/
theorem gather_append (h k : Harvest) : r.gather (h ++ k) = (r.gather h).gather k := by
  change r.gather (h.append k) = _
  simp only [gather, Harvest.append, List.append_assoc, List.foldl_append, Bool.or_assoc,
    Option.or_assoc]

/-- A source that is read gives back the base and the chain. -/
theorem leave_gather_enter (l : Loaded) (h : Harvest) :
    (((r.note l).enter l).gather h).leave r.base l.id = r.gather (l.harvest h) := by
  rw [Loaded.harvest, gather_append, gather_append]
  simp only [gather, leave, enter, note, List.append_nil, List.dropLast_concat, Bool.or_false,
    Option.or_none, List.foldl_nil, List.foldl_cons]
  rfl

theorem mem_foldl_addId (ids known : List String) (id : String) :
    id ∈ ids.foldl addId known ↔ id ∈ known ∨ id ∈ ids := by
  induction ids generalizing known with
  | nil => simp
  | cons a ids ih =>
      have hadd : id ∈ addId known a ↔ id ∈ known ∨ id = a := by
        unfold addId
        split
        · next ha => exact ⟨Or.inl, fun h => h.elim (fun h => h) fun h => h ▸ ha⟩
        · simp
      rw [List.foldl_cons, ih, hadd, List.mem_cons, or_assoc]

/-- **The identifiers that are known afterwards** are those from before and those of the sources
that were read. -/
theorem mem_loaded_gather (h : Harvest) (id : String) :
    id ∈ (r.gather h).loaded ↔ id ∈ r.loaded ∨ id ∈ h.ids :=
  mem_foldl_addId h.ids r.loaded id

/-! ### Lines, one at a time -/

/-- What a line gives by itself: its own lines and what its instruction yields, or the lines of the
source that it refers to, put in place. -/
def scanOne (refer : Text → Line → Resolver → Result) (l : Line) (r : Resolver) : Result :=
  let i := Instruction.parse l.text
  match i.reference? with
  | some reference => Prod.map (Except.map (i.place l)) id (refer reference l r)
  | none =>
      if i = .badImport then
        (.error ((SourceError.malformedImport l.text).toError.at_ l.location), r)
      else (.ok (i.ownLines l), r.gather i.harvest)

/-- One result after another: the lines of both, unless the first one is an error. -/
def andThen (result : Result) (next : Resolver → Result) : Result :=
  match result with
  | (.error e, r) => (.error e, r)
  | (.ok lines, r) => Prod.map (Except.map (lines ++ ·)) id (next r)

theorem andThen_ok (lines : List Line) (next : Resolver → Result) :
    andThen (.ok lines, r) next = Prod.map (Except.map (lines ++ ·)) id (next r) := rfl

/-- Where no lines are before it, a result is what it is. -/
theorem andThen_nil (next : Resolver → Result) : andThen (.ok [], r) next = next r := by
  rw [andThen_ok]
  obtain ⟨outcome, r₁⟩ := next r
  cases outcome <;> rfl

variable {r} {refer : Text → Line → Resolver → Result} {l : Line}

/-- A line without a reference leaves its own lines and yields what its instruction does. -/
theorem scanOne_plain (href : (Instruction.parse l.text).reference? = none)
    (hgood : Instruction.parse l.text ≠ .badImport) :
    scanOne refer l r =
      (.ok ((Instruction.parse l.text).ownLines l),
        r.gather (Instruction.parse l.text).harvest) := by
  simp only [scanOne, href, if_neg hgood]

/-- An import that is not well formed is an error. -/
theorem scanOne_badImport (hbad : Instruction.parse l.text = .badImport) :
    scanOne refer l r =
      (.error ((SourceError.malformedImport l.text).toError.at_ l.location), r) := by
  simp only [scanOne, hbad, Instruction.reference?, if_true]

/-- A line with a reference leaves the lines of the source, put in place. -/
theorem scanOne_nested {reference : Text}
    (href : (Instruction.parse l.text).reference? = some reference) :
    scanOne refer l r =
      Prod.map (Except.map ((Instruction.parse l.text).place l)) id (refer reference l r) := by
  simp only [scanOne, href]

/-- **Lines are read one after the other.** -/
theorem scan_cons (refer : Text → Line → Resolver → Result) (l : Line) (ls : List Line)
    (r : Resolver) : scan refer (l :: ls) r = andThen (scanOne refer l r) (scan refer ls) := by
  cases hi : Instruction.parse l.text with
  | splice reference | embed reference | importAs reference label =>
      rw [scanOne_nested (by rw [hi]; rfl)]
      simp only [scan, hi]
      obtain ⟨outcome, r₁⟩ := refer reference l r
      cases outcome with
      | error e => rfl
      | ok nested =>
          change _ = andThen (.ok _, r₁) _
          rw [andThen_ok]
          dsimp only
          obtain ⟨outcome, r₂⟩ := scan refer ls r₁
          cases outcome <;> rfl
  | badImport =>
      rw [scanOne_badImport hi]
      simp only [scan, hi]
      rfl
  | header | footer | debug =>
      -- these leave no lines, and the state is the one before with what they yield
      rw [scanOne_plain (by rw [hi]; rfl) (by rw [hi]; nofun), hi]
      change _ = andThen (.ok [], _) _
      rw [andThen_nil]
      simp [scan, hi, Instruction.harvest, gather]
  | text =>
      rw [scanOne_plain (by rw [hi]; rfl) (by rw [hi]; nofun), hi]
      change _ = andThen (.ok [l], r.gather {}) _
      rw [gather_empty, andThen_ok]
      simp only [scan, hi]
      obtain ⟨outcome, r₁⟩ := scan refer ls r
      cases outcome <;> rfl

/-- A reference whose source is found is read as this source is; an error is put at the line. -/
theorem resolveWith_of_find {s : Sources} {reference : Text} {source : Loaded}
    (hfind : s.find r.base reference = .ok source) (expand : Loaded → Resolver → Result)
    (l : Line) :
    resolveWith s expand reference l r =
      Prod.map (Except.mapError (·.orAt l.location)) id (expand source (r.note source)) := by
  rw [resolveWith, hfind]
  dsimp only
  obtain ⟨outcome, r'⟩ := expand source (r.note source)
  cases outcome <;> rfl

/-- A source that is not on the chain is read as its lines are, and yields itself as well. -/
theorem expand_of_scan {s : Sources} {depth : Nat} {l : Loaded} (hid : l.id ∉ r.visiting)
    {lines : List Line} {h : Harvest}
    (hscan : scan (resolveWith s fun l' r' => expand s depth l' r') (Line.ofSource l.text l.id)
      ((r.note l).enter l) = (.ok lines, ((r.note l).enter l).gather h)) :
    expand s (depth + 1) l (r.note l) = (.ok lines, r.gather (l.harvest h)) := by
  have hid' : l.id ∉ (r.note l).visiting := hid
  rw [expand, if_neg hid', hscan]
  exact congrArg (Prod.mk _) (leave_gather_enter r l h)

end Resolver

/-! ### Whole trees -/

namespace IncludeTree

open Resolver

variable {s : Sources} {b : Base} {ls : List Line}

/-- **Reading the lines of a tree splices it**, whatever was read before, if no source is below
itself and the depth is enough. -/
theorem scan_eq (t : IncludeTree s b ls) {depth : Nat} (hdepth : t.height ≤ depth) {r : Resolver}
    (hbase : r.base = b) (hsimple : t.Simple r.visiting) :
    scan (resolveWith s fun l r' => expand s depth l r') ls r =
      (.ok t.splice, r.gather t.harvest) := by
  induction t generalizing depth r with
  | nil b => rw [harvest, gather_empty]; rfl
  | plain href hgood rest ih =>
      rw [harvest, gather_append, scan_cons, scanOne_plain href hgood, andThen_ok,
        ih (r := r.gather _) hdepth hbase hsimple]
      rfl
  | @nested b l ls reference source href hfind inner rest ihi ihr =>
      obtain ⟨hid, hinner, hrest⟩ := hsimple
      obtain ⟨hheight, hdepth'⟩ : inner.height + 1 ≤ depth ∧ rest.height ≤ depth :=
        Nat.max_le.1 hdepth
      -- the source is read one level deeper, and what follows in the state that it gives back
      obtain ⟨d, rfl⟩ : ∃ d, depth = d + 1 := ⟨depth - 1, by omega⟩
      have hheight' : inner.height ≤ d := by omega
      have hexpand := expand_of_scan hid (ihi hheight' rfl hinner)
      have hfind' : s.find r.base reference = .ok source := by rw [hbase]; exact hfind
      rw [harvest, gather_append, scan_cons, scanOne_nested href, resolveWith_of_find hfind',
        hexpand]
      change andThen (.ok _, r.gather _) _ = _
      rw [andThen_ok, ihr (r := r.gather _) hdepth' hbase hrest]
      rfl

/-- **Expanding a source splices its tree.** -/
theorem expand_eq {l : Loaded} (t : l.Tree s) {depth : Nat} (hdepth : t.height ≤ depth)
    {r : Resolver} (hid : l.id ∉ r.visiting) (hsimple : t.Simple (r.visiting ++ [l.id])) :
    expand s (depth + 1) l (r.note l) = (.ok t.splice, r.gather (l.harvest t.harvest)) :=
  expand_of_scan hid (t.scan_eq hdepth rfl hsimple)

end IncludeTree

end Softcode
