/-
**Whole words are runs.**

Every text falls into runs: the longest parts that consist of word characters, and the parts between
them.  A name that consists of word characters occurs as a whole word exactly where it is a run.  So
the order in which names are tried is of no importance, and neither is whether one of them is a part
of another: replacing the whole words of a text by what stands for them is to replace each of its
runs by itself.  Names with other characters are left out here, since a word boundary may lie inside
them or be missing at their ends.

For constants this says what a stream with its declarations taken out looks like, run by run.  The
values are put in as they are, and the declarations matter only through the last value of each name,
wherever it stands.

Main definitions:

* `Softcode.Word.runs` — **the runs of a text**;
* `Softcode.Word.IsRun` — a run of word characters or of others;
* `Softcode.Word.AreWords` — names that consist of word characters.

Main results:

* `Softcode.Word.runs_append` — a run at the front of a text;
* `Softcode.Word.matchAt?_run` — a name occurs where it is a run;
* `Softcode.Word.replace_eq_flatMap_runs` — **replacement goes run by run**;
* `Softcode.Constant.value?_eq_some_iff` — the last declaration of a name counts;
* `Softcode.Constant.resolve_eq_runs` — **constants are replaced run by run**, wherever they are
  declared.
-/

import Mathlib.Data.List.SplitBy
import Mathlib.Data.List.TakeWhile
import Softcode.Constant

set_option autoImplicit false

namespace Softcode

namespace Word

/-! ### Runs -/

/-- **The runs of a text**: its longest parts of word characters, and the parts between them. -/
def runs (s : Text) : List Text := s.splitBy fun c d => isWordClass c == isWordClass d

/-- A part of word characters only, or of other characters only. -/
structure IsRun (word : Bool) (run : Text) : Prop where
  ne_nil : run ≠ []
  class_eq : ∀ c ∈ run, isWordClass c = word

@[simp] theorem runs_nil : runs [] = [] := rfl

theorem IsRun.head? {word : Bool} {run : Text} (h : IsRun word run) (rest : Text) :
    isWordSide (run ++ rest).head? = word := by
  obtain ⟨c, run, rfl⟩ := List.exists_cons_of_ne_nil h.ne_nil
  exact h.class_eq c List.mem_cons_self

theorem IsRun.getLast? {word : Bool} {run : Text} (h : IsRun word run) (before : Option Char) :
    isWordSide (run.getLast?.or before) = word := by
  rcases List.eq_nil_or_concat run with rfl | ⟨x, c, rfl⟩
  · exact absurd rfl h.ne_nil
  · rw [List.concat_eq_append] at h ⊢
    rw [List.getLast?_concat]
    exact h.class_eq c (by simp)

/-- What is read last of a run stands before what follows it. -/
theorem IsRun.head?_reverse {word : Bool} {run : Text} (h : IsRun word run) (before : Text) :
    isWordSide (run.reverse ++ before).head? = word := by
  rw [List.head?_append, List.head?_reverse]
  exact h.getLast? before.head?

/-- A text that is not empty begins with a run that goes on as far as it can. -/
theorem exists_run {s : Text} (hs : s ≠ []) :
    ∃ word run rest, s = run ++ rest ∧ IsRun word run ∧
      ∀ d, rest.head? = some d → isWordClass d ≠ word := by
  obtain ⟨c, s, rfl⟩ := List.exists_cons_of_ne_nil hs
  refine ⟨isWordClass c, (c :: s).takeWhile fun d => isWordClass d == isWordClass c,
    (c :: s).dropWhile fun d => isWordClass d == isWordClass c,
    List.takeWhile_append_dropWhile.symm, ⟨by simp, fun d hd => ?_⟩, fun d hd => ?_⟩
  · exact beq_iff_eq.1 (List.mem_takeWhile_imp (p := fun d => isWordClass d == isWordClass c) hd)
  · have := List.head?_dropWhile_not (fun d => isWordClass d == isWordClass c) (c :: s)
    rw [hd] at this
    simpa using this

/-- **A run at the front of a text**, behind which characters of the other kind follow. -/
theorem runs_append {word : Bool} {run rest : Text} (hrun : IsRun word run)
    (hrest : ∀ d, rest.head? = some d → isWordClass d ≠ word) :
    runs (run ++ rest) = run :: runs rest := by
  have hchain : run.IsChain fun c d => (isWordClass c == isWordClass d) = true := by
    refine List.Pairwise.isChain (List.Pairwise.imp_of_mem ?_ (List.pairwise_of_forall
      fun _ _ => trivial))
    intro c d hc hd _
    rw [hrun.class_eq c hc, hrun.class_eq d hd, beq_self_eq_true]
  have hends : ∀ c ∈ run.getLast?, ∀ d ∈ rest.head?, (isWordClass c == isWordClass d) = false := by
    intro c hc d hd
    have hc' := hrun.class_eq c (List.mem_of_getLast? hc)
    have hd' := hrest d hd
    rw [← hc'] at hd'
    exact beq_eq_false_iff_ne.2 hd'.symm
  rw [runs, List.splitBy_append hends, List.splitBy_of_isChain hrun.ne_nil hchain]
  rfl

/-- **Induction on the runs of a text.** -/
theorem runs_induction {p : Text → Prop} (nil : p [])
    (run : ∀ word run rest, IsRun word run → (∀ d, rest.head? = some d → isWordClass d ≠ word) →
      p rest → p (run ++ rest)) (s : Text) : p s := by
  induction hn : s.length using Nat.strong_induction_on generalizing s with
  | _ n ih =>
      by_cases hs : s = []
      · rw [hs]
        exact nil
      · obtain ⟨word, r, rest, rfl, hr, hrest⟩ := exists_run hs
        have hpos := List.length_pos_iff.2 hr.ne_nil
        refine run word r rest hr hrest (ih rest.length ?_ rest rfl)
        rw [← hn, List.length_append]
        omega

/-! ### Where names occur -/

/-- Names that consist of word characters. -/
def AreWords (names : List Text) : Prop := ∀ name ∈ names, IsRun true name

variable {names : List Text} {new : Text → Text → Text}

/-- Whether a name stands at the front of a text, with a word boundary behind it. -/
def fits (before : Option Char) (s name : Text) : Bool :=
  match Text.dropPrefix? name s with
  | none => false
  | some rest => boundary (name.getLast?.or before) rest.head?

theorem matchAt?_eq (before : Option Char) (s : Text) :
    matchAt? names before s =
      if boundary before s.head? then names.find? (fits before s) else none := rfl

theorem fits_eq_true_iff {before : Option Char} {s name : Text} (hname : IsRun true name) :
    fits before s name = true ↔ ∃ rest, s = name ++ rest ∧ isWordSide rest.head? = false := by
  unfold fits
  split
  · next hdrop =>
      refine iff_of_false nofun ?_
      rintro ⟨rest, hs, -⟩
      rw [Text.dropPrefix?_eq_some_iff.2 hs] at hdrop
      cases hdrop
  · next rest hdrop =>
      rw [Text.dropPrefix?_eq_some_iff.1 hdrop, boundary, hname.getLast? before]
      simp

/-- No name occurs inside a run. -/
theorem matchAt?_inside {before : Option Char} {s : Text}
    (h : isWordSide before = isWordSide s.head?) : matchAt? names before s = none := by
  rw [matchAt?_eq, boundary, h]
  simp

/-- No name begins with a character that is no word character. -/
theorem matchAt?_gap (hnames : AreWords names) {before : Option Char} {s : Text}
    (hs : isWordSide s.head? = false) : matchAt? names before s = none := by
  rw [matchAt?_eq]
  split
  · refine List.find?_eq_none.2 fun name hname hfits => ?_
    obtain ⟨rest, rfl, -⟩ := (fits_eq_true_iff (hnames name hname)).1 hfits
    rw [(hnames name hname).head? rest] at hs
    cases hs
  · rfl

/-- A run of word characters ends where none follows. -/
theorem IsRun.takeWhile_append {run rest : Text} (hrun : IsRun true run)
    (hrest : isWordSide rest.head? = false) : (run ++ rest).takeWhile isWordClass = run := by
  rw [List.takeWhile_append_of_pos hrun.class_eq]
  cases rest with
  | nil => simp
  | cons d rest =>
      rw [List.takeWhile_cons_of_neg (by simpa [isWordSide] using hrest), List.append_nil]

/-- **A name occurs where it is a run.** -/
theorem matchAt?_run (hnames : AreWords names) {before : Option Char} {run rest : Text}
    (hbefore : isWordSide before = false) (hrun : IsRun true run)
    (hrest : isWordSide rest.head? = false) {name : Text} :
    matchAt? names before (run ++ rest) = some name ↔ name = run ∧ run ∈ names := by
  have hboundary : boundary before (run ++ rest).head? = true := by
    rw [boundary, hbefore, hrun.head? rest]
    rfl
  -- of the names, only the run itself fits
  have hfits : ∀ name ∈ names, fits before (run ++ rest) name = true ↔ name = run := by
    intro name hname
    rw [fits_eq_true_iff (hnames name hname)]
    constructor
    · rintro ⟨s, heq, hs⟩
      rw [← (hnames name hname).takeWhile_append hs, ← heq, hrun.takeWhile_append hrest]
    · rintro rfl
      exact ⟨rest, rfl, hrest⟩
  rw [matchAt?_eq, if_pos hboundary]
  constructor
  · intro h
    have hmem := List.mem_of_find?_eq_some h
    have hname := (hfits name hmem).1 (List.find?_some h)
    exact ⟨hname, hname ▸ hmem⟩
  · rintro ⟨rfl, hmem⟩
    cases hfound : names.find? (fits before (name ++ rest)) with
    | none => exact absurd ((hfits name hmem).2 rfl) (List.find?_eq_none.1 hfound name hmem)
    | some other =>
        rw [(hfits other (List.mem_of_find?_eq_some hfound)).1 (List.find?_some hfound)]

/-! ### Replacement, run by run -/

theorem replaceFrom_miss {before s : Text} {c : Char}
    (h : matchAt? names before.head? (c :: s) = none) :
    replaceFrom names new 0 before (c :: s) = c :: replaceFrom names new 0 (c :: before) s := by
  rw [replaceFrom, h]

/-- What belongs to an occurrence is passed over. -/
theorem replaceFrom_skip (x before s : Text) :
    replaceFrom names new x.length before (x ++ s) =
      replaceFrom names new 0 (x.reverse ++ before) s := by
  induction x generalizing before with
  | nil => rfl
  | cons c x ih =>
      rw [List.length_cons, List.cons_append, replaceFrom, ih, List.reverse_cons,
        List.append_assoc, List.singleton_append]

/-- An occurrence at the front is replaced. -/
theorem replaceFrom_hit {before name s : Text} (hname : name ≠ [])
    (h : matchAt? names before.head? (name ++ s) = some name) :
    replaceFrom names new 0 before (name ++ s) =
      new before name ++ replaceFrom names new 0 (name.reverse ++ before) s := by
  obtain ⟨c, x, rfl⟩ := List.exists_cons_of_ne_nil hname
  rw [List.cons_append] at h ⊢
  rw [replaceFrom, h]
  change new before (c :: x) ++ replaceFrom names new x.length (c :: before) (x ++ s) = _
  rw [replaceFrom_skip, List.reverse_cons, List.append_assoc, List.singleton_append]

/-- Characters at which no name occurs are kept. -/
theorem replaceFrom_keep {x s before : Text}
    (h : ∀ y c z, x = y ++ c :: z →
      matchAt? names (y.reverse ++ before).head? (c :: (z ++ s)) = none) :
    replaceFrom names new 0 before (x ++ s) =
      x ++ replaceFrom names new 0 (x.reverse ++ before) s := by
  induction x generalizing before with
  | nil => rfl
  | cons c x ih =>
      have hfront : matchAt? names before.head? (c :: (x ++ s)) = none := h [] c x rfl
      rw [List.cons_append, replaceFrom_miss hfront, ih, List.reverse_cons, List.append_assoc,
        List.singleton_append, List.cons_append]
      intro y d z hx
      have := h (c :: y) d z (by rw [hx, List.cons_append])
      rwa [List.reverse_cons, List.append_assoc, List.singleton_append] at this

/-- Between the words nothing is replaced. -/
theorem replaceFrom_gap (hnames : AreWords names) {gap : Text} (hgap : IsRun false gap)
    (before s : Text) :
    replaceFrom names new 0 before (gap ++ s) =
      gap ++ replaceFrom names new 0 (gap.reverse ++ before) s := by
  refine replaceFrom_keep fun y c z hx => matchAt?_gap hnames ?_
  exact hgap.class_eq c (by rw [hx]; simp)

/-- A run that is no name is kept: none occurs at its front, and none inside it. -/
theorem replaceFrom_other (hnames : AreWords names) {run rest before : Text}
    (hbefore : isWordSide before.head? = false) (hrun : IsRun true run)
    (hrest : isWordSide rest.head? = false) (hother : run ∉ names) :
    replaceFrom names new 0 before (run ++ rest) =
      run ++ replaceFrom names new 0 (run.reverse ++ before) rest := by
  refine replaceFrom_keep fun y c z hx => ?_
  rcases List.eq_nil_or_concat y with rfl | ⟨y, d, rfl⟩
  · refine Option.eq_none_iff_forall_not_mem.2 fun name hname => hother ?_
    have heq : c :: (z ++ rest) = run ++ rest := by rw [hx]; rfl
    rw [heq] at hname
    exact ((matchAt?_run hnames hbefore hrun hrest).1 hname).2
  · have hd := hrun.class_eq d (by rw [hx]; simp)
    have hc := hrun.class_eq c (by rw [hx]; simp)
    refine matchAt?_inside ?_
    simp [isWordSide, hd, hc]

/-- **Replacement goes run by run**, if what takes the place of a name depends on the name only. -/
theorem replace_eq_flatMap_runs (hnames : AreWords names) {f : Text → Text}
    (hother : ∀ run, run ∉ names → f run = run) (s : Text) :
    replace names (fun _ => f) s = (runs s).flatMap f := by
  -- a run of word characters is not preceded by a word character
  have hrun : ∀ before, (isWordSide before.head? = false ∨ isWordSide s.head? = false) →
      replaceFrom names (fun _ => f) 0 before s = (runs s).flatMap f := by
    induction s using runs_induction with
    | nil => exact fun _ _ => rfl
    | run word run rest hr hrest ih =>
        intro before hbefore
        rw [runs_append hr hrest, List.flatMap_cons]
        cases word with
        | false =>
            rw [replaceFrom_gap hnames hr, ih _ (Or.inl (hr.head?_reverse before))]
            have hgap : run ∉ names := fun h => by
              have := (hnames run h).head? []
              rw [hr.head? []] at this
              cases this
            rw [hother run hgap]
        | true =>
            have hfront : isWordSide before.head? = false := by
              refine hbefore.resolve_right fun h => ?_
              rw [hr.head? rest] at h
              cases h
            have hback : isWordSide rest.head? = false := by
              cases hhead : rest.head? with
              | none => rfl
              | some d => exact Bool.eq_false_iff.2 (hrest d hhead)
            by_cases hmem : run ∈ names
            · rw [replaceFrom_hit hr.ne_nil
                ((matchAt?_run hnames hfront hr hback).2 ⟨rfl, hmem⟩), ih _ (Or.inr hback)]
            · rw [replaceFrom_other hnames hfront hr hback hmem, ih _ (Or.inr hback),
                hother run hmem]
  exact hrun [] (Or.inl rfl)

/-! ### The order of names -/

theorem mem_insertName {a b : Text} {names : List Text} :
    b ∈ insertName a names ↔ b = a ∨ b ∈ names := by
  induction names with
  | nil => simp [insertName]
  | cons c names ih =>
      rw [insertName]
      split
      · next h =>
          subst h
          simp
      · split
        · simp
        · simp only [List.mem_cons, ih]
          exact or_left_comm

/-- Putting names in order leaves none out. -/
theorem mem_longestFirst {a : Text} {names : List Text} : a ∈ longestFirst names ↔ a ∈ names := by
  induction names with
  | nil => rfl
  | cons b names ih =>
      rw [longestFirst, List.foldr_cons, mem_insertName, List.mem_cons]
      exact or_congr_right ih

end Word

/-! ### Constants -/

namespace Constant

theorem value?_eq_none_iff {decls : List (Text × Text)} {name : Text} :
    value? decls name = none ↔ ∀ d ∈ decls, d.1 ≠ name := by
  simp [value?]

/-- **The last declaration of a name counts.** -/
theorem value?_eq_some_iff {decls : List (Text × Text)} {name value : Text} :
    value? decls name = some value ↔
      ∃ before after, decls = before ++ (name, value) :: after ∧ ∀ d ∈ after, d.1 ≠ name := by
  rw [value?, Option.map_eq_some_iff]
  constructor
  · rintro ⟨d, hfound, rfl⟩
    obtain ⟨hname, after, before, hdecls, hafter⟩ := List.find?_eq_some_iff_append.1 hfound
    obtain rfl : d.1 = name := of_decide_eq_true hname
    refine ⟨before.reverse, after.reverse, ?_, fun d' hd' => ?_⟩
    · rw [← List.reverse_reverse decls, hdecls]
      simp
    · simpa using hafter d' (List.mem_reverse.1 hd')
  · rintro ⟨before, after, rfl, hafter⟩
    refine ⟨(name, value), List.find?_eq_some_iff_append.2 ⟨by simp, after.reverse,
      before.reverse, by simp, fun d hd => ?_⟩, rfl⟩
    simpa using hafter d (List.mem_reverse.1 hd)

/-- The value of a name is settled by the declarations of that name. -/
theorem value?_filter (decls : List (Text × Text)) (name : Text) :
    value? (decls.filter fun d => d.1 = name) name = value? decls name := by
  simp [value?, ← List.filter_reverse, List.find?_filter]

/-- A declared name is not empty. -/
theorem name_ne_nil {line key value : Text} (h : parse? line = some (key, value)) : key ≠ [] := by
  simp only [parse?, Option.bind_eq_bind, Option.bind_eq_some_iff] at h
  obtain ⟨arg, -, ⟨k, v⟩, -, h⟩ := h
  split at h
  · cases h
  · next hempty =>
      obtain ⟨rfl, -⟩ := Prod.mk.inj (Option.some.inj h)
      intro hkey
      simp [hkey] at hempty

theorem mem_names {decls : List (Text × Text)} {name : Text} :
    name ∈ names decls ↔ ∃ d ∈ decls, d.1 = name := by
  rw [names, Word.mem_longestFirst, List.mem_map]

/-- Declared names of word characters are words. -/
theorem areWords_names {lines : List Line}
    (hkeys : ∀ d ∈ table lines, ∀ c ∈ d.1, isWordClass c = true) :
    Word.AreWords (names (table lines)) := by
  intro name hname
  obtain ⟨d, hd, rfl⟩ := mem_names.1 hname
  obtain ⟨l, -, hparse⟩ := List.mem_filterMap.1 hd
  exact ⟨name_ne_nil hparse, hkeys d hd⟩

/-- A text with its constants replaced, run by run. -/
theorem substitute_eq_runs {decls : List (Text × Text)} (hnames : Word.AreWords (names decls))
    (s : Text) :
    substitute decls (names decls) s =
      (Word.runs s).flatMap fun run => (value? decls run).getD run := by
  refine Word.replace_eq_flatMap_runs hnames (fun run hrun => ?_) s
  rw [value?_eq_none_iff.2 fun d hd h => hrun (mem_names.2 ⟨d, hd, h⟩)]
  rfl

/-- **Constants are replaced run by run.**  If the declared names consist of word characters, the
lines that declare nothing are left, in their order and at their places, and in each of them every
run that is a declared name gives way to the value of its last declaration, wherever that stands.
Streams with the same other lines, and with the same declarations of each name in the same order,
come to the same. -/
theorem resolve_eq_runs (lines : List Line)
    (hkeys : ∀ d ∈ table lines, ∀ c ∈ d.1, isWordClass c = true) :
    (resolve lines = (lines.filter fun l => (parse? l.text).isNone).map fun l =>
        l.withText ((Word.runs l.text).flatMap fun run =>
          (value? (table lines) run).getD run)) ∧
      (∀ name value, value? (table lines) name = some value ↔
        ∃ before after, table lines = before ++ (name, value) :: after ∧
          ∀ d ∈ after, d.1 ≠ name) ∧
      ∀ lines' : List Line,
        (lines'.filter fun l => (parse? l.text).isNone) =
            (lines.filter fun l => (parse? l.text).isNone) →
          (∀ name, ((table lines').filter fun d => d.1 = name) =
            (table lines).filter fun d => d.1 = name) →
          resolve lines' = resolve lines := by
  have hruns : ∀ ls : List Line, (∀ d ∈ table ls, ∀ c ∈ d.1, isWordClass c = true) →
      resolve ls = (ls.filter fun l => (parse? l.text).isNone).map fun l =>
        l.withText ((Word.runs l.text).flatMap fun run => (value? (table ls) run).getD run) := by
    intro ls hls
    refine List.map_congr_left fun l _ => ?_
    rw [substitute_eq_runs (areWords_names hls)]
  refine ⟨hruns lines hkeys, fun name value => value?_eq_some_iff, fun lines' hother hdecls => ?_⟩
  -- the names are the same, and so are their values
  have hkeys' : ∀ d ∈ table lines', ∀ c ∈ d.1, isWordClass c = true := by
    intro d hd
    have hmem : d ∈ (table lines').filter fun d' => d'.1 = d.1 :=
      List.mem_filter.2 ⟨hd, by simp⟩
    rw [hdecls d.1] at hmem
    exact hkeys d (List.mem_filter.1 hmem).1
  have hvalue : ∀ run, value? (table lines') run = value? (table lines) run := by
    intro run
    rw [← value?_filter, hdecls run, value?_filter]
  rw [hruns lines' hkeys', hruns lines hkeys, hother]
  simp only [hvalue]

/-- Two names of which one is a part of the other, each with the other one in its value; the first
is declared twice. -/
def nestedNames : List Line := [
  ⟨"#const A = AB".toList, "main", 1⟩, ⟨"say A AB_A (AB) é".toList, "main", 2⟩,
  ⟨"#const AB = A".toList, "main", 3⟩, ⟨"#CONST A = B-A".toList, "main", 4⟩]

/-- The same declarations and the same line in another order. -/
def reorderedNames : List Line := [
  ⟨"#const AB = A".toList, "main", 3⟩, ⟨"#const A = AB".toList, "main", 1⟩,
  ⟨"#CONST A = B-A".toList, "main", 4⟩, ⟨"say A AB_A (AB) é".toList, "main", 2⟩]

theorem resolve_eq_runs_reordered :
    (∀ d ∈ table nestedNames, ∀ c ∈ d.1, isWordClass c = true) ∧
      resolve nestedNames = [⟨"say B-A AB_A (A) é".toList, "main", 2⟩] ∧
      resolve reorderedNames = resolve nestedNames := by
  have htable : table nestedNames =
      [(['A'], ['A', 'B']), (['A', 'B'], ['A']), (['A'], ['B', '-', 'A'])] := by decide +kernel
  have htable' : table reorderedNames =
      [(['A', 'B'], ['A']), (['A'], ['A', 'B']), (['A'], ['B', '-', 'A'])] := by decide +kernel
  have hkeys : ∀ d ∈ table nestedNames, ∀ c ∈ d.1, isWordClass c = true := by
    have hall : (table nestedNames).all (fun d => d.1.all isWordClass) = true := by decide +kernel
    simpa only [List.all_eq_true] using hall
  obtain ⟨hruns, -, horder⟩ := resolve_eq_runs nestedNames hkeys
  refine ⟨hkeys, ?_, horder reorderedNames (by decide +kernel) fun name => ?_⟩
  · rw [hruns, htable]
    decide +kernel
  · rw [htable, htable']
    by_cases hname : ['A'] = name
    · simp [← hname]
    · simp [List.filter_cons, hname]

end Constant

end Softcode
