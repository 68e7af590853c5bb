/-
**Loading, one step at a time.**

The recursion by which sources are loaded is bounded by a depth.  Here is loading without a bound:
the sources that are being read are kept on a stack, each with the lines it has given so far and the
lines that are still to be read, and a step reads one line, or hands what a source has come to over
to the source below it.  Nothing in a step says that there is a last one.

That there is one, for every entry, and that what the recursion gives is what stands there, is the
run lemma of this module.  The depth of the recursion is never used up, because the identifiers on
the stack are different and all of them are known.

Main definitions:

* `Softcode.Resolver.Gathers` — a state together with something that was yielded;
* `Softcode.OpenSource` — a source that is being read;
* `Softcode.Loading`, `Softcode.Loading.step` — **loading at some moment, and one step of it**;
* `Softcode.Loading.Sound` — the chain is that of the sources on the stack, and has no repetition;
* `Softcode.Loading.Runs` — some number of steps.

Main results:

* `Softcode.Resolver.expand_gathers` — a source yields something and changes nothing else, whether it
  is read or fails;
* `Softcode.Loading.Sound.iterate` — **the chain never has an identifier twice**;
* `Softcode.Loading.runs_expand` — reading a source ends with what the recursion gives;
* `Softcode.Loading.exists_last_step` — **loading ends**.
-/

import Softcode.Proofs.IncludePaths
import Mathlib.Logic.Function.Iterate

set_option autoImplicit false

namespace Softcode

/-! ### What loading does to its state -/

namespace Resolver

/-- Two states in which the same source is being read: base and chain are the same. -/
def SamePlace (r r' : Resolver) : Prop := r'.base = r.base ∧ r'.visiting = r.visiting

/-- One state is another one together with something that was yielded. -/
def Gathers (r r' : Resolver) : Prop := ∃ h : Harvest, r' = r.gather h

namespace Gathers

variable {r r₁ r₂ : Resolver}

theorem refl (r : Resolver) : r.Gathers r := ⟨{}, r.gather_empty.symm⟩

theorem trans (h : r.Gathers r₁) (h' : r₁.Gathers r₂) : r.Gathers r₂ := by
  obtain ⟨k, rfl⟩ := h
  obtain ⟨k', rfl⟩ := h'
  exact ⟨k ++ k', (gather_append r k k').symm⟩

theorem samePlace (h : r.Gathers r₁) : r.SamePlace r₁ := by
  obtain ⟨k, rfl⟩ := h
  exact ⟨rfl, rfl⟩

theorem note (r : Resolver) (l : Loaded) : r.Gathers (r.note l) := by
  refine ⟨{ file := l.path }, ?_⟩
  simp [gather, Resolver.note]

/-- What is yielded while a source is read is yielded by the source. -/
theorem leave {l : Loaded} (h : (r.enter l).Gathers r₁) : r.Gathers (r₁.leave r.base l.id) := by
  obtain ⟨k, rfl⟩ := h
  refine ⟨k ++ { ids := [l.id] }, ?_⟩
  rw [gather_append]
  simp only [gather, Resolver.leave, enter, List.append_nil, List.dropLast_concat, Bool.or_false,
    Option.or_none, List.foldl_nil, List.foldl_cons]
  rfl

end Gathers

/-- A reference yields something if sources do. -/
theorem resolveWith_gathers (s : Sources) {expand : Loaded → Resolver → Result}
    (h : ∀ l (r : Resolver), r.Gathers (expand l r).2) (reference : Text) (l : Line)
    (r : Resolver) : r.Gathers (resolveWith s expand reference l r).2 := by
  cases hfind : s.find r.base reference with
  | error e =>
      rw [resolveWith, hfind]
      exact .refl r
  | ok source =>
      rw [resolveWith_of_find hfind]
      exact (Gathers.note r source).trans (h source (r.note source))

/-- A line yields something if references do. -/
theorem scanOne_gathers {refer : Text → Line → Resolver → Result}
    (h : ∀ reference l (r : Resolver), r.Gathers (refer reference l r).2) (l : Line)
    (r : Resolver) : r.Gathers (scanOne refer l r).2 := by
  cases href : (Instruction.parse l.text).reference? with
  | none =>
      by_cases hbad : Instruction.parse l.text = .badImport
      · rw [scanOne_badImport hbad]
        exact .refl r
      · rw [scanOne_plain href hbad]
        exact ⟨_, rfl⟩
  | some reference =>
      rw [scanOne_nested href]
      exact h reference l r

/-- Lines yield something if references do. -/
theorem scan_gathers {refer : Text → Line → Resolver → Result}
    (h : ∀ reference l (r : Resolver), r.Gathers (refer reference l r).2) (ls : List Line)
    (r : Resolver) : r.Gathers (scan refer ls r).2 := by
  induction ls generalizing r with
  | nil => exact .refl r
  | cons l ls ih =>
      have hline := scanOne_gathers h l r
      rw [scan_cons]
      cases hresult : scanOne refer l r with
      | mk outcome r₁ =>
          rw [hresult] at hline
          cases outcome with
          | error e => exact hline
          | ok lines => exact hline.trans (ih r₁)

/-- **A source yields something and changes nothing else**, whether it is read or fails. -/
theorem expand_gathers (s : Sources) (depth : Nat) (l : Loaded) (r : Resolver) :
    r.Gathers (expand s depth l r).2 := by
  induction depth generalizing l r with
  | zero => exact .refl r
  | succ depth ih =>
      rw [expand]
      split
      · exact .refl r
      · exact (scan_gathers (resolveWith_gathers s ih) (Line.ofSource l.text l.id)
          (r.enter l)).leave

end Resolver

/-! ### Steps -/

/-- A source that is being read: its identifier, what references outside of it are relative to, the
lines it has given so far and those that are still to be read. -/
structure OpenSource where
  id : String
  outer : Base
  given : List Line
  rest : List Line

/-- The sources that wait for another one, the innermost first, each with the line that refers to
the other one. -/
abbrev Waiting := List (OpenSource × Line)

/-- **Loading at some moment**: a source is being read, or what one has come to is to be handed over
to the first of those that wait. -/
inductive Loading where
  | reading (source : OpenSource) (waiting : Waiting) (r : Resolver)
  | handing (outcome : Except CompileError (List Line)) (waiting : Waiting) (r : Resolver)

namespace Loading

open Resolver

/-- The state of loading. -/
def state : Loading → Resolver
  | reading _ _ r => r
  | handing _ _ r => r

/-- The identifiers of sources that wait, the outermost first. -/
def waitingIds (waiting : Waiting) : List String := (waiting.map (·.1.id)).reverse

/-- The identifiers of the sources that are being read, the entry first. -/
def chain : Loading → List String
  | reading source waiting _ => waitingIds waiting ++ [source.id]
  | handing _ waiting _ => waitingIds waiting

/-- A source is opened, unless it is being read already. -/
def opening (l : Loaded) (waiting : Waiting) (r : Resolver) : Loading :=
  if l.id ∈ r.visiting then .handing (.error (r.circular l)) waiting r
  else .reading ⟨l.id, r.base, [], Line.ofSource l.text l.id⟩ waiting (r.enter l)

/-- A source is closed and hands over what it has come to. -/
def closing (source : OpenSource) (outcome : Except CompileError (List Line)) (waiting : Waiting)
    (r : Resolver) : Loading :=
  .handing outcome waiting (r.leave source.outer source.id)

/-- A line of a source is read. -/
def line (s : Sources) (l : Line) (source : OpenSource) (waiting : Waiting) (r : Resolver) :
    Loading :=
  let i := Instruction.parse l.text
  match i.reference? with
  | some reference =>
      match s.find r.base reference with
      | .error e => closing source (.error (e.toError.at_ l.location)) waiting r
      | .ok l' => opening l' ((source, l) :: waiting) (r.note l')
  | none =>
      if i = .badImport then
        closing source (.error ((SourceError.malformedImport l.text).toError.at_ l.location))
          waiting r
      else
        .reading { source with given := source.given ++ i.ownLines l } waiting
          (r.gather i.harvest)

/-- **One step**: a line is read, a source without further lines is closed, or what a source has
come to is handed over.  What no source waits for stays as it is. -/
def step (s : Sources) : Loading → Loading
  | .reading source waiting r =>
      match source.rest with
      | [] => closing source (.ok source.given) waiting r
      | l :: ls => line s l { source with rest := ls } waiting r
  | .handing outcome [] r => .handing outcome [] r
  | .handing (.ok lines) ((source, l) :: waiting) r =>
      .reading
        { source with given := source.given ++ (Instruction.parse l.text).place l lines } waiting r
  | .handing (.error e) ((source, l) :: waiting) r =>
      closing source (.error (e.orAt l.location)) waiting r

/-- The beginning of the loading of an entry. -/
def first (s : Sources) (entry : Text) (r : Resolver) : Loading :=
  match s.findEntry r.base entry with
  | .error e => .handing (.error e.toError) [] r
  | .ok l => opening l [] (r.note l)

/-! ### The chain -/

/-- The chain is that of the sources that are being read, and none of them is on it twice. -/
structure Sound (c : Loading) : Prop where
  visiting : c.state.visiting = c.chain
  nodup : c.chain.Nodup

variable {s : Sources} {waiting : Waiting} {r : Resolver}

theorem waitingIds_cons (source : OpenSource) (l : Line) (waiting : Waiting) :
    waitingIds ((source, l) :: waiting) = waitingIds waiting ++ [source.id] := by
  simp [waitingIds]

/-- Only a source that is not on the chain comes onto it. -/
theorem sound_opening (l : Loaded) (hvisiting : r.visiting = waitingIds waiting)
    (hnodup : (waitingIds waiting).Nodup) : (opening l waiting r).Sound := by
  unfold opening
  split
  · exact ⟨hvisiting, hnodup⟩
  · next hid =>
      refine ⟨congrArg (· ++ [l.id]) hvisiting, ?_⟩
      rw [hvisiting] at hid
      exact Sources.nodup_snoc.2 ⟨hnodup, hid⟩

/-- A source that is closed is the last one on the chain. -/
theorem sound_closing {source : OpenSource} (outcome : Except CompileError (List Line))
    (hvisiting : r.visiting = waitingIds waiting ++ [source.id])
    (hnodup : (waitingIds waiting ++ [source.id]).Nodup) :
    (closing source outcome waiting r).Sound := by
  refine ⟨?_, (Sources.nodup_snoc.1 hnodup).1⟩
  change r.visiting.dropLast = waitingIds waiting
  rw [hvisiting]
  exact List.dropLast_concat

theorem sound_line {l : Line} {source : OpenSource}
    (hvisiting : r.visiting = waitingIds waiting ++ [source.id])
    (hnodup : (waitingIds waiting ++ [source.id]).Nodup) :
    (line s l source waiting r).Sound := by
  unfold line
  dsimp only
  split
  · split
    · exact sound_closing _ hvisiting hnodup
    · rw [← waitingIds_cons source l] at hvisiting hnodup
      exact sound_opening _ hvisiting hnodup
  · split
    · exact sound_closing _ hvisiting hnodup
    · exact ⟨hvisiting, hnodup⟩

/-- One step keeps the chain in order. -/
theorem Sound.step {c : Loading} (h : c.Sound) : (step s c).Sound := by
  obtain ⟨hvisiting, hnodup⟩ := h
  cases c with
  | reading source waiting r =>
      rw [Loading.step]
      split
      · exact sound_closing _ hvisiting hnodup
      · exact sound_line hvisiting hnodup
  | handing outcome waiting r =>
      cases waiting with
      | nil => exact ⟨hvisiting, hnodup⟩
      | cons top waiting =>
          obtain ⟨source, l⟩ := top
          rw [chain, waitingIds_cons] at hvisiting hnodup
          cases outcome with
          | error e => exact sound_closing _ hvisiting hnodup
          | ok lines => exact ⟨hvisiting, hnodup⟩

/-- **The chain has no identifier twice**, after any number of steps. -/
theorem Sound.iterate {c : Loading} (h : c.Sound) (n : Nat) : ((Loading.step s)^[n] c).Sound := by
  induction n with
  | zero => exact h
  | succ n ih =>
      rw [Function.iterate_succ_apply']
      exact ih.step

theorem sound_first (entry : Text) (hstart : r.visiting = []) : (first s entry r).Sound := by
  unfold first
  split
  · exact ⟨hstart, List.nodup_nil⟩
  · exact sound_opening _ hstart List.nodup_nil

/-! ### Runs -/

/-- Some number of steps leads from one moment of loading to another. -/
def Runs (s : Sources) (c c' : Loading) : Prop := ∃ n, (step s)^[n] c = c'

namespace Runs

theorem refl (c : Loading) : Runs s c c := ⟨0, rfl⟩

theorem trans {c₁ c₂ c₃ : Loading} (h : Runs s c₁ c₂) (h' : Runs s c₂ c₃) : Runs s c₁ c₃ := by
  obtain ⟨m, rfl⟩ := h
  obtain ⟨n, rfl⟩ := h'
  exact ⟨n + m, Function.iterate_add_apply (step s) n m c₁⟩

/-- A step and then some number of steps. -/
theorem head {c c' : Loading} (h : Runs s (step s c) c') : Runs s c c' := by
  obtain ⟨n, hn⟩ := h
  exact ⟨n + 1, hn⟩

end Runs

/-- A result, handed over. -/
def handed (waiting : Waiting) (result : Result) : Loading := .handing result.1 waiting result.2

/-- What no source waits for stays. -/
theorem step_handed_nil (result : Result) : step s (handed [] result) = handed [] result := rfl

/-- What a source has come to with its remaining lines, where `result` is what these give. -/
def closed (source : OpenSource) (waiting : Waiting) (result : Result) : Loading :=
  closing source (result.1.map (source.given ++ ·)) waiting result.2

/-- Lines that were given are before those that the remaining lines give. -/
theorem closed_given (source : OpenSource) (more rest : List Line) (result : Result) :
    closed { source with given := source.given ++ more, rest := rest } waiting result =
      closed source waiting (Prod.map (Except.map (more ++ ·)) id result) := by
  obtain ⟨outcome, r⟩ := result
  cases outcome with
  | error e => rfl
  | ok lines => simp [closed, closing, Except.map]

/-- A source that has given nothing yet comes to what its lines give. -/
theorem closed_of_nil (id : String) (outer : Base) (rest : List Line) (result : Result) :
    closed ⟨id, outer, [], rest⟩ waiting result =
      handed waiting (result.1, result.2.leave outer id) := by
  obtain ⟨outcome, r⟩ := result
  cases outcome <;> rfl

/-- A source behind a line, where `result` is what the line gives: it goes on with the next lines,
unless the line failed. -/
def behind (source : OpenSource) (ls : List Line) (waiting : Waiting) (result : Result) : Loading :=
  match result with
  | (.error e, r) => closing source (.error e) waiting r
  | (.ok lines, r) =>
      .reading { source with given := source.given ++ lines, rest := ls } waiting r

/-- The source that a line refers to ends, when it is read where the line stands, with what `f`
gives. -/
def RunsBelow (s : Sources) (f : Loaded → Resolver → Result) (b : Base) (chain : List String)
    (line : Line) : Prop :=
  ∀ reference l, (Instruction.parse line.text).reference? = some reference →
    s.find b reference = .ok l → ∀ waiting (r : Resolver), r.base = b → r.visiting = chain →
      Runs s (opening l waiting (r.note l)) (handed waiting (f l (r.note l)))

section Lines

variable {f : Loaded → Resolver → Result}

/-- **Reading a line** ends with what it gives, if the source that it refers to does. -/
theorem runs_line {l : Line} (hbelow : RunsBelow s f r.base r.visiting l) (ls : List Line)
    (source : OpenSource) (waiting : Waiting) :
    Runs s (.reading { source with rest := l :: ls } waiting r)
      (behind source ls waiting (scanOne (resolveWith s f) l r)) := by
  refine .head ?_
  change Runs s (line s l { source with rest := ls } waiting r) _
  cases href : (Instruction.parse l.text).reference? with
  | none =>
      by_cases hbad : Instruction.parse l.text = .badImport
      · rw [scanOne_badImport hbad]
        simp only [line, hbad, if_true]
        exact .refl _
      · rw [scanOne_plain href hbad]
        simp only [line, href, if_neg hbad]
        exact .refl _
  | some reference =>
      rw [scanOne_nested href]
      simp only [line, href]
      cases hfind : s.find r.base reference with
      | error e =>
          rw [resolveWith, hfind]
          exact .refl _
      | ok l' =>
          rw [resolveWith_of_find hfind]
          refine (hbelow reference l' href hfind _ r rfl rfl).trans (.head ?_)
          -- what the source has come to is handed over in one step
          obtain ⟨outcome, r₁⟩ := f l' (r.note l')
          cases outcome with
          | error e => exact .refl _
          | ok nested => exact .refl _

/-- **Reading the lines of a source** ends with what they give, if the sources that they refer to
do. -/
theorem runs_lines (hyields : ∀ l (r : Resolver), r.Gathers (f l r).2) {ls : List Line}
    (source : OpenSource) (waiting : Waiting) (r : Resolver)
    (hbelow : ∀ l ∈ ls, RunsBelow s f r.base r.visiting l) :
    Runs s (.reading { source with rest := ls } waiting r)
      (closed source waiting (scan (resolveWith s f) ls r)) := by
  induction ls generalizing source r with
  | nil =>
      refine .head ?_
      have hend : closed source waiting (scan (resolveWith s f) [] r) =
          closing source (.ok source.given) waiting r := by
        simp [closed, scan, Except.map]
      rw [hend]
      exact .refl _
  | cons l ls ih =>
      have hfirst := runs_line (hbelow l List.mem_cons_self) ls source waiting
      have hkept := (scanOne_gathers (resolveWith_gathers s hyields) l r).samePlace
      refine hfirst.trans ?_
      rw [scan_cons]
      cases hresult : scanOne (resolveWith s f) l r with
      | mk outcome r₁ =>
          rw [hresult] at hkept
          cases outcome with
          | error e => exact .refl _
          | ok lines =>
              -- the rest is read in the same place, whatever the first line has changed
              rw [andThen_ok, ← closed_given source lines source.rest]
              refine ih { source with given := source.given ++ lines } r₁ fun l' hl' => ?_
              rw [hkept.1, hkept.2]
              exact hbelow l' (List.mem_cons_of_mem _ hl')

end Lines

/-- **Reading a source ends with what the recursion gives.**  The recursion may go as much deeper as
there are identifiers that are not on the chain. -/
theorem runs_expand {entry : Loaded} (hpaged : s.Paged entry)
    (depth : Nat) (l : Loaded) (r : Resolver) (waiting : Waiting)
    (hpath : s.IncludePath entry (r.visiting ++ [l.id]) l) (hnodup : r.visiting.Nodup)
    (hdepth : (s.identifiers entry).length ≤ depth + r.visiting.length) :
    Runs s (opening l waiting r) (handed waiting (expand s depth l r)) := by
  induction depth using Nat.strong_induction_on generalizing l r waiting with
  | _ depth ih =>
      by_cases hid : l.id ∈ r.visiting
      · rw [opening, if_pos hid]
        cases depth with
        | zero => exact .refl _
        | succ d =>
            rw [expand, if_pos hid]
            exact .refl _
      · have hnodup' := Sources.nodup_snoc.2 ⟨hnodup, hid⟩
        obtain ⟨d, rfl, hd⟩ := hpath.exists_depth hpaged hnodup' hdepth
        rw [opening, if_neg hid, expand, if_neg hid]
        have hbelow : ∀ line ∈ Line.ofSource l.text l.id,
            RunsBelow s (fun l' r' => expand s d l' r') (r.enter l).base
              (r.enter l).visiting line := by
          intro line hline reference l' href hfind waiting' r' hbase' hvisiting'
          have hpath' := hpath.step (Sources.refers_of_line hline href hfind)
          have hchain : (r'.note l').visiting = r.visiting ++ [l.id] := hvisiting'
          refine ih d (Nat.lt_succ_self d) l' (r'.note l') waiting' ?_ ?_ ?_
          · rw [hchain]
            exact hpath'
          · rw [hchain]
            exact hnodup'
          · rw [hchain]
            exact hd
        have hlines := runs_lines (expand_gathers s d) ⟨l.id, r.base, [], []⟩ waiting
          (r.enter l) hbelow
        rw [closed_of_nil] at hlines
        exact hlines

/-- **Loading ends**, for every entry, and what stands at its end is what the recursion gives. -/
theorem exists_last_step {ps : List (Text × Text)} (hps : s.fetcher = .pages ps) (entry : Text)
    (hstart : r.visiting = []) :
    ∃ n, ∀ m, n ≤ m → (step s)^[m] (first s entry r) = handed [] (resolveEntry s entry r) := by
  have hruns : Runs s (first s entry r) (handed [] (resolveEntry s entry r)) := by
    rw [first, resolveEntry]
    cases hentry : s.findEntry r.base entry with
    | error e => exact .refl _
    | ok l =>
        have hchain : (r.note l).visiting = [] := hstart
        have hpath : s.IncludePath l ((r.note l).visiting ++ [l.id]) l := by
          rw [hchain]
          exact .entry
        have hnodup : (r.note l).visiting.Nodup := by
          rw [hchain]
          exact List.nodup_nil
        exact runs_expand (Sources.paged_of_pages hps l) _ l (r.note l) [] hpath hnodup (by omega)
  obtain ⟨n, hn⟩ := hruns
  refine ⟨n, fun m hm => ?_⟩
  obtain ⟨k, rfl⟩ := Nat.exists_eq_add_of_le' hm
  rw [Function.iterate_add_apply, hn]
  exact Function.iterate_fixed (step_handed_nil _) k

end Loading

end Softcode
