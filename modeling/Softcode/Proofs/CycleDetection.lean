/-
**Circular dependencies are found exactly.**

Loading fails at a line, and a circular dependency is one of the reasons that a line has.  None of the
others looks like it, so loading reports a circular dependency exactly if a source is arrived at that
is on its own chain.

Main definitions:

* `Softcode.Resolver.Fails` — loading that fails with an error of a kind and with a message;
* `Softcode.NotCircular` — steps that report no circular dependency.

Main results:

* `Softcode.Sources.notCircular_find` — finding a source never reports a circular dependency;
* `Softcode.Resolver.failsAt_circular_iff` — loading fails because of a circular dependency exactly if
  reading comes to one;
* `Softcode.Resolver.fails_resolveEntry_iff` — when an entry reports a circular dependency;
* `Softcode.Resolver.resolveEntry_finds_cycles` — **loading ends, and reports a circular dependency
  exactly if there is one**.
-/

import Softcode.Proofs.FailedLoading

set_option autoImplicit false

namespace Softcode

/-! ### Errors of other kinds -/

/-- A step that does not report a circular dependency, whether it fails or not. -/
def NotCircular {α : Type} (x : Except SourceError α) : Prop :=
  ∀ e, x = .error e → e.kind ≠ .circular

section NotCircular

variable {α β : Type}

theorem notCircular_ok (a : α) : NotCircular (.ok a : Except SourceError α) := by
  intro e h
  cases h

theorem notCircular_error {e : SourceError} (h : e.kind ≠ .circular) :
    NotCircular (.error e : Except SourceError α) := by
  intro e' heq
  obtain rfl := Except.error.inj heq
  exact h

theorem NotCircular.bind {x : Except SourceError α} {f : α → Except SourceError β}
    (hx : NotCircular x) (hf : ∀ a, NotCircular (f a)) : NotCircular (x >>= f) := by
  cases x with
  | error e => exact notCircular_error (hx e rfl)
  | ok a => exact hf a

theorem NotCircular.map {x : Except SourceError α} (hx : NotCircular x) (f : α → β) :
    NotCircular (x.map f) := by
  cases x with
  | error e => exact notCircular_error (hx e rfl)
  | ok a => exact notCircular_ok (f a)

end NotCircular

theorem notCircular_classify (reference : Text) (base : Base) (ext : Text) :
    NotCircular (Reference.classify reference base ext) := by
  unfold Reference.classify
  dsimp only
  split
  · exact notCircular_ok _
  · split
    · exact notCircular_ok _
    · split
      · refine NotCircular.map ?_ _
        unfold repositoryUrl
        split
        · exact notCircular_error nofun
        · exact notCircular_ok _
      · split
        · split
          · exact notCircular_ok _
          · exact notCircular_error nofun
        · unfold Reference.relative
          split
          · exact notCircular_ok _
          · split
            · exact notCircular_ok _
            · split
              · exact notCircular_ok _
              · exact notCircular_error nofun

namespace Sources

variable (s : Sources)

theorem notCircular_readText (path : Text) : NotCircular (s.readText path) := by
  unfold readText
  split
  · exact notCircular_error nofun
  · split
    · exact notCircular_ok _
    · exact notCircular_error nofun

theorem notCircular_loadModule (name : Text) (base : Base) :
    NotCircular (s.loadModule name base) := by
  have hbundled : NotCircular (s.loadBundled name base) := by
    unfold loadBundled
    dsimp only
    split
    · exact notCircular_ok _
    · exact notCircular_error nofun
  unfold loadModule
  split
  · exact hbundled
  · dsimp only
    split
    · exact (s.notCircular_readText _).bind fun _ => notCircular_ok _
    · exact hbundled

theorem notCircular_load (r : Reference) (base : Base) : NotCircular (s.load r base) := by
  refine NotCircular.bind ?_ fun l => ?_
  · cases r with
    | inline text => exact notCircular_ok _
    | std name => exact s.notCircular_loadModule name base
    | url u =>
        unfold loadAny
        dsimp only
        split
        · exact notCircular_ok _
        · exact notCircular_error nofun
    | file path => exact (s.notCircular_readText _).bind fun _ => notCircular_ok _
  · dsimp only
    split
    · exact notCircular_error nofun
    · exact notCircular_ok _

/-- **Finding a source never reports a circular dependency.** -/
theorem notCircular_find (base : Base) (reference : Text) :
    NotCircular (s.find base reference) := by
  unfold find
  dsimp only
  split
  · exact notCircular_error nofun
  · refine (notCircular_classify _ _ _).bind fun ref => ?_
    split
    · split
      · exact s.notCircular_load _ _
      · exact notCircular_error nofun
    · exact s.notCircular_load _ _

theorem notCircular_findEntry (base : Base) (entry : Text) :
    NotCircular (s.findEntry base entry) := by
  refine (notCircular_classify _ _ _).bind fun ref => ?_
  split
  · exact s.notCircular_load _ _
  · exact s.notCircular_load _ _

end Sources

namespace Resolver

open Sources

/-! ### Failures -/

/-- Loading fails with an error of a kind and with a message, wherever the error is put. -/
def Fails (result : Result) (kind : CompileError.Kind) (message : String) : Prop :=
  ∃ e, result.1 = .error e ∧ e.kind = kind ∧ e.message = message

theorem fails_error_iff {e : CompileError} {r : Resolver} {kind : CompileError.Kind}
    {message : String} :
    Fails (.error e, r) kind message ↔ e.kind = kind ∧ e.message = message := by
  constructor
  · rintro ⟨e', h, hkind, hmessage⟩
    obtain rfl := Except.error.inj h
    exact ⟨hkind, hmessage⟩
  · rintro ⟨hkind, hmessage⟩
    exact ⟨e, rfl, hkind, hmessage⟩

/-! ### Chains that come back -/

/-- The message about a chain that comes back to a source. -/
def circularMessage (chain : List String) : String := (SourceError.circular chain).toError.message

/-- **Loading fails because of a circular dependency exactly if reading comes to one.** -/
theorem failsAt_circular_iff {s : Sources} {entry : Loaded} {message : String} :
    (∃ chain source n cause, s.FailsAt entry (chain ++ [source.id]) source n cause ∧
        cause.kind = .circular ∧ cause.toError.message = message) ↔
      ∃ chain l, s.Arrives entry (chain ++ [l.id]) l ∧ l.id ∈ chain ∧
        message = circularMessage (chain ++ [l.id]) := by
  constructor
  · rintro ⟨chain, source, n, cause, ⟨harrives, hnodup, before, text, after, hlines, -, ⟨t, ht⟩,
      hcause⟩, hkind, rfl⟩
    cases hcause with
    | malformed hbad => cases hkind
    | notFound href hfind => exact absurd hkind (s.notCircular_find _ _ cause hfind)
    | circular href hfind hid =>
        exact ⟨_, _, harrives.step hnodup hlines t ht href hfind, hid, rfl⟩
  · rintro ⟨chain, l, h, hmem, rfl⟩
    generalize hids : chain ++ [l.id] = ids at h
    cases h with
    | entry =>
        obtain rfl : chain = [] := by simpa using congrArg List.length hids
        cases hmem
    | @step chain' source _ before after line reference h hnodup hlines t ht href hfind =>
        obtain rfl := List.append_cancel_right hids
        obtain ⟨outer, rfl⟩ := h.exists_chain
        rw [Line.eq_of_ofSource_eq_append hlines] at hlines
        exact ⟨outer, source, _, _, ⟨h, hnodup, before, line.text, after, hlines, rfl, ⟨t, ht⟩,
          .circular href hfind hmem⟩, rfl, rfl⟩

/-- An entry reports a circular dependency exactly if reading comes to one. -/
theorem fails_resolveEntry_iff {s : Sources} {ps : List (Text × Text)} (hps : s.fetcher = .pages ps)
    {message : String} {text : Text} {r : Resolver} (hstart : r.visiting = []) :
    Fails (resolveEntry s text r) .circular message ↔
      ∃ l chain l', s.findEntry r.base text = .ok l ∧ s.Arrives l (chain ++ [l'.id]) l' ∧
        l'.id ∈ chain ∧ message = circularMessage (chain ++ [l'.id]) := by
  rw [resolveEntry]
  cases hentry : s.findEntry r.base text with
  | error e =>
      have hkind := s.notCircular_findEntry r.base text e hentry
      refine iff_of_false ?_ ?_
      · rw [fails_error_iff]
        exact fun h => hkind h.1
      · rintro ⟨l, chain, l', hl, -⟩
        cases hl
  | ok l =>
      have hchain : (r.note l).visiting = [] := hstart
      have hiff := @expand_error_iff s l (paged_of_pages hps l) (r.note l) hchain
      constructor
      · rintro ⟨e, herror, hkind, hmessage⟩
        obtain ⟨chain, source, n, cause, hfails, rfl⟩ := hiff.1 herror
        obtain ⟨chain', l', h⟩ :=
          failsAt_circular_iff.1 ⟨chain, source, n, cause, hfails, hkind, hmessage⟩
        exact ⟨l, chain', l', rfl, h⟩
      · rintro ⟨l₀, chain, l', hl, h⟩
        obtain rfl := Except.ok.inj hl
        obtain ⟨chain', source, n, cause, hfails, hkind, hmessage⟩ :=
          failsAt_circular_iff.2 ⟨chain, l', h⟩
        exact ⟨_, hiff.2 ⟨chain', source, n, cause, hfails, rfl⟩, hkind, hmessage⟩

/-- **Circular dependencies are found exactly.**  Where addresses are pages, loading any entry ends,
and the recursion gives what stands at the end; at every step the chain has no identifier twice.  A
circular dependency is reported if and only if reading comes to a source, before anything else
fails, whose identifier is among those of the sources by which it is included; the message names
these from the entry on, and then the identifier that is repeated. -/
theorem resolveEntry_finds_cycles {s : Sources} {ps : List (Text × Text)}
    (hps : s.fetcher = .pages ps) (entry : Text) {r : Resolver} (hstart : r.visiting = []) :
    (∃ n, ∀ m, n ≤ m → (Loading.step s)^[m] (Loading.first s entry r) =
        Loading.handed [] (resolveEntry s entry r)) ∧
      (∀ n, ((Loading.step s)^[n] (Loading.first s entry r)).state.visiting.Nodup) ∧
      ∀ message, Fails (resolveEntry s entry r) .circular message ↔
        ∃ l chain l', s.findEntry r.base entry = .ok l ∧ s.Arrives l (chain ++ [l'.id]) l' ∧
          l'.id ∈ chain ∧
          message = String.ofList ("circular dependency detected: ".toList ++
            Text.join " -> ".toList ((chain ++ [l'.id]).map String.toList)) := by
  refine ⟨Loading.exists_last_step hps entry hstart, fun n => ?_, fun message => ?_⟩
  · have hsound : ((Loading.step s)^[n] (Loading.first s entry r)).Sound :=
      (Loading.sound_first entry hstart).iterate n
    rw [hsound.visiting]
    exact hsound.nodup
  · exact fails_resolveEntry_iff hps hstart

end Resolver

/-! ### Two files that include each other -/

/-- The file `/m` includes `/c` and `/a`. -/
def loopEntry : Loaded := rootFile 'm' (includeLine 'c' ++ '\n' :: includeLine 'a')

/-- The file `/a` includes `/c` again, and `/b`. -/
def loopFirst : Loaded := rootFile 'a' (includeLine 'c' ++ '\n' :: includeLine 'b')

/-- The file `/b` includes `/a`. -/
def loopSecond : Loaded := rootFile 'b' (includeLine 'a')

/-- The four files. -/
def loopSources : Sources where
  tree := ⟨[], [
    ([['m']], .file (Text.toBytes loopEntry.text)),
    ([['a']], .file (Text.toBytes loopFirst.text)),
    ([['b']], .file (Text.toBytes loopSecond.text)),
    ([['c']], .file (Text.toBytes sharedLeaf.text))]⟩
  fetcher := .pages []
  stdRoot := none
  ext := ['m', 'u', 's', 'h']
  maxBytes := 100

/-- A line that includes `/c` has a tree. -/
theorem exists_loopTree (chain : List String) (hchain : sharedLeaf.id ∉ chain) (file : String)
    (n : Nat) : ∃ t : IncludeTree loopSources (.dir ['/']) [⟨includeLine 'c', file, n⟩],
      t.Simple chain :=
  exists_leafTree rfl hchain file n

theorem Resolver.resolveEntry_finds_cycles_nested :
    Fails (resolveEntry loopSources ['/', 'm'] (start (.dir ['/']) false)) .circular
      "circular dependency detected: /m -> /a -> /b -> /a" := by
  obtain ⟨-, -, hiff⟩ := resolveEntry_finds_cycles (s := loopSources) rfl ['/', 'm']
    (r := start (.dir ['/']) false) rfl
  have hentry : loopSources.Arrives loopEntry ["/m"] loopEntry := .entry
  obtain ⟨t, ht⟩ := exists_loopTree ["/m"] (by decide) "/m" 1
  have hfirst : loopSources.Arrives loopEntry (["/m"] ++ [loopFirst.id]) loopFirst :=
    hentry.step (by decide) rfl t ht rfl rfl
  obtain ⟨t', ht'⟩ := exists_loopTree ["/m", "/a"] (by decide) "/a" 1
  have hsecond : loopSources.Arrives loopEntry (["/m", "/a"] ++ [loopSecond.id]) loopSecond :=
    hfirst.step (by decide) rfl t' ht' rfl rfl
  have hback : loopSources.Arrives loopEntry (["/m", "/a", "/b"] ++ [loopFirst.id]) loopFirst :=
    hsecond.step (by decide) rfl (.nil _) trivial rfl rfl
  exact (hiff _).2 ⟨loopEntry, ["/m", "/a", "/b"], loopFirst, rfl, hback, by decide, rfl⟩

end Softcode
