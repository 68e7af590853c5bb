/-
**What is left of a stream when its macro definitions are taken out.**

A stream is cut into parts: lines of text and definitions.  A definition begins with an opener and
goes on to the next line that begins with a closing brace; a body may begin, or stand as a whole,
on the line of the opener.  `Softcode.Macro.parts` cuts a stream this way without looking at
triggers and bodies, and extraction is shown to treat the parts one by one, in order.

A definition that is rejected — its trigger is no pattern, or it is never closed — comes back as
text, with a warning.  It comes back unchanged exactly if no body text stands on the line of its
opener: such text is put back a second time, as a line of its own.  So the lines that are left are
always a sublist of the stream if bodies begin below their openers, and where the lines of a stream
have places of their own, they are one in no other case.

Main definitions:

* `Softcode.Macro.Block`, `Softcode.Macro.Part` — definitions and other parts of a stream;
* `Softcode.Macro.parts` — **the parts of a stream**;
* `Softcode.Macro.Block.fault?` — why a definition is rejected;
* `Softcode.Macro.Part.kept` — what is left of a part.

Main results:

* `Softcode.Macro.source_parts` — the parts of a stream are the stream;
* `Softcode.Macro.extract_eq` — extraction treats the parts of a stream one by one;
* `Softcode.Macro.Block.kept_eq_source_iff` — a rejected definition comes back unchanged exactly if
  no body text stands on the line of its opener;
* `Softcode.Macro.extract_puts_back` — **what is left of a stream**;
* `Softcode.Macro.extract_repeats_body` — a body that comes back twice.
-/

import Mathlib.Data.List.TakeWhile
import Softcode.Macro

set_option autoImplicit false

namespace Softcode

namespace Macro

/-! ### The parts of a stream -/

/-- A line that ends a definition. -/
def endsBlock (l : Line) : Bool := l.text.head? == some '\x7d'

/-- Where a definition ends: on the line of its opener, with a line below it, or nowhere. -/
inductive Ending where
  | onOpener
  | below (closer : Line)
  | missing

/-- The line of its own that a definition ends with. -/
def Ending.lines : Ending → List Line
  | below closer => [closer]
  | onOpener | missing => []

/-- A definition as it stands in a stream: its first line and the trigger there, the body text on
that line, the lines of the body below it, and its end. -/
structure Block where
  opener : Line
  trigger : Text
  beside : Option Text
  below : List Line
  ending : Ending

/-- A line of text, or a definition. -/
inductive Part where
  | text (l : Line)
  | block (b : Block)

/-- The lines of a stream that a definition consists of. -/
def Block.source (b : Block) : List Line := b.opener :: b.below ++ b.ending.lines

/-- The lines of a stream that a part consists of. -/
def Part.source : Part → List Line
  | text l => [l]
  | block b => b.source

/-- **The parts of a stream.**  A definition that is not closed takes all lines that follow. -/
def parts : List Line → List Part
  | [] => []
  | l :: ls =>
      match parseOpener? l.text with
      | none => .text l :: parts ls
      | some (.inline trigger body) => .block ⟨l, trigger, some body, [], .onOpener⟩ :: parts ls
      | some (.block trigger first) =>
          match _h : ls.dropWhile fun m => !endsBlock m with
          | [] => [.block ⟨l, trigger, first, ls, .missing⟩]
          | closer :: rest =>
              .block ⟨l, trigger, first, ls.takeWhile fun m => !endsBlock m, .below closer⟩ ::
                parts rest
termination_by ls => ls.length
decreasing_by
  · simp
  · simp
  · have := (List.dropWhile_sublist (fun m => !endsBlock m) (l := ls)).length_le
    rw [_h] at this
    simp at this ⊢
    omega

/-- The parts of a stream are the stream. -/
theorem source_parts (ls : List Line) : (parts ls).flatMap Part.source = ls := by
  fun_induction parts ls with
  | case1 => rfl
  | case2 l ls hopener ih => simp [Part.source, ih]
  | case3 l ls trigger body hopener ih =>
      simp [Part.source, Block.source, Ending.lines, ih]
  | case4 l ls trigger first hopener hrest =>
      simp [Part.source, Block.source, Ending.lines]
  | case5 l ls trigger first hopener closer rest hrest ih =>
      have hls : ls.takeWhile (fun m => !endsBlock m) ++ closer :: rest = ls := by
        rw [← hrest, List.takeWhile_append_dropWhile]
      simp [Part.source, Block.source, Ending.lines, ih, hls]

/-! ### What becomes of a definition -/

namespace Block

/-- The definition as it is read: the body text beside the opener is the first line of the body. -/
def toOpen (b : Block) : Open :=
  ⟨b.opener, b.trigger, b.beside.toList.map b.opener.withText ++ b.below⟩

@[simp] theorem toOpen_opener (b : Block) : b.toOpen.opener = b.opener := rfl

@[simp] theorem toOpen_trigger (b : Block) : b.toOpen.trigger = b.trigger := rfl

@[simp] theorem toOpen_body (b : Block) :
    b.toOpen.body = b.beside.toList.map b.opener.withText ++ b.below := rfl

/-- **Why a definition is rejected**, if it is: it is never closed, or it has a body and its trigger
is no pattern. -/
def fault? (b : Block) : Option Rejected :=
  match b.ending with
  | .missing => some (.neverClosed b.trigger)
  | .onOpener | .below _ =>
      if b.toOpen.bodyText.isEmpty then none
      else
        match compile b.trigger b.toOpen.bodyText (some b.opener.location) with
        | .ok _ => none
        | .error message => some (.invalidPattern b.trigger message)

/-- The lines of a rejected definition that are put back. -/
def putBack (b : Block) : List Line :=
  b.opener :: (b.beside.toList.map b.opener.withText ++ b.below) ++ b.ending.lines

/-- The result for a definition. -/
def extraction (b : Block) : Extraction :=
  match b.ending with
  | .missing => b.toOpen.abandon
  | .onOpener => b.toOpen.close none
  | .below closer => b.toOpen.close (some closer)

/-- What is left of a definition: nothing, unless it is rejected. -/
def kept (b : Block) : List Line := if b.fault?.isSome then b.putBack else []

/-- What is said about a definition: why it is rejected, at the line of its opener. -/
def warning? (b : Block) : Option Diagnostic := b.fault?.map (·.diagnostic b.opener.location)

/-- What is left of a definition that is closed, and what is said about it. -/
theorem close_lines (b : Block) (closer : Option Line) (hends : b.ending.lines = closer.toList)
    (hmissing : b.ending ≠ .missing) :
    (b.toOpen.close closer).lines = b.kept ∧
      (b.toOpen.close closer).diagnostics = b.warning?.toList := by
  have hfault : b.fault? =
      if b.toOpen.bodyText.isEmpty then none
      else
        match compile b.trigger b.toOpen.bodyText (some b.opener.location) with
        | .ok _ => none
        | .error message => some (.invalidPattern b.trigger message) := by
    unfold fault?
    split
    · next h => exact absurd h hmissing
    · rfl
    · rfl
  unfold Open.close kept warning? putBack
  rw [hfault, hends]
  by_cases hbody : b.toOpen.bodyText.isEmpty = true
  · simp [hbody, Extraction.text]
  · rw [if_neg hbody, if_neg hbody]
    cases hcompile : compile b.trigger b.toOpen.bodyText (some b.opener.location) with
    | ok d => simp [hcompile]
    | error message => simp [hcompile]

/-- What is left of a definition, and what is said about it. -/
theorem extraction_lines (b : Block) :
    b.extraction.lines = b.kept ∧ b.extraction.diagnostics = b.warning?.toList := by
  cases hends : b.ending with
  | onOpener =>
      have h := b.close_lines none (by rw [hends]; rfl) (by rw [hends]; simp)
      simpa [extraction, hends] using h
  | below closer =>
      have h := b.close_lines (some closer) (by rw [hends]; rfl) (by rw [hends]; simp)
      simpa [extraction, hends] using h
  | missing =>
      simp [extraction, kept, warning?, fault?, putBack, Open.abandon, hends, Ending.lines]

/-- **A rejected definition comes back unchanged exactly if no body text stands on the line of its
opener**: otherwise it comes back with one line more. -/
theorem kept_eq_source_iff {b : Block} (h : b.fault?.isSome = true) :
    b.kept = b.source ↔ b.beside = none := by
  rw [kept, if_pos h, putBack, source]
  cases hbeside : b.beside with
  | none => simp
  | some t =>
      constructor
      · intro heq
        have := congrArg List.length heq
        simp at this
      · intro heq
        cases heq

end Block

/-! ### Extraction, part by part -/

/-- What is left of a part. -/
def Part.kept : Part → List Line
  | text l => [l]
  | block b => b.kept

/-- What is said about a part. -/
def Part.warnings : Part → List Diagnostic
  | text _ => []
  | block b => b.warning?.toList

/-- The result for a part. -/
def Part.extraction : Part → Extraction
  | text l => .text [l]
  | block b => b.extraction

@[simp] theorem Extraction.append_text_nil (x : Extraction) : x ++ Extraction.text [] = x := by
  cases x
  change Extraction.append _ _ = _
  simp [Extraction.append, Extraction.text]

/-- A definition that is open takes all lines up to its end. -/
theorem extractFrom_some (o : Open) (ls : List Line) :
    extractFrom (some o) ls =
      match ls.dropWhile fun m => !endsBlock m with
      | [] => { o with body := o.body ++ ls }.abandon
      | closer :: rest =>
          { o with body := o.body ++ ls.takeWhile fun m => !endsBlock m }.close (some closer) ++
            extractFrom none rest := by
  induction ls generalizing o with
  | nil => simp [extractFrom]
  | cons l ls ih =>
      by_cases hl : endsBlock l = true
      · have hhead : l.text.head? = some '\x7d' := by simpa [endsBlock] using hl
        simp [extractFrom, hhead, hl]
      · have hhead : l.text.head? ≠ some '\x7d' := by simpa [endsBlock] using hl
        rw [extractFrom, if_neg hhead, ih]
        simp [hl]

/-- The results for parts, one after the other. -/
def extractParts : List Part → Extraction
  | [] => .text []
  | p :: ps => p.extraction ++ extractParts ps

/-- **Extraction treats the parts of a stream one by one.** -/
theorem extract_eq (ls : List Line) : extract ls = extractParts (parts ls) := by
  unfold extract
  fun_induction parts ls with
  | case1 => rfl
  | case2 l ls hopener ih => simp [extractFrom, hopener, ih, extractParts, Part.extraction]
  | case3 l ls trigger body hopener ih =>
      simp [extractFrom, hopener, ih, extractParts, Part.extraction, Block.extraction,
        Block.toOpen]
  | case4 l ls trigger first hopener hrest =>
      simp [extractFrom, hopener, extractFrom_some, hrest, extractParts, Part.extraction,
        Block.extraction, Block.toOpen]
  | case5 l ls trigger first hopener closer rest hrest ih =>
      simp [extractFrom, hopener, extractFrom_some, hrest, ih, extractParts, Part.extraction,
        Block.extraction, Block.toOpen]

theorem lines_extractParts (ps : List Part) : (extractParts ps).lines = ps.flatMap Part.kept := by
  induction ps with
  | nil => rfl
  | cons p ps ih =>
      cases p with
      | text l => simp [extractParts, ih, Part.extraction, Part.kept, Extraction.text]
      | block b => simp [extractParts, ih, Part.extraction, Part.kept, b.extraction_lines.1]

theorem diagnostics_extractParts (ps : List Part) :
    (extractParts ps).diagnostics = ps.flatMap Part.warnings := by
  induction ps with
  | nil => rfl
  | cons p ps ih =>
      cases p with
      | text l => simp [extractParts, ih, Part.extraction, Part.warnings, Extraction.text]
      | block b => simp [extractParts, ih, Part.extraction, Part.warnings, b.extraction_lines.2]

/-! ### Sublists -/

/-- The bodies of the rejected definitions among some parts begin below their openers. -/
def BodiesBelow (ps : List Part) : Prop :=
  ∀ b, .block b ∈ ps → b.fault?.isSome = true → b.beside = none

/-- What is left of parts whose bodies begin below their openers is a sublist of them. -/
theorem kept_sublist_source {ps : List Part} (h : BodiesBelow ps) :
    (ps.flatMap Part.kept).Sublist (ps.flatMap Part.source) := by
  induction ps with
  | nil => exact List.Sublist.refl _
  | cons p ps ih =>
      rw [List.flatMap_cons, List.flatMap_cons]
      refine List.Sublist.append ?_ (ih fun b hb => h b (List.mem_cons_of_mem _ hb))
      cases p with
      | text l => exact List.Sublist.refl _
      | block b =>
          change b.kept.Sublist b.source
          by_cases hfault : b.fault?.isSome = true
          · have hsame := (Block.kept_eq_source_iff hfault).2 (h b List.mem_cons_self hfault)
            exact hsame ▸ List.Sublist.refl _
          · rw [Block.kept, if_neg hfault]
            exact List.nil_sublist _

/-- A body beside its opener comes back at the place of the opener, which is then there twice. -/
theorem not_nodup_of_beside {b : Block} {t : Text} (hfault : b.fault?.isSome = true)
    (hbeside : b.beside = some t) : ¬ (b.kept.map Line.location).Nodup := by
  simp [Block.kept, if_pos hfault, Block.putBack, hbeside]

/-- If the lines of a stream have places of their own, what is left of it is a sublist only if the
bodies of its rejected definitions begin below their openers. -/
theorem bodiesBelow_of_sublist {ls : List Line} (hplaces : (ls.map Line.location).Nodup)
    (h : ((parts ls).flatMap Part.kept).Sublist ls) : BodiesBelow (parts ls) := by
  intro b hb hfault
  cases hbeside : b.beside with
  | none => rfl
  | some t =>
      refine absurd ?_ (not_nodup_of_beside hfault hbeside)
      have hkept : b.kept.Sublist ls := by
        rw [List.flatMap_def] at h
        exact (List.sublist_flatten_of_mem (List.mem_map_of_mem hb)).trans h
      exact hplaces.sublist (hkept.map Line.location)

/-- **What is left of a stream.**  The parts of a stream are the stream; the text among them is
kept, and so is every rejected definition, with one warning at its opener, while any other
definition leaves nothing.  A rejected definition comes back as its own lines exactly if its body
begins below its opener.  If that holds of all of them, the lines that are left are a sublist of the
stream; and it holds whenever they are one and the lines have places of their own. -/
theorem extract_puts_back (ls : List Line) :
    (parts ls).flatMap Part.source = ls ∧
    (extract ls).lines = (parts ls).flatMap Part.kept ∧
    (extract ls).diagnostics = (parts ls).flatMap Part.warnings ∧
    (∀ b, .block b ∈ parts ls →
      (b.fault?.isSome = true → (b.kept = b.source ↔ b.beside = none)) ∧
      (b.fault? = none → b.kept = [])) ∧
    (BodiesBelow (parts ls) → (extract ls).lines.Sublist ls) ∧
    ((ls.map Line.location).Nodup → (extract ls).lines.Sublist ls → BodiesBelow (parts ls)) := by
  have hlines : (extract ls).lines = (parts ls).flatMap Part.kept := by
    rw [extract_eq, lines_extractParts]
  have hwarnings : (extract ls).diagnostics = (parts ls).flatMap Part.warnings := by
    rw [extract_eq, diagnostics_extractParts]
  refine ⟨source_parts ls, hlines, hwarnings, ?_, ?_, ?_⟩
  · intro b _
    refine ⟨Block.kept_eq_source_iff, fun hfault => ?_⟩
    rw [Block.kept, hfault]
    rfl
  · intro h
    rw [hlines]
    have hsub := kept_sublist_source h
    rwa [source_parts] at hsub
  · intro hplaces hsub
    rw [hlines] at hsub
    exact bodiesBelow_of_sublist hplaces hsub

/-- **A body that comes back twice**: the line left behind is not part of the stream. -/
theorem extract_repeats_body :
    (extract [⟨"@define @open \x7b body".toList, "main.mush", 1⟩]).lines =
      [⟨"@define @open \x7b body".toList, "main.mush", 1⟩, ⟨"body".toList, "main.mush", 1⟩] ∧
    ¬ (extract [⟨"@define @open \x7b body".toList, "main.mush", 1⟩]).lines.Sublist
      [⟨"@define @open \x7b body".toList, "main.mush", 1⟩] := by
  have h : (extract [⟨"@define @open \x7b body".toList, "main.mush", 1⟩]).lines =
      [⟨"@define @open \x7b body".toList, "main.mush", 1⟩,
        ⟨"body".toList, "main.mush", 1⟩] := by
    decide +kernel
  refine ⟨h, fun hsub => ?_⟩
  rw [h] at hsub
  have := hsub.length_le
  simp at this

end Macro

end Softcode
