/-
**Blocks close inside their parents.**

The end of a block is found by counting openers and closers in the lines behind its first line,
and the same is done for the blocks in its body, once processing comes to them.  Between the two
the body can change: a loop puts a number for its variable, in the headers of inner blocks too.  A
header can stop being one by this, as `#if{{i}} {` does when it becomes `#if1 {`, and its closer
is then one too many.  But no line becomes a header, and closers stay what they are.

This is enough for every opener in a body to have its closer there.  In a body that was cut out by
counting, all blocks that begin are closed; with fewer openers and the same closers a count that
goes down to zero does so still, only sooner.  So blocks that are never closed are those of the
stream itself, and never those of a body.

Main definitions:

* `Softcode.Template.Closable` — lines in which every opener has a closer;
* `Softcode.Template.FewerOpeners` — lines with fewer openers and the same closers;
* `Softcode.Template.Frame.Sound` — what is known about the frames of the machine.

Main results:

* `Softcode.Template.closable_of_splitBlock?` — the body of a block is closable;
* `Softcode.Template.fewerOpeners_instantiate`, `Softcode.Template.Closable.of_fewerOpeners` — it
  stays so when a number is put in;
* `Softcode.Template.process_closes_inside` — **every opener in a body has its closer there, and
  only blocks of the stream itself are never closed**.
-/

import Mathlib.Data.List.Forall2
import Softcode.Proofs.BlockMachine

set_option autoImplicit false

namespace Softcode

namespace Template

/-! ### Bodies that are cut out -/

/-- Lines in which every opener has its closer, among the lines behind it. -/
def Closable (ls : List Line) : Prop :=
  ∀ l post, (l :: post) <:+ ls → isBlockOpener l.text = true → (splitBlock? 0 post).isSome = true

theorem closable_nil : Closable [] := by
  intro l post h
  cases List.eq_nil_of_suffix_nil h

theorem closable_cons {l : Line} {ls : List Line} :
    Closable (l :: ls) ↔
      (isBlockOpener l.text = true → (splitBlock? 0 ls).isSome = true) ∧ Closable ls := by
  constructor
  · intro h
    refine ⟨h l ls (List.suffix_refl _), fun m post hs => ?_⟩
    exact h m post (hs.trans (List.suffix_cons l ls))
  · rintro ⟨hl, hls⟩ m post hs
    rcases List.suffix_cons_iff.1 hs with heq | hs
    · obtain ⟨rfl, rfl⟩ := List.cons_eq_cons.1 heq
      exact hl
    · exact hls m post hs

theorem Closable.of_suffix {ls ms : List Line} (h : Closable ls) (hs : ms <:+ ls) : Closable ms :=
  fun l post hpost => h l post (hpost.trans hs)

/-- An opener is no closer. -/
theorem isBlockOpener_of_isCloser {s : Text} (h : isCloser s = true) : isBlockOpener s = false := by
  have htrim : Text.trim s = ['\x7d'] := by simpa [isCloser] using h
  unfold isBlockOpener
  rw [htrim]
  rfl

theorem splitBlock?_closer_zero {l : Line} (h : isCloser l.text = true) (ls : List Line) :
    splitBlock? 0 (l :: ls) = some [] := by
  simp [splitBlock?, h, isBlockOpener_of_isCloser h]

theorem splitBlock?_closer_succ {l : Line} (h : isCloser l.text = true) (depth : Nat)
    (ls : List Line) : splitBlock? (depth + 1) (l :: ls) = (splitBlock? depth ls).map (l :: ·) := by
  simp [splitBlock?, h, isBlockOpener_of_isCloser h]

/-- What lies before the end of `depth + 1` blocks has the ends of the inner ones in it. -/
theorem isSome_splitBlock?_body {depth k : Nat} {ls body : List Line}
    (h : splitBlock? depth ls = some body) (hk : k < depth) :
    (splitBlock? k body).isSome = true := by
  fun_induction splitBlock? depth ls generalizing body k with
  | case1 => cases h
  | case2 depth l ls hopener ih =>
      obtain ⟨more, hmore, rfl⟩ := Option.map_eq_some_iff.1 h
      rw [splitBlock?_opener hopener, Option.isSome_map]
      exact ih hmore (Nat.succ_lt_succ hk)
  | case3 l ls hopener hcloser => cases hk
  | case4 l ls hopener hcloser d ih =>
      obtain ⟨more, hmore, rfl⟩ := Option.map_eq_some_iff.1 h
      cases k with
      | zero =>
          rw [splitBlock?_closer_zero hcloser]
          rfl
      | succ k =>
          rw [splitBlock?_closer_succ hcloser, Option.isSome_map]
          exact ih hmore (Nat.lt_of_succ_lt_succ hk)
  | case5 depth l ls hopener hcloser ih =>
      obtain ⟨more, hmore, rfl⟩ := Option.map_eq_some_iff.1 h
      rw [splitBlock?_plain (Bool.eq_false_iff.2 hopener) (Bool.eq_false_iff.2 hcloser),
        Option.isSome_map]
      exact ih hmore hk

/-- **The body of a block is closable.** -/
theorem closable_of_splitBlock? {depth : Nat} {ls body : List Line}
    (h : splitBlock? depth ls = some body) : Closable body := by
  fun_induction splitBlock? depth ls generalizing body with
  | case1 => cases h
  | case2 depth l ls hopener ih =>
      obtain ⟨more, hmore, rfl⟩ := Option.map_eq_some_iff.1 h
      exact closable_cons.2
        ⟨fun _ => isSome_splitBlock?_body hmore (Nat.succ_pos depth), ih hmore⟩
  | case3 l ls hopener hcloser =>
      obtain rfl := Option.some.inj h
      exact closable_nil
  | case4 l ls hopener hcloser d ih | case5 depth l ls hopener hcloser ih =>
      obtain ⟨more, hmore, rfl⟩ := Option.map_eq_some_iff.1 h
      exact closable_cons.2 ⟨fun hl => absurd hl hopener, ih hmore⟩

/-! ### Putting a number in -/

/-- The second lines come from the first with fewer openers and the same closers. -/
def FewerOpeners : List Line → List Line → Prop :=
  List.Forall₂ fun l m => (isBlockOpener m.text = true → isBlockOpener l.text = true) ∧
    isCloser m.text = isCloser l.text

theorem not_mem_of_isCloser {s : Text} (h : isCloser s = true) : '\x7b' ∉ s := by
  have htrim : Text.trim s = ['\x7d'] := by simpa [isCloser] using h
  obtain ⟨b₁, b₂, hb₁, hb₂, hs⟩ := Text.exists_blanks_trim s
  rw [hs, htrim]
  intro hmem
  simp only [List.mem_append, List.mem_cons, List.not_mem_nil, or_false] at hmem
  rcases hmem with hmem | hmem | hmem
  · exact absurd (hb₁ _ hmem) (by decide)
  · cases hmem
  · exact absurd (hb₂ _ hmem) (by decide)

/-- **Putting a number in leaves fewer openers and the same closers.** -/
theorem fewerOpeners_instantiate (var : Text) (value : Int) (body : List Line) :
    FewerOpeners body (instantiate var value body) := by
  have hold : placeholder var ≠ [] := List.cons_ne_nil _ _
  refine List.forall₂_map_right_iff.2 (List.forall₂_same.2 fun l _ => ⟨?_, ?_⟩)
  · exact isBlockOpener_of_replaceText hold value
  · refine Bool.eq_iff_iff.2 ⟨isCloser_of_replaceText hold value, fun hcloser => ?_⟩
    have hsame : replaceText (placeholder var) (Text.ofInt value) l.text = l.text :=
      replaceText_of_not_mem hold List.mem_cons_self (not_mem_of_isCloser hcloser)
    exact (congrArg isCloser hsame).trans hcloser

/-- With fewer openers the end of a block is still found. -/
theorem FewerOpeners.isSome_splitBlock? {ls ms : List Line} (h : FewerOpeners ls ms)
    {depth k : Nat} (hk : k ≤ depth) (hls : (splitBlock? depth ls).isSome = true) :
    (splitBlock? k ms).isSome = true := by
  induction h generalizing depth k with
  | nil => cases hls
  | @cons l m ls ms hlm _ ih =>
      obtain ⟨hopener, hcloser⟩ := hlm
      by_cases hl : isBlockOpener l.text = true
      · rw [splitBlock?_opener hl, Option.isSome_map] at hls
        by_cases hm : isBlockOpener m.text = true
        · rw [splitBlock?_opener hm, Option.isSome_map]
          exact ih (Nat.succ_le_succ hk) hls
        · -- the opener has become text, so the count is further down from here on
          have hm' : isCloser m.text = false := by
            refine Bool.eq_false_iff.2 fun hc => ?_
            exact absurd hl (by rw [isBlockOpener_of_isCloser (hcloser ▸ hc)]; decide)
          rw [splitBlock?_plain (Bool.eq_false_iff.2 hm) hm', Option.isSome_map]
          exact ih (Nat.le_succ_of_le hk) hls
      · by_cases hc : isCloser l.text = true
        · cases k with
          | zero =>
              rw [splitBlock?_closer_zero (hcloser.trans hc)]
              rfl
          | succ k =>
              obtain ⟨d, rfl⟩ : ∃ d, depth = d + 1 := ⟨depth - 1, by omega⟩
              rw [splitBlock?_closer_succ hc, Option.isSome_map] at hls
              rw [splitBlock?_closer_succ (hcloser.trans hc), Option.isSome_map]
              exact ih (Nat.le_of_succ_le_succ hk) hls
        · have hm : isBlockOpener m.text = false := Bool.eq_false_iff.2 fun hm => hl (hopener hm)
          have hc' := Bool.eq_false_iff.2 hc
          rw [splitBlock?_plain (Bool.eq_false_iff.2 hl) hc', Option.isSome_map] at hls
          rw [splitBlock?_plain hm (hcloser.trans hc'), Option.isSome_map]
          exact ih hk hls

theorem Closable.of_fewerOpeners {ls ms : List Line} (h : FewerOpeners ls ms)
    (hls : Closable ls) : Closable ms := by
  induction h with
  | nil => exact hls
  | cons hlm hrest ih =>
      obtain ⟨hl, hls'⟩ := closable_cons.1 hls
      refine closable_cons.2 ⟨fun hm => ?_, ih hls'⟩
      exact FewerOpeners.isSome_splitBlock? hrest (Nat.le_refl 0) (hl (hlm.1 hm))

/-! ### The machine -/

/-- What is known about the frames of a machine that began with `lines`, where blocks may nest
`depth` levels: lines of that depth are the last ones of the stream, and bodies are closable. -/
def Frame.Sound (depth : Nat) (lines : List Line) : Frame → Prop
  | .lines d rest => (d = depth ∧ rest <:+ lines) ∨ (d < depth ∧ Closable rest)
  | .loop d _ body _ _ _ _ => d < depth ∧ Closable body

section Machine

variable {debug : Bool} {depth : Nat} {lines : List Line} {f : Frame} {gs : List Frame}
  {e e' : Expander}

theorem Frame.Sound.of_suffix {d : Nat} {rest ls : List Line}
    (h : (Frame.lines d rest).Sound depth lines) (hs : ls <:+ rest) :
    (Frame.lines d ls).Sound depth lines := by
  rcases h with ⟨hd, hrest⟩ | ⟨hd, hrest⟩
  · exact Or.inl ⟨hd, hs.trans hrest⟩
  · exact Or.inr ⟨hd, hrest.of_suffix hs⟩

theorem Frame.Sound.lt {d : Nat} {rest : List Line}
    (h : (Frame.lines (d + 1) rest).Sound depth lines) : d < depth := by
  rcases h with ⟨hd, -⟩ | ⟨hd, -⟩ <;> omega

theorem Block.after_suffix (b : Block) : b.after <:+ b.lines :=
  ⟨b.first :: (b.body ++ [b.closer]), by simp [Block.lines]⟩

/-- Every step keeps what is known about the frames. -/
theorem Work.sound (h : Work debug f e gs e') (hf : f.Sound depth lines) :
    ∀ g ∈ gs, g.Sound depth lines := by
  cases h with
  | done | left | full => exact List.forall_mem_nil _
  | text | malformed | unclosed =>
      exact List.forall_mem_singleton.2 (hf.of_suffix (List.suffix_cons _ _))
  | passed b | excluded b => exact List.forall_mem_singleton.2 (hf.of_suffix b.after_suffix)
  | body b =>
      exact List.forall_mem_cons.2 ⟨Or.inr ⟨hf.lt, closable_of_splitBlock? b.split⟩,
        List.forall_mem_singleton.2 (hf.of_suffix b.after_suffix)⟩
  | loop b =>
      exact List.forall_mem_cons.2 ⟨⟨hf.lt, closable_of_splitBlock? b.split⟩,
        List.forall_mem_singleton.2 (hf.of_suffix b.after_suffix)⟩
  | round =>
      exact List.forall_mem_cons.2
        ⟨Or.inr ⟨hf.1, hf.2.of_fewerOpeners (fewerOpeners_instantiate _ _ _)⟩,
          List.forall_mem_singleton.2 hf⟩

theorem sound_iterate (debug : Bool) (depth : Nat) (lines : List Line) (e : Expander) (n : Nat) :
    ∀ f ∈ ((Config.step debug)^[n] ⟨[.lines depth lines], e⟩).frames, f.Sound depth lines := by
  refine Config.iterate_induction (P := fun c => ∀ f ∈ c.frames, f.Sound depth lines) ?_ ?_ n
  · exact List.forall_mem_singleton.2 (Or.inl ⟨rfl, List.suffix_refl lines⟩)
  · intro f fs gs e e' hsound hwork
    obtain ⟨hf, hfs⟩ := List.forall_mem_cons.1 hsound
    exact List.forall_mem_append.2 ⟨hwork.sound hf, hfs⟩

/-- In a body every opener has its closer, so lines without one are those of the stream. -/
theorem Frame.Sound.of_unclosed {d : Nat} {l : Line} {ls : List Line} {o : Opener}
    (h : (Frame.lines d (l :: ls)).Sound depth lines) (hparse : parseOpener? l.text = some o)
    (hsplit : splitBlock? 0 ls = none) : d = depth ∧ (l :: ls) <:+ lines := by
  rcases h with hstream | ⟨-, hbody⟩
  · exact hstream
  · have hsome := (closable_cons.1 hbody).1 (isBlockOpener_of_parseOpener? hparse)
    rw [hsplit] at hsome
    cases hsome

/-! ### Warnings -/

/-- The warnings about blocks that are never closed. -/
def Expander.unclosedWarnings (e : Expander) : List Diagnostic :=
  e.warnings.filter (·.code == Fault.neverClosed.code)

theorem unclosedWarnings_warn {f : Fault} (hf : f ≠ .neverClosed) (e : Expander) (l : Line) :
    (e.warn f l).unclosedWarnings = e.unclosedWarnings := by
  refine List.filter_cons_of_neg ?_
  cases f with
  | neverClosed => exact absurd rfl hf
  | _ => exact Bool.false_ne_true

theorem unclosedWarnings_leaveLoop (e : Expander) (mark : Nat) :
    (e.leaveLoop mark).unclosedWarnings = e.unclosedWarnings := by
  rw [Expander.leaveLoop]
  split <;> rfl

/-- A step gives no such warning, except at a line whose block is not closed behind it. -/
theorem Work.unclosedWarnings (h : Work debug f e gs e') :
    e'.unclosedWarnings = e.unclosedWarnings ∨
      ∃ d l ls o, f = .lines d (l :: ls) ∧ parseOpener? l.text = some o ∧
        splitBlock? 0 ls = none ∧
        e'.unclosedWarnings = Fault.neverClosed.diagnostic l :: e.unclosedWarnings := by
  cases h with
  | done | text | passed | body | loop | round => exact Or.inl rfl
  | malformed directive => exact Or.inl (unclosedWarnings_warn (by simp) e _)
  | @unclosed d l ls e o hparse hsplit => exact Or.inr ⟨d, l, ls, o, rfl, hparse, hsplit, rfl⟩
  | excluded b hf => exact Or.inl (unclosedWarnings_warn hf e b.first)
  | left => exact Or.inl (unclosedWarnings_leaveLoop e _)
  | full =>
      exact Or.inl ((unclosedWarnings_leaveLoop _ _).trans (unclosedWarnings_warn (by simp) e _))

end Machine

/-- A line of a stream that begins a block for which no line behind it is the end. -/
def BeginsUnclosed (lines : List Line) (l : Line) : Prop :=
  ∃ ls o, (l :: ls) <:+ lines ∧ parseOpener? l.text = some o ∧ splitBlock? 0 ls = none

/-- Warnings about blocks that are never closed are about lines of the stream. -/
theorem unclosedWarnings_iterate (debug : Bool) (depth : Nat) (lines : List Line) (e : Expander)
    (n : Nat) :
    ∀ w ∈ ((Config.step debug)^[n] ⟨[.lines depth lines], e⟩).state.unclosedWarnings,
      w ∈ e.unclosedWarnings ∨
        ∃ l, BeginsUnclosed lines l ∧ w = Fault.neverClosed.diagnostic l := by
  refine (Config.iterate_induction (P := fun c => (∀ f ∈ c.frames, f.Sound depth lines) ∧
    ∀ w ∈ c.state.unclosedWarnings, w ∈ e.unclosedWarnings ∨
      ∃ l, BeginsUnclosed lines l ∧ w = Fault.neverClosed.diagnostic l) ?_ ?_ n).2
  · exact ⟨sound_iterate debug depth lines e 0, fun w hw => Or.inl hw⟩
  · rintro f fs gs e₁ e₂ ⟨hsound, hwarnings⟩ hwork
    obtain ⟨hf, hfs⟩ := List.forall_mem_cons.1 hsound
    refine ⟨List.forall_mem_append.2 ⟨hwork.sound hf, hfs⟩, ?_⟩
    rcases hwork.unclosedWarnings with hsame | ⟨d, l, ls, o, rfl, hparse, hsplit, hnew⟩
    · rw [hsame]
      exact hwarnings
    · obtain ⟨-, hsuffix⟩ := hf.of_unclosed hparse hsplit
      rw [hnew]
      exact List.forall_mem_cons.2
        ⟨Or.inr ⟨l, ⟨ls, o, hsuffix, hparse, hsplit⟩, rfl⟩, hwarnings⟩

/-- **Every opener in a body has its closer there, and only blocks of the stream itself are never
closed.**  The machine that processes lines stops with what processing computes.  Whenever it
reads a line of a body, which is one level down or more, and the line is an opener, the line that
closes it is among those that are left of the body.  A step that warns of a block that is never
closed reads a line of the stream, on the first level, and so all these warnings are about lines
of the stream for which no line behind them is the end. -/
theorem process_closes_inside (debug : Bool) (depth : Nat) (lines : List Line) (e : Expander) :
    (∃ n, (Config.step debug)^[n] ⟨[.lines depth lines], e⟩ =
      ⟨[], process debug depth lines e⟩) ∧
    (∀ n d l ls fs o,
      ((Config.step debug)^[n] ⟨[.lines depth lines], e⟩).frames = .lines d (l :: ls) :: fs →
      d < depth → parseOpener? l.text = some o →
        ∃ body closer after, splitBlock? 0 ls = some body ∧ ls = body ++ closer :: after ∧
          isCloser closer.text = true) ∧
    (∀ n, ((Config.step debug)^[n + 1] ⟨[.lines depth lines], e⟩).state.unclosedWarnings ≠
        ((Config.step debug)^[n] ⟨[.lines depth lines], e⟩).state.unclosedWarnings →
      ∃ l ls fs, ((Config.step debug)^[n] ⟨[.lines depth lines], e⟩).frames =
        .lines depth (l :: ls) :: fs ∧ (l :: ls) <:+ lines) ∧
    ∀ w ∈ (process debug depth lines e).unclosedWarnings,
      w ∈ e.unclosedWarnings ∨
        ∃ l, BeginsUnclosed lines l ∧ w = Fault.neverClosed.diagnostic l := by
  have hstop := reaches_process debug depth lines e []
  refine ⟨hstop, ?_, ?_, ?_⟩
  · intro n d l ls fs o hframes hdepth hparse
    have hsound := sound_iterate debug depth lines e n
    rw [hframes] at hsound
    rcases (List.forall_mem_cons.1 hsound).1 with ⟨rfl, -⟩ | ⟨-, hbody⟩
    · exact absurd hdepth (Nat.lt_irrefl d)
    · obtain ⟨body, hsplit⟩ := Option.isSome_iff_exists.1
        ((closable_cons.1 hbody).1 (isBlockOpener_of_parseOpener? hparse))
      obtain ⟨closer, after, hls, hcloses⟩ := exists_closer hsplit
      exact ⟨body, closer, after, hsplit, hls, hcloses⟩
  · intro n hnew
    have hsound := sound_iterate debug depth lines e n
    rw [Function.iterate_succ_apply'] at hnew
    generalize (Config.step debug)^[n] ⟨[.lines depth lines], e⟩ = c at hnew hsound ⊢
    obtain ⟨frames, e₁⟩ := c
    cases frames with
    | nil => exact absurd rfl hnew
    | cons f fs =>
        rcases (f.work_spec debug e₁).unclosedWarnings with
          hsame | ⟨d, l, ls, o, rfl, hparse, hsplit, -⟩
        · exact absurd hsame hnew
        · obtain ⟨rfl, hsuffix⟩ := (List.forall_mem_cons.1 hsound).1.of_unclosed hparse hsplit
          exact ⟨l, ls, fs, rfl, hsuffix⟩
  · obtain ⟨n, hn⟩ := hstop
    have hwarnings := unclosedWarnings_iterate debug depth lines e n
    rw [hn] at hwarnings
    exact hwarnings

/-! ### A header that becomes text -/

/-- What is left of the body of the loop

    #for i in range(1, 1) {
    #if{{i}} {
    #if 1 {
    a
    }
    }
    }

behind its second header: the first one becomes text, so there is a closer too many. -/
def behindHeader : List Line := [⟨['a'], "main", 4⟩, ⟨['\x7d'], "main", 5⟩, ⟨['\x7d'], "main", 6⟩]

/-- The second header. -/
def keptHeader : Line := ⟨['#', 'i', 'f', ' ', '1', ' ', '\x7b'], "main", 3⟩

/-- The loop. -/
def vanishingHeader : List Line :=
  ⟨['#', 'f', 'o', 'r', ' ', 'i', ' ', 'i', 'n', ' ', 'r', 'a', 'n', 'g', 'e', '(', '1', ',', ' ',
      '1', ')', ' ', '\x7b'], "main", 1⟩ ::
    ⟨['#', 'i', 'f'] ++ placeholder ['i'] ++ [' ', '\x7b'], "main", 2⟩ ::
    keptHeader :: behindHeader ++ [⟨['\x7d'], "main", 7⟩]

theorem process_closes_inside_vanishing :
    (∃ fs, ((Config.step false)^[3] ⟨[.lines maxDepth vanishingHeader], .start⟩).frames =
      .lines 63 (keptHeader :: behindHeader) :: fs) ∧
    ∃ body closer after, splitBlock? 0 behindHeader = some body ∧
      behindHeader = body ++ closer :: after ∧ isCloser closer.text = true := by
  have hframes : ((Config.step false)^[3] ⟨[.lines maxDepth vanishingHeader], .start⟩).frames =
      .lines 63 (keptHeader :: behindHeader) :: _ := rfl
  refine ⟨⟨_, hframes⟩, ?_⟩
  exact (process_closes_inside false maxDepth vanishingHeader .start).2.1 3 63 keptHeader
    behindHeader _ (.cond ['1']) hframes (by decide) (by decide +kernel)

end Template

end Softcode
