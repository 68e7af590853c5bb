/-
**The brackets of a stripped stream.**

The linter and the stripper of comments walk over a line in the same way, and what the linter counts
is never part of a comment.  So one would expect a stream and what is left of it to have the same
word of brackets.  Line by line this comes down to two things: the walk over what is left gives
every character the role that it had before, and both agree on which lines they read at all.

Both can fail.  An address that comes to stand behind a word is none any more, and its slashes hide
the rest of the line.  A line that begins with a comment may have a marker behind it, which is at
the front when the comment is gone.  And the linter passes over a line with a marker even where a block
comment is open, so that it misses the end of the comment, while the stripper reads such a line.
Everywhere else the two words are the same.

Main definitions:

* `Softcode.Lint.ReadAlike` — **a line of which the linter and the stripper make the same**;
* `Softcode.Lint.AllReadAlike` — a stream of such lines.

Main results:

* `Softcode.Scanner.Tracks.zip_roles` — **what is left of a text keeps its roles**;
* `Softcode.Lint.countedBrackets_stripLine` — what is left of a line has the same brackets;
* `Softcode.Lint.bracketWordIn_strippedLine` — what one line adds to the two words;
* `Softcode.Lint.bracketWordIn_stripFrom` — **the two words are the same**;
* `Softcode.Lint.lint_stripComments_iff` — the linter finds brackets that do not match in a stream
  exactly if it finds some in what is left of it.
-/

import Softcode.Proofs.Balance
import Softcode.Proofs.Rescanning

set_option autoImplicit false

namespace Softcode

namespace Scanner

/-! ### Roles that are kept -/

/-- **What is left of a text keeps its roles**, unless an address comes to stand inside a word. -/
theorem Tracks.zip_roles {s s' : Scanner} {before before' : Option Char} {behind : Bool} {t : Text}
    (h : Tracks s before t s' before' behind)
    (hjoin : joinsWord before' behind (t.zip (s.roles before t).1) = false) :
    (s.kept before t).zip (s'.roles before' (s.kept before t)).1 =
      (t.zip (s.roles before t).1).filter fun p => decide (p.2 ≠ .comment) := by
  induction t generalizing s s' before before' behind with
  | nil => rfl
  | cons c rest ih =>
      have hout := h.step
      rw [roles_cons, List.zip_cons_cons] at hjoin ⊢
      rw [joinsWord, Bool.or_eq_false_iff] at hjoin
      obtain ⟨hhere, hjoin⟩ := hjoin
      generalize hstep : s.step before c rest = out at hout hhere hjoin ⊢
      cases hout with
      | comment hnext =>
          rw [kept_of_comment (by rw [hstep]), hstep, List.filter_cons_of_neg (by simp)]
          exact ih hnext hjoin
      | joined hbehind hword hmeets =>
          rw [hbehind, hword] at hhere
          cases hhere
      | same hrole hside hstep' hnext =>
          rw [if_neg hrole, decide_eq_false hrole] at hjoin
          rw [kept_of_ne (by rw [hstep]; exact hrole), hstep, roles_cons, hstep',
            List.zip_cons_cons, List.filter_cons_of_pos (by simpa using hrole)]
          exact congrArg _ (ih hnext hjoin)

/-- A walk that meets no comment ends outside comments. -/
theorem OutsideComment.roles {s : Scanner} (h : OutsideComment s) {before : Option Char} {t : Text}
    (hnone : Role.comment ∉ (s.roles before t).1) : OutsideComment (s.roles before t).2 := by
  induction t generalizing s before with
  | nil => exact h
  | cons c rest ih =>
      rw [comment_mem_roles_cons, not_or] at hnone
      exact ih ((h.step before c rest).resolve_left hnone.1) hnone.2

/-- Outside comments the next line begins in code. -/
theorem OutsideComment.nextLine {s : Scanner} (h : OutsideComment s) : s.mode.nextLine = .code := by
  cases h with
  | code role => rfl
  | quoted q role => rfl
  | pending n hm hrole =>
      rcases hm with rfl | ⟨q, rfl⟩
      · rfl
      · rfl

/-- Blanks at the end of a text without comments change no role. -/
theorem OutsideComment.roles_append_blanks {s : Scanner} (h : OutsideComment s) {z : Text}
    (hz : Text.AllBlank z) {before : Option Char} {t : Text}
    (hnone : Role.comment ∉ (s.roles before t).1) :
    ∃ more, (s.roles before (t ++ z)).1 = (s.roles before t).1 ++ more := by
  induction t generalizing s before with
  | nil => exact ⟨(s.roles before z).1, rfl⟩
  | cons c rest ih =>
      rw [comment_mem_roles_cons, not_or] at hnone
      obtain ⟨more, hmore⟩ := ih ((h.step before c rest).resolve_left hnone.1) hnone.2
      have hstep : s.step before c (rest ++ z) = s.step before c rest := by
        rcases h.step_cases c with ⟨role, rfl⟩ | ⟨role, s₁, -, -, hstep⟩
        · exact step_append_blanks hz
        · rw [hstep, hstep]
      refine ⟨more, ?_⟩
      rw [List.cons_append, roles_cons, hstep, hmore, roles_cons, List.cons_append]

end Scanner

/-- A line without comments leaves the next one in code. -/
theorem nextLine_scanLine_of_not_hasComment {t : Text} (h : ¬ HasComment t) :
    (scanLine .code t).2.nextLine = .code :=
  (Scanner.OutsideComment.roles (.code .code) h).nextLine

namespace Lint

/-! ### Brackets that are counted -/

theorem countedBrackets_append (ps qs : List (Char × Role)) :
    countedBrackets (ps ++ qs) = countedBrackets ps ++ countedBrackets qs :=
  List.filterMap_append

/-- Nothing in a comment is counted. -/
theorem countedBrackets_filter (ps : List (Char × Role)) :
    countedBrackets (ps.filter fun p => decide (p.2 ≠ .comment)) = countedBrackets ps := by
  rw [countedBrackets, List.filterMap_filter]
  refine List.filterMap_congr fun p _ => ?_
  by_cases hcomment : p.2 = .comment
  · simp [hcomment]
  · simp [hcomment]

/-- A blank is no bracket. -/
theorem countedBrackets_blanks {z : Text} (hz : Text.AllBlank z) (roles : List Role) :
    countedBrackets (z.zip roles) = [] := by
  refine List.filterMap_eq_nil_iff.2 fun p hp => if_neg fun hcounts => ?_
  have hbracket : isBracket p.1 = false :=
    forall_blank (p := fun c => isBracket c = false) (by decide +kernel)
      (hz p.1 (List.of_mem_zip hp).1)
  rw [hbracket] at hcounts
  exact Bool.false_ne_true hcounts.2

/-- Blanks at the end of a line without comments do not matter. -/
theorem countedBrackets_append_blanks {t z : Text} (hz : Text.AllBlank z) (h : ¬ HasComment t) :
    countedBrackets ((t ++ z).zip (scanLine .code (t ++ z)).1) =
      countedBrackets (t.zip (scanLine .code t).1) := by
  obtain ⟨more, hmore⟩ := Scanner.OutsideComment.roles_append_blanks (.code .code) hz h
  have hroles : (scanLine .code (t ++ z)).1 = (scanLine .code t).1 ++ more := hmore
  have hlength : t.length = (scanLine .code t).1.length := (Scanner.length_roles _ _ _).symm
  rw [hroles, List.zip_append hlength, countedBrackets_append, countedBrackets_blanks hz,
    List.append_nil]

theorem countedBrackets_trimEnd {t : Text} (h : ¬ HasComment t) :
    countedBrackets ((Text.trimEnd t).zip (scanLine .code (Text.trimEnd t)).1) =
      countedBrackets (t.zip (scanLine .code t).1) := by
  obtain ⟨z, hz, ht⟩ := Text.exists_trimEnd_blanks t
  have happend := countedBrackets_append_blanks hz (mt (hasComment_trimEnd t).1 h)
  rw [← ht] at happend
  exact happend.symm

/-- **What is left of a line has the same brackets**, unless an address comes to stand inside a
word. -/
theorem countedBrackets_stripLine {mode : Mode} (hmode : mode.IsStart) {t : Text}
    (hjoin : ¬ JoinsWord mode t) :
    countedBrackets ((stripLine mode t).1.zip (scanLine .code (stripLine mode t).1).1) =
      countedBrackets (t.zip (scanLine mode t).1) := by
  have hnone : ¬ HasComment (stripLine mode t).1 := mt (stripLine_hasComment hmode t).1 hjoin
  have hkept : countedBrackets (((Scanner.start mode).kept none t).zip
      (scanLine .code ((Scanner.start mode).kept none t)).1) =
        countedBrackets (t.zip (scanLine mode t).1) := by
    have hapart := Bool.eq_false_iff.2 (mt joinsWord_iff_start.1 hjoin)
    rw [← countedBrackets_filter (t.zip (scanLine mode t).1)]
    exact congrArg countedBrackets ((hmode.tracks t).zip_roles hapart)
  rcases stripLine_eq mode t with hstrip | hstrip
  · rw [hstrip, hasComment_trimEnd] at hnone
    rw [hstrip, countedBrackets_trimEnd hnone, hkept]
  · rw [hstrip, hkept]

/-! ### One line -/

/-- A line that begins with one of the two markers. -/
def hasMarker (t : Text) : Bool := isRawText t || isDroppedText t

/-- **A line of which the linter and the stripper make the same**, where it begins in the given
mode.  Both leave it alone for its marker; or it lies inside a block comment as a whole; or both
read it, what is left of it has no marker either, and no comment stands between a word and an
address. -/
inductive ReadAlike (mode : Mode) (t : Text) : Prop where
  | marked (hmode : mode ≠ .block) (hmarker : hasMarker t = true)
  | inside (hmode : mode = .block) (hinside : stripLine .block t = ([], .block))
  | read (hmarker : hasMarker t = false) (hleft : hasMarker (stripLine mode t).1 = false)
      (hjoin : ¬ JoinsWord mode t)

/-- The brackets that the linter finds in a line. -/
def lineBrackets (mode : Mode) (t : Text) : List Bracket :=
  if hasMarker t then [] else countedBrackets (t.zip (scanLine mode t).1)

/-- The mode in which the linter begins the next line. -/
def lintedMode (mode : Mode) (t : Text) : Mode :=
  if hasMarker t then mode else (scanLine mode t).2.nextLine

theorem bracketWordIn_cons (mode : Mode) (l : Line) (ls : List Line) :
    bracketWordIn mode (l :: ls) =
      lineBrackets mode l.text ++ bracketWordIn (lintedMode mode l.text) ls := by
  rw [bracketWordIn, lineBrackets, lintedMode, hasMarker]
  split
  · rfl
  · rfl

/-- Lines that are read alike leave the linter and the stripper in the same mode. -/
theorem ReadAlike.lintedMode_eq {mode : Mode} {l : Line} (h : ReadAlike mode l.text) :
    lintedMode mode l.text = mode.behind l := by
  have hmarks : (isDroppedText l.text = true ∨ isRawText l.text = true) ↔
      hasMarker l.text = true := by
    rw [hasMarker, Bool.or_eq_true, or_comm]
  unfold lintedMode Mode.behind
  cases h with
  | marked hmode hmarker => rw [if_pos hmarker, if_pos ⟨hmode, hmarks.2 hmarker⟩]
  | inside hmode hinside =>
      subst hmode
      have hlast : (scanLine .block l.text).2 = .block := congrArg Prod.snd hinside
      rw [hinside, hlast]
      exact (ite_self _).trans (ite_self _).symm
  | read hmarker hleft hjoin =>
      have hread : ¬ hasMarker l.text = true := by simp [hmarker]
      rw [if_neg hread, if_neg fun h => hread (hmarks.1 h.2)]
      rfl

/-- **What a line adds to the two words is the same.** -/
theorem bracketWordIn_strippedLine {mode : Mode} (hmode : mode.IsStart) {l : Line}
    (h : ReadAlike mode l.text) (rest : List Line) :
    bracketWordIn .code ((strippedLine? mode l).toList ++ rest) =
      lineBrackets mode l.text ++ bracketWordIn .code rest := by
  cases h with
  | marked hcode hmarker =>
      have hnone : ∀ mode, lineBrackets mode l.text = [] := fun mode => if_pos hmarker
      rw [hnone, List.nil_append]
      by_cases hdropped : isDroppedText l.text = true
      · rw [strippedLine?, if_pos ⟨hcode, hdropped⟩]
        rfl
      · have hraw : isRawText l.text = true :=
          (Bool.or_eq_true_iff.1 hmarker).resolve_right hdropped
        rw [strippedLine?_raw hcode hraw, Option.toList_some, List.singleton_append,
          bracketWordIn_cons, hnone, lintedMode, if_pos hmarker, List.nil_append]
  | inside hblock hinside =>
      subst hblock
      have hjoin : ¬ JoinsWord .block l.text := by
        rw [← stripLine_hasComment hmode, hinside]
        exact List.not_mem_nil
      have hnone : lineBrackets .block l.text = [] := by
        have hcounted := countedBrackets_stripLine hmode hjoin
        rw [hinside] at hcounted
        rw [lineBrackets, ← hcounted]
        exact ite_self _
      rw [hnone, strippedLine?, if_neg fun h => h.1 rfl, if_neg fun h => h.1 rfl, hinside]
      rfl
  | read hmarker hleft hjoin =>
      obtain ⟨hraw, hdropped⟩ := Bool.or_eq_false_iff.1 hmarker
      have hcounted := countedBrackets_stripLine hmode hjoin
      have hline : lineBrackets mode l.text =
          countedBrackets (l.text.zip (scanLine mode l.text).1) := if_neg (by simp [hmarker])
      rw [strippedLine?, if_neg (by simp [hdropped]), if_neg (by simp [hraw]), hline, ← hcounted]
      split
      · next hblank =>
          rw [countedBrackets_blanks (List.all_eq_true.1 hblank)]
          rfl
      · have hnext := nextLine_scanLine_of_not_hasComment
          (mt (stripLine_hasComment hmode _).1 hjoin)
        have hread : ¬ hasMarker (stripLine mode l.text).1 = true := by simp [hleft]
        rw [Option.toList_some, List.singleton_append, bracketWordIn_cons, Line.withText_text,
          lineBrackets, if_neg hread, lintedMode, if_neg hread, hnext]

/-! ### Streams -/

/-- A stream of lines that are read alike, each in the mode that the lines before it end in. -/
def AllReadAlike (mode : Mode) (ls : List Line) : Prop :=
  ∀ before l after, ls = before ++ l :: after → ReadAlike (mode.after before) l.text

theorem allReadAlike_nil (mode : Mode) : AllReadAlike mode [] := fun before _ _ h =>
  absurd h.symm (List.append_ne_nil_of_right_ne_nil before (List.cons_ne_nil _ _))

theorem allReadAlike_cons {mode : Mode} {l : Line} {ls : List Line} :
    AllReadAlike mode (l :: ls) ↔ ReadAlike mode l.text ∧ AllReadAlike (mode.behind l) ls := by
  constructor
  · intro h
    refine ⟨h [] l ls rfl, ?_⟩
    rintro before m after rfl
    exact h (l :: before) m after rfl
  · rintro ⟨hl, hls⟩ before m after heq
    cases before with
    | nil =>
        obtain ⟨rfl, rfl⟩ := List.cons.inj heq
        exact hl
    | cons k before =>
        obtain ⟨rfl, rfl⟩ := List.cons.inj heq
        exact hls before m after rfl

/-- **The two words are the same.** -/
theorem bracketWordIn_stripFrom {mode : Mode} (hmode : mode.IsStart) {ls : List Line}
    (h : AllReadAlike mode ls) :
    bracketWordIn .code (stripFrom mode ls) = bracketWordIn mode ls := by
  induction ls generalizing mode with
  | nil => rfl
  | cons l ls ih =>
      obtain ⟨hl, hls⟩ := allReadAlike_cons.1 h
      rw [stripFrom_cons, bracketWordIn_strippedLine hmode hl, ih (hmode.behind l) hls,
        bracketWordIn_cons, hl.lintedMode_eq]

/-- **The linter and the stripper read the same text**, if every line is read alike: a stream and
what is left of it have the same word of brackets, and so the linter, unless one of its two rules is
off, reports brackets that do not match in the one exactly if it does in the other. -/
theorem lint_stripComments_iff (ls : List Line) (h : AllReadAlike .code ls) :
    bracketWord (stripComments ls) = bracketWord ls ∧
      ∀ o : Options, o.level bracketsRule ≠ .off → o.level parensRule ≠ .off →
        ((∃ d ∈ (lint o ls).diagnostics, d.code = "MF-LINT-0001" ∨ d.code = "MF-LINT-0002") ↔
          ∃ d ∈ (lint o (stripComments ls)).diagnostics,
            d.code = "MF-LINT-0001" ∨ d.code = "MF-LINT-0002") := by
  have hword : bracketWord (stripComments ls) = bracketWord ls :=
    bracketWordIn_stripFrom (Or.inl rfl) h
  refine ⟨hword, fun o hbrackets hparens => ?_⟩
  have hlint := matched_iff_lint hbrackets hparens ls
  have hstripped := matched_iff_lint hbrackets hparens (stripComments ls)
  rw [hword] at hstripped
  exact not_iff_not.1 (hlint.symm.trans hstripped)

/-- Lines of all kinds: a comment over three lines, in which a line with a marker and brackets lie,
brackets in quotes, a comment at the end of a line and a raw line. -/
def alikeLines : List Line := [
  ⟨"f([a /* (".toList, "main", 1⟩, ⟨"@@ ]".toList, "main", 2⟩,
  ⟨") */ \"(\" // ]".toList, "main", 3⟩, ⟨"@@ [".toList, "main", 4⟩, ⟨")]".toList, "main", 5⟩]

theorem allReadAlike_alikeLines : AllReadAlike .code alikeLines := by
  have hread : ∀ {mode : Mode} {t : Text}, mode.IsStart → hasMarker t = false →
      hasMarker (stripLine mode t).1 = false → ¬ HasComment (stripLine mode t).1 →
      ReadAlike mode t :=
    fun hmode hmarker hleft hnone => .read hmarker hleft (mt (stripLine_hasComment hmode _).2 hnone)
  refine allReadAlike_cons.2 ⟨hread (Or.inl rfl) ?_ ?_ ?_,
    allReadAlike_cons.2 ⟨.inside ?_ ?_,
    allReadAlike_cons.2 ⟨hread (Or.inr ?_) ?_ ?_ ?_,
    allReadAlike_cons.2 ⟨.marked ?_ ?_,
    allReadAlike_cons.2 ⟨hread (Or.inl ?_) ?_ ?_ ?_, allReadAlike_nil _⟩⟩⟩⟩⟩
  all_goals decide +kernel

/-- A parenthesis of the first line is never closed, with the comments and without them. -/
theorem lint_stripComments_iff_alikeLines :
    AllReadAlike .code alikeLines ∧
      bracketWord (stripComments alikeLines) = bracketWord alikeLines ∧
      (∃ d ∈ (lint {} alikeLines).diagnostics,
        d.code = "MF-LINT-0001" ∨ d.code = "MF-LINT-0002") ∧
      ∃ d ∈ (lint {} (stripComments alikeLines)).diagnostics,
        d.code = "MF-LINT-0001" ∨ d.code = "MF-LINT-0002" := by
  obtain ⟨hword, hlint⟩ := lint_stripComments_iff alikeLines allReadAlike_alikeLines
  have hreported : ∃ d ∈ (lint {} alikeLines).diagnostics,
      d.code = "MF-LINT-0001" ∨ d.code = "MF-LINT-0002" := by decide +kernel
  exact ⟨allReadAlike_alikeLines, hword, hreported,
    (hlint {} (by decide) (by decide)).1 hreported⟩

/-- The codes of what the linter reports by default. -/
def reported (ls : List Line) : List String := (lint {} ls).diagnostics.map (·.code)

/-- A comment that ends behind a marker. -/
def markedEnd : List Line := [⟨"/*".toList, "main", 1⟩, ⟨"@@ */ [".toList, "main", 2⟩]

/-- **Lines that are not read alike.**  A comment that ends in a line with a marker does not end for
the linter.  Behind a word and a comment, an address hides a bracket when the comment is gone, and
so does a marker behind a comment. -/
theorem lint_stripComments_differs :
    (reported markedEnd = [] ∧ reported (stripComments markedEnd) = ["MF-LINT-0002"]) ∧
      (reported [⟨"x/**/http://a[".toList, "main", 1⟩] = ["MF-LINT-0002"] ∧
        reported (stripComments [⟨"x/**/http://a[".toList, "main", 1⟩]) = []) ∧
      reported [⟨"/**/@@ [".toList, "main", 1⟩] = ["MF-LINT-0002"] ∧
        reported (stripComments [⟨"/**/@@ [".toList, "main", 1⟩]) = [] := by
  decide +kernel

end Lint

end Softcode
