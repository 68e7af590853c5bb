/-
**Names under an alias.**

An imported source has its names put under an alias: in front of every whole word that is one of
them the tag goes in, which is the alias and a hyphen.  Nothing else changes, and a name before
which the tag already stands gets no second one.  Whether the tag already stands there is asked of
the text before the name only, and that is less than it seems.

The tag may stand there by accident, as the end of a longer word: `BA-DATA` is taken for `A-DATA`.
And the question is asked for every name on its own, also for one that occurs in the alias: in
`A-A` the second `A` is left alone, but the first one gets a tag, since nothing stands before it.
If no word of the alias is a name, and the tag in front of a name always begins at a word boundary,
then these are the only names that get none: a name is left alone exactly if it belongs to a name
under the alias that is already written out.

Main definitions:

* `Softcode.Word.Stands` — a place where a name stands as a whole word;
* `Softcode.Namespace.Inserted` — a text with a tag put in at given places;
* `Softcode.Namespace.Tagged` — a place that belongs to a name under the alias.

Main results:

* `Softcode.Word.stands_iff` — a whole word is what replacement looks for;
* `Softcode.Namespace.inserted_rename` — **the tag goes in where a name stands and no tag before
  it**;
* `Softcode.Namespace.tagged_iff` — when this is where a name stands that has no tag;
* `Softcode.Namespace.apply_tags` — **putting a stream under an alias**, and what it comes to if
  the alias has no name in it;
* `Softcode.Namespace.apply_doubles_tag` — what goes wrong otherwise.
-/

import Softcode.Namespace
import Softcode.Proofs.NamesApart

set_option autoImplicit false

namespace Softcode

namespace Word

/-! ### Whole words -/

/-- One of the names stands as a whole word between `before` and what follows it in `after`. -/
def Stands (names : List Text) (before after : Text) : Prop :=
  ∃ name ∈ names, ∃ rest, after = name ++ rest ∧
    boundary before.getLast? name.head? = true ∧ boundary name.getLast? rest.head? = true

variable {names : List Text}

/-- **A whole word is what replacement looks for.** -/
theorem stands_iff (hnames : AreWords names) {before after : Text} :
    Stands names before after ↔ (matchAt? names before.getLast? after).isSome = true := by
  have hlast : ∀ name ∈ names, name.getLast?.or before.getLast? = name.getLast? := by
    intro name hname
    obtain ⟨d, hd⟩ := Option.ne_none_iff_exists'.1
      (mt List.getLast?_eq_none_iff.1 (hnames name hname).ne_nil)
    rw [hd, Option.some_or]
  have hhead : ∀ name ∈ names, ∀ rest, (name ++ rest).head? = name.head? := fun name hname rest =>
    List.head?_append_of_ne_nil name (hnames name hname).ne_nil
  constructor
  · rintro ⟨name, hname, rest, rfl, hbefore, hafter⟩
    rw [matchAt?_eq, hhead name hname, if_pos hbefore, List.find?_isSome]
    refine ⟨name, hname, ?_⟩
    unfold fits
    rw [Text.dropPrefix?_eq_some_iff.2 rfl]
    exact (hlast name hname).symm ▸ hafter
  · intro h
    obtain ⟨name, hmatch⟩ := Option.isSome_iff_exists.1 h
    rw [matchAt?_eq] at hmatch
    split at hmatch
    · next hboundary =>
        have hname := List.mem_of_find?_eq_some hmatch
        have hfits := List.find?_some hmatch
        unfold fits at hfits
        split at hfits
        · cases hfits
        · next rest hdrop =>
            obtain rfl := Text.dropPrefix?_eq_some_iff.1 hdrop
            rw [hhead name hname] at hboundary
            rw [hlast name hname] at hfits
            exact ⟨name, hname, rest, rfl, hboundary, hfits⟩
    · cases hmatch

/-- The parts of a run are runs. -/
theorem IsRun.split {word : Bool} {x y : Text} (h : IsRun word (x ++ y)) (hx : x ≠ [])
    (hy : y ≠ []) : IsRun word x ∧ IsRun word y :=
  ⟨⟨hx, fun c hc => h.class_eq c (List.mem_append_left y hc)⟩,
    ⟨hy, fun c hc => h.class_eq c (List.mem_append_right x hc)⟩⟩

theorem IsRun.boundary_head {name : Text} (h : IsRun true name) {before : Option Char} :
    boundary before name.head? = true ↔ isWordSide before = false := by
  have hhead := h.head? []
  rw [List.append_nil] at hhead
  rw [boundary, hhead]
  cases isWordSide before <;> decide

theorem IsRun.boundary_getLast {name : Text} (h : IsRun true name) {after : Option Char} :
    boundary name.getLast? after = true ↔ isWordSide after = false := by
  have hlast := h.getLast? none
  rw [Option.or_none] at hlast
  rw [boundary, hlast]
  cases isWordSide after <;> decide

/-- No name stands inside a word. -/
theorem not_stands_inside (hnames : AreWords names) {before after : Text}
    (h : isWordSide before.getLast? = isWordSide after.head?) : ¬ Stands names before after := by
  rw [stands_iff hnames, matchAt?_inside h]
  exact Bool.false_ne_true

/-- A part of a text that is bounded on both sides is one of its runs. -/
theorem mem_runs {word : Text} (hword : IsRun true word) {before after : Text}
    (hbefore : isWordSide before.getLast? = false) (hafter : isWordSide after.head? = false) :
    word ∈ runs (before ++ (word ++ after)) := by
  have hends : ∀ c ∈ before.getLast?, ∀ d ∈ (word ++ after).head?,
      (isWordClass c == isWordClass d) = false := by
    intro c hc d hd
    have hc' : isWordClass c = false := by
      rw [Option.mem_def.1 hc] at hbefore
      exact hbefore
    have hd' : isWordClass d = true := by
      have := hword.head? after
      rw [Option.mem_def.1 hd] at this
      exact this
    rw [hc', hd']
    rfl
  rw [runs, List.splitBy_append hends, ← runs, ← runs, runs_append hword]
  · exact List.mem_append_right _ List.mem_cons_self
  · intro d hd
    rw [hd] at hafter
    exact ne_true_of_eq_false hafter

end Word

namespace Namespace

/-! ### Putting tags in -/

/-- `Inserted tag p before s t`: behind `before`, the text `t` is `s` with the tag put in at the
places where `p` holds of what stands before and behind, and only there. -/
inductive Inserted (tag : Text) (p : Text → Text → Prop) : Text → Text → Text → Prop
  | nil (before : Text) : Inserted tag p before [] []
  | keep {before s t : Text} {c : Char} (hp : ¬ p before (c :: s))
      (rest : Inserted tag p (before ++ [c]) s t) : Inserted tag p before (c :: s) (c :: t)
  | put {before s t : Text} {c : Char} (hp : p before (c :: s))
      (rest : Inserted tag p (before ++ [c]) s t) :
      Inserted tag p before (c :: s) (tag ++ c :: t)

variable {tag : Text} {p q : Text → Text → Prop}

/-- A part in which there is no place for a tag is kept. -/
theorem Inserted.keepAll {before x s t : Text}
    (hx : ∀ y c z, x = y ++ c :: z → ¬ p (before ++ y) (c :: z ++ s))
    (h : Inserted tag p (before ++ x) s t) : Inserted tag p before (x ++ s) (x ++ t) := by
  induction x generalizing before with
  | nil => simpa using h
  | cons c x ih =>
      have hfront := hx [] c x rfl
      rw [List.append_nil] at hfront
      refine Inserted.keep hfront (ih (fun y d z hyz => ?_) ?_)
      · have := hx (c :: y) d z (by rw [hyz, List.cons_append])
        rwa [List.append_assoc, List.singleton_append]
      · rwa [List.append_assoc, List.singleton_append]

/-- The places that matter are those of the text. -/
theorem Inserted.congr {before s t : Text}
    (h : ∀ x y, s = x ++ y → (p (before ++ x) y ↔ q (before ++ x) y))
    (hp : Inserted tag p before s t) : Inserted tag q before s t := by
  induction hp with
  | nil before => exact Inserted.nil before
  | @keep before s t c hc _ ih =>
      have hfront := h [] (c :: s) rfl
      rw [List.append_nil] at hfront
      refine Inserted.keep (mt hfront.2 hc) (ih fun x y hxy => ?_)
      have := h (c :: x) y (by rw [hxy, List.cons_append])
      rwa [List.append_assoc, List.singleton_append]
  | @put before s t c hc _ ih =>
      have hfront := h [] (c :: s) rfl
      rw [List.append_nil] at hfront
      refine Inserted.put (hfront.1 hc) (ih fun x y hxy => ?_)
      have := h (c :: x) y (by rw [hxy, List.cons_append])
      rwa [List.append_assoc, List.singleton_append]

/-! ### The names of a stream -/

theorem isRun_takeWhile {s : Text} (h : (s.takeWhile isWordClass).isEmpty = false) :
    Word.IsRun true (s.takeWhile isWordClass) := by
  refine ⟨fun hnil => ?_, fun c hc => List.mem_takeWhile_imp hc⟩
  rw [hnil] at h
  cases h

theorem isRun_of_definedAttribute? {line name : Text} (h : definedAttribute? line = some name) :
    Word.IsRun true name := by
  simp only [definedAttribute?, Option.bind_eq_bind, Option.bind_eq_some_iff] at h
  obtain ⟨rest, -, h⟩ := h
  split at h
  · next hname =>
      obtain rfl := Option.some.inj h
      exact isRun_takeWhile (by simpa using (Bool.and_eq_true_iff.1 hname).1)
  · cases h

theorem isRun_of_definedFunction? {line name : Text} (h : definedFunction? line = some name) :
    Word.IsRun true name := by
  simp only [definedFunction?, Option.bind_eq_bind, Option.bind_eq_some_iff] at h
  obtain ⟨rest, -, h⟩ := h
  split at h
  · next hname =>
      obtain rfl := Option.some.inj h
      exact isRun_takeWhile (by
        simpa using (Bool.and_eq_true_iff.1 (Bool.and_eq_true_iff.1 hname).1).2)
  · cases h

/-- The names that lines define are words. -/
theorem areWords_names (lines : List Line) : Word.AreWords (names lines) := by
  intro name hname
  obtain ⟨l, -, hl⟩ := List.mem_filterMap.1 (Word.mem_longestFirst.1 hname)
  rcases Option.or_eq_some_iff.1 hl with h | ⟨-, h⟩
  · exact isRun_of_definedAttribute? h
  · exact isRun_of_definedFunction? h

/-! ### What renaming does -/

theorem startsWith_reverse_iff {x before : Text} :
    Text.startsWith x.reverse before = true ↔ x <:+ before.reverse := by
  rw [Text.startsWith, Option.isSome_iff_exists]
  constructor
  · rintro ⟨rest, hrest⟩
    rw [Text.dropPrefix?_eq_some_iff.1 hrest, List.reverse_append, List.reverse_reverse]
    exact List.suffix_append _ _
  · rintro ⟨y, hy⟩
    refine ⟨y.reverse, Text.dropPrefix?_eq_some_iff.2 ?_⟩
    rw [← List.reverse_append, hy, List.reverse_reverse]

/-- A place where a name stands as a whole word and no tag before it. -/
def NeedsTag (names : List Text) (tag before after : Text) : Prop :=
  Word.Stands names before after ∧ ¬ tag <:+ before

section Texts

variable {names : List Text}

/-- A name that stands gets the tag, unless the tag is there, and is kept otherwise: inside a word
no name stands. -/
theorem inserted_name (hnames : Word.AreWords names) {before name rest t : Text}
    (hname : name ∈ names) (hstands : Word.Stands names before.reverse (name ++ rest))
    (h : Inserted tag (NeedsTag names tag) (before.reverse ++ name) rest t) :
    Inserted tag (NeedsTag names tag) before.reverse (name ++ rest)
      ((if Text.startsWith tag.reverse before then name else tag ++ name) ++ t) := by
  have hword := hnames name hname
  obtain ⟨d, x, rfl⟩ := List.exists_cons_of_ne_nil hword.ne_nil
  have hinside :
      Inserted tag (NeedsTag names tag) (before.reverse ++ [d]) (x ++ rest) (x ++ t) := by
    refine Inserted.keepAll (fun y e z hyz hp => ?_) ?_
    · refine Word.not_stands_inside hnames ?_ hp.1
      have he : isWordClass e = true := hword.class_eq e (by simp [hyz])
      rw [hyz, ← List.cons_append] at hword
      obtain ⟨hrun, -⟩ := hword.split (List.cons_ne_nil d y) (List.cons_ne_nil e z)
      rw [List.append_assoc, List.singleton_append, List.getLast?_append, hrun.getLast?]
      exact he.symm
    · rwa [List.append_assoc, List.singleton_append]
  split
  · next htag =>
      exact Inserted.keep (fun hp => hp.2 (startsWith_reverse_iff.1 htag)) hinside
  · next htag =>
      rw [List.append_assoc]
      exact Inserted.put ⟨hstands, fun hp => htag (startsWith_reverse_iff.2 hp)⟩ hinside

/-- **The tag goes in where a name stands and no tag before it.** -/
theorem inserted_rename (hnames : Word.AreWords names) (label s : Text) :
    Inserted (label ++ ['-']) (NeedsTag names (label ++ ['-'])) [] s (rename names label s) := by
  have hfrom : ∀ n before s, List.length s = n →
      Inserted (label ++ ['-']) (NeedsTag names (label ++ ['-'])) (List.reverse before) s
        (Word.replaceFrom names (fun before name =>
          if Text.startsWith (label ++ ['-']).reverse before then name
          else label ++ ['-'] ++ name) 0 before s) := by
    intro n
    induction n using Nat.strong_induction_on with
    | _ n ih =>
        intro before s hn
        cases s with
        | nil => exact Inserted.nil _
        | cons c s =>
            have hstands : Word.Stands names (List.reverse before) (c :: s) ↔
                (Word.matchAt? names (List.head? before) (c :: s)).isSome = true := by
              rw [Word.stands_iff hnames, List.getLast?_reverse]
            cases hmatch : Word.matchAt? names (List.head? before) (c :: s) with
            | none =>
                rw [hmatch] at hstands
                rw [Word.replaceFrom_miss hmatch]
                refine Inserted.keep (fun hp => Bool.false_ne_true (hstands.1 hp.1)) ?_
                have hrest := ih s.length (by rw [← hn]; simp) (c :: before) s rfl
                rwa [List.reverse_cons] at hrest
            | some name =>
                obtain ⟨hname, rest, hs⟩ := Word.exists_rest_of_matchAt? hmatch
                have hne := (hnames name hname).ne_nil
                rw [hmatch] at hstands
                rw [hs] at hmatch hn hstands ⊢
                rw [Word.replaceFrom_hit hne hmatch]
                have hlt : rest.length < n := by
                  rw [← hn, List.length_append]
                  have := List.length_pos_iff.2 hne
                  omega
                have hrest := ih rest.length hlt (name.reverse ++ before) rest rfl
                rw [List.reverse_append, List.reverse_reverse] at hrest
                exact inserted_name hnames hname (hstands.2 rfl) hrest
  exact hfrom s.length [] s rfl

/-! ### Names that are already under the alias -/

/-- A place that belongs to a name under the alias: at the front of or inside the tag and the name
behind it, where the tag begins at a word boundary and the name is a whole word. -/
def Tagged (names : List Text) (tag before after : Text) : Prop :=
  ∃ x, ∃ name ∈ names, ∃ y, before ++ after = x ++ (tag ++ (name ++ y)) ∧
    Word.boundary x.getLast? tag.head? = true ∧ Word.boundary name.getLast? y.head? = true ∧
    x.length ≤ before.length ∧ before.length < (x ++ (tag ++ name)).length

/-- The tag in front of a name begins at a word boundary, wherever it stands in a text. -/
def CleanTags (names : List Text) (tag s : Text) : Prop :=
  ∀ x, ∀ name ∈ names, ∀ y, s = x ++ (tag ++ (name ++ y)) →
    Word.boundary name.getLast? y.head? = true → Word.boundary x.getLast? tag.head? = true

/-- A name that stands in the alias is one of its words. -/
theorem exists_word_of_stands (hnames : Word.AreWords names) {label x u v y : Text}
    (hv : v ≠ []) (hlabel : label ++ ['-'] = u ++ v) (h : Word.Stands names (x ++ u) (v ++ y)) :
    ∃ word ∈ Word.runs label, word ∈ names := by
  obtain ⟨name, hname, rest, hrest, hbefore, hafter⟩ := h
  have hword := hnames name hname
  rw [hword.boundary_head] at hbefore
  rw [hword.boundary_getLast] at hafter
  obtain ⟨w, e, rfl⟩ := (List.eq_nil_or_concat v).resolve_left hv
  rw [List.concat_eq_append, ← List.append_assoc] at hlabel
  obtain ⟨rfl, he⟩ := List.append_inj' hlabel rfl
  obtain rfl : '-' = e := List.singleton_injective he
  -- the hyphen is no character of a name
  obtain ⟨a, rfl, rfl⟩ : ∃ a, w = name ++ a ∧ rest = a ++ '-' :: y := by
    rw [List.concat_eq_append, List.append_assoc, List.singleton_append] at hrest
    rcases List.append_eq_append_iff.1 hrest with ⟨a, rfl, ha⟩ | ⟨a, rfl, rfl⟩
    · cases a with
      | nil => exact ⟨[], by simp, by simpa using ha.symm⟩
      | cons d a =>
          obtain ⟨rfl, -⟩ := List.cons_eq_cons.1 ha
          exact absurd (hword.class_eq '-' (by simp)) (by decide +kernel)
    · exact ⟨a, rfl, rfl⟩
  refine ⟨name, Word.mem_runs hword ?_ ?_, hname⟩
  · cases hu : u.getLast? with
    | none => rfl
    | some d => rwa [List.getLast?_append, hu, Option.some_or] at hbefore
  · cases a with
    | nil => rfl
    | cons d a => exact hafter

/-- If no word of the alias is a name and the tags are clean, a name that stands has the tag before
it exactly if it belongs to a name under the alias. -/
theorem tagged_iff (hnames : Word.AreWords names) {label : Text}
    (hlabel : ∀ word ∈ Word.runs label, word ∉ names) {before after : Text}
    (hclean : CleanTags names (label ++ ['-']) (before ++ after))
    (hstands : Word.Stands names before after) :
    Tagged names (label ++ ['-']) before after ↔ (label ++ ['-']) <:+ before := by
  constructor
  · rintro ⟨x, name, hname, y, htext, -, -, hfrom, hto⟩
    obtain ⟨u, rfl⟩ : x <+: before :=
      List.prefix_of_prefix_length_le (htext ▸ List.prefix_append x _) (List.prefix_append _ _)
        hfrom
    rw [List.append_assoc] at htext
    rcases List.append_eq_append_iff.1 (List.append_cancel_left htext) with
      ⟨v, hv, rfl⟩ | ⟨v, rfl, hv⟩
    · -- a name that stands inside the tag would be a word of the alias
      by_cases hnil : v = []
      · rw [hnil, List.append_nil] at hv
        exact hv ▸ List.suffix_append x u
      · obtain ⟨word, hword, hmem⟩ := exists_word_of_stands hnames hnil hv hstands
        exact absurd hmem (hlabel word hword)
    · -- and one that stands inside the name would be a part of a word
      by_cases hnil : v = []
      · rw [hnil, List.append_nil]
        exact List.suffix_append x _
      · refine absurd hstands (Word.not_stands_inside hnames ?_)
        have hlt : v.length < name.length := by
          simp only [List.length_append] at hto
          omega
        obtain ⟨b, rfl⟩ : v <+: name :=
          List.prefix_of_prefix_length_le (List.prefix_append v after) (hv ▸ List.prefix_append _ _)
            hlt.le
        rw [List.append_assoc] at hv
        obtain rfl := List.append_cancel_left hv
        obtain ⟨hfront, hback⟩ := (hnames _ hname).split hnil (by rintro rfl; simp at hlt)
        rw [← List.append_assoc, List.getLast?_append, hfront.getLast?, hback.head? y]
  · rintro ⟨x, rfl⟩
    obtain ⟨name, hname, rest, rfl, hbefore, hafter⟩ := hstands
    have htext : x ++ (label ++ ['-']) ++ (name ++ rest) =
        x ++ (label ++ ['-'] ++ (name ++ rest)) := by simp
    refine ⟨x, name, hname, rest, htext, hclean x name hname rest htext hafter, hafter, ?_, ?_⟩
    · simp
    · have := List.length_pos_iff.2 (hnames name hname).ne_nil
      simp only [List.length_append]
      omega

/-- Cleanness is a matter of the places of a text, one by one. -/
theorem cleanTags_iff {s : Text} :
    CleanTags names tag s ↔ ∀ i ≤ s.length, ∀ name ∈ names,
      (tag ++ name) <+: s.drop i →
        Word.boundary name.getLast? (s.drop (i + (tag ++ name).length)).head? = true →
          Word.boundary (s.take i).getLast? tag.head? = true := by
  constructor
  · intro h i hi name hname hprefix hafter
    obtain ⟨y, hy⟩ := hprefix
    refine h (s.take i) name hname y ?_ ?_
    · rw [← List.append_assoc tag, hy, List.take_append_drop]
    · rwa [← List.drop_drop, ← hy, List.drop_left] at hafter
  · rintro h x name hname y rfl hafter
    have := h x.length (by simp) name hname
    rw [List.drop_left, List.take_left, ← List.drop_drop, List.drop_left, ← List.append_assoc tag,
      List.drop_left] at this
    exact this (List.prefix_append _ _) hafter

instance (s : Text) : Decidable (CleanTags names tag s) := decidable_of_iff' _ cleanTags_iff

end Texts

/-! ### Streams -/

/-- **Putting a stream under an alias** changes each text only by the tags that go in, one in front
of every name that stands without the tag before it.  If no word of the alias is a name of the
stream, then in a text with clean tags these are the names that do not belong to a name under the
alias: each of them gets one tag, and the others are left alone. -/
theorem apply_tags (lines : List Line) (label : Text) :
    List.Forall₂ (fun l l' => ∃ t, l' = l.withText t ∧
        Inserted (label ++ ['-']) (NeedsTag (names lines) (label ++ ['-'])) [] l.text t ∧
        ((∀ word ∈ Word.runs label, word ∉ names lines) →
          CleanTags (names lines) (label ++ ['-']) l.text →
          Inserted (label ++ ['-']) (fun before after => Word.Stands (names lines) before after ∧
            ¬ Tagged (names lines) (label ++ ['-']) before after) [] l.text t))
      lines (apply lines label) := by
  have hnames := areWords_names lines
  rw [apply, List.forall₂_map_right_iff, List.forall₂_same]
  intro l _
  have hcode := inserted_rename hnames label l.text
  refine ⟨_, rfl, hcode, fun hlabel hclean => hcode.congr fun x y hxy => ?_⟩
  refine and_congr_right fun hstands => not_congr (tagged_iff hnames hlabel ?_ hstands).symm
  rwa [List.nil_append, ← hxy]

/-- A name that stands with the tag and without it. -/
def recursiveName : List Line := [⟨"&RECURSE obj = [u(RECURSE)] [u(A-RECURSE)]".toList, "lib", 1⟩]

theorem apply_tags_recursive :
    (∀ word ∈ Word.runs ['A'], word ∉ names recursiveName) ∧
      CleanTags (names recursiveName) ['A', '-']
        "&RECURSE obj = [u(RECURSE)] [u(A-RECURSE)]".toList ∧
      Inserted ['A', '-'] (fun before after => Word.Stands (names recursiveName) before after ∧
          ¬ Tagged (names recursiveName) ['A', '-'] before after) []
        "&RECURSE obj = [u(RECURSE)] [u(A-RECURSE)]".toList
        "&A-RECURSE obj = [u(A-RECURSE)] [u(A-RECURSE)]".toList := by
  have hlabel : ∀ word ∈ Word.runs ['A'], word ∉ names recursiveName := by decide +kernel
  have hclean : CleanTags (names recursiveName) ['A', '-']
      "&RECURSE obj = [u(RECURSE)] [u(A-RECURSE)]".toList := by decide +kernel
  have happly : apply recursiveName ['A'] =
      [⟨"&A-RECURSE obj = [u(A-RECURSE)] [u(A-RECURSE)]".toList, "lib", 1⟩] := by decide +kernel
  have htags := apply_tags recursiveName ['A']
  rw [happly] at htags
  obtain ⟨⟨t, hline, -, hspec⟩, -⟩ := List.forall₂_cons.1 htags
  obtain rfl := congrArg Line.text hline
  exact ⟨hlabel, hclean, hspec hlabel hclean⟩

/-- What goes wrong otherwise.  A name that is a word of the alias gets a tag inside of what is
already under the alias, and a name that stands behind the end of a longer word is taken for one
under the alias. -/
theorem apply_doubles_tag :
    apply [⟨"&A x=u(A-A)".toList, "lib", 1⟩] ['A'] = [⟨"&A-A x=u(A-A-A)".toList, "lib", 1⟩] ∧
      apply [⟨"&DATA x=u(BA-DATA)".toList, "lib", 1⟩] ['A'] =
        [⟨"&A-DATA x=u(BA-DATA)".toList, "lib", 1⟩] := by
  decide +kernel

end Namespace

end Softcode
