/-
**Names that stand apart.**

A name may have characters that are no word characters: numerals such as `½` or `②`, which are
neither letters nor digits.  Word boundaries do not go by the characters of names, so they may be
missing at the ends of such a name or lie inside it, and the laws of `Softcode.Proofs.WordRuns` do
not hold.  What can be said is what becomes of a name that stands apart, between blanks or other
characters that belong neither to names nor to words.

No name reaches over a parting character, so both sides of it are read apart, and it is enough to
know what becomes of a name alone.  If it begins and ends with word characters there is a boundary
on either side of it, and since longer names are tried first it is the one that is found.  If one of
its ends is no word character the boundary there is missing: the name is not found, and what
becomes of it is up to the names inside it.  A constant with such a name is declared in vain.

Main definitions:

* `Softcode.Word.isParting` — characters that part words;
* `Softcode.Word.EndsApart`, `Softcode.Word.BeginsApart` — texts behind or before which a name
  stands apart;
* `Softcode.Word.hasWordEnds` — names that begin and end with a word character.

Main results:

* `Softcode.isWordClass_eq_false_iff` — the characters of names that are no word characters;
* `Softcode.Word.pairwise_longestFirst` — longer names are tried first;
* `Softcode.Word.replaceFrom_parted` — **both sides of a parting character are read apart**;
* `Softcode.Word.replace_alone`, `Softcode.Word.replace_alone_unfound` — a name alone, with word
  characters at its ends or without;
* `Softcode.Constant.resolve_apart` — **what becomes of a declared name that stands apart**;
* `Softcode.Constant.resolve_keeps_fraction` — a constant that is declared in vain.
-/

import Mathlib.Data.List.Find
import Softcode.Proofs.Text
import Softcode.Proofs.WordRuns

set_option autoImplicit false

namespace Softcode

/-- The characters of names that are no word characters are numerals: neither letters nor digits. -/
theorem isWordClass_eq_false_iff {c : Char} (hc : isWordChar c = true) :
    isWordClass c = false ↔ category c = .no ∧ isAlphabetic c = false := by
  constructor
  · intro h
    simp only [isWordClass, Bool.or_eq_false_iff] at h
    obtain ⟨⟨⟨⟨halpha, -⟩, hdigit⟩, hconnector⟩, -⟩ := h
    refine ⟨?_, halpha⟩
    simp only [isWordChar, isAlphanumeric, halpha, Bool.false_or, Bool.or_eq_true, beq_iff_eq] at hc
    rcases hc with hnumber | rfl
    · have hletter : category c ≠ .nl := by
        intro hnl
        simp [isAlphabetic, hnl] at halpha
      revert hnumber hdigit hletter
      rw [isNumeric]
      cases category c <;> decide
    · exact absurd hconnector (by decide +kernel)
  · rintro ⟨hno, halpha⟩
    have hjoin : isJoinControl c = false := by
      refine Bool.eq_false_iff.2 fun h => ?_
      have hcf : category c = .cf := by
        rcases Bool.or_eq_true_iff.1 h with h | h
        · rw [← Char.ofNat_toNat c, beq_iff_eq.1 h]
          decide +kernel
        · rw [← Char.ofNat_toNat c, beq_iff_eq.1 h]
          decide +kernel
      rw [hno] at hcf
      cases hcf
    rw [isWordClass, halpha, hno, hjoin]
    rfl

namespace Word

variable {names : List Text} {new : Text → Text → Text}

/-! ### The longest name first -/

theorem byteLength_le_of_comesBefore {a b : Text} (h : comesBefore a b = true) :
    Text.byteLength b ≤ Text.byteLength a := by
  simp only [comesBefore, Bool.or_eq_true, Bool.and_eq_true, decide_eq_true_eq, beq_iff_eq] at h
  omega

theorem byteLength_le_of_not_comesBefore {a b : Text} (h : ¬ comesBefore a b = true) :
    Text.byteLength a ≤ Text.byteLength b := by
  simp only [comesBefore, Bool.or_eq_true, decide_eq_true_eq, not_or] at h
  omega

theorem pairwise_insertName {a : Text}
    (h : names.Pairwise fun b c => Text.byteLength c ≤ Text.byteLength b) :
    (insertName a names).Pairwise fun b c => Text.byteLength c ≤ Text.byteLength b := by
  induction names with
  | nil => exact List.pairwise_singleton _ a
  | cons b names ih =>
      have hb := (List.pairwise_cons.1 h).1
      rw [insertName]
      split
      · exact h
      · split
        · next hbefore =>
            have hab := byteLength_le_of_comesBefore hbefore
            refine List.pairwise_cons.2 ⟨fun c hc => ?_, h⟩
            rcases List.mem_cons.1 hc with rfl | hc
            · exact hab
            · exact (hb c hc).trans hab
        · next hbefore =>
            refine List.pairwise_cons.2 ⟨fun c hc => ?_, ih (List.pairwise_cons.1 h).2⟩
            rcases mem_insertName.1 hc with rfl | hc
            · exact byteLength_le_of_not_comesBefore hbefore
            · exact hb c hc

/-- No name stands behind a shorter one. -/
theorem pairwise_longestFirst (names : List Text) :
    (longestFirst names).Pairwise fun a b => Text.byteLength b ≤ Text.byteLength a := by
  induction names with
  | nil => exact List.Pairwise.nil
  | cons a names ih => exact pairwise_insertName ih

theorem eq_nil_of_byteLength {s : Text} (h : Text.byteLength s = 0) : s = [] := by
  cases s with
  | nil => rfl
  | cons c s =>
      have := Char.utf8Size_pos c
      rw [Text.byteLength_cons] at h
      omega


/-! ### Parting characters -/

/-- A character that parts words: it is neither a word character nor a character of names. -/
def isParting (c : Char) : Bool := !isWordClass c && !isWordChar c

/-- Names made of the characters of names. -/
def AreNames (names : List Text) : Prop :=
  ∀ name ∈ names, name ≠ [] ∧ ∀ c ∈ name, isWordChar c = true

theorem AreNames.not_mem (hnames : AreNames names) {name : Text} (hname : name ∈ names) {c : Char}
    (hc : isParting c = true) : c ∉ name := by
  intro hmem
  simp [isParting, (hnames name hname).2 c hmem] at hc

theorem isWordSide_parting {c : Char} (hc : isParting c = true) : isWordSide (some c) = false := by
  simp only [isParting, Bool.and_eq_true, Bool.not_eq_true'] at hc
  exact hc.1

/-- A name that occurs is one of the names and stands at the front. -/
theorem exists_rest_of_matchAt? {before : Option Char} {s name : Text}
    (h : matchAt? names before s = some name) : name ∈ names ∧ ∃ rest, s = name ++ rest := by
  rw [matchAt?_eq] at h
  split at h
  · refine ⟨List.mem_of_find?_eq_some h, ?_⟩
    have hfits := List.find?_some h
    unfold fits at hfits
    split at hfits
    · cases hfits
    · next rest hdrop => exact ⟨rest, Text.dropPrefix?_eq_some_iff.1 hdrop⟩
  · cases h

/-- What stands behind a parting character has no influence on what fits before it. -/
theorem fits_parted {before : Option Char} {c : Char} (hc : isParting c = true) {name : Text}
    (hname : c ∉ name) (x y : Text) : fits before (x ++ c :: y) name = fits before x name := by
  unfold fits
  cases hdrop : Text.dropPrefix? name x with
  | some rest =>
      obtain rfl := Text.dropPrefix?_eq_some_iff.1 hdrop
      rw [List.append_assoc, Text.dropPrefix?_eq_some_iff.2 rfl]
      cases rest with
      | nil => simp only [boundary, List.nil_append, List.head?_cons, isWordSide_parting hc]; rfl
      | cons d rest => rfl
  | none =>
      cases hlong : Text.dropPrefix? name (x ++ c :: y) with
      | none => rfl
      | some rest =>
          -- a name that reaches over the parting character would have it
          rcases List.append_eq_append_iff.1 (Text.dropPrefix?_eq_some_iff.1 hlong) with
            ⟨z, rfl, hz⟩ | ⟨z, rfl, -⟩
          · cases z with
            | nil =>
                rw [List.append_nil] at hdrop
                rw [Text.dropPrefix?_eq_some_iff.2 (List.append_nil x).symm] at hdrop
                cases hdrop
            | cons d z =>
                obtain ⟨rfl, -⟩ := List.cons_eq_cons.1 hz
                exact absurd (by simp) hname
          · rw [Text.dropPrefix?_eq_some_iff.2 rfl] at hdrop
            cases hdrop

theorem matchAt?_parted (hnames : AreNames names) {c : Char} (hc : isParting c = true)
    (before : Option Char) {x : Text} (hx : x ≠ []) (y : Text) :
    matchAt? names before (x ++ c :: y) = matchAt? names before x := by
  have hfind : names.find? (fits before (x ++ c :: y)) = names.find? (fits before x) := by
    refine List.find?_congr fun name hname => ?_
    exact fits_parted hc (hnames.not_mem hname hc) x y
  rw [matchAt?_eq, matchAt?_eq, List.head?_append_of_ne_nil x hx, hfind]

/-- No name begins with a parting character. -/
theorem matchAt?_parting (hnames : AreNames names) {c : Char} (hc : isParting c = true)
    (before : Option Char) (y : Text) : matchAt? names before (c :: y) = none := by
  refine Option.eq_none_iff_forall_not_mem.2 fun name hname => ?_
  obtain ⟨hmem, rest, hrest⟩ := exists_rest_of_matchAt? hname
  obtain ⟨d, x, rfl⟩ := List.exists_cons_of_ne_nil (hnames name hmem).1
  obtain ⟨rfl, -⟩ := List.cons_eq_cons.1 hrest
  exact hnames.not_mem hmem hc List.mem_cons_self

/-- **Both sides of a parting character are read apart.** -/
theorem replaceFrom_parted (hnames : AreNames names) {c : Char} (hc : isParting c = true)
    (before x y : Text) :
    replaceFrom names new 0 before (x ++ c :: y) =
      replaceFrom names new 0 before x ++
        c :: replaceFrom names new 0 (c :: (x.reverse ++ before)) y := by
  induction hn : x.length using Nat.strong_induction_on generalizing x before with
  | _ n ih =>
      cases x with
      | nil => rw [List.nil_append, replaceFrom_miss (matchAt?_parting hnames hc _ y)]; rfl
      | cons d x =>
          have hparted := matchAt?_parted hnames hc before.head? (List.cons_ne_nil d x) y
          cases hmatch : matchAt? names before.head? (d :: x) with
          | none =>
              rw [hmatch] at hparted
              rw [List.cons_append] at hparted ⊢
              rw [replaceFrom_miss hparted, replaceFrom_miss hmatch,
                ih x.length (by rw [← hn]; simp) _ x rfl, List.cons_append, List.reverse_cons,
                List.append_assoc, List.singleton_append]
          | some name =>
              obtain ⟨hmem, rest, hrest⟩ := exists_rest_of_matchAt? hmatch
              have hne := (hnames name hmem).1
              have hlt : rest.length < n := by
                rw [← hn, hrest, List.length_append]
                have := List.length_pos_iff.2 hne
                omega
              rw [hmatch] at hparted
              rw [hrest] at hmatch hparted ⊢
              rw [List.append_assoc] at hparted ⊢
              rw [replaceFrom_hit hne hparted, replaceFrom_hit hne hmatch, ih _ hlt _ rest rfl,
                List.append_assoc, List.reverse_append, List.append_assoc]

/-! ### What stands before -/

theorem matchAt?_before {before before' : Option Char}
    (h : isWordSide before = isWordSide before') (s : Text) :
    matchAt? names before s = matchAt? names before' s := by
  have hfits : ∀ name, fits before s name = fits before' s name := by
    intro name
    unfold fits
    split
    · rfl
    · cases name.getLast? with
      | none => simp only [Option.none_or, boundary, h]
      | some d => rfl
  rw [matchAt?_eq, matchAt?_eq, boundary, boundary, h, funext hfits]

/-- A replacement that depends on the name only sees nothing of what stands before but whether it
is a word character. -/
theorem replaceFrom_before {f : Text → Text} {before before' : Text}
    (h : isWordSide before.head? = isWordSide before'.head?) (s : Text) :
    replaceFrom names (fun _ => f) 0 before s = replaceFrom names (fun _ => f) 0 before' s := by
  have hskip : ∀ skip before before',
      (skip = 0 → isWordSide before.head? = isWordSide before'.head?) →
      replaceFrom names (fun _ => f) skip before s =
        replaceFrom names (fun _ => f) skip before' s := by
    induction s with
    | nil => intros; rw [replaceFrom, replaceFrom]
    | cons c s ih =>
        intro skip before before' h
        cases skip with
        | zero =>
            rw [replaceFrom, replaceFrom, matchAt?_before (h rfl)]
            cases matchAt? names before'.head? (c :: s) with
            | none => exact congrArg (c :: ·) (ih 0 _ _ fun _ => rfl)
            | some name => exact congrArg (f name ++ ·) (ih _ _ _ fun _ => rfl)
        | succ skip =>
            rw [replaceFrom, replaceFrom]
            exact ih skip _ _ fun _ => rfl
  exact hskip 0 before before' fun _ => h

/-- A text that ends where words are parted. -/
def EndsApart (s : Text) : Prop := ∀ c, s.getLast? = some c → isParting c = true

/-- A text that begins where words are parted. -/
def BeginsApart (s : Text) : Prop := ∀ c, s.head? = some c → isParting c = true

theorem endsApart_nil : EndsApart [] := by simp [EndsApart]

theorem beginsApart_nil : BeginsApart [] := by simp [BeginsApart]

/-- A text that ends where words are parted is read apart from what follows. -/
theorem replace_endsApart (hnames : AreNames names) {f : Text → Text} {x : Text}
    (hx : EndsApart x) (s : Text) :
    replace names (fun _ => f) (x ++ s) =
      replace names (fun _ => f) x ++ replace names (fun _ => f) s := by
  rcases List.eq_nil_or_concat x with rfl | ⟨y, c, rfl⟩
  · rfl
  · rw [List.concat_eq_append] at hx ⊢
    have hc := hx c (by simp)
    have hbefore : isWordSide (c :: (y.reverse ++ [])).head? = isWordSide ([] : Text).head? :=
      isWordSide_parting hc
    rw [List.append_assoc, List.singleton_append, replace, replace, replace,
      replaceFrom_parted hnames hc, replaceFrom_parted hnames hc, replaceFrom_before hbefore,
      List.append_assoc]
    rfl

/-- A text that begins where words are parted is read apart from what stands before it. -/
theorem replace_beginsApart (hnames : AreNames names) {f : Text → Text} {y : Text}
    (hy : BeginsApart y) (s : Text) :
    replace names (fun _ => f) (s ++ y) =
      replace names (fun _ => f) s ++ replace names (fun _ => f) y := by
  cases y with
  | nil => rw [List.append_nil]; exact (List.append_nil _).symm
  | cons c y =>
      have hc := hy c rfl
      have halone : replace names (fun _ => f) (c :: y) =
          c :: replaceFrom names (fun _ => f) 0 (c :: (s.reverse ++ [])) y := by
        have hbefore : isWordSide [c].head? = isWordSide (c :: (s.reverse ++ [])).head? := rfl
        rw [replace, replaceFrom_miss (matchAt?_parting hnames hc _ y), replaceFrom_before hbefore]
      rw [halone, replace, replaceFrom_parted hnames hc]
      rfl

/-! ### A name that stands apart -/

/-- Whether a name begins and ends with a word character. -/
def hasWordEnds (name : Text) : Bool := isWordSide name.head? && isWordSide name.getLast?

/-- A name that stands alone is the only one that fits among those that are as long. -/
theorem find?_fits_alone (hsorted : names.Pairwise fun a b => Text.byteLength b ≤ Text.byteLength a)
    {name : Text} (hname : name ∈ names) {before : Option Char}
    (hfits : fits before name name = true) : names.find? (fits before name) = some name := by
  obtain ⟨longer, others, rfl, hfirst⟩ := List.eq_append_cons_of_mem hname
  refine List.find?_eq_some_iff_append.2 ⟨hfits, longer, others, rfl, fun a ha => ?_⟩
  have hlength := (List.pairwise_append.1 hsorted).2.2 a ha name List.mem_cons_self
  rw [Bool.not_eq_true', ← Bool.not_eq_true]
  intro hfit
  unfold fits at hfit
  split at hfit
  · cases hfit
  · next rest hdrop =>
      have heq := Text.dropPrefix?_eq_some_iff.1 hdrop
      have hrest : Text.byteLength rest = 0 := by
        have := congrArg Text.byteLength heq
        rw [Text.byteLength_append] at this
        omega
      rw [eq_nil_of_byteLength hrest, List.append_nil] at heq
      exact hfirst (heq ▸ ha)

theorem fits_self (before : Option Char) {name : Text} (hname : name ≠ []) :
    fits before name name = isWordSide name.getLast? := by
  have hdrop : Text.dropPrefix? name name = some [] :=
    Text.dropPrefix?_eq_some_iff.2 (List.append_nil name).symm
  obtain ⟨c, hc⟩ := Option.ne_none_iff_exists'.1 (mt List.getLast?_eq_none_iff.1 hname)
  unfold fits
  rw [hdrop]
  simp [boundary, hc, isWordSide]

/-- **A name with word characters at its ends is found where it stands alone.** -/
theorem replace_alone (hsorted : names.Pairwise fun a b => Text.byteLength b ≤ Text.byteLength a)
    {f : Text → Text} {name : Text} (hname : name ∈ names) (hends : hasWordEnds name = true) :
    replace names (fun _ => f) name = f name := by
  obtain ⟨hhead, hlast⟩ := Bool.and_eq_true_iff.1 hends
  have hne : name ≠ [] := by
    rintro rfl
    cases hhead
  have hmatch : matchAt? names none name = some name := by
    have hboundary : boundary none name.head? = true := by
      rw [boundary, hhead]
      rfl
    rw [matchAt?_eq, if_pos hboundary]
    exact find?_fits_alone hsorted hname ((fits_self none hne).trans hlast)
  have hhit : replaceFrom names (fun _ => f) 0 [] (name ++ []) =
      f name ++ replaceFrom names (fun _ => f) 0 (name.reverse ++ []) [] := by
    refine replaceFrom_hit hne ?_
    rwa [List.append_nil]
  rw [List.append_nil, replaceFrom, List.append_nil] at hhit
  exact hhit

/-- A name that fits nowhere may be left out. -/
theorem replaceFrom_filter {name : Text} {s : Text} {before : Text}
    (h : ∀ y z, s = y ++ z → boundary (y.reverse ++ before).head? z.head? = true →
      fits (y.reverse ++ before).head? z name = false) (skip : Nat) :
    replaceFrom (names.filter (· ≠ name)) new skip before s =
      replaceFrom names new skip before s := by
  induction s generalizing skip before with
  | nil => rw [replaceFrom, replaceFrom]
  | cons c s ih =>
      have htail : ∀ skip, replaceFrom (names.filter (· ≠ name)) new skip (c :: before) s =
          replaceFrom names new skip (c :: before) s := by
        refine ih fun y z hyz => ?_
        have := h (c :: y) z (by rw [hyz, List.cons_append])
        rwa [List.reverse_cons, List.append_assoc, List.singleton_append] at this
      have hmatch : matchAt? (names.filter (· ≠ name)) before.head? (c :: s) =
          matchAt? names before.head? (c :: s) := by
        rw [matchAt?_eq, matchAt?_eq]
        split
        · next hboundary =>
            rw [List.find?_filter]
            refine List.find?_congr fun other _ => ?_
            by_cases hother : other = name
            · have hname : fits before.head? (c :: s) name = false := h [] (c :: s) rfl hboundary
              simp [hother, hname]
            · simp [hother]
        · rfl
      cases skip with
      | zero => rw [replaceFrom, replaceFrom, hmatch]; simp only [htail]
      | succ skip => rw [replaceFrom, replaceFrom, htail]

/-- A name without word characters at both of its ends is not found where it stands alone. -/
theorem replace_alone_unfound {name : Text} (hname : name ≠ []) (hends : hasWordEnds name = false) :
    replace (names.filter (· ≠ name)) new name = replace names new name := by
  refine replaceFrom_filter (fun y z hyz hboundary => ?_) 0
  cases y with
  | nil =>
      rw [List.nil_append] at hyz
      subst hyz
      rw [fits_self _ hname]
      have hhead : isWordSide name.head? = true := by
        change (false != isWordSide name.head?) = true at hboundary
        rwa [Bool.false_bne] at hboundary
      rwa [hasWordEnds, hhead, Bool.true_and] at hends
  | cons c y =>
      unfold fits
      split
      · rfl
      · next rest hdrop =>
          have hz := Text.dropPrefix?_eq_some_iff.1 hdrop
          have hlength := congrArg List.length hyz
          rw [hz, List.length_append, List.length_append, List.length_cons] at hlength
          omega

end Word

/-! ### Constants -/

namespace Constant

/-- A declared name is made of the characters of names. -/
theorem isWordChar_of_parse? {line key value : Text} (h : parse? line = some (key, value)) :
    ∀ c ∈ key, isWordChar c = true := by
  simp only [parse?, Option.bind_eq_bind, Option.bind_eq_some_iff] at h
  obtain ⟨arg, -, ⟨k, v⟩, -, h⟩ := h
  split at h
  · cases h
  · next hempty =>
      obtain ⟨rfl, -⟩ := Prod.mk.inj (Option.some.inj h)
      simp only [Bool.or_eq_true, not_or, Bool.not_eq_true, Bool.not_eq_false'] at hempty
      exact List.all_eq_true.1 hempty.1.2

theorem areNames_names (lines : List Line) : Word.AreNames (names (table lines)) := by
  intro name hname
  obtain ⟨d, hd, rfl⟩ := mem_names.1 hname
  obtain ⟨l, -, hparse⟩ := List.mem_filterMap.1 hd
  exact ⟨name_ne_nil hparse, isWordChar_of_parse? hparse⟩

theorem pairwise_names (decls : List (Text × Text)) :
    (names decls).Pairwise fun a b => Text.byteLength b ≤ Text.byteLength a :=
  Word.pairwise_longestFirst _

theorem mem_names_of_value? {decls : List (Text × Text)} {name value : Text}
    (h : value? decls name = some value) : name ∈ names decls := by
  obtain ⟨before, after, rfl, -⟩ := value?_eq_some_iff.1 h
  exact mem_names.2 ⟨(name, value), by simp, rfl⟩

/-- What becomes of a declared name that stands apart in a text. -/
theorem substitute_apart {lines : List Line} {key value : Text}
    (hvalue : value? (table lines) key = some value) {pre post : Text}
    (hpre : Word.EndsApart pre) (hpost : Word.BeginsApart post) :
    substitute (table lines) (names (table lines)) (pre ++ (key ++ post)) =
      substitute (table lines) (names (table lines)) pre ++
        ((if Word.hasWordEnds key then value
          else substitute (table lines) ((names (table lines)).filter (· ≠ key)) key) ++
          substitute (table lines) (names (table lines)) post) := by
  have hnames := areNames_names lines
  have hmem := mem_names_of_value? hvalue
  simp only [substitute]
  rw [Word.replace_endsApart hnames hpre, Word.replace_beginsApart hnames hpost]
  congr 2
  split
  · next hends =>
      rw [Word.replace_alone (pairwise_names _) hmem hends, hvalue]
      rfl
  · next hends =>
      exact (Word.replace_alone_unfound (hnames key hmem).1 (Bool.eq_false_iff.2 hends)).symm

/-- A declared name lacks a word character at one of its ends exactly if it has a numeral there that
is neither a letter nor a digit. -/
theorem hasWordEnds_eq_false_iff {key : Text} (hne : key ≠ [])
    (hkey : ∀ c ∈ key, isWordChar c = true) :
    Word.hasWordEnds key = false ↔
      ∃ c, (key.head? = some c ∨ key.getLast? = some c) ∧ category c = .no ∧
        isAlphabetic c = false := by
  obtain ⟨first, hfirst⟩ := Option.ne_none_iff_exists'.1 (mt List.head?_eq_none_iff.1 hne)
  obtain ⟨last, hlast⟩ := Option.ne_none_iff_exists'.1 (mt List.getLast?_eq_none_iff.1 hne)
  have hfirst_iff := isWordClass_eq_false_iff (hkey first (List.mem_of_head? hfirst))
  have hlast_iff := isWordClass_eq_false_iff (hkey last (List.mem_of_getLast? hlast))
  have hends : Word.hasWordEnds key = (isWordClass first && isWordClass last) := by
    rw [Word.hasWordEnds, hfirst, hlast]
    rfl
  rw [hends, Bool.and_eq_false_iff, hfirst_iff, hlast_iff]
  constructor
  · rintro (h | h)
    · exact ⟨first, Or.inl hfirst, h⟩
    · exact ⟨last, Or.inr hlast, h⟩
  · rintro ⟨c, hc | hc, h⟩
    · obtain rfl := Option.some.inj (hfirst.symm.trans hc)
      exact Or.inl h
    · obtain rfl := Option.some.inj (hlast.symm.trans hc)
      exact Or.inr h

/-- **What becomes of a declared name that stands apart**, in every line that is left: with word
characters at both of its ends it gives way to the value of its last declaration.  With a numeral
that is neither a letter nor a digit at one of its ends its declarations are in vain: it becomes
what the other names make of it.  In both cases what stands before and behind it is read apart. -/
theorem resolve_apart (lines : List Line) {key value : Text}
    (hvalue : value? (table lines) key = some value) :
    (resolve lines = (lines.filter fun l => (parse? l.text).isNone).map fun l =>
        l.withText (substitute (table lines) (names (table lines)) l.text)) ∧
      (∀ pre post, Word.EndsApart pre → Word.BeginsApart post →
        substitute (table lines) (names (table lines)) (pre ++ (key ++ post)) =
          substitute (table lines) (names (table lines)) pre ++
            ((if Word.hasWordEnds key then value
              else substitute (table lines) ((names (table lines)).filter (· ≠ key)) key) ++
              substitute (table lines) (names (table lines)) post)) ∧
      (Word.hasWordEnds key = false ↔
        ∃ c, (key.head? = some c ∨ key.getLast? = some c) ∧ category c = .no ∧
          isAlphabetic c = false) := by
  obtain ⟨hne, hkey⟩ := areNames_names lines key (mem_names_of_value? hvalue)
  exact ⟨rfl, fun pre post hpre hpost => substitute_apart hvalue hpre hpost,
    hasWordEnds_eq_false_iff hne hkey⟩

/-- Two names with a fraction, of which only one has word characters at both ends, and a name that
is a part of both. -/
def fractionNames : List Line := [
  ⟨"#const a½ = 1".toList, "main", 1⟩, ⟨"#const a½b = 2".toList, "main", 2⟩,
  ⟨"say a½b".toList, "main", 3⟩, ⟨"#const a = 3".toList, "main", 4⟩, ⟨"a½ ".toList, "main", 5⟩]

theorem resolve_apart_fractions :
    value? (table fractionNames) ['a', '½', 'b'] = some ['2'] ∧
      value? (table fractionNames) ['a', '½'] = some ['1'] ∧
      resolve fractionNames = [⟨"say 2".toList, "main", 3⟩, ⟨"3½ ".toList, "main", 5⟩] := by
  have hlong : value? (table fractionNames) ['a', '½', 'b'] = some ['2'] := by decide +kernel
  have hshort : value? (table fractionNames) ['a', '½'] = some ['1'] := by decide +kernel
  have hspace : Word.isParting ' ' = true := by decide +kernel
  obtain ⟨hresolve, hfirst, -⟩ := resolve_apart fractionNames hlong
  obtain ⟨-, hsecond, -⟩ := resolve_apart fractionNames hshort
  have hsay : substitute (table fractionNames) (names (table fractionNames)) "say a½b".toList =
      "say 2".toList := by
    refine (hfirst "say ".toList [] ?_ Word.beginsApart_nil).trans (by decide +kernel)
    intro c hc
    obtain rfl : ' ' = c := Option.some.inj hc
    exact hspace
  have hleft : substitute (table fractionNames) (names (table fractionNames)) "a½ ".toList =
      "3½ ".toList := by
    refine (hsecond [] [' '] Word.endsApart_nil ?_).trans (by decide +kernel)
    intro c hc
    obtain rfl : ' ' = c := Option.some.inj hc
    exact hspace
  have hlines : (fractionNames.filter fun l => (parse? l.text).isNone) =
      [⟨"say a½b".toList, "main", 3⟩, ⟨"a½ ".toList, "main", 5⟩] := by decide +kernel
  refine ⟨hlong, hshort, ?_⟩
  rw [hresolve, hlines, List.map_cons, List.map_cons, List.map_nil, hsay, hleft]
  rfl

/-- A constant that is declared in vain: the declaration is taken out, and its name stays. -/
theorem resolve_keeps_fraction :
    parse? "#const ½ = x".toList = some (['½'], ['x']) ∧
      resolve [⟨"#const ½ = x".toList, "main", 1⟩, ⟨"say ½".toList, "main", 2⟩] =
        [⟨"say ½".toList, "main", 2⟩] := by
  decide +kernel

end Constant

end Softcode
