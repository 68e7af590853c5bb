/-
**Splitting loses nothing.**

A long assignment is split into a first command and continuations.  Each continuation is a command
of its own: it is read again as an assignment, with the delay, the attribute and the object of the
first one.  This module proves that this reading succeeds whatever the names are, that the parts of
the value behind the heads and wrappers are the value, and that carrying the commands out one after
the other leaves the attribute with the value of the command that was split.

The heads of assignments are described by a grammar, `Softcode.Assignment.IsHead`, which reading
decides exactly; in particular a head says nothing about the value behind it, so the first command
of a split one is read like the whole.

Main definitions:

* `Softcode.Assignment.IsTarget`, `Softcode.Assignment.IsHead` — the grammar of heads;
* `Softcode.Assignment.appendCommand` — the command that appends to an attribute;
* `Softcode.Attributes`, `Softcode.Attributes.run` — the values of attributes, and what a split
  command does to them.

Main results:

* `Softcode.Assignment.parse?_eq_some_iff` — **reading decides the grammar**;
* `Softcode.Assignment.parse?_appendCommand` — a continuation is an assignment of the same parts;
* `Softcode.safeSplit?_le` — a value is not cut beyond the limit;
* `Softcode.Assignment.pieces_parts` — the parts of a split value, by recursion on what is left;
* `Softcode.splitCommand_restores_value` — **splitting loses nothing**.
-/

import Softcode.Assignment
import Softcode.Proofs.Text

set_option autoImplicit false

namespace Softcode

namespace Assignment

/-! ### The grammar of heads -/

/-- A name: it is not empty and has neither blanks nor equals signs. -/
def IsName (s : Text) : Prop := s ≠ [] ∧ ∀ c ∈ s, isNamePart c = true

/-- `&ATTR OBJ=`, where blanks may stand on both sides of the object. -/
def IsTarget (attr obj t : Text) : Prop :=
  IsName attr ∧ IsName obj ∧
    ∃ b₁ b₂ : Text, b₁ ≠ [] ∧ Text.AllBlank b₁ ∧ Text.AllBlank b₂ ∧
      t = '&' :: (attr ++ (b₁ ++ (obj ++ (b₂ ++ ['=']))))

/-- **The beginnings of assignments**: a target, perhaps behind `@wait DELAY=`. -/
inductive IsHead (delay attr obj : Text) : Text → Prop where
  | now {t : Text} (hdelay : delay = ['0']) (ht : IsTarget attr obj t) : IsHead delay attr obj t
  | later {w b t : Text} (hw : Text.dropPrefixCi? waitKeyword w = some []) (hne : b ≠ [])
      (hb : Text.AllBlank b) (hdelay : IsName delay) (ht : IsTarget attr obj t) :
      IsHead delay attr obj (w ++ (b ++ (delay ++ '=' :: t)))

theorem isNamePart_eq_true_iff {c : Char} :
    isNamePart c = true ↔ isBlank c = false ∧ c ≠ '=' := by
  simp [isNamePart]

theorem isNamePart_of_blank {c : Char} (h : isBlank c = true) : isNamePart c = false := by
  simp [isNamePart, h]

theorem isBlank_eq_sign : isBlank '=' = false := by decide

/-- What follows blanks begins at the name behind them. -/
theorem trimStart_blanks_name {b n : Text} (hb : Text.AllBlank b) (hn : IsName n) (s : Text) :
    Text.trimStart (b ++ (n ++ s)) = n ++ s := by
  obtain ⟨hne, hn⟩ := hn
  cases n with
  | nil => exact absurd rfl hne
  | cons c n =>
      have hc : isBlank c = false := (isNamePart_eq_true_iff.1 (hn c List.mem_cons_self)).1
      exact Text.trimStart_blanks_cons hb hc (n ++ s)

/-- A name is read up to the first character that no name has. -/
theorem span_name {n s : Text} {c : Char} (hn : IsName n) (hc : isNamePart c = false) :
    (n ++ c :: s).takeWhile isNamePart = n ∧ (n ++ c :: s).dropWhile isNamePart = c :: s := by
  constructor
  · rw [List.takeWhile_append_of_pos hn.2, List.takeWhile_cons_of_neg (by simp [hc])]
    simp
  · rw [List.dropWhile_append_of_pos hn.2, List.dropWhile_cons_of_neg (by simp [hc])]

/-- The object of a target is read, whatever the value is. -/
theorem readTarget?_append {attr obj t : Text} (ht : IsTarget attr obj t) (v : Text) :
    readTarget? (t ++ v) = some (attr, obj, v) := by
  obtain ⟨hattr, hobj, b₁, b₂, hne, hb₁, hb₂, rfl⟩ := ht
  obtain ⟨c, b₁, rfl⟩ := List.exists_cons_of_ne_nil hne
  have hc : isBlank c = true := hb₁ c List.mem_cons_self
  -- the character behind the object is a blank or the equals sign
  have hspan : ∀ u : Text, (obj ++ (b₂ ++ '=' :: u)).takeWhile isNamePart = obj ∧
      (obj ++ (b₂ ++ '=' :: u)).dropWhile isNamePart = b₂ ++ '=' :: u := by
    intro u
    cases b₂ with
    | nil => exact span_name hobj (by decide)
    | cons d b₂ => exact span_name hobj (isNamePart_of_blank (hb₂ d List.mem_cons_self))
  have hstart : Text.trimStart (c :: b₁ ++ (obj ++ (b₂ ++ '=' :: v))) = obj ++ (b₂ ++ '=' :: v) :=
    trimStart_blanks_name hb₁ hobj _
  have htext : '&' :: (attr ++ (c :: b₁ ++ (obj ++ (b₂ ++ ['='])))) ++ v =
      '&' :: (attr ++ c :: (b₁ ++ (obj ++ (b₂ ++ '=' :: v)))) := by simp
  obtain ⟨hattr₁, hattr₂⟩ :=
    span_name (s := b₁ ++ (obj ++ (b₂ ++ '=' :: v))) hattr (isNamePart_of_blank hc)
  rw [List.cons_append] at hstart
  rw [htext]
  simp only [readTarget?, hattr₁, hattr₂, List.head?_cons, Option.any_some, hc, hstart,
    (hspan v).1, (hspan v).2, Text.trimStart_blanks_cons hb₂ isBlank_eq_sign]
  simp [hattr.1, hobj.1]

/-- Only targets are read. -/
theorem isTarget_of_readTarget? {s attr obj v : Text} (h : readTarget? s = some (attr, obj, v)) :
    ∃ t, IsTarget attr obj t ∧ s = t ++ v := by
  unfold readTarget? at h
  split at h
  · next s₁ =>
      dsimp only at h
      split at h
      · cases h
      · next hattr =>
          simp only [Bool.or_eq_true, Bool.not_eq_true', not_or, Bool.not_eq_false] at hattr
          obtain ⟨hattr, hhead⟩ := hattr
          obtain ⟨b₁, hne, hb₁, hs₂⟩ := Text.exists_blanks_trimStart_of_head hhead
          split at h
          · next value htail =>
              split at h
              · cases h
              · next hobj =>
                  obtain ⟨b₂, hb₂, hs₄⟩ := Text.exists_blanks_trimStart
                    ((Text.trimStart (s₁.dropWhile isNamePart)).dropWhile isNamePart)
                  rw [htail] at hs₄
                  simp only [Option.some.injEq, Prod.mk.injEq] at h
                  obtain ⟨hattr', hobj', rfl⟩ := h
                  rw [hattr'] at hattr
                  rw [hobj'] at hobj
                  refine ⟨_, ⟨⟨by simpa using hattr, ?_⟩, ⟨by simpa using hobj, ?_⟩, b₁, b₂, hne,
                    hb₁, hb₂, rfl⟩, ?_⟩
                  · intro c hc
                    rw [← hattr'] at hc
                    exact List.mem_takeWhile_imp hc
                  · intro c hc
                    rw [← hobj'] at hc
                    exact List.mem_takeWhile_imp hc
                  · -- the text, put together again from its five parts
                    have hs₁ : s₁ = attr ++ s₁.dropWhile isNamePart := by
                      rw [← hattr', List.takeWhile_append_dropWhile]
                    have hs₃ : Text.trimStart (s₁.dropWhile isNamePart) =
                        obj ++ (b₂ ++ '=' :: value) := by
                      rw [← hobj', ← hs₄, List.takeWhile_append_dropWhile]
                    rw [hs₃] at hs₂
                    rw [hs₂] at hs₁
                    rw [hs₁]
                    simp
          · cases h
  · cases h

/-- The delay of a head is read, with the target behind it. -/
theorem readDelay?_append {delay attr obj h : Text} (hh : IsHead delay attr obj h) (v : Text) :
    ∃ t, IsTarget attr obj t ∧ readDelay? (h ++ v) = some (delay, t ++ v) := by
  cases hh with
  | now hdelay ht =>
      refine ⟨h, ht, ?_⟩
      obtain ⟨-, -, b₁, b₂, -, -, -, rfl⟩ := ht
      subst hdelay
      rfl
  | @later w b t hw hne hb hdelay ht =>
      refine ⟨t, ht, ?_⟩
      obtain ⟨c, b, rfl⟩ := List.exists_cons_of_ne_nil hne
      have hdrop : Text.dropPrefixCi? waitKeyword (w ++ (c :: b ++ (delay ++ '=' :: t)) ++ v) =
          some (c :: b ++ (delay ++ '=' :: (t ++ v))) :=
        Text.dropPrefixCi?_eq_some_iff.2 ⟨w, by simp, hw⟩
      have hcut : Text.cut? '=' (delay ++ '=' :: (t ++ v)) = some (delay, t ++ v) := by
        refine Text.cut?_eq_some_iff.2 ⟨rfl, fun hmem => ?_⟩
        exact (isNamePart_eq_true_iff.1 (hdelay.2 _ hmem)).2 rfl
      have hblank : delay.any isBlank = false := by
        rw [List.any_eq_false]
        intro d hd
        simp [(isNamePart_eq_true_iff.1 (hdelay.2 d hd)).1]
      have hc : isBlank c = true := hb c List.mem_cons_self
      simp only [readDelay?, hdrop, trimStart_blanks_name hb hdelay, hcut, hblank]
      simp [hc, hdelay.1]

/-- Only heads are read. -/
theorem isHead_of_readDelay? {s delay rest attr obj t v : Text}
    (h : readDelay? s = some (delay, rest)) (ht : IsTarget attr obj t) (hrest : rest = t ++ v) :
    ∃ h, IsHead delay attr obj h ∧ s = h ++ v := by
  unfold readDelay? at h
  split at h
  · obtain ⟨rfl, rfl⟩ := Prod.mk.inj (Option.some.inj h)
    exact ⟨t, .now rfl ht, hrest⟩
  · next after hdrop =>
      obtain ⟨w, rfl, hw⟩ := Text.dropPrefixCi?_eq_some_iff.1 hdrop
      split at h
      · cases h
      · next hhead =>
          obtain ⟨b, hne, hb, hafter⟩ :=
            Text.exists_blanks_trimStart_of_head (by simpa using hhead)
          split at h
          · cases h
          · next delay' rest' hcut =>
              obtain ⟨hsides, heq⟩ := Text.cut?_eq_some_iff.1 hcut
              split at h
              · cases h
              · next hdelay =>
                  obtain ⟨rfl, rfl⟩ := Prod.mk.inj (Option.some.inj h)
                  simp only [Bool.or_eq_true, not_or, Bool.not_eq_true, List.any_eq_false,
                    List.isEmpty_eq_false_iff] at hdelay
                  refine ⟨w ++ (b ++ (delay' ++ '=' :: t)), .later hw hne hb ⟨hdelay.1, ?_⟩ ht, ?_⟩
                  · intro c hc
                    refine isNamePart_eq_true_iff.2 ⟨hdelay.2 c hc, ?_⟩
                    rintro rfl
                    exact heq hc
                  · rw [hafter, hsides, hrest]
                    simp

/-- **Reading decides the grammar**: a text is an assignment exactly if it is a head followed by
the value. -/
theorem parse?_eq_some_iff {s : Text} {a : Assignment} :
    parse? s = some a ↔ IsHead a.delay a.attr a.obj a.head ∧ s = a.head ++ a.value := by
  constructor
  · intro h
    simp only [parse?, Option.bind_eq_bind, Option.bind_eq_some_iff] at h
    obtain ⟨⟨delay, rest⟩, hdelay, ⟨attr, obj, value⟩, htarget, heq⟩ := h
    obtain ⟨t, ht, hrest⟩ := isTarget_of_readTarget? htarget
    obtain ⟨h, hh, rfl⟩ := isHead_of_readDelay? hdelay ht hrest
    obtain rfl := Option.some.inj heq
    have htake : (h ++ value).take ((h ++ value).length - value.length) = h := by simp
    exact ⟨by rwa [htake], by rw [htake]⟩
  · rintro ⟨hh, rfl⟩
    obtain ⟨t, ht, hdelay⟩ := readDelay?_append hh a.value
    simp [parse?, hdelay, readTarget?_append ht]

/-- The parts of an assignment are names. -/
theorem IsHead.names {delay attr obj h : Text} (hh : IsHead delay attr obj h) :
    IsName delay ∧ IsName attr ∧ IsName obj := by
  cases hh with
  | now hdelay ht =>
      refine ⟨?_, ht.1, ht.2.1⟩
      subst hdelay
      exact ⟨by simp, List.all_eq_true.1 (by decide)⟩
  | later _ _ _ hdelay ht => exact ⟨hdelay, ht.1, ht.2.1⟩

/-! ### Commands that append -/

/-- The current value of an attribute, as it is written in a command. -/
def currentValue (attr obj : Text) : Text :=
  "[get(".toList ++ obj ++ "/".toList ++ attr ++ ")]".toList

/-- **The command that appends to an attribute**: `@wait DELAY=&ATTR OBJ=[get(OBJ/ATTR)]ADDED`. -/
def appendCommand (delay attr obj added : Text) : Text :=
  "@wait ".toList ++ delay ++ "=&".toList ++ attr ++ " ".toList ++ obj ++ "=".toList ++
    currentValue attr obj ++ added

theorem appendCommand_eq (a : Assignment) (added : Text) :
    appendCommand a.delay a.attr a.obj added = a.continuationHead ++ a.wrapper ++ added := rfl

theorem isHead_continuationHead {a : Assignment}
    (hn : IsName a.delay ∧ IsName a.attr ∧ IsName a.obj) :
    IsHead a.delay a.attr a.obj a.continuationHead := by
  obtain ⟨hdelay, hattr, hobj⟩ := hn
  have hwait : "@wait ".toList = waitKeyword ++ [' '] := rfl
  have hhead : a.continuationHead = waitKeyword ++ ([' '] ++ (a.delay ++ '=' ::
      ('&' :: (a.attr ++ ([' '] ++ (a.obj ++ ([] ++ ['=']))))))) := by
    unfold continuationHead
    rw [hwait]
    simp
  rw [hhead]
  have hspace : Text.AllBlank [' '] := by decide
  exact .later (by decide) (by simp) hspace hdelay
    ⟨hattr, hobj, [' '], [], by simp, hspace, Text.allBlank_nil, rfl⟩

/-- **A continuation is an assignment of the same parts.** -/
theorem parse?_appendCommand {delay attr obj : Text}
    (hn : IsName delay ∧ IsName attr ∧ IsName obj) (added : Text) :
    ∃ head, parse? (appendCommand delay attr obj added) =
      some ⟨head, delay, attr, obj, currentValue attr obj ++ added⟩ := by
  let a : Assignment := ⟨[], delay, attr, obj, []⟩
  refine ⟨a.continuationHead, parse?_eq_some_iff.2 ⟨isHead_continuationHead (a := a) hn, ?_⟩⟩
  rw [← List.append_assoc]
  exact appendCommand_eq a added

end Assignment

/-! ### The parts of a split value -/

theorem safeSplitFrom_le_max {max : Nat} {depth : Int} {count : Nat} {best : Option Nat} {s : Text}
    {n : Nat} (hbest : ∀ b, best = some b → b ≤ max)
    (h : safeSplitFrom max depth count best s = some n) : n ≤ max := by
  fun_induction safeSplitFrom max depth count best s with
  | case1 => exact hbest n h
  | case2 => exact hbest n h
  | case3 depth count best d s hmax ih =>
      refine ih ?_ h
      intro b hb
      split at hb
      · obtain rfl := Option.some.inj hb
        omega
      · exact hbest b hb
  | case4 => exact hbest n h
  | case5 depth count best c s hesc hmax ih =>
      refine ih ?_ h
      intro b hb
      split at hb
      · obtain rfl := Option.some.inj hb
        omega
      · exact hbest b hb

/-- A value is not cut beyond the limit. -/
theorem safeSplit?_le {value : Text} {max n : Nat} (h : safeSplit? value max = some n) : n ≤ max :=
  safeSplitFrom_le_max (by simp) h

/-- A command is cut behind its wrapper, and within the limit. -/
theorem cutPlace?_bounds {limit n : Nat} {head wrap rest : Text}
    (h : cutPlace? limit head wrap rest = some n) :
    wrap.length < n ∧ head.length + n ≤ limit := by
  unfold cutPlace? at h
  split at h
  · cases h
  · next hroom =>
      obtain ⟨hsplit, hwrap⟩ := Option.filter_eq_some_iff.1 h
      have hle := safeSplit?_le hsplit
      have hbudget : 0 < minSplitBudget := by decide
      exact ⟨by simpa using hwrap, by omega⟩

/-- A cut leaves the wrapper whole: the part before it is what the wrapper is followed by, and if
the command is too long something is left on both sides. -/
theorem cutPlace?_parts {limit n : Nat} {head wrap rest : Text}
    (h : cutPlace? limit head wrap rest = some n)
    (hlong : ¬ head.length + wrap.length + rest.length ≤ limit) :
    ∃ part left, rest = part ++ left ∧ part ≠ [] ∧ left ≠ [] ∧
      (wrap ++ rest).take n = wrap ++ part ∧ (wrap ++ rest).drop n = left := by
  obtain ⟨hwrap, hlimit⟩ := cutPlace?_bounds h
  -- the limit is met before the value ends, so both sides of the cut hold something
  have hroom : n - wrap.length < rest.length := by omega
  have hne : rest ≠ [] := List.ne_nil_of_length_pos (by omega)
  refine ⟨rest.take (n - wrap.length), rest.drop (n - wrap.length),
    (List.take_append_drop _ _).symm, ?_, ?_, ?_, ?_⟩
  · simp [List.take_eq_nil_iff, hne]
    omega
  · simpa [List.drop_eq_nil_iff] using hroom
  · rw [List.take_append, List.take_of_length_le (by omega)]
  · rw [List.drop_append, List.drop_eq_nil_of_le (by omega), List.nil_append]

/-- Commands that set an attribute part by part: the first sets it to the first part of a value,
each of the others appends a part, and no part of several is empty. -/
structure IsSplit (a : Assignment) (head value : Text) (texts : List Text) (first : Text)
    (more : List Text) : Prop where
  texts_eq : texts = (head ++ first) :: more.map (Assignment.appendCommand a.delay a.attr a.obj)
  joined : first ++ more.flatten = value
  first_ne : more ≠ [] → first ≠ []
  more_ne : ∀ p ∈ more, p ≠ []

/-- A command in one piece. -/
theorem IsSplit.one (a : Assignment) (head value : Text) :
    IsSplit a head value [head ++ value] value [] :=
  ⟨rfl, by simp, by simp, by simp⟩

/-- One more command in front: the parts of what is left are put behind a part of their own. -/
theorem IsSplit.cons {a : Assignment} {rest first : Text} {texts more : List Text}
    (h : IsSplit a (a.continuationHead ++ a.wrapper) rest texts first more) (hrest : rest ≠ [])
    (head part : Text) (hpart : part ≠ []) :
    IsSplit a head (part ++ rest) ((head ++ part) :: texts) part (first :: more) where
  texts_eq := by rw [h.texts_eq, List.map_cons, Assignment.appendCommand_eq]
  joined := by rw [List.flatten_cons, h.joined]
  first_ne _ := hpart
  more_ne := by
    intro p hp
    rcases List.mem_cons.1 hp with rfl | hp
    · -- an empty part would be the only one, and nothing would be left
      intro hp
      by_cases hmore : more = []
      · exact hrest (by rw [← h.joined, hp, hmore]; rfl)
      · exact h.first_ne hmore hp
    · exact h.more_ne p hp

/-- **The parts of a split value**, by recursion on what is left of it. -/
theorem Assignment.pieces_parts (a : Assignment) (limit : Nat) (head wrap rest : Text) :
    ∃ first more, IsSplit a (head ++ wrap) rest (a.pieces limit head wrap rest).1 first more := by
  fun_induction Assignment.pieces a limit head wrap rest with
  | case1 head wrap rest total htotal => exact ⟨rest, [], .one a (head ++ wrap) rest⟩
  | case2 head wrap rest total htotal hcut => exact ⟨rest, [], .one a (head ++ wrap) rest⟩
  | case3 head wrap rest total htotal n hcut more tooLong hmore ih =>
      obtain ⟨part, left, rfl, hpart, hleft, htake, hdrop⟩ := cutPlace?_parts hcut htotal
      obtain ⟨first, more', hsplit⟩ := ih
      rw [hmore, hdrop] at hsplit
      refine ⟨part, first :: more', ?_⟩
      have h := hsplit.cons hleft (head ++ wrap) part hpart
      rw [htake, ← List.append_assoc]
      exact h

/-! ### Carrying the commands out -/

/-- The values of the attributes of all objects, by object and attribute. -/
abbrev Attributes := Text → Text → Text

namespace Attributes

/-- An attribute of an object set to a value. -/
def set (σ : Attributes) (obj attr value : Text) : Attributes :=
  fun o n => if o = obj ∧ n = attr then value else σ o n

/-- A command carried out as it stands: an assignment sets its attribute to its value. -/
def assign (σ : Attributes) (command : Text) : Attributes :=
  match Assignment.parse? command with
  | none => σ
  | some a => σ.set a.obj a.attr a.value

/-- A command carried out where `[get(OBJ/ATTR)]` in front of the value is read as the current value
of the attribute that is set. -/
def extend (σ : Attributes) (command : Text) : Attributes :=
  match Assignment.parse? command with
  | none => σ
  | some a =>
      match Text.dropPrefix? (Assignment.currentValue a.attr a.obj) a.value with
      | none => σ.set a.obj a.attr a.value
      | some added => σ.set a.obj a.attr (σ a.obj a.attr ++ added)

/-- **The commands of a split one carried out in order**: the first as it stands, the others with
the current value read. -/
def run (σ : Attributes) : List Text → Attributes
  | [] => σ
  | first :: more => more.foldl extend (σ.assign first)

@[simp] theorem set_apply_self (σ : Attributes) (obj attr value : Text) :
    σ.set obj attr value obj attr = value := by
  simp [set]

@[simp] theorem set_set (σ : Attributes) (obj attr v w : Text) :
    (σ.set obj attr v).set obj attr w = σ.set obj attr w := by
  funext o n
  by_cases h : o = obj ∧ n = attr <;> simp [set, h]

/-- What a command that appends does to the attribute. -/
theorem extend_appendCommand {delay attr obj : Text} (hn : Assignment.IsName delay ∧
    Assignment.IsName attr ∧ Assignment.IsName obj) (σ : Attributes) (value added : Text) :
    (σ.set obj attr value).extend (Assignment.appendCommand delay attr obj added) =
      σ.set obj attr (value ++ added) := by
  obtain ⟨head, hparse⟩ := Assignment.parse?_appendCommand hn added
  have hdrop : Text.dropPrefix? (Assignment.currentValue attr obj)
      (Assignment.currentValue attr obj ++ added) = some added :=
    Text.dropPrefix?_eq_some_iff.2 rfl
  simp [extend, hparse, hdrop]

/-- Commands that append add their parts, one after the other. -/
theorem foldl_extend {delay attr obj : Text} (hn : Assignment.IsName delay ∧
    Assignment.IsName attr ∧ Assignment.IsName obj) (σ : Attributes) (value : Text)
    (more : List Text) :
    (more.map (Assignment.appendCommand delay attr obj)).foldl extend (σ.set obj attr value) =
      σ.set obj attr (value ++ more.flatten) := by
  induction more generalizing value with
  | nil => simp
  | cons p more ih =>
      rw [List.map_cons, List.foldl_cons, extend_appendCommand hn, ih, List.flatten_cons,
        List.append_assoc]

/-- **A split command leaves the attribute with the whole value.** -/
theorem run_of_isSplit {a : Assignment} {value first : Text} {texts more : List Text}
    (hh : Assignment.IsHead a.delay a.attr a.obj a.head)
    (h : IsSplit a a.head value texts first more) (σ : Attributes) :
    σ.run texts = σ.set a.obj a.attr value := by
  have hfirst : Assignment.parse? (a.head ++ first) = some { a with value := first } :=
    Assignment.parse?_eq_some_iff.2 ⟨hh, rfl⟩
  have hassign : σ.assign (a.head ++ first) = σ.set a.obj a.attr first := by
    simp [assign, hfirst]
  rw [h.texts_eq, run, hassign, foldl_extend hh.names, h.joined]

end Attributes

/-! ### The commands of a line -/

/-- The lines of an assignment are the commands that it is split into, or it is kept in one. -/
theorem splitCommand_lines (limit : Nat) {l : Line} {a : Assignment}
    (h : Assignment.parse? l.text = some a) :
    ∃ texts, (splitCommand limit l).lines = texts.map l.withText ∧
      (texts = [a.head ++ a.value] ∨ texts = (a.pieces limit a.head [] a.value).1) := by
  obtain ⟨-, htext⟩ := Assignment.parse?_eq_some_iff.1 h
  unfold splitCommand
  split
  · refine ⟨[a.head ++ a.value], ?_, Or.inl rfl⟩
    simp [← htext, Staged.quiet, Line.withText]
  · rw [h]
    exact ⟨_, rfl, Or.inr rfl⟩

/-- A line that is an assignment is split into commands of its parts. -/
theorem splitCommand_isSplit (limit : Nat) {l : Line} {a : Assignment}
    (h : Assignment.parse? l.text = some a) :
    ∃ texts first more, (splitCommand limit l).lines = texts.map l.withText ∧
      IsSplit a a.head a.value texts first more := by
  obtain ⟨texts, hlines, rfl | rfl⟩ := splitCommand_lines limit h
  · exact ⟨_, a.value, [], hlines, .one a a.head a.value⟩
  · obtain ⟨first, more, hsplit⟩ := a.pieces_parts limit a.head [] a.value
    rw [List.append_nil] at hsplit
    exact ⟨_, first, more, hlines, hsplit⟩

/-- **Splitting loses nothing.**  Whatever the limit, a line that is an assignment becomes at least
one line at the same place: its own head with a first part of the value, and commands that append
the other parts.  No part is empty if there are several, together they are the value, and carrying
the commands out in order leaves the attribute with the value. -/
theorem splitCommand_restores_value (limit : Nat) (l : Line) (a : Assignment)
    (h : Assignment.parse? l.text = some a) :
    l.text = a.head ++ a.value ∧
    (∀ m ∈ (splitCommand limit l).lines, m.file = l.file ∧ m.number = l.number) ∧
    (∀ σ : Attributes, σ.run ((splitCommand limit l).lines.map (·.text)) =
      σ.set a.obj a.attr a.value) ∧
    ∃ (first : Text) (more : List Text),
      (splitCommand limit l).lines.map (·.text) =
        (a.head ++ first) :: more.map (Assignment.appendCommand a.delay a.attr a.obj) ∧
      (more ≠ [] → first ≠ [] ∧ ∀ p ∈ more, p ≠ []) ∧
      first ++ more.flatten = a.value := by
  obtain ⟨hhead, htext⟩ := Assignment.parse?_eq_some_iff.1 h
  obtain ⟨texts, first, more, hlines, hsplit⟩ := splitCommand_isSplit limit h
  have hmap : (splitCommand limit l).lines.map (·.text) = texts := by
    rw [hlines, List.map_map]
    exact List.map_id texts
  rw [hmap]
  refine ⟨htext, ?_, Attributes.run_of_isSplit hhead hsplit, first, more, hsplit.texts_eq,
    fun hmore => ⟨hsplit.first_ne hmore, hsplit.more_ne⟩, hsplit.joined⟩
  intro m hm
  rw [hlines] at hm
  obtain ⟨t, -, rfl⟩ := List.mem_map.1 hm
  exact ⟨rfl, rfl⟩

/-- A delayed command that is longer than its limit becomes two, the second one delayed as well. -/
theorem splitCommand_restores_value_delayed :
    Assignment.parse? ("@wait 5=&D o=".toList ++ List.replicate 130 'A') =
      some ⟨"@wait 5=&D o=".toList, ['5'], ['D'], ['o'], List.replicate 130 'A'⟩ ∧
    (∀ σ : Attributes,
      σ.run ((splitCommand 120
        ⟨"@wait 5=&D o=".toList ++ List.replicate 130 'A', "main", 1⟩).lines.map (·.text)) =
        σ.set ['o'] ['D'] (List.replicate 130 'A')) ∧
    (splitCommand 120
        ⟨"@wait 5=&D o=".toList ++ List.replicate 130 'A', "main", 1⟩).lines.map (·.text) =
      ["@wait 5=&D o=".toList ++ List.replicate 107 'A',
        "@wait 5=&D o=[get(o/D)]".toList ++ List.replicate 23 'A'] := by
  have h : Assignment.parse? ("@wait 5=&D o=".toList ++ List.replicate 130 'A') =
      some ⟨"@wait 5=&D o=".toList, ['5'], ['D'], ['o'], List.replicate 130 'A'⟩ := by
    decide +kernel
  have hrun := splitCommand_restores_value 120
    ⟨"@wait 5=&D o=".toList ++ List.replicate 130 'A', "main", 1⟩ _ h
  exact ⟨h, hrun.2.2.1, by decide +kernel⟩

end Softcode
