/-
**The addresses of repositories.**

A shorthand `USER/REPO@BRANCH/PATH` stands for an address below the host that has the files of all
repositories.  This module proves that the parts of the shorthand are the segments of the address
and nothing else of it: whatever is written in a shorthand, the scheme, the host and the absence of
everything else stay as they are, and the parts can be read off the address again.  Different parts
therefore give different addresses, which matters since a source is known by its address.

A shorthand is described by its parts as they are written, `Softcode.Shorthand`: which characters a
part cannot have makes every text with a slash the writing of parts.

Main definitions:

* `Softcode.Shorthand`, `Softcode.Shorthand.text` — the parts of a shorthand, and its text;
* `Softcode.Shorthand.components` — its components, with the defaults put in;
* `Softcode.isPlain` — components that become a segment as they are;
* `Softcode.Url.IsContent` — addresses below the host of the repositories.

Main results:

* `Softcode.Repository.parse?_text` — the parts are read as they are written;
* `Softcode.Url.IsContent.foldl_pushSegment` — pushing segments leaves all but the path alone;
* `Softcode.Shorthand.segments_url` — the segments are the encoded components;
* `Softcode.repositoryUrl_faithful` — **shorthands and addresses correspond**.
-/

import Softcode.Proofs.EncodedText
import Softcode.Proofs.Text
import Softcode.Reference

set_option autoImplicit false

namespace Softcode

/-! ### Shorthands -/

/-- **The parts of a shorthand** `USER/REPO@BRANCH/PATH` as they are written.  Only the path may
have slashes, and a repository has no at sign, since the branch begins there. -/
structure Shorthand where
  user : Text
  name : Text
  branch : Option Text
  path : Option Text
  slash_user : '/' ∉ user
  slash_name : '/' ∉ name
  at_name : '@' ∉ name
  slash_branch : ∀ b, branch = some b → '/' ∉ b

namespace Shorthand

/-- The writing of a part that may be left out. -/
def optional (mark : Char) : Option Text → Text
  | none => []
  | some s => mark :: s

/-- The text of a shorthand. -/
def text (p : Shorthand) : Text :=
  p.user ++ '/' :: ((p.name ++ optional '@' p.branch) ++ optional '/' p.path)

/-- The branch, where the usual one stands for none. -/
def branchName (p : Shorthand) : Text := p.branch.getD defaultBranch

/-- The components of the path that are not empty. -/
def pathComponents (p : Shorthand) : List Text :=
  (List.splitOn '/' (p.path.getD [])).filter fun c => !c.isEmpty

/-- **The components of a shorthand**: the user, the repository and the branch, and those of the
path, where `index` with the extension stands for none. -/
def components (p : Shorthand) (ext : Text) : List Text :=
  [p.user, p.name, p.branchName] ++
    if p.pathComponents = [] then ["index.".toList ++ ext] else p.pathComponents

/-- The user, the repository or the branch is missing. -/
def Lacks (p : Shorthand) : Prop := p.user = [] ∨ p.name = [] ∨ p.branchName = []

instance (p : Shorthand) : Decidable p.Lacks := inferInstanceAs (Decidable (_ ∨ _ ∨ _))

/-- Every text is one without a mark, perhaps with the mark and more behind it. -/
theorem exists_optional (mark : Char) (s : Text) :
    ∃ l o, s = l ++ optional mark o ∧ mark ∉ l := by
  by_cases h : mark ∈ s
  · obtain ⟨l, r, hs, hl⟩ := List.eq_append_cons_of_mem h
    exact ⟨l, some r, hs, hl⟩
  · exact ⟨s, none, (List.append_nil s).symm, h⟩

/-- **Every text with a slash is a shorthand.** -/
theorem exists_text_eq {s : Text} (h : '/' ∈ s) : ∃ p : Shorthand, p.text = s := by
  obtain ⟨user, rest, rfl, huser⟩ := List.eq_append_cons_of_mem h
  obtain ⟨head, path, rfl, hhead⟩ := exists_optional '/' rest
  obtain ⟨name, branch, rfl, hname⟩ := exists_optional '@' head
  refine ⟨⟨user, name, branch, path, huser, fun hmem => hhead (List.mem_append_left _ hmem), hname,
    ?_⟩, rfl⟩
  rintro b rfl hmem
  exact hhead (List.mem_append_right _ (List.mem_cons_of_mem _ hmem))

/-- What is written before and behind a mark that may be missing is found by cutting there. -/
theorem cut?_optional {mark : Char} {l : Text} (hl : mark ∉ l) (o : Option Text) (d : Text) :
    (Text.cut? mark (l ++ optional mark o)).getD (l ++ optional mark o, d) = (l, o.getD d) := by
  cases o with
  | none =>
      rw [optional, List.append_nil, Text.cut?_eq_none_iff.2 hl]
      rfl
  | some r =>
      rw [optional, Text.cut?_eq_some_iff.2 ⟨rfl, hl⟩]
      rfl

end Shorthand

/-- **The parts of a shorthand are read as they are written.** -/
theorem Repository.parse?_text (p : Shorthand) :
    parse? p.text =
      if p.Lacks then none else some ⟨p.user, p.name, p.branchName, p.pathComponents⟩ := by
  have hhead : '/' ∉ p.name ++ Shorthand.optional '@' p.branch := by
    intro hmem
    rcases List.mem_append.1 hmem with h | h
    · exact p.slash_name h
    · cases hb : p.branch with
      | none => rw [hb] at h; cases h
      | some b =>
          rw [hb] at h
          rcases List.mem_cons.1 h with h | h
          · cases h
          · exact p.slash_branch b hb h
  have huser : Text.cut? '/' p.text = some (p.user, _) :=
    Text.cut?_eq_some_iff.2 ⟨rfl, p.slash_user⟩
  rw [parse?, huser]
  simp only [Option.bind_eq_bind, Option.bind_some, Shorthand.cut?_optional hhead,
    Shorthand.cut?_optional p.at_name, Text.splitOn_eq]
  by_cases hlacks : p.Lacks
  · rw [if_pos hlacks, if_pos]
    simpa [Shorthand.Lacks, Shorthand.branchName, or_assoc] using hlacks
  · rw [if_neg hlacks, if_neg]
    · rfl
    · simpa [Shorthand.Lacks, Shorthand.branchName, or_assoc] using hlacks

/-- A shorthand has an address unless a part is missing. -/
theorem repositoryUrl_text_eq_ok_iff {p : Shorthand} {ext : Text} {u : Url} :
    repositoryUrl p.text ext = .ok u ↔
      ¬ p.Lacks ∧ u = (p.components ext).foldl Url.pushSegment Repository.root := by
  have hcomponents :
      (⟨p.user, p.name, p.branchName, p.pathComponents⟩ : Repository).components ext =
        p.components ext := by
    unfold Repository.components Shorthand.components
    by_cases hpath : p.pathComponents = []
    · rw [if_pos hpath, if_pos (List.isEmpty_iff.2 hpath)]
    · rw [if_neg hpath, if_neg (mt List.isEmpty_iff.1 hpath)]
  rw [repositoryUrl, Repository.parse?_text]
  by_cases h : p.Lacks
  · simp [h]
  · rw [if_neg h]
    simp only [Repository.url, hcomponents]
    exact ⟨fun heq => ⟨h, (Except.ok.inj heq).symm⟩, fun hu => by rw [hu.2]⟩

/-- **A shorthand has no address exactly if it has no slash or a part is missing.** -/
theorem repositoryUrl_eq_error_iff (s ext : Text) (e : SourceError) :
    repositoryUrl s ext = .error e ↔
      e = .malformedRepository s ∧ ('/' ∉ s ∨ ∃ p : Shorthand, p.text = s ∧ p.Lacks) := by
  by_cases hslash : '/' ∈ s
  · obtain ⟨p, rfl⟩ := Shorthand.exists_text_eq hslash
    by_cases hlacks : p.Lacks
    · have hurl : repositoryUrl p.text ext = .error (.malformedRepository p.text) := by
        rw [repositoryUrl, Repository.parse?_text, if_pos hlacks]
      rw [hurl, Except.error.injEq]
      exact ⟨fun h => ⟨h.symm, .inr ⟨p, rfl, hlacks⟩⟩, fun h => h.1.symm⟩
    · rw [repositoryUrl_text_eq_ok_iff.2 ⟨hlacks, rfl⟩]
      constructor
      · intro h
        cases h
      · rintro ⟨-, h | ⟨q, hq, hlacks'⟩⟩
        · exact absurd hslash h
        · -- the same text has the same parts
          have hparse := Repository.parse?_text q
          rw [hq, Repository.parse?_text, if_neg hlacks, if_pos hlacks'] at hparse
          cases hparse
  · have hurl : repositoryUrl s ext = .error (.malformedRepository s) := by
      rw [repositoryUrl, Repository.parse?, Text.cut?_eq_none_iff.2 hslash]
      rfl
    rw [hurl, Except.error.injEq]
    exact ⟨fun h => ⟨h.symm, .inl hslash⟩, fun h => h.1.symm⟩

/-- No component of a shorthand is empty. -/
theorem Shorthand.components_ne_nil {p : Shorthand} (h : ¬ p.Lacks) (ext : Text) :
    ∀ c ∈ p.components ext, c ≠ [] := by
  obtain ⟨huser, hname, hbranch⟩ : p.user ≠ [] ∧ p.name ≠ [] ∧ p.branchName ≠ [] := by
    simpa [Shorthand.Lacks] using h
  intro c hc
  rcases List.mem_append.1 hc with hc | hc
  · simp only [List.mem_cons, List.not_mem_nil, or_false] at hc
    rcases hc with rfl | rfl | rfl
    · exact huser
    · exact hname
    · exact hbranch
  · split at hc
    · rw [List.mem_singleton.1 hc]
      exact List.cons_ne_nil _ _
    · simpa using (List.mem_filter.1 hc).2

/-! ### Addresses below the host of the repositories -/

/-- The characters of an encoded component have no meaning in a path, but for the percent sign. -/
theorem not_mem_encodedSegment {c : Char} (hc : c ∈ ['/', '?', '#']) (s : Text) :
    c ∉ Percent.encode Percent.inPathSegment s := by
  intro hmem
  have hclass : (['/', '?', '#'].all fun c =>
      Percent.inPathSegment c && !('%' :: Percent.hexDigits).contains c) = true := by decide
  have h := List.all_eq_true.1 hclass c hc
  rw [Bool.and_eq_true, Bool.not_eq_true', List.contains_eq_mem, decide_eq_false_iff_not] at h
  rcases Percent.mem_encode hmem with ⟨-, h'⟩ | h'
  · rw [h.1] at h'
    cases h'
  · exact h.2 h'

namespace Url

/-- **An address below the host of the repositories**: with the scheme and the host that all files
of repositories have, without user, password, port, query and fragment, and with a path in whose
segments none of their marks occurs. -/
structure IsContent (u : Url) : Prop where
  scheme : u.scheme = "https".toList
  authority : u.authority = some { host := some (.name rawContentName) }
  query : u.query = none
  fragment : u.fragment = none
  path : u.path = .segments u.segments
  segments_ne : u.segments ≠ []
  unmarked : ∀ seg ∈ u.segments, ∀ c ∈ ['/', '?', '#'], c ∉ seg

theorem isContent_root : IsContent Repository.root := by
  refine ⟨rfl, rfl, rfl, rfl, rfl, List.cons_ne_nil _ _, fun seg hseg c _ => ?_⟩
  rw [List.mem_singleton.1 hseg]
  exact List.not_mem_nil

/-- A path with one more segment is the old one, perhaps without its last segment, and one more,
which may be empty. -/
theorem exists_addSegment (segs : List Text) (s : Text) :
    ∃ front t, addSegment segs s = front ++ [t] ∧ (∀ seg ∈ front, seg ∈ segs) ∧
      (t = s ∨ t = []) := by
  obtain ⟨old, hold, hadd⟩ : ∃ old, (∀ seg ∈ old, seg ∈ segs) ∧ addSegment segs s =
      if s = ['.', '.'] then old.dropLast ++ [[]]
      else if s = ['.'] then old ++ [[]] else old ++ [s] := by
    refine ⟨if segs = [[]] then [] else segs, fun seg hseg => ?_, rfl⟩
    split at hseg
    · cases hseg
    · exact hseg
  rw [hadd]
  split
  · exact ⟨_, _, rfl, fun seg hseg => hold seg ((List.dropLast_sublist old).subset hseg), .inr rfl⟩
  · split
    · exact ⟨_, _, rfl, hold, .inr rfl⟩
    · exact ⟨_, _, rfl, hold, .inl rfl⟩

/-- One more segment leaves all but the path alone, and marks nothing in it. -/
theorem IsContent.pushSegment {u : Url} (h : IsContent u) (s : Text) :
    IsContent (u.pushSegment s) := by
  unfold Url.pushSegment
  split
  · exact h
  · obtain ⟨front, t, hadd, hfront, ht⟩ := exists_addSegment u.segments
      (Percent.encode Percent.inPathSegment (s.filter fun c => !isDropped c))
    refine ⟨h.scheme, h.authority, h.query, h.fragment, rfl, ?_, ?_⟩
    · show addSegment _ _ ≠ []
      rw [hadd]
      simp
    · show ∀ seg ∈ addSegment _ _, _
      rw [hadd]
      intro seg hseg c hc
      rcases List.mem_append.1 hseg with hseg | hseg
      · exact h.unmarked seg (hfront seg hseg) c hc
      · rw [List.mem_singleton.1 hseg]
        rcases ht with rfl | rfl
        · exact not_mem_encodedSegment hc _
        · exact List.not_mem_nil

/-- **Pushing segments leaves all but the path alone.** -/
theorem IsContent.foldl_pushSegment {u : Url} (h : IsContent u) (cs : List Text) :
    IsContent (cs.foldl Url.pushSegment u) := by
  induction cs generalizing u with
  | nil => exact h
  | cons c cs ih => exact ih (h.pushSegment c)

/-- The writing of such an address is that of the host and of the segments. -/
theorem IsContent.render_eq {u : Url} (h : IsContent u) :
    u.render = rawContentHost ++ u.segments.flatMap ('/' :: ·) := by
  rw [render, beforePath, h.scheme, h.authority, h.query, h.fragment, h.path]
  simp only [Path.render, List.append_nil]
  rfl

/-- In its writing a slash follows the host, and no mark of a query or fragment follows. -/
theorem IsContent.exists_render {u : Url} (h : IsContent u) :
    ∃ tail, u.render = rawContentHost ++ '/' :: tail ∧ '?' ∉ tail ∧ '#' ∉ tail := by
  obtain ⟨seg, segs, hsegs⟩ := List.exists_cons_of_ne_nil h.segments_ne
  refine ⟨seg ++ segs.flatMap ('/' :: ·), by rw [h.render_eq, hsegs]; rfl, ?_⟩
  have hmark : ∀ c ∈ ['/', '?', '#'], c ≠ '/' → c ∉ seg ++ segs.flatMap ('/' :: ·) := by
    intro c hc hne hmem
    rcases List.mem_append.1 hmem with hmem | hmem
    · exact h.unmarked seg (by rw [hsegs]; exact List.mem_cons_self) c hc hmem
    · obtain ⟨t, ht, hmem⟩ := List.mem_flatMap.1 hmem
      rcases List.mem_cons.1 hmem with hmem | hmem
      · exact hne hmem
      · exact h.unmarked t (by rw [hsegs]; exact List.mem_cons_of_mem _ ht) c hc hmem
  exact ⟨hmark '?' (by decide) (by decide), hmark '#' (by decide) (by decide)⟩

/-- The first segment of a path ends at the next slash. -/
theorem takeWhile_segment {x : Text} (hx : '/' ∉ x) (xs : List Text) :
    (x ++ xs.flatMap ('/' :: ·)).takeWhile (fun c => decide (c ≠ '/')) = x := by
  have hall : ∀ c ∈ x, decide (c ≠ '/') = true := by
    intro c hc
    rw [decide_eq_true_eq]
    rintro rfl
    exact hx hc
  rw [List.takeWhile_append_of_pos hall]
  cases xs <;> simp

/-- Segments without slashes are found again in a path. -/
theorem flatMap_slash_injective {xs ys : List Text} (hxs : ∀ x ∈ xs, '/' ∉ x)
    (hys : ∀ y ∈ ys, '/' ∉ y) (h : xs.flatMap ('/' :: ·) = ys.flatMap ('/' :: ·)) : xs = ys := by
  induction xs generalizing ys with
  | nil =>
      cases ys with
      | nil => rfl
      | cons y ys => cases h
  | cons x xs ih =>
      cases ys with
      | nil => cases h
      | cons y ys =>
          have htail : x ++ xs.flatMap ('/' :: ·) = y ++ ys.flatMap ('/' :: ·) :=
            (List.cons.inj h).2
          have hx := takeWhile_segment (hxs x List.mem_cons_self) xs
          rw [htail, takeWhile_segment (hys y List.mem_cons_self)] at hx
          subst hx
          rw [ih (fun t ht => hxs t (List.mem_cons_of_mem _ ht))
            (fun t ht => hys t (List.mem_cons_of_mem _ ht)) (List.append_cancel_left htail)]

end Url

/-! ### Plain components -/

/-- A component that becomes a segment as it is: it is neither `.` nor `..` and has no tab and no
newline, be it a line feed or a carriage return. -/
def isPlain (c : Text) : Bool :=
  c != ['.'] && c != ['.', '.'] && c.all fun d => d != '\t' && d != '\n' && d != '\r'

/-- The segment of a plain component. -/
def encodedSegment (c : Text) : Text := Percent.encode Percent.inPathSegment c

theorem encodedSegment_injective {c d : Text} (h : encodedSegment c = encodedSegment d) : c = d :=
  Percent.encode_injective (by decide) h

/-- **A plain component is pushed as the segment that encodes it.** -/
theorem Url.segments_pushSegment {u : Url} {c : Text} (hc : isPlain c = true) :
    (u.pushSegment c).segments =
      (if u.segments = [[]] then [] else u.segments) ++ [encodedSegment c] := by
  obtain ⟨⟨hdot, hdots⟩, hkept⟩ : (c ≠ ['.'] ∧ c ≠ ['.', '.']) ∧
      (c.all fun d => d != '\t' && d != '\n' && d != '\r') = true := by
    simpa only [isPlain, Bool.and_eq_true, bne_iff_ne] using hc
  have hfilter : (c.filter fun d => !isDropped d) = c := by
    refine List.filter_eq_self.2 fun d hd => ?_
    simpa [isDropped, and_assoc] using List.all_eq_true.1 hkept d hd
  have hdot' : encodedSegment c ≠ ['.'] := fun h => hdot (encodedSegment_injective (d := ['.']) h)
  have hdots' : encodedSegment c ≠ ['.', '.'] :=
    fun h => hdots (encodedSegment_injective (d := ['.', '.']) h)
  rw [Url.pushSegment, if_neg (not_or.2 ⟨hdot, hdots⟩), hfilter]
  show Url.addSegment _ (encodedSegment c) = _
  rw [Url.addSegment, if_neg hdots', if_neg hdot']

/-- A path that ends with a segment of a component is not the empty one. -/
theorem append_encodedSegment_ne {c : Text} (hc : c ≠ []) (front : List Text) :
    front ++ [encodedSegment c] ≠ [[]] := by
  intro h
  have hlast := congrArg List.getLast? h
  rw [List.getLast?_append, List.getLast?_singleton, List.getLast?_singleton, Option.some_or,
    Option.some.injEq] at hlast
  exact hc (encodedSegment_injective (d := []) hlast)

/-- Plain components become the segments that encode them. -/
theorem Url.segments_foldl_pushSegment {u : Url} (hu : u.segments ≠ [[]]) {cs : List Text}
    (hplain : ∀ c ∈ cs, isPlain c = true) (hne : ∀ c ∈ cs, c ≠ []) :
    (cs.foldl Url.pushSegment u).segments = u.segments ++ cs.map encodedSegment := by
  induction cs generalizing u with
  | nil => simp
  | cons c cs ih =>
      have hpush := Url.segments_pushSegment (u := u) (hplain c List.mem_cons_self)
      rw [if_neg hu] at hpush
      have hu' : (u.pushSegment c).segments ≠ [[]] :=
        hpush ▸ append_encodedSegment_ne (hne c List.mem_cons_self) _
      rw [List.foldl_cons, ih hu' (fun d hd => hplain d (List.mem_cons_of_mem _ hd))
        (fun d hd => hne d (List.mem_cons_of_mem _ hd)), hpush, List.map_cons, List.append_assoc]
      rfl

/-- **The segments of the address of a shorthand are its encoded components**, if these are
plain. -/
theorem Shorthand.segments_url {p : Shorthand} {ext : Text} (hlacks : ¬ p.Lacks)
    (hplain : ∀ c ∈ p.components ext, isPlain c = true) :
    ((p.components ext).foldl Url.pushSegment Repository.root).segments =
      (p.components ext).map encodedSegment := by
  have hne := p.components_ne_nil hlacks ext
  obtain ⟨c, cs, hcs⟩ : ∃ c cs, p.components ext = c :: cs := ⟨_, _, rfl⟩
  rw [hcs] at hplain hne ⊢
  have hpush := Url.segments_pushSegment (u := Repository.root) (hplain c List.mem_cons_self)
  rw [if_pos (show Repository.root.segments = [[]] from rfl), List.nil_append] at hpush
  have hu : (Repository.root.pushSegment c).segments ≠ [[]] :=
    hpush ▸ append_encodedSegment_ne (hne c List.mem_cons_self) []
  rw [List.foldl_cons, Url.segments_foldl_pushSegment hu
    (fun d hd => hplain d (List.mem_cons_of_mem _ hd))
    (fun d hd => hne d (List.mem_cons_of_mem _ hd)), hpush]
  rfl

/-- The text that a segment of an address stands for. -/
def decodedSegment (seg : Text) : Except Utf8.Fault Text := Utf8.decode (Percent.decode seg)

theorem decodedSegment_encodedSegment (c : Text) : decodedSegment (encodedSegment c) = .ok c := by
  rw [decodedSegment, encodedSegment, Percent.decode_encode (by decide), Utf8.decode_toBytes]

/-! ### Shorthands and their addresses -/

/-- The host of the repositories is read as the address that all others are below. -/
theorem parse_rawContentHost : Url.parse rawContentHost = .ok Repository.root := rfl

/-- **Shorthands and addresses correspond.**  A shorthand has no address exactly if it has no slash
or its user, repository or branch is empty.  Otherwise its address has the scheme, the host and no
more of what repositories are read from, also as it is written: behind the host there are a slash
and a path without marks of a query or fragment.  If the components of the shorthand are plain, they
are what the segments of the path stand for, in order; and of two shorthands with plain components,
also for different extensions, those that share an address have the same components. -/
theorem repositoryUrl_faithful (s ext : Text) :
    (∀ e, repositoryUrl s ext = .error e ↔ e = .malformedRepository s ∧
      ('/' ∉ s ∨ ∃ p : Shorthand, p.text = s ∧
        (p.user = [] ∨ p.name = [] ∨ p.branchName = []))) ∧
    ∀ u, repositoryUrl s ext = .ok u →
      (u.scheme = "https".toList ∧ u.authority = some { host := some (.name rawContentName) } ∧
        u.query = none ∧ u.fragment = none ∧
        ∃ tail, u.render = rawContentHost ++ '/' :: tail ∧ '?' ∉ tail ∧ '#' ∉ tail) ∧
      (∃ p : Shorthand, p.text = s) ∧
      ∀ p : Shorthand, p.text = s → (∀ c ∈ p.components ext, isPlain c = true) →
        u.segments.map decodedSegment = (p.components ext).map .ok ∧
        ∀ (q : Shorthand) (ext' : Text) (v : Url), repositoryUrl q.text ext' = .ok v →
          (∀ c ∈ q.components ext', isPlain c = true) → v.render = u.render →
          q.components ext' = p.components ext := by
  refine ⟨repositoryUrl_eq_error_iff s ext, fun u hu => ?_⟩
  have hslash : '/' ∈ s := by
    by_contra hslash
    rw [(repositoryUrl_eq_error_iff s ext _).2 ⟨rfl, .inl hslash⟩] at hu
    cases hu
  have hcontent : u.IsContent := by
    obtain ⟨p, rfl⟩ := Shorthand.exists_text_eq hslash
    rw [(repositoryUrl_text_eq_ok_iff.1 hu).2]
    exact Url.isContent_root.foldl_pushSegment _
  refine ⟨⟨hcontent.scheme, hcontent.authority, hcontent.query, hcontent.fragment,
    hcontent.exists_render⟩, Shorthand.exists_text_eq hslash, ?_⟩
  rintro p rfl hplain
  obtain ⟨hlacks, rfl⟩ := repositoryUrl_text_eq_ok_iff.1 hu
  have hsegments := p.segments_url hlacks hplain
  refine ⟨?_, fun q ext' v hv hplain' hrender => ?_⟩
  · rw [hsegments, List.map_map]
    exact List.map_congr_left fun c _ => decodedSegment_encodedSegment c
  · obtain ⟨hlacks', rfl⟩ := repositoryUrl_text_eq_ok_iff.1 hv
    have hcontent' := Url.isContent_root.foldl_pushSegment (q.components ext')
    -- the path is what follows the host, and its segments are between the slashes
    rw [hcontent.render_eq, hcontent'.render_eq] at hrender
    have hpaths := Url.flatMap_slash_injective
      (fun seg hseg => hcontent'.unmarked seg hseg '/' (by decide))
      (fun seg hseg => hcontent.unmarked seg hseg '/' (by decide))
      (List.append_cancel_left hrender)
    rw [hsegments, q.segments_url hlacks' hplain'] at hpaths
    exact (List.map_inj_right fun _ _ => encodedSegment_injective).1 hpaths

/-- A shorthand with a branch, an empty component of the path and a blank in it. -/
def spacedShorthand : Shorthand where
  user := "alice".toList
  name := "tools".toList
  branch := some "dev".toList
  path := some "src//my file.mush".toList
  slash_user := by decide
  slash_name := by decide
  at_name := by decide
  slash_branch b hb := Option.some.inj hb ▸ by decide

/-- A shorthand without a branch and without a path. -/
def plainShorthand : Shorthand where
  user := "bob".toList
  name := "kit".toList
  branch := none
  path := none
  slash_user := by decide
  slash_name := by decide
  at_name := by decide
  slash_branch := nofun

theorem repositoryUrl_faithful_spaced :
    spacedShorthand.text = "alice/tools@dev/src//my file.mush".toList ∧
    spacedShorthand.components "mush".toList =
      ["alice".toList, "tools".toList, "dev".toList, "src".toList, "my file.mush".toList] ∧
    (∃ u, repositoryUrl spacedShorthand.text "mush".toList = .ok u ∧
      u.render = "https://raw.githubusercontent.com/alice/tools/dev/src/my%20file.mush".toList ∧
      u.segments.map decodedSegment = (spacedShorthand.components "mush".toList).map .ok) ∧
    plainShorthand.text = "bob/kit".toList ∧
    ∃ u, repositoryUrl plainShorthand.text "mush".toList = .ok u ∧
      u.render = "https://raw.githubusercontent.com/bob/kit/main/index.mush".toList ∧
      u.segments.map decodedSegment =
        ["bob".toList, "kit".toList, "main".toList, "index.mush".toList].map .ok := by
  have hspaced : ∀ c ∈ spacedShorthand.components "mush".toList, isPlain c = true := by
    decide +kernel
  have hplain : ∀ c ∈ plainShorthand.components "mush".toList, isPlain c = true := by
    decide +kernel
  exact ⟨rfl, rfl,
    ⟨_, rfl, rfl, (((repositoryUrl_faithful spacedShorthand.text "mush".toList).2 _ rfl).2.2
      spacedShorthand rfl hspaced).1⟩,
    rfl, _, rfl, rfl, (((repositoryUrl_faithful plainShorthand.text "mush".toList).2 _ rfl).2.2
      plainShorthand rfl hplain).1⟩

end Softcode
