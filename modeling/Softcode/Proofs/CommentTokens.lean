/-
**Comments are the tokens that are left out.**

The walk over a line passes over its tokens one by one, keeps those that are no comments and ends in
a mode that tells whether the line was cut, or left a block comment open.  So taking the comments
out of a stream is leaving out the tokens that are comments, and every other token is found again in
what is left of its line, behind what is kept of the tokens before it.  There is one exception: the
blanks at the end of a line that is cut go even where the last of them is part of an escape pair.

Main definitions:

* `Softcode.Scanner.Passes` — a walk over a part of a line;
* `Softcode.LosesBlank` — **an escape pair whose blank goes with the blanks at the end**.

Main results:

* `Softcode.Scanner.passes_firstToken` — **the walk passes over one token**;
* `Softcode.follows_lineTokens` — the walk over a line follows its tokens;
* `Softcode.stripFrom_eq_withoutComments` — both ways to leave the comments out are the same;
* `Softcode.stripComments_tokens` — **comments are left out, and other tokens survive**.
-/

import Softcode.Proofs.LineTokens

set_option autoImplicit false

namespace Softcode

namespace Scanner

/-! ### Walks over a part of a line -/

/-- A walk from `s` over `x`, with `r` behind it, which comes to `s'` and keeps all characters of
`x`, or none of them. -/
structure Passes (keeps : Bool) (s : Scanner) (before : Option Char) (x r : Text)
    (s' : Scanner) : Prop where
  kept_eq : s.kept before (x ++ r) =
    (if keeps then x else []) ++ s'.kept (x.getLast?.or before) r
  last_eq : (s.roles before (x ++ r)).2 = (s'.roles (x.getLast?.or before) r).2

theorem Passes.nil (keeps : Bool) (s : Scanner) (before : Option Char) (r : Text) :
    Passes keeps s before [] r s where
  kept_eq := by cases keeps <;> rfl
  last_eq := rfl

/-- One step, and the walk behind it. -/
theorem Passes.cons {keeps : Bool} {s s₁ s' : Scanner} {before : Option Char} {c : Char}
    {role : Role} {x r : Text} (hstep : s.step before c (x ++ r) = (role, s₁))
    (hkeeps : keeps = decide (role ≠ .comment)) (h : Passes keeps s₁ (some c) x r s') :
    Passes keeps s before (c :: x) r s' := by
  have hbefore : (c :: x).getLast?.or before = x.getLast?.or (some c) := by
    rw [List.getLast?_cons]
    cases x.getLast? <;> rfl
  constructor
  · rw [hbefore, List.cons_append]
    by_cases hrole : role = .comment
    · rw [kept_of_comment (by rw [hstep]; exact hrole), hstep, h.kept_eq, hkeeps,
        decide_eq_false (not_not_intro hrole)]
      rfl
    · rw [kept_of_ne (by rw [hstep]; exact hrole), hstep, h.kept_eq, hkeeps,
        decide_eq_true hrole]
      rfl
  · rw [hbefore, List.cons_append, roles_cons, hstep]
    exact h.last_eq

/-- What has been recognised is passed over. -/
theorem passes_pending (m : Mode) (role : Role) {keeps : Bool}
    (hkeeps : keeps = decide (role ≠ .comment)) (x r : Text) (before : Option Char) :
    Passes keeps ⟨m, x.length, role⟩ before x r ⟨m, 0, role⟩ := by
  induction x generalizing before with
  | nil => exact .nil _ _ _ _
  | cons c x ih => exact .cons rfl hkeeps (ih (some c))

/-! ### Quoted spans -/

section Quoted

variable {q c : Char} {role : Role} {before : Option Char} {rest : Text}

theorem step_quoted_escape :
    (⟨.quoted q, 0, role⟩ : Scanner).step before '\\' rest =
      (.escaped, ⟨.quoted q, 1, .escaped⟩) := rfl

theorem step_quoted_end (hq : q ≠ '\\') :
    (⟨.quoted q, 0, role⟩ : Scanner).step before q rest = (.quote, start .code) := by
  simp only [step, if_neg hq, if_true]

theorem step_quoted_inside (hc : c ≠ '\\') (hquote : c ≠ q) :
    (⟨.quoted q, 0, role⟩ : Scanner).step before c rest =
      (.quoted, ⟨.quoted q, 0, role⟩) := by
  simp only [step, if_neg hc, if_neg hquote]

end Quoted

/-- **The walk passes over a quoted span**: to code behind its second quote, or to the end of the
line. -/
theorem passes_quotedSpan {q : Char} (hq : q ≠ '\\') (t : Text) (role : Role)
    (before : Option Char) :
    ∃ s', Passes true ⟨.quoted q, 0, role⟩ before (quotedSpan q t)
        (t.drop (quotedSpan q t).length) s' ∧
      ((∃ role', s' = ⟨.code, 0, role'⟩) ∨
        t.drop (quotedSpan q t).length = [] ∧ s'.mode = .quoted q) := by
  fun_induction units t generalizing role before with
  | case1 => exact ⟨_, .nil _ _ _ _, Or.inr ⟨rfl, rfl⟩⟩
  | case2 c s ih =>
      obtain ⟨s', hpasses, hend⟩ := ih .escaped (some c)
      rw [quotedSpan_escape]
      exact ⟨s', .cons step_quoted_escape rfl (.cons rfl rfl hpasses), hend⟩
  | case3 c s hpair ih =>
      by_cases hescape : c = '\\'
      · -- a backslash at the end of the line
        subst hescape
        cases s with
        | nil =>
            rw [quotedSpan_backslash]
            exact ⟨⟨.quoted q, 1, .escaped⟩, .cons step_quoted_escape rfl (.nil _ _ _ _),
              Or.inr ⟨rfl, rfl⟩⟩
        | cons d s => exact absurd rfl (hpair d s rfl)
      · by_cases hquote : c = q
        · subst hquote
          rw [quotedSpan_quote hq]
          exact ⟨_, .cons (step_quoted_end hq) rfl (.nil _ _ _ _), Or.inl ⟨_, rfl⟩⟩
        · obtain ⟨s', hpasses, hend⟩ := ih role (some c)
          rw [quotedSpan_cons hescape hquote]
          exact ⟨s', .cons (step_quoted_inside hescape hquote) rfl hpasses, hend⟩

/-! ### Comments -/

/-- The walk passes over a comment to the end of the line. -/
theorem passes_lineComment (t : Text) (role : Role) (before : Option Char) :
    Passes false ⟨.lineComment, 0, role⟩ before t [] ⟨.lineComment, 0, role⟩ := by
  induction t generalizing before with
  | nil => exact .nil _ _ _ _
  | cons c t ih => exact .cons rfl rfl (ih (some c))

theorem step_block_close {role : Role} {before : Option Char} {c : Char} {rest : Text}
    (h : Text.startsWith blockCloseMark (c :: rest) = true) :
    (⟨.block, 0, role⟩ : Scanner).step before c rest = (.comment, ⟨.code, 1, .comment⟩) := by
  simp only [step, h, if_true]

theorem step_block_inside {role : Role} {before : Option Char} {c : Char} {rest : Text}
    (h : Text.startsWith blockCloseMark (c :: rest) = false) :
    (⟨.block, 0, role⟩ : Scanner).step before c rest = (.comment, ⟨.block, 0, role⟩) := by
  simp only [step, h]
  rfl

/-- **The walk passes over a block comment**: to code if the comment is closed, and to the end of
the line if it is not. -/
theorem passes_commentSpan (t : Text) (role : Role) (before : Option Char) :
    ∃ s', Passes false ⟨.block, 0, role⟩ before (commentSpan t)
        (t.drop (commentSpan t).length) s' ∧
      (closesComment t = true ∧ s' = ⟨.code, 0, .comment⟩ ∨
        closesComment t = false ∧ t.drop (commentSpan t).length = [] ∧ s'.mode = .block) := by
  induction t generalizing before with
  | nil => exact ⟨_, .nil _ _ _ _, Or.inr ⟨rfl, rfl, rfl⟩⟩
  | cons c t ih =>
      cases hclose : Text.startsWith blockCloseMark (c :: t) with
      | true =>
          obtain ⟨u, rfl⟩ := List.head?_eq_some_iff.1 (blockCloseMark_iff.1 hclose).2
          rw [commentSpan_close hclose, closesComment_cons, hclose]
          have hslash : Passes false ⟨.code, 1, .comment⟩ (some c) ['/'] u ⟨.code, 0, .comment⟩ :=
            passes_pending .code .comment rfl ['/'] u (some c)
          exact ⟨_, .cons (step_block_close hclose) rfl hslash, Or.inl ⟨rfl, rfl⟩⟩
      | false =>
          obtain ⟨s', hpasses, hend⟩ := ih (some c)
          rw [commentSpan_cons hclose, closesComment_cons, hclose, Bool.false_or]
          refine ⟨s', .cons (step_block_inside ?_) rfl hpasses, hend⟩
          rw [List.length_cons, List.drop_succ_cons, commentSpan_append_drop]
          exact hclose

/-! ### One token -/

/-- A mode that a token of the given kind leaves the walk in: a comment to the end of the line, an
open block comment, or another one. -/
def LeftBy (kind : TokenKind) (mode : Mode) : Prop :=
  (mode = .lineComment ↔ kind = .lineComment) ∧ (mode = .block ↔ kind = .blockComment false)

theorem leftBy_code {kind : TokenKind} (h : kind ≠ .lineComment ∧ kind ≠ .blockComment false) :
    LeftBy kind .code :=
  ⟨iff_of_false nofun h.1, iff_of_false nofun h.2⟩

/-- The walk behind a token: in the mode that the token leaves it in, and in code unless the line is
at its end. -/
def Behind (kind : TokenKind) (s : Scanner) (r : Text) : Prop :=
  LeftBy kind s.mode ∧ ((∃ role, s = ⟨.code, 0, role⟩) ∨ r = [])

theorem behind_commentToken (opening : Text) {t r : Text} {s : Scanner}
    (h : closesComment t = true ∧ s = ⟨.code, 0, .comment⟩ ∨
      closesComment t = false ∧ r = [] ∧ s.mode = .block) :
    Behind (commentToken opening t).kind s r := by
  rcases h with ⟨hclosed, rfl⟩ | ⟨hopen, hnil, hmode⟩
  · refine ⟨leftBy_code ?_, Or.inl ⟨_, rfl⟩⟩
    simp [commentToken, hclosed]
  · refine ⟨?_, Or.inr hnil⟩
    rw [hmode]
    simp [LeftBy, commentToken, hopen]

/-- **The walk passes over the token at the front**, and keeps it unless it is a comment. -/
theorem passes_firstToken (role : Role) (before : Option Char) (c : Char) (rest : Text) :
    ∃ s', Passes (!(firstToken before c rest).kind.isComment) ⟨.code, 0, role⟩ before
        (firstToken before c rest).text (afterToken before c rest) s' ∧
      Behind (firstToken before c rest).kind s' (afterToken before c rest) := by
  unfold afterToken
  cases sight before c rest with
  | escape h =>
      rw [firstToken_escape h]
      cases rest with
      | nil =>
          exact ⟨⟨.code, 1, .escaped⟩, .cons (step_escape h) rfl (.nil _ _ _ _),
            leftBy_code ⟨nofun, nofun⟩, Or.inr rfl⟩
      | cons d rest =>
          exact ⟨⟨.code, 0, .escaped⟩, .cons (step_escape h) rfl (.cons rfl rfl (.nil _ _ _ _)),
            leftBy_code ⟨nofun, nofun⟩, Or.inl ⟨_, rfl⟩⟩
  | quote h =>
      rw [firstToken_quote h]
      have hq : c ≠ '\\' := by rcases h with rfl | rfl <;> decide
      obtain ⟨s', hpasses, hend⟩ := passes_quotedSpan hq rest .code (some c)
      refine ⟨s', .cons (step_quote h) rfl hpasses, ?_⟩
      rcases hend with ⟨role', rfl⟩ | ⟨hnil, hmode⟩
      · exact ⟨leftBy_code ⟨nofun, nofun⟩, Or.inl ⟨role', rfl⟩⟩
      · refine ⟨?_, Or.inr hnil⟩
        rw [hmode]
        exact ⟨by simp, by simp⟩
  | @address n h =>
      rw [firstToken_address h]
      -- the step at the front of an address tells its length, and the rest of it is pending
      have hlength : (rest.take n).length = n := by
        have := addressLength_le before (c :: rest)
        rw [h, List.length_cons] at this
        rw [List.length_take]
        omega
      have hpasses := passes_pending .code .address rfl (rest.take n) (rest.drop n) (some c)
      rw [hlength] at hpasses
      rw [List.length_cons, hlength, List.drop_succ_cons]
      refine ⟨_, .cons (step_address ?_) rfl hpasses, leftBy_code ⟨nofun, nofun⟩, Or.inl ⟨_, rfl⟩⟩
      rw [List.take_append_drop]
      exact h
  | line h =>
      rw [firstToken_line h, List.drop_length]
      refine ⟨_, .cons (step_line ?_) rfl (passes_lineComment rest .code (some c)),
        ⟨by simp, by simp⟩, Or.inr rfl⟩
      rwa [List.append_nil]
  | block h =>
      obtain ⟨rfl, hhead, -⟩ := opensBlock_iff.1 h
      obtain ⟨t, rfl⟩ := List.head?_eq_some_iff.1 hhead
      -- the step is over the slash, and the star is pending
      obtain ⟨s', hpasses, hend⟩ := passes_commentSpan t .comment (some '*')
      rw [firstToken_block h]
      refine ⟨s', .cons (step_block ?_) rfl (.cons rfl rfl hpasses), ?_⟩
      · exact (commentSpan_append_drop t).symm ▸ h
      · exact behind_commentToken ['/', '*'] hend
  | plain h₁ h₂ h₃ h₄ h₅ =>
      rw [firstToken_plain h₁ h₂ h₃ h₄ h₅]
      exact ⟨_, .cons (step_plain h₁ h₂ h₃ h₄ h₅) rfl (.nil _ _ _ _), leftBy_code ⟨nofun, nofun⟩,
        Or.inl ⟨_, rfl⟩⟩

/-! ### Lines -/

/-- A mode at the end of tokens: a comment to the end of the line if there is one among them, a
block comment if one of them is open, or another one. -/
def EndOf (ts : List Token) (mode : Mode) : Prop :=
  (mode = .lineComment ↔ ts.any (·.kind == .lineComment) = true) ∧
    (mode = .block ↔ leavesOpen ts = true)

theorem endOf_singleton {tok : Token} {mode : Mode} (h : LeftBy tok.kind mode) :
    EndOf [tok] mode := by
  simp only [EndOf, leavesOpen, List.any_cons, List.any_nil, Bool.or_false, beq_iff_eq]
  exact h

/-- A token that leaves the walk in code has no part in the mode at the end. -/
theorem EndOf.cons {tok : Token} {ts : List Token} {mode : Mode} (h : EndOf ts mode)
    (htok : LeftBy tok.kind .code) : EndOf (tok :: ts) mode := by
  have hline : (tok.kind == .lineComment) = false := beq_eq_false_iff_ne.2 fun hk =>
    nomatch htok.1.2 hk
  have hblock : (tok.kind == .blockComment false) = false := beq_eq_false_iff_ne.2 fun hk =>
    nomatch htok.2.2 hk
  rw [EndOf, leavesOpen, List.any_cons, List.any_cons, hline, hblock]
  exact h

/-- A walk over `t` that keeps what the tokens keep and ends as they do. -/
def Follows (s : Scanner) (before : Option Char) (t : Text) (ts : List Token) : Prop :=
  s.kept before t = keptText ts ∧ EndOf ts (s.roles before t).2.mode

/-- A walk that passes over a token and then follows the tokens behind it. -/
theorem Passes.follows (tok : Token) {s s' : Scanner} {before : Option Char} {r : Text}
    (hpasses : Passes (!tok.kind.isComment) s before tok.text r s') (hbehind : Behind tok.kind s' r)
    (hnext : ∀ role, Follows ⟨.code, 0, role⟩ (tok.text.getLast?.or before) r
      (tokens (tok.text.getLast?.or before) r)) :
    Follows s before (tok.text ++ r) (tok :: tokens (tok.text.getLast?.or before) r) := by
  obtain ⟨hleft, ⟨role, rfl⟩ | rfl⟩ := hbehind
  · obtain ⟨hkept, hend⟩ := hnext role
    refine ⟨?_, ?_⟩
    · rw [hpasses.kept_eq, hkept, keptText_cons]
    · rw [hpasses.last_eq]
      exact hend.cons hleft
  · refine ⟨?_, ?_⟩
    · rw [hpasses.kept_eq, keptText_cons, tokens]
      rfl
    · rw [hpasses.last_eq, tokens]
      exact endOf_singleton hleft

/-- **The walk follows the tokens** of a text outside comments. -/
theorem follows_tokens (role : Role) (before : Option Char) (t : Text) :
    Follows ⟨.code, 0, role⟩ before t (tokens before t) := by
  fun_induction tokens before t generalizing role with
  | case1 before => exact ⟨rfl, by simp, by simp [leavesOpen]⟩
  | case2 before c rest ih =>
      obtain ⟨s', hpasses, hbehind⟩ := passes_firstToken role before c rest
      have hlast : (firstToken before c rest).text.getLast?.or before =
          (firstToken before c rest).text.getLast? := by
        rw [List.getLast?_eq_some_getLast (firstToken_ne_nil before c rest)]
        rfl
      have hfollows := hpasses.follows _ hbehind (by rw [hlast]; exact ih)
      rwa [text_afterToken, hlast] at hfollows

end Scanner

/-! ### Streams -/

/-- The mode in which a line begins. -/
def Mode.ofOpen (opened : Bool) : Mode := if opened then .block else .code

/-- **The walk over a line follows its tokens.** -/
theorem follows_lineTokens (opened : Bool) (t : Text) :
    (Scanner.start (.ofOpen opened)).Follows none t (lineTokens opened t) := by
  cases opened with
  | false => exact Scanner.follows_tokens .code none t
  | true =>
      obtain ⟨s', hpasses, hend⟩ := Scanner.passes_commentSpan t .code none
      have hbehind : Scanner.Behind (commentToken [] t).kind s'
          (t.drop (commentSpan t).length) :=
        Scanner.behind_commentToken [] hend
      have hfollows := Scanner.Passes.follows (commentToken [] t) hpasses hbehind
        fun role => Scanner.follows_tokens role _ _
      have hnone : (commentToken [] t).text.getLast?.or none = (commentSpan t).getLast? :=
        Option.or_none
      have htext : (commentToken [] t).text ++ t.drop (commentSpan t).length = t :=
        commentSpan_append_drop t
      rw [hnone, htext] at hfollows
      exact hfollows

/-- **What is left of a line**, by its tokens, and the mode in which the next line begins. -/
theorem stripLine_eq_leftText (opened : Bool) (t : Text) :
    (stripLine (.ofOpen opened) t).1 = leftText (lineTokens opened t) ∧
      (stripLine (.ofOpen opened) t).2.nextLine = .ofOpen (leavesOpen (lineTokens opened t)) := by
  obtain ⟨hkept, hline, hblock⟩ := follows_lineTokens opened t
  constructor
  · have hstrip : (stripLine (.ofOpen opened) t).1 =
        if (stripLine (.ofOpen opened) t).2 = .lineComment then
          Text.trimEnd ((Scanner.start (.ofOpen opened)).kept none t)
        else (Scanner.start (.ofOpen opened)).kept none t := rfl
    rw [hstrip, hkept, leftText]
    exact if_congr hline rfl rfl
  · cases hopen : leavesOpen (lineTokens opened t) with
    | true =>
        have hmode : (stripLine (.ofOpen opened) t).2 = .block := hblock.2 hopen
        rw [hmode]
        rfl
    | false =>
        have hmode : (stripLine (.ofOpen opened) t).2 ≠ .block := fun h =>
          Bool.eq_false_iff.1 hopen (hblock.1 h)
        cases hlast : (stripLine (.ofOpen opened) t).2 with
        | block => exact absurd hlast hmode
        | code | quoted | lineComment => rfl

/-- A line is read unless it has a marker and begins in code. -/
theorem isRead_eq_false_iff {opened : Bool} {t : Text} :
    isRead opened t = false ↔
      Mode.ofOpen opened ≠ .block ∧ (isDroppedText t = true ∨ isRawText t = true) := by
  cases opened with
  | true => exact iff_of_false (by simp [isRead]) fun h => h.1 rfl
  | false =>
      have hmode : Mode.ofOpen false ≠ .block := nofun
      rw [isRead, Bool.false_or, Bool.not_eq_false', Bool.or_eq_true, and_iff_right hmode]

theorem strippedLine?_eq_leftLine? (opened : Bool) (l : Line) :
    strippedLine? (.ofOpen opened) l = leftLine? opened l := by
  obtain ⟨hleft, -⟩ := stripLine_eq_leftText opened l.text
  unfold strippedLine? leftLine?
  cases hread : isRead opened l.text with
  | false =>
      obtain ⟨hmode, hmarker⟩ := isRead_eq_false_iff.1 hread
      rcases hmarker with hdropped | hraw
      · simp [hmode, hdropped]
      · simp [hmode, hraw]
  | true =>
      have hunmarked := mt isRead_eq_false_iff.2 (by rw [hread]; decide)
      rw [if_neg fun h => hunmarked ⟨h.1, Or.inl h.2⟩,
        if_neg fun h => hunmarked ⟨h.1, Or.inr h.2⟩, hleft]
      rfl

theorem behind_eq_openAfter (opened : Bool) (l : Line) :
    (Mode.ofOpen opened).behind l = .ofOpen (openAfter opened l) := by
  obtain ⟨-, hnext⟩ := stripLine_eq_leftText opened l.text
  unfold Mode.behind openAfter
  cases hread : isRead opened l.text with
  | false => rw [if_pos (isRead_eq_false_iff.1 hread)]; rfl
  | true =>
      rw [if_neg (mt isRead_eq_false_iff.2 (by rw [hread]; decide)), hnext]
      rfl

/-- **Both ways to leave the comments of a stream out are the same.** -/
theorem stripFrom_eq_withoutComments (opened : Bool) (ls : List Line) :
    stripFrom (.ofOpen opened) ls = withoutComments opened ls := by
  induction ls generalizing opened with
  | nil => rfl
  | cons l ls ih =>
      rw [stripFrom_cons, strippedLine?_eq_leftLine?, behind_eq_openAfter, ih, withoutComments]

/-! ### Tokens that survive -/

/-- Every token of a text is the one at the front of some part of it. -/
theorem exists_firstToken {before : Option Char} {t : Text} {ts us : List Token} {tok : Token}
    (h : tokens before t = ts ++ tok :: us) :
    ∃ before' c rest, tok = firstToken before' c rest ∧
      us = tokens tok.text.getLast? (afterToken before' c rest) := by
  fun_induction tokens before t generalizing ts with
  | case1 => simp at h
  | case2 before c rest ih =>
      cases ts with
      | nil =>
          obtain ⟨rfl, rfl⟩ := List.cons.inj h
          exact ⟨before, c, rest, rfl, rfl⟩
      | cons tok' ts => exact ih (List.cons.inj h).2

/-- A quoted span that does not go to the end of the line ends with its quote. -/
theorem quotedSpan_ends {q : Char} (hq : q ≠ '\\') (t : Text) :
    t.drop (quotedSpan q t).length = [] ∨ ∃ x, quotedSpan q t = x ++ [q] := by
  fun_induction units t with
  | case1 => exact Or.inl rfl
  | case2 c s ih =>
      rw [quotedSpan_escape]
      exact ih.imp_right (Exists.imp' ('\\' :: c :: ·) fun x hx => by rw [hx]; rfl)
  | case3 c s hpair ih =>
      by_cases hescape : c = '\\'
      · subst hescape
        cases s with
        | nil => exact Or.inl (by rw [quotedSpan_backslash]; rfl)
        | cons d s => exact absurd rfl (hpair d s rfl)
      · by_cases hquote : c = q
        · subst hquote
          exact Or.inr ⟨[], quotedSpan_quote hq s⟩
        · rw [quotedSpan_cons hescape hquote]
          exact ih.imp_right (Exists.imp' (c :: ·) fun x hx => by rw [hx]; rfl)

/-- An address has no blanks. -/
theorem not_blank_of_mem_address {before : Option Char} {c : Char} {rest : Text} {n : Nat}
    (h : addressLength before (c :: rest) = n + 1) {d : Char} (hd : d ∈ c :: rest.take n) :
    isBlank d = false := by
  obtain ⟨-, w, s, ht, hw, hn⟩ := addressLength_eq_iff.1 h
  have htake : c :: rest.take n = w ++ s.takeWhile fun c => !endsAddress c := by
    rw [← List.take_succ_cons, ht, hn, List.take_length_add_append]
    exact congrArg (w ++ ·)
      (List.prefix_iff_eq_take.1 (List.takeWhile_prefix fun c => !endsAddress c)).symm
  rw [htake, List.mem_append] at hd
  rcases hd with hd | hd
  · exact hw.not_blank hd
  · have hends : (!endsAddress d) = true :=
      List.mem_takeWhile_imp (p := fun c => !endsAddress c) hd
    cases hblank : isBlank d with
    | false => rfl
    | true =>
        rw [endsAddress, hblank] at hends
        cases hends

/-- The kinds of tokens that are kept in one piece. -/
def TokenKind.isSpan : TokenKind → Bool
  | escape | quoted | address => true
  | lineComment | blockComment _ | plain => false

theorem TokenKind.not_comment_of_isSpan {kind : TokenKind} (h : kind.isSpan = true) :
    kind.isComment = false ∧ (kind == .lineComment) = false := by
  cases kind with
  | escape | quoted | address => exact ⟨rfl, rfl⟩
  | lineComment | blockComment | plain => cases h

section Span

variable {before : Option Char} {c : Char} {rest : Text}

/-- The tokens of these kinds: escape pairs, quoted spans and addresses. -/
theorem span_cases (hkind : (firstToken before c rest).kind.isSpan = true) :
    c = '\\' ∨ (c = '"' ∨ c = '\'') ∨ ∃ n, addressLength before (c :: rest) = n + 1 := by
  cases Scanner.sight before c rest with
  | escape h => exact Or.inl h
  | quote h => exact Or.inr (Or.inl h)
  | address h => exact Or.inr (Or.inr ⟨_, h⟩)
  | line h => rw [firstToken_line h] at hkind; cases hkind
  | block h => rw [firstToken_block h] at hkind; cases hkind
  | plain h₁ h₂ h₃ h₄ h₅ => rw [firstToken_plain h₁ h₂ h₃ h₄ h₅] at hkind; cases hkind

/-- A span begins with a character that is no blank. -/
theorem firstToken_begins (hkind : (firstToken before c rest).kind.isSpan = true) :
    ∃ x, (firstToken before c rest).text = c :: x ∧ isBlank c = false := by
  rcases span_cases hkind with rfl | h | ⟨n, h⟩
  · exact ⟨_, congrArg Token.text (firstToken_escape rfl), by decide⟩
  · exact ⟨_, congrArg Token.text (firstToken_quote h), by rcases h with rfl | rfl <;> decide⟩
  · exact ⟨_, congrArg Token.text (firstToken_address h),
      not_blank_of_mem_address h List.mem_cons_self⟩

/-- A span that is not the last token of its line ends with a character that is no blank, unless it
is an escape pair of a blank. -/
theorem firstToken_ends (hkind : (firstToken before c rest).kind.isSpan = true)
    (hrest : afterToken before c rest ≠ []) :
    (∃ x d, (firstToken before c rest).text = x ++ [d] ∧ isBlank d = false) ∨
      ∃ b, isBlank b = true ∧ firstToken before c rest = ⟨.escape, ['\\', b]⟩ := by
  unfold afterToken at hrest
  rcases span_cases hkind with rfl | h | ⟨n, h⟩
  · rw [firstToken_escape rfl] at hrest ⊢
    cases rest with
    | nil => exact absurd rfl hrest
    | cons b rest =>
        cases hb : isBlank b with
        | true => exact Or.inr ⟨b, hb, rfl⟩
        | false => exact Or.inl ⟨['\\'], b, rfl, hb⟩
  · rw [firstToken_quote h] at hrest ⊢
    have hq : c ≠ '\\' ∧ isBlank c = false := by rcases h with rfl | rfl <;> decide
    obtain ⟨x, hx⟩ := (quotedSpan_ends hq.1 rest).resolve_left hrest
    exact Or.inl ⟨c :: x, c, congrArg (c :: ·) hx, hq.2⟩
  · rw [firstToken_address h]
    have hne := List.cons_ne_nil c (rest.take n)
    exact Or.inl ⟨_, _, (List.dropLast_append_getLast hne).symm,
      not_blank_of_mem_address h (List.getLast_mem hne)⟩

/-- Nothing follows a comment to the end of the line. -/
theorem afterToken_lineComment (h : (firstToken before c rest).kind = .lineComment) :
    afterToken before c rest = [] := by
  unfold afterToken
  cases Scanner.sight before c rest with
  | escape h' => rw [firstToken_escape h'] at h; cases h
  | quote h' => rw [firstToken_quote h'] at h; cases h
  | address h' => rw [firstToken_address h'] at h; cases h
  | line h' => rw [firstToken_line h', List.drop_length]
  | block h' => rw [firstToken_block h'] at h; cases h
  | plain h₁ h₂ h₃ h₄ h₅ => rw [firstToken_plain h₁ h₂ h₃ h₄ h₅] at h; cases h

end Span

/-- Every token of a line is the one at the front of some part of it, or a comment that began on an
earlier line. -/
theorem exists_firstToken_line {opened : Bool} {t : Text} {ts us : List Token} {tok : Token}
    (h : lineTokens opened t = ts ++ tok :: us) :
    (∃ closed, tok.kind = .blockComment closed) ∨ ∃ before c rest, tok = firstToken before c rest ∧
      us = tokens tok.text.getLast? (afterToken before c rest) := by
  cases opened with
  | false => exact Or.inr (exists_firstToken h)
  | true =>
      rw [lineTokens, if_pos rfl] at h
      cases ts with
      | nil => exact Or.inl ⟨_, congrArg Token.kind (List.cons.inj h).1.symm⟩
      | cons tok' ts => exact Or.inr (exists_firstToken (List.cons.inj h).2)

/-- A comment to the end of the line is the last token of its line. -/
theorem lineComment_not_mem {opened : Bool} {t : Text} {ts us : List Token} {tok : Token}
    (h : lineTokens opened t = ts ++ tok :: us) :
    ts.any (·.kind == .lineComment) = false := by
  refine Bool.eq_false_iff.2 fun hany => ?_
  obtain ⟨tok', hmem, hkind⟩ := List.any_eq_true.1 hany
  rw [beq_iff_eq] at hkind
  obtain ⟨ts₁, ts₂, rfl⟩ := List.append_of_mem hmem
  rw [List.append_assoc, List.cons_append] at h
  rcases exists_firstToken_line h with ⟨closed, hblock⟩ | ⟨before, c, rest, rfl, hrest⟩
  · rw [hblock] at hkind
    cases hkind
  · rw [afterToken_lineComment hkind, tokens] at hrest
    exact List.append_ne_nil_of_right_ne_nil ts₂ (List.cons_ne_nil tok us) hrest

/-- How a span of a line ends if a comment cuts the line behind it. -/
theorem lineSpan_ends {opened : Bool} {t : Text} {ts us : List Token} {tok : Token}
    (h : lineTokens opened t = ts ++ tok :: us) (hkind : tok.kind.isSpan = true)
    (hcut : us.any (·.kind == .lineComment) = true) :
    (∃ x d, tok.text = x ++ [d] ∧ isBlank d = false) ∨
      ∃ b, isBlank b = true ∧ tok = ⟨.escape, ['\\', b]⟩ := by
  rcases exists_firstToken_line h with ⟨closed, hblock⟩ | ⟨before, c, rest, rfl, hus⟩
  · rw [hblock] at hkind
    cases hkind
  · refine firstToken_ends hkind fun hnil => ?_
    rw [hus, hnil, tokens] at hcut
    cases hcut

/-- **An escape pair whose blank goes with the blanks at the end**: only blanks are kept behind it,
and then a comment cuts the line. -/
def LosesBlank (tok : Token) (us : List Token) : Prop :=
  (∃ b, isBlank b = true ∧ tok = ⟨.escape, ['\\', b]⟩) ∧ Text.AllBlank (keptText us) ∧
    us.any (·.kind == .lineComment) = true

/-- **A span survives in what is left of its line**, behind what is kept of the tokens before it; of
an escape pair whose blank goes, the backslash survives. -/
theorem leftText_span {opened : Bool} {t : Text} {ts us : List Token} {tok : Token}
    (h : lineTokens opened t = ts ++ tok :: us) (hkind : tok.kind.isSpan = true) :
    (¬ LosesBlank tok us → keptText ts ++ tok.text <+: leftText (ts ++ tok :: us)) ∧
      (LosesBlank tok us → leftText (ts ++ tok :: us) = keptText ts ++ ['\\']) := by
  obtain ⟨hcomment, hnotLine⟩ := TokenKind.not_comment_of_isSpan hkind
  have hkept : keptText (ts ++ tok :: us) = keptText ts ++ (tok.text ++ keptText us) := by
    rw [keptText_append, keptText_cons, hcomment]
    rfl
  have hcut : (ts ++ tok :: us).any (·.kind == .lineComment) = us.any (·.kind == .lineComment) := by
    rw [List.any_append, List.any_cons, lineComment_not_mem h, hnotLine, Bool.false_or,
      Bool.false_or]
  rw [leftText, hcut, hkept]
  cases hline : us.any (·.kind == .lineComment) with
  | false =>
      refine ⟨fun _ => ?_, fun hloses => ?_⟩
      · rw [if_neg Bool.false_ne_true, ← List.append_assoc]
        exact List.prefix_append _ _
      · rw [hloses.2.2] at hline
        cases hline
  | true =>
      rw [if_pos rfl]
      by_cases hblank : Text.AllBlank (keptText us)
      · -- the blanks at the end reach back to the span
        rw [← List.append_assoc, Text.trimEnd_append_blanks hblank]
        rcases lineSpan_ends h hkind hline with ⟨x, d, htext, hd⟩ | ⟨b, hb, rfl⟩
        · have hlast : Text.trimEnd (keptText ts ++ tok.text) = keptText ts ++ tok.text := by
            rw [htext, ← List.append_assoc, Text.trimEnd_of_last hd]
          rw [hlast]
          refine ⟨fun _ => List.prefix_refl _, ?_⟩
          rintro ⟨⟨b, hb, rfl⟩, -, -⟩
          have hsame : b = d := by simpa using congrArg List.getLast? htext
          rw [hsame, hd] at hb
          cases hb
        · refine ⟨fun hkeeps => absurd ⟨⟨b, hb, rfl⟩, hblank, hline⟩ hkeeps, fun _ => ?_⟩
          have hpair : Text.AllBlank [b] := by simpa using hb
          have hsplit : keptText ts ++ ['\\', b] = keptText ts ++ ['\\'] ++ [b] := by simp
          rw [hsplit, Text.trimEnd_append_blanks hpair, Text.trimEnd_of_last (by decide)]
      · rw [← List.append_assoc, Text.trimEnd_append_of_not_blank hblank]
        exact ⟨fun _ => List.prefix_append _ _, fun hloses => absurd hloses.2.1 hblank⟩

/-- A line with a span is not left out. -/
theorem leftLine?_span {opened : Bool} {l : Line} {ts us : List Token} {tok : Token}
    (hread : isRead opened l.text = true) (h : lineTokens opened l.text = ts ++ tok :: us)
    (hkind : tok.kind.isSpan = true) :
    leftLine? opened l = some (l.withText (leftText (ts ++ tok :: us))) := by
  have hfirst : ∃ c x, tok.text = c :: x ∧ isBlank c = false := by
    rcases exists_firstToken_line h with ⟨closed, hblock⟩ | ⟨before, c, rest, rfl, -⟩
    · rw [hblock] at hkind
      cases hkind
    · obtain ⟨x, htext, hc⟩ := firstToken_begins hkind
      exact ⟨c, x, htext, hc⟩
  have hmem : ∃ c ∈ leftText (ts ++ tok :: us), isBlank c = false := by
    obtain ⟨hkeeps, hloses⟩ := leftText_span h hkind
    by_cases hblank : LosesBlank tok us
    · exact ⟨'\\', by simp [hloses hblank], by decide⟩
    · obtain ⟨c, x, htext, hc⟩ := hfirst
      exact ⟨c, (hkeeps hblank).subset (by simp [htext]), hc⟩
  have hleft : ¬ Text.isBlankText (leftText (ts ++ tok :: us)) = true := by
    obtain ⟨c, hc, hnot⟩ := hmem
    intro hall
    rw [List.all_eq_true.1 hall c hc] at hnot
    cases hnot
  rw [leftLine?, if_pos hread, h, if_neg hleft]

/-- **Comments are the tokens that are left out.**  A stream without its comments is, line by line,
the text of the tokens that are no comments, where only lines that are cut by a comment to their end
lose blanks at the end.  The tokens of a line are the line, and every escape pair, quoted span and
address survives behind what is kept of the tokens before it, but for the blank of an escape pair
that stands at the end of a line that is cut. -/
theorem stripComments_tokens :
    (∀ ls : List Line, stripComments ls = withoutComments false ls) ∧
      (∀ (opened : Bool) (t : Text), (lineTokens opened t).flatMap Token.text = t) ∧
      ∀ (ls ms : List Line) (l : Line) (ts us : List Token) (tok : Token),
        isRead (ls.foldl openAfter false) l.text = true →
        lineTokens (ls.foldl openAfter false) l.text = ts ++ tok :: us →
        tok.kind.isSpan = true →
        ∃ left, stripComments (ls ++ l :: ms) = stripComments ls ++
            l.withText left :: withoutComments (leavesOpen (ts ++ tok :: us)) ms ∧
          (¬ LosesBlank tok us → keptText ts ++ tok.text <+: left) ∧
          (LosesBlank tok us → left = keptText ts ++ ['\\']) := by
  have hstrip : ∀ ls : List Line, stripComments ls = withoutComments false ls :=
    stripFrom_eq_withoutComments false
  refine ⟨hstrip, text_lineTokens, fun ls ms l ts us tok hread h hkind => ?_⟩
  refine ⟨leftText (ts ++ tok :: us), ?_, leftText_span h hkind⟩
  rw [hstrip, hstrip, withoutComments_append, withoutComments, leftLine?_span hread h hkind,
    openAfter, if_pos hread, h]
  rfl

/-- A line that leaves a block comment open. -/
def openLine : Line := ⟨"say \"//\" /* http://".toList, "main", 1⟩

/-- A line that begins in a comment, with an address and an escape pair of a blank, and is cut. -/
def cutLine : Line := ⟨"*/ http://a.b \\  // c".toList, "main", 2⟩

theorem lineTokens_cutLine : lineTokens true cutLine.text =
    [⟨.blockComment true, "*/".toList⟩, ⟨.plain, [' ']⟩, ⟨.address, "http://a.b".toList⟩,
      ⟨.plain, [' ']⟩, ⟨.escape, "\\ ".toList⟩, ⟨.plain, [' ']⟩,
      ⟨.lineComment, "// c".toList⟩] := by
  decide +kernel

/-- The address survives, and the escape pair loses its blank. -/
theorem stripComments_tokens_cutLine :
    (∃ left, stripComments [openLine, cutLine] =
        stripComments [openLine] ++ [cutLine.withText left] ∧ " http://a.b".toList <+: left) ∧
      stripComments [openLine, cutLine] =
        stripComments [openLine] ++ [cutLine.withText " http://a.b \\".toList] := by
  obtain ⟨-, -, hsurvives⟩ := stripComments_tokens
  have hopen : [openLine].foldl openAfter false = true := by decide +kernel
  have hread : isRead ([openLine].foldl openAfter false) cutLine.text = true := by
    rw [hopen]
    rfl
  constructor
  · obtain ⟨left, hstrip, hkeeps, -⟩ := hsurvives [openLine] [] cutLine
      [⟨.blockComment true, "*/".toList⟩, ⟨.plain, [' ']⟩] _ ⟨.address, "http://a.b".toList⟩ hread
      (by rw [hopen]; exact lineTokens_cutLine) rfl
    refine ⟨left, hstrip, hkeeps ?_⟩
    rintro ⟨⟨b, -, heq⟩, -⟩
    cases heq
  · obtain ⟨left, hstrip, -, hloses⟩ := hsurvives [openLine] [] cutLine
      [⟨.blockComment true, "*/".toList⟩, ⟨.plain, [' ']⟩, ⟨.address, "http://a.b".toList⟩,
        ⟨.plain, [' ']⟩] _ ⟨.escape, "\\ ".toList⟩ hread
      (by rw [hopen]; exact lineTokens_cutLine) rfl
    rw [hloses ⟨⟨' ', by decide, rfl⟩, by decide, rfl⟩] at hstrip
    exact hstrip

/-- **Not every escape pair survives**: in `x\ // c` the blank of the pair goes with the blanks
before the comment. -/
theorem escapedBlank_not_survives :
    ¬ ∀ (l : Line) (tok : Token), isRead false l.text = true → tok ∈ lineTokens false l.text →
      tok.kind.isSpan = true → ∃ m ∈ stripComments [l], tok.text <:+: m.text := by
  intro h
  have hpair := h ⟨"x\\ // c".toList, "main", 1⟩ ⟨.escape, "\\ ".toList⟩ (by decide +kernel)
    (by decide +kernel) rfl
  revert hpair
  decide +kernel

end Softcode
