/-
**Scanning what is left of a line.**

Taking a comment out of a line puts together what stood on both sides of it, and the roles of
characters depend on their neighbours.  This module follows a second walk, over what is left, beside
the first one.  Nothing that stands in plain code becomes the opening of a comment: a slash is never
joined to a slash or, unless a star stood before it already, to a star, and no new scheme comes up.
One thing can go wrong.  An address does not begin inside a word; where a comment between a letter
or digit and an address is taken out, the address is none any more, and its two slashes open a
comment.  This is the only way in which a line without comments can come to have one.

Main definitions:

* `Softcode.HasComment` — a text in which a walk that begins in code meets a comment;
* `Softcode.JoinsWord` — **a line with a comment between a word and an address**;
* `Softcode.Scanner.Tracks` — how the states of the two walks belong together.

Main results:

* `Softcode.Scanner.head?_kept`, `Softcode.Scanner.kept_ne_slashes` — what the characters that are
  kept can begin with;
* `Softcode.Scanner.Tracks.step` — **the second walk follows the first**, character by character;
* `Softcode.Scanner.Tracks.comment_iff` — where the two walks part;
* `Softcode.hasComment_trimEnd` — blanks at the end of a line hide no comment;
* `Softcode.stripComments_hasComment_iff` — **the lines that are left have no comment**, unless one
  stood between a word and an address.
-/

import Softcode.Proofs.Scanning
import Softcode.Proofs.Stripping

set_option autoImplicit false

namespace Softcode

namespace Scanner

/-! ### What is kept -/

/-- The characters that a walk does not take for comments. -/
def kept (s : Scanner) (before : Option Char) (t : Text) : Text := keepCode t (s.roles before t).1

@[simp] theorem kept_nil (s : Scanner) (before : Option Char) : s.kept before [] = [] := rfl

theorem kept_of_comment {s : Scanner} {before : Option Char} {c : Char} {rest : Text}
    (h : (s.step before c rest).1 = .comment) :
    s.kept before (c :: rest) = (s.step before c rest).2.kept (some c) rest := by
  rw [kept, roles_cons, keepCode, if_pos h, kept]

theorem kept_of_ne {s : Scanner} {before : Option Char} {c : Char} {rest : Text}
    (h : (s.step before c rest).1 ≠ .comment) :
    s.kept before (c :: rest) = c :: (s.step before c rest).2.kept (some c) rest := by
  rw [kept, roles_cons, keepCode, if_neg h, kept]

/-- What has been recognised as anything but a comment is kept as it is. -/
theorem kept_pending {m : Mode} {role : Role} (hrole : role ≠ .comment) (n : Nat)
    (before : Option Char) (t : Text) :
    ∃ before', (⟨m, n, role⟩ : Scanner).kept before t =
      t.take n ++ (⟨m, 0, role⟩ : Scanner).kept before' (t.drop n) := by
  induction n generalizing before t with
  | zero => exact ⟨before, rfl⟩
  | succ n ih =>
      cases t with
      | nil => exact ⟨before, rfl⟩
      | cons c t =>
          obtain ⟨before', h⟩ := ih (some c) t
          refine ⟨before', ?_⟩
          have hkept : (⟨m, n + 1, role⟩ : Scanner).kept before (c :: t) =
              c :: (⟨m, n, role⟩ : Scanner).kept (some c) t := kept_of_ne hrole
          rw [hkept, h, List.take_succ_cons, List.drop_succ_cons, List.cons_append]

/-- A comment begins with a slash: any other character at the front is kept. -/
theorem head?_kept {role : Role} {before : Option Char} {t : Text} (h : t.head? ≠ some '/') :
    ((⟨.code, 0, role⟩ : Scanner).kept before t).head? = t.head? := by
  cases t with
  | nil => rfl
  | cons c rest =>
      have hc : c ≠ '/' := fun hc => h (congrArg some hc)
      have hstep : ((⟨.code, 0, role⟩ : Scanner).step before c rest).1 ≠ .comment := by
        cases sight before c rest with
        | escape h => rw [step_escape h]; nofun
        | quote h => rw [step_quote h]; nofun
        | address h => rw [step_address h]; nofun
        | line h => exact absurd (lineCommentMark_iff.1 h).1 hc
        | block h => exact absurd (opensBlock_iff.1 h).1 hc
        | plain h₁ h₂ h₃ h₄ h₅ => rw [step_plain h₁ h₂ h₃ h₄ h₅]; nofun
      rw [kept_of_ne hstep]
      rfl

/-- A slash that opens no comment stays before what is no slash. -/
theorem head?_kept_ne_slash {role : Role} {before : Option Char} {t : Text}
    (h : Text.startsWith lineCommentMark ('/' :: t) = false) :
    ((⟨.code, 0, role⟩ : Scanner).kept before t).head? ≠ some '/' := by
  have hhead : t.head? ≠ some '/' := fun hhead =>
    Bool.eq_false_iff.1 h (lineCommentMark_iff.2 ⟨rfl, hhead⟩)
  rw [head?_kept hhead]
  exact hhead

/-- The characters of a scheme behind the first one. -/
def continuesScheme (c : Char) : Bool := isSchemeLetter c || c == ':' || c == '/'

theorem not_continuesScheme {c : Char} (h : opensScheme c = true) : continuesScheme c = false := by
  have hcolon : c ≠ ':' := by rintro rfl; exact absurd h (by decide)
  have hslash : c ≠ '/' := by rintro rfl; exact absurd h (by decide)
  rcases Bool.or_eq_true_iff.1 h with h | h
  · simp [continuesScheme, isSchemeLetter, beq_iff_eq.1 h, hcolon, hslash]
  · simp [continuesScheme, isSchemeLetter, beq_iff_eq.1 h, hcolon, hslash]

/-- **No new scheme comes up**: what is kept from code on does not begin with the letters of a
scheme and two slashes. -/
theorem kept_ne_slashes {s : Scanner} {before : Option Char} {t x r : Text}
    (hs : (∃ role, s = ⟨.code, 0, role⟩) ∨ InComment s t)
    (hx : ∀ c ∈ x, continuesScheme c = true) : s.kept before t ≠ x ++ '/' :: '/' :: r := by
  induction t generalizing s before x with
  | nil => simp
  | cons c rest ih =>
      rcases hs with ⟨role, rfl⟩ | hs
      · have hfirst : ∀ {k : Text}, c :: k = x ++ '/' :: '/' :: r → continuesScheme c = true := by
          intro k h
          cases x with
          | nil => rw [(List.cons.inj h).1]; decide
          | cons d x => exact (List.cons.inj h).1 ▸ hx d List.mem_cons_self
        intro h
        cases sight before c rest with
        | escape hc =>
            rw [kept_of_ne (by rw [step_escape hc]; nofun)] at h
            have := hfirst h
            rw [hc] at this
            exact absurd this (by decide)
        | quote hc =>
            rw [kept_of_ne (by rw [step_quote hc]; nofun)] at h
            have := hfirst h
            rcases hc with rfl | rfl
            · exact absurd this (by decide)
            · exact absurd this (by decide)
        | address hc =>
            rw [kept_of_ne (by rw [step_address hc]; nofun)] at h
            have := hfirst h
            rw [not_continuesScheme (opensScheme_of_addressLength hc)] at this
            cases this
        | line hc =>
            rw [kept_of_comment (by rw [step_line hc]), step_line hc] at h
            exact ih (Or.inr (.line _ rest)) hx h
        | block hc =>
            rw [kept_of_comment (by rw [step_block hc]), step_block hc] at h
            exact ih (Or.inr (.opening rest)) hx h
        | plain h₁ h₂ h₃ h₄ h₅ =>
            rw [kept_of_ne (by rw [step_plain h₁ h₂ h₃ h₄ h₅]; nofun),
              step_plain h₁ h₂ h₃ h₄ h₅] at h
            cases x with
            | nil =>
                obtain ⟨rfl, h⟩ := List.cons.inj h
                exact head?_kept_ne_slash h₄ (congrArg List.head? h)
            | cons d x =>
                exact ih (Or.inl ⟨role, rfl⟩) (fun c hc => hx c (List.mem_cons_of_mem d hc))
                  (List.cons.inj h).2
      · obtain ⟨hrole, hnext⟩ := hs.step before
        rw [kept_of_comment hrole]
        refine ih ?_ hx
        rcases hnext with hnext | ⟨-, hnext⟩
        · exact Or.inr hnext
        · exact Or.inl ⟨.comment, hnext⟩

/-- Before what is kept from code on, no address begins. -/
theorem addressLength_kept (before' : Option Char) (c : Char) {role : Role}
    {before : Option Char} {t : Text} :
    addressLength before' (c :: (⟨.code, 0, role⟩ : Scanner).kept before t) = 0 := by
  cases h : addressLength before' (c :: (⟨.code, 0, role⟩ : Scanner).kept before t) with
  | zero => rfl
  | succ n =>
      obtain ⟨-, w, s, ht, hw, -⟩ := addressLength_eq_iff.1 h
      obtain ⟨d, x, rfl, -, hx⟩ := hw.shape
      have hcontinues : ∀ c ∈ x ++ [':'], continuesScheme c = true := by
        intro c hc
        rcases List.mem_append.1 hc with hc | hc
        · simp [continuesScheme, hx c hc]
        · simp [continuesScheme, List.mem_singleton.1 hc]
      have hkept : (⟨.code, 0, role⟩ : Scanner).kept before t =
          (x ++ [':']) ++ '/' :: '/' :: s := by
        simpa using (List.cons.inj ht).2
      exact absurd hkept (kept_ne_slashes (Or.inl ⟨role, rfl⟩) hcontinues)

/-- **An address stays one**, unless it comes to stand inside a word. -/
theorem addressLength_kept_address {before b : Option Char} {c : Char} {rest : Text} {n : Nat}
    (h : addressLength before (c :: rest) = n + 1) (hword : b.any Char.isAlphanum = false) :
    addressLength b (c :: (⟨.code, n, .address⟩ : Scanner).kept (some c) rest) = n + 1 := by
  obtain ⟨-, w, s, ht, hw, hn⟩ := addressLength_eq_iff.1 h
  have hrole : Role.address ≠ .comment := nofun
  obtain ⟨last, hkept⟩ := kept_pending (m := .code) hrole n (some c) rest
  have hsplit : c :: rest =
      (w ++ s.takeWhile fun c => !endsAddress c) ++ s.dropWhile fun c => !endsAddress c := by
    rw [List.append_assoc, List.takeWhile_append_dropWhile, ht]
  have hlength : (w ++ s.takeWhile fun c => !endsAddress c).length = n + 1 := by
    rw [List.length_append, hn]
  have hfront : c :: rest.take n = w ++ s.takeWhile fun c => !endsAddress c := by
    rw [← List.take_succ_cons, hsplit, List.take_left' hlength]
  have hback : rest.drop n = s.dropWhile fun c => !endsAddress c := by
    have hdrop : (c :: rest).drop (n + 1) = s.dropWhile fun c => !endsAddress c := by
      rw [hsplit, List.drop_left' hlength]
    rwa [List.drop_succ_cons] at hdrop
  -- what follows the address ends it, and so it is no slash and is kept
  have hstop : ((⟨.code, 0, .address⟩ : Scanner).kept last (rest.drop n)).takeWhile
      (fun c => !endsAddress c) = [] := by
    have hends := List.head?_dropWhile_not (fun c => !endsAddress c) s
    rw [← hback] at hends
    have hslash : (rest.drop n).head? ≠ some '/' := by
      intro hhead
      rw [hhead] at hends
      exact absurd hends (by decide)
    have hhead : ((⟨.code, 0, .address⟩ : Scanner).kept last (rest.drop n)).head? =
        (rest.drop n).head? := head?_kept hslash
    rw [← hhead] at hends
    cases hk : (⟨.code, 0, .address⟩ : Scanner).kept last (rest.drop n) with
    | nil => rfl
    | cons d k =>
        rw [hk] at hends
        exact List.takeWhile_cons_of_neg (by simpa using hends)
  rw [hkept, ← List.cons_append, hfront, List.append_assoc]
  refine addressLength_eq_iff.2 ⟨hword, w, _, rfl, hw, ?_⟩
  have hinside : ∀ d ∈ s.takeWhile fun c => !endsAddress c, (!endsAddress d) = true :=
    fun d hd => List.mem_takeWhile_imp (p := fun c => !endsAddress c) hd
  rw [hn, List.takeWhile_append_of_pos hinside, hstop, List.append_nil]

/-! ### Addresses inside words -/

theorem comment_mem_roles_cons {s : Scanner} {before : Option Char} {c : Char} {rest : Text} :
    Role.comment ∈ (s.roles before (c :: rest)).1 ↔
      (s.step before c rest).1 = .comment ∨
        Role.comment ∈ ((s.step before c rest).2.roles (some c) rest).1 := by
  rw [roles_cons, List.mem_cons, eq_comm]

/-- **Behind a word, the slashes of an address open a comment.** -/
theorem comment_mem_roles_word {role : Role} {before : Option Char} {x r : Text}
    (hword : before.any Char.isAlphanum = true) (hx : ∀ c ∈ x, c.isAlphanum = true) :
    Role.comment ∈ ((⟨.code, 0, role⟩ : Scanner).roles before (x ++ ':' :: '/' :: '/' :: r)).1 := by
  induction x generalizing before with
  | nil =>
      have hcolon : (⟨.code, 0, role⟩ : Scanner).step before ':' ('/' :: '/' :: r) =
          (.code, ⟨.code, 0, role⟩) :=
        step_ordinary (by decide) (by decide) (by decide)
          (addressLength_of_not_opensScheme before (by decide) _)
      have hslash : (⟨.code, 0, role⟩ : Scanner).step (some ':') '/' ('/' :: r) =
          (.comment, start .lineComment) := step_line (lineCommentMark_iff.2 ⟨rfl, rfl⟩)
      rw [List.nil_append, comment_mem_roles_cons, hcolon, comment_mem_roles_cons, hslash]
      exact Or.inr (Or.inl rfl)
  | cons c x ih =>
      have hc := hx c List.mem_cons_self
      obtain ⟨hescape, hquote, hslash⟩ := ordinary_of_isAlphanum hc
      rw [List.cons_append, comment_mem_roles_cons,
        step_ordinary hescape hquote hslash (addressLength_of_word hword _)]
      exact Or.inr (ih hc fun d hd => hx d (List.mem_cons_of_mem c hd))

/-! ### Outside comments -/

/-- The states of a walk outside comments. -/
inductive OutsideComment : Scanner → Prop where
  | code (role : Role) : OutsideComment ⟨.code, 0, role⟩
  | quoted (q : Char) (role : Role) : OutsideComment ⟨.quoted q, 0, role⟩
  | pending {m : Mode} (n : Nat) {role : Role} (hm : m = .code ∨ ∃ q, m = .quoted q)
      (hrole : role ≠ .comment) : OutsideComment ⟨m, n + 1, role⟩

theorem outsideComment_of_mode {m : Mode} (n : Nat) {role : Role}
    (hm : m = .code ∨ ∃ q, m = .quoted q) (hrole : role ≠ .comment) :
    OutsideComment ⟨m, n, role⟩ := by
  cases n with
  | succ n => exact .pending n hm hrole
  | zero =>
      rcases hm with rfl | ⟨q, rfl⟩
      · exact .code role
      · exact .quoted q role

/-- In quotes, and inside what has been recognised, a walk looks at nothing but the next
character. -/
theorem OutsideComment.step_cases {s : Scanner} (h : OutsideComment s) (c : Char) :
    (∃ role, s = ⟨.code, 0, role⟩) ∨
      ∃ role s₁, role ≠ .comment ∧ OutsideComment s₁ ∧
        ∀ before rest, s.step before c rest = (role, s₁) := by
  cases h with
  | code role => exact Or.inl ⟨role, rfl⟩
  | pending n hm hrole =>
      exact Or.inr ⟨_, _, hrole, outsideComment_of_mode n hm hrole, fun _ _ => rfl⟩
  | quoted q role =>
      refine Or.inr ?_
      by_cases hescape : c = '\\'
      · exact ⟨.escaped, ⟨.quoted q, 1, .escaped⟩, by decide,
          .pending 0 (Or.inr ⟨q, rfl⟩) (by decide), fun _ _ => by simp [Scanner.step, hescape]⟩
      · by_cases hquote : c = q
        · exact ⟨.quote, start .code, by decide, .code _,
            fun _ _ => by simp only [Scanner.step, if_neg hescape, if_pos hquote]⟩
        · exact ⟨.quoted, ⟨.quoted q, 0, role⟩, by decide, .quoted q role,
            fun _ _ => by simp only [Scanner.step, if_neg hescape, if_neg hquote]⟩

/-- Behind a character of code that belongs to no comment a walk is outside comments. -/
theorem OutsideComment.step {s : Scanner} (h : OutsideComment s) (before : Option Char) (c : Char)
    (rest : Text) :
    (s.step before c rest).1 = .comment ∨ OutsideComment (s.step before c rest).2 := by
  rcases h.step_cases c with ⟨role, rfl⟩ | ⟨role, s₁, -, hs₁, hstep⟩
  · cases sight before c rest with
    | escape h => rw [step_escape h]; exact Or.inr (.pending 0 (Or.inl rfl) nofun)
    | quote h => rw [step_quote h]; exact Or.inr (.quoted c _)
    | address h =>
        rw [step_address h]
        exact Or.inr (outsideComment_of_mode _ (Or.inl rfl) nofun)
    | line h => rw [step_line h]; exact Or.inl rfl
    | block h => rw [step_block h]; exact Or.inl rfl
    | plain h₁ h₂ h₃ h₄ h₅ => rw [step_plain h₁ h₂ h₃ h₄ h₅]; exact Or.inr (.code role)
  · rw [hstep]
    exact Or.inr hs₁

/-! ### The two walks -/

/-- **Where the second walk stands** while the first one has the text `t` before it.  In plain code
both stand behind the same character, or the first one stands behind the slash that ends a comment.
In quotes and inside what has been recognised they are in the same state, and while the first one
is inside a comment the second waits in plain code. -/
inductive Tracks : Scanner → Option Char → Text → Scanner → Option Char → Bool → Prop where
  | code {role role' : Role} {before before' : Option Char} {behind : Bool} (t : Text)
      (h : before' = before ∧ behind = false ∨ before = some '/' ∧ behind = true) :
      Tracks ⟨.code, 0, role⟩ before t ⟨.code, 0, role'⟩ before' behind
  | same {s : Scanner} (before : Option Char) (t : Text) (h : OutsideComment s) :
      Tracks s before t s before false
  | comment {s : Scanner} {t : Text} {role' : Role} (before before' : Option Char) (behind : Bool)
      (h : InComment s t) : Tracks s before t ⟨.code, 0, role'⟩ before' behind

/-- What one step of the two walks comes to: the first one takes the character for a comment; or it
takes it for an address that has come to stand inside a word, and the second one meets a comment; or
both give it the same role. -/
inductive StepOutcome (s' : Scanner) (before' : Option Char) (behind : Bool) (c : Char)
    (rest : Text) : Role × Scanner → Prop where
  | comment {s₁ : Scanner} (h : Tracks s₁ (some c) rest s' before' true) :
      StepOutcome s' before' behind c rest (.comment, s₁)
  | joined {s₁ : Scanner} (hbehind : behind = true) (hword : before'.any Char.isAlphanum = true)
      (h : Role.comment ∈ (s'.roles before' (c :: s₁.kept (some c) rest)).1) :
      StepOutcome s' before' behind c rest (.address, s₁)
  | same {role : Role} {s₁ s₁' : Scanner} (hrole : role ≠ .comment)
      (hjoin : role = .address → behind = true → before'.any Char.isAlphanum = false)
      (hstep : s'.step before' c (s₁.kept (some c) rest) = (role, s₁'))
      (h : Tracks s₁ (some c) rest s₁' (some c) false) :
      StepOutcome s' before' behind c rest (role, s₁)

/-- A step of the two walks in plain code. -/
theorem stepOutcome_code {role role' : Role} {before before' : Option Char} {behind : Bool}
    (hside : before' = before ∧ behind = false ∨ before = some '/' ∧ behind = true) (c : Char)
    (rest : Text) :
    StepOutcome ⟨.code, 0, role'⟩ before' behind c rest
      ((⟨.code, 0, role⟩ : Scanner).step before c rest) := by
  cases sight before c rest with
  | escape h =>
      rw [step_escape h]
      exact .same nofun nofun (step_escape h) (.same _ _ (.pending 0 (Or.inl rfl) nofun))
  | quote h =>
      rw [step_quote h]
      exact .same nofun nofun (step_quote h) (.same _ _ (.quoted c _))
  | line h =>
      rw [step_line h]
      exact .comment (.comment _ _ _ (.line _ rest))
  | block h =>
      rw [step_block h]
      exact .comment (.comment _ _ _ (.opening rest))
  | address h =>
      rw [step_address h]
      cases hword : before'.any Char.isAlphanum with
      | false =>
          exact .same nofun (fun _ _ => hword) (step_address (addressLength_kept_address h hword))
            (.same _ _ (outsideComment_of_mode _ (Or.inl rfl) nofun))
      | true =>
          -- the first walk is not inside a word, so the second one is elsewhere
          have hbefore := (addressLength_eq_iff.1 h).1
          have hbehind : behind = true := by
            rcases hside with ⟨rfl, -⟩ | ⟨-, hbehind⟩
            · rw [hbefore] at hword
              cases hword
            · exact hbehind
          -- the letters of the scheme are still there
          have haddress := addressLength_kept_address (b := none) h rfl
          obtain ⟨-, w, s, ht, hw, -⟩ := addressLength_eq_iff.1 haddress
          obtain ⟨x, rfl, hx⟩ := hw.word
          refine .joined hbehind hword ?_
          rw [ht, List.append_assoc]
          exact comment_mem_roles_word hword hx
  | plain hescape hquote haddress hline hblock =>
      rw [step_plain hescape hquote haddress hline hblock]
      refine .same nofun nofun (step_plain hescape hquote (addressLength_kept _ _) ?_ ?_)
        (.code rest (Or.inl ⟨rfl, rfl⟩))
      · refine Bool.eq_false_iff.2 fun h => ?_
        obtain ⟨rfl, hhead⟩ := lineCommentMark_iff.1 h
        exact head?_kept_ne_slash hline hhead
      · refine Bool.eq_false_iff.2 fun h => ?_
        obtain ⟨rfl, hhead, hstar⟩ := opensBlock_iff.1 h
        have hslash : rest.head? ≠ some '/' := fun hslash =>
          Bool.eq_false_iff.1 hline (lineCommentMark_iff.2 ⟨rfl, hslash⟩)
        rw [head?_kept hslash] at hhead
        have hbefore : before ≠ some '*' := by
          rcases hside with ⟨rfl, -⟩ | ⟨rfl, -⟩
          · exact hstar
          · decide
        exact Bool.eq_false_iff.1 hblock (opensBlock_iff.2 ⟨rfl, hhead, hbefore⟩)

/-- **The second walk follows the first**, character by character. -/
theorem Tracks.step {s s' : Scanner} {before before' : Option Char} {behind : Bool} {c : Char}
    {rest : Text} (h : Tracks s before (c :: rest) s' before' behind) :
    StepOutcome s' before' behind c rest (s.step before c rest) := by
  cases h with
  | code _ hside => exact stepOutcome_code hside c rest
  | same _ _ hs =>
      rcases hs.step_cases c with ⟨role, rfl⟩ | ⟨role, s₁, hrole, hs₁, hstep⟩
      · exact stepOutcome_code (Or.inl ⟨rfl, rfl⟩) c rest
      · rw [hstep]
        exact .same hrole nofun (hstep _ _) (.same _ _ hs₁)
  | comment _ _ _ hs =>
      obtain ⟨hrole, hnext⟩ := hs.step before
      have hstep : s.step before c rest = (.comment, (s.step before c rest).2) :=
        Prod.ext hrole rfl
      rw [hstep]
      rcases hnext with hnext | ⟨rfl, hnext⟩
      · exact .comment (.comment _ _ _ hnext)
      · rw [hnext]
        exact .comment (.code rest (Or.inr ⟨rfl, rfl⟩))

/-! ### Where they part -/

/-- Whether an address behind a comment has come to stand inside a word; `word` is the last
character that is kept, and `behind` says whether a comment stands behind it. -/
def joinsWord (word : Option Char) (behind : Bool) : List (Char × Role) → Bool
  | [] => false
  | (c, role) :: rest =>
      (decide (role = .address) && behind && word.any Char.isAlphanum) ||
        joinsWord (if role = .comment then word else some c) (decide (role = .comment)) rest

/-- **The second walk meets a comment exactly if it comes to an address inside a word.** -/
theorem Tracks.comment_iff {s s' : Scanner} {before before' : Option Char} {behind : Bool}
    {t : Text} (h : Tracks s before t s' before' behind) :
    Role.comment ∈ (s'.roles before' (s.kept before t)).1 ↔
      joinsWord before' behind (t.zip (s.roles before t).1) = true := by
  induction t generalizing s s' before before' behind with
  | nil => simp [joinsWord]
  | cons c rest ih =>
      have hout := h.step
      rw [roles_cons, List.zip_cons_cons, joinsWord]
      generalize hstep : s.step before c rest = out at hout
      cases hout with
      | comment hnext =>
          rw [kept_of_comment (by rw [hstep]), hstep, ih hnext]
          simp
      | joined hbehind hword hmeets =>
          rw [kept_of_ne (by rw [hstep]; nofun), hstep]
          simp [hmeets, hbehind, hword]
      | same hrole hjoin hstep' hnext =>
          rw [kept_of_ne (by rw [hstep]; exact hrole), hstep, comment_mem_roles_cons, hstep',
            ih hnext, if_neg hrole, decide_eq_false hrole, Bool.or_eq_true]
          refine or_congr (iff_of_false hrole ?_) Iff.rfl
          simp only [Bool.and_eq_true, decide_eq_true_eq]
          rintro ⟨⟨haddress, hbehind⟩, hword⟩
          rw [hjoin haddress hbehind] at hword
          cases hword

/-- An address at the front, behind a comment. -/
def BehindComment (behind : Bool) (ps : List (Char × Role)) : Prop :=
  ∃ gap a back, ps = gap ++ (a, .address) :: back ∧ (behind = true ∨ gap ≠ []) ∧
    ∀ p ∈ gap, p.2 = Role.comment

theorem behindComment_cons {behind : Bool} {c : Char} {role : Role} {ps : List (Char × Role)} :
    BehindComment behind ((c, role) :: ps) ↔
      role = .address ∧ behind = true ∨ role = .comment ∧ BehindComment true ps := by
  constructor
  · rintro ⟨gap, a, back, heq, hbehind, hgap⟩
    cases gap with
    | nil =>
        obtain ⟨hpair, -⟩ := List.cons.inj heq
        exact Or.inl ⟨(Prod.mk.inj hpair).2, hbehind.resolve_right fun h => h rfl⟩
    | cons p gap =>
        obtain ⟨rfl, rfl⟩ := List.cons.inj heq
        exact Or.inr ⟨hgap _ List.mem_cons_self, gap, a, back, rfl, Or.inl rfl,
          fun p hp => hgap p (List.mem_cons_of_mem _ hp)⟩
  · rintro (⟨rfl, hbehind⟩ | ⟨rfl, gap, a, back, rfl, -, hgap⟩)
    · exact ⟨[], c, ps, rfl, Or.inl hbehind, by simp⟩
    · exact ⟨(c, .comment) :: gap, a, back, rfl, Or.inr (by simp), by simpa using hgap⟩

/-- A letter or digit, a comment and an address, next to each other. -/
def HasJoint (ps : List (Char × Role)) : Prop :=
  ∃ front c role rest, ps = front ++ (c, role) :: rest ∧ c.isAlphanum = true ∧ role ≠ .comment ∧
    BehindComment false rest

theorem hasJoint_cons {c : Char} {role : Role} {ps : List (Char × Role)} :
    HasJoint ((c, role) :: ps) ↔
      c.isAlphanum = true ∧ role ≠ .comment ∧ BehindComment false ps ∨ HasJoint ps := by
  constructor
  · rintro ⟨front, d, role', rest, heq, hd⟩
    cases front with
    | nil =>
        obtain ⟨hpair, rfl⟩ := List.cons.inj heq
        obtain ⟨rfl, rfl⟩ := Prod.mk.inj hpair
        exact Or.inl hd
    | cons p front =>
        obtain ⟨-, rfl⟩ := List.cons.inj heq
        exact Or.inr ⟨front, d, role', rest, rfl, hd⟩
  · rintro (hc | ⟨front, d, role', rest, rfl, hd⟩)
    · exact ⟨[], c, role, ps, rfl, hc⟩
    · exact ⟨(c, role) :: front, d, role', rest, rfl, hd⟩

theorem joinsWord_iff {word : Option Char} {behind : Bool} {ps : List (Char × Role)} :
    joinsWord word behind ps = true ↔
      word.any Char.isAlphanum = true ∧ BehindComment behind ps ∨ HasJoint ps := by
  induction ps generalizing word behind with
  | nil => simp [joinsWord, BehindComment, HasJoint]
  | cons p ps ih =>
      obtain ⟨c, role⟩ := p
      rw [joinsWord, Bool.or_eq_true, ih, behindComment_cons, hasJoint_cons]
      by_cases hrole : role = .comment
      · simp [hrole]
      · simp [hrole, and_comm, and_assoc]

end Scanner

/-! ### Blanks at the end -/

/-- A blank is neither a mark nor a part of a scheme. -/
theorem ordinary_of_blank {c : Char} (hc : isBlank c = true) :
    c ≠ '\\' ∧ ¬ (c = '"' ∨ c = '\'') ∧ opensScheme c = false ∧
      Scanner.continuesScheme c = false :=
  forall_blank (p := fun c => c ≠ '\\' ∧ ¬ (c = '"' ∨ c = '\'') ∧ opensScheme c = false ∧
    Scanner.continuesScheme c = false) (by decide +kernel) hc

theorem IsScheme.not_blank {w : Text} (hw : IsScheme w) {c : Char} (hc : c ∈ w) :
    isBlank c = false := by
  by_contra hblank
  obtain ⟨-, -, hopens, hcontinues⟩ := ordinary_of_blank (Bool.not_eq_false _ ▸ hblank)
  obtain ⟨d, x, rfl, hd, hx⟩ := hw.shape
  rcases List.mem_cons.1 hc with rfl | hc
  · rw [hd] at hopens
    cases hopens
  · rcases List.mem_append.1 hc with hc | hc
    · simp [Scanner.continuesScheme, hx c hc] at hcontinues
    · simp only [List.mem_cons, List.not_mem_nil, or_false] at hc
      rcases hc with rfl | rfl | rfl <;> simp [Scanner.continuesScheme] at hcontinues

theorem takeWhile_append_blanks {z : Text} (hz : Text.AllBlank z) (s : Text) :
    (s ++ z).takeWhile (fun c => !endsAddress c) = s.takeWhile fun c => !endsAddress c := by
  induction s with
  | nil =>
      cases z with
      | nil => rfl
      | cons c z =>
          have hc : isBlank c = true := hz c List.mem_cons_self
          simp [endsAddress, hc]
  | cons c s ih => simp only [List.cons_append, List.takeWhile_cons, ih]

/-- Blanks at the end change no address. -/
theorem addressLength_append_blanks {z : Text} (hz : Text.AllBlank z) (before : Option Char)
    (t : Text) : addressLength before (t ++ z) = addressLength before t := by
  have hiff : ∀ n, addressLength before (t ++ z) = n + 1 ↔ addressLength before t = n + 1 := by
    intro n
    rw [addressLength_eq_iff, addressLength_eq_iff]
    refine and_congr_right fun _ => ⟨?_, ?_⟩
    · rintro ⟨w, s, heq, hw, hn⟩
      rcases List.append_eq_append_iff.1 heq with ⟨y, rfl, rfl⟩ | ⟨y, rfl, rfl⟩
      · -- the scheme would reach into the blanks
        have hy : y = [] := by
          refine List.eq_nil_iff_forall_not_mem.2 fun c hc => ?_
          have hblank := hz c (List.mem_append_left _ hc)
          rw [hw.not_blank (List.mem_append_right _ hc)] at hblank
          cases hblank
        subst hy
        refine ⟨t, [], by simp, by simpa using hw, ?_⟩
        rw [hn, ← takeWhile_append_blanks (s := []) hz]
        simp
      · exact ⟨w, y, rfl, hw, by rw [hn, takeWhile_append_blanks hz]⟩
    · rintro ⟨w, s, rfl, hw, hn⟩
      exact ⟨w, s ++ z, by rw [List.append_assoc], hw, by rw [hn, takeWhile_append_blanks hz]⟩
  cases h : addressLength before t with
  | succ n => exact (hiff n).2 h
  | zero =>
      cases h' : addressLength before (t ++ z) with
      | zero => rfl
      | succ n =>
          rw [(hiff n).1 h'] at h
          cases h

theorem head?_append_blanks {z : Text} (hz : Text.AllBlank z) {c : Char}
    (hc : isBlank c = false) {t : Text} : (t ++ z).head? = some c ↔ t.head? = some c := by
  cases t with
  | cons d t => rfl
  | nil =>
      refine iff_of_false (fun h => ?_) nofun
      have hblank := hz c (List.mem_of_head? h)
      rw [hc] at hblank
      cases hblank

namespace Scanner

/-- Blanks at the end change no step. -/
theorem step_append_blanks {z : Text} (hz : Text.AllBlank z) {role : Role}
    {before : Option Char} {c : Char} {rest : Text} :
    (⟨.code, 0, role⟩ : Scanner).step before c (rest ++ z) =
      (⟨.code, 0, role⟩ : Scanner).step before c rest := by
  have haddress := addressLength_append_blanks hz before (c :: rest)
  have hslash : (rest ++ z).head? = some '/' ↔ rest.head? = some '/' :=
    head?_append_blanks hz (by decide)
  have hstar : (rest ++ z).head? = some '*' ↔ rest.head? = some '*' :=
    head?_append_blanks hz (by decide)
  have hline : Text.startsWith lineCommentMark (c :: (rest ++ z)) =
      Text.startsWith lineCommentMark (c :: rest) := by
    rw [Bool.eq_iff_iff, lineCommentMark_iff, lineCommentMark_iff, hslash]
  have hblock : opensBlock before (c :: (rest ++ z)) = opensBlock before (c :: rest) := by
    rw [Bool.eq_iff_iff, opensBlock_iff, opensBlock_iff, hstar]
  rw [List.cons_append] at haddress
  simp only [step, haddress, hline, hblock]

/-- There is no comment in blanks. -/
theorem comment_not_mem_blanks {s : Scanner} (hs : OutsideComment s) {z : Text}
    (hz : Text.AllBlank z) (before : Option Char) : Role.comment ∉ (s.roles before z).1 := by
  induction z generalizing s before with
  | nil => simp
  | cons c z ih =>
      obtain ⟨hc, hz⟩ := Text.allBlank_cons.1 hz
      rw [comment_mem_roles_cons, not_or]
      rcases hs.step_cases c with ⟨role, rfl⟩ | ⟨role, s₁, hrole, hs₁, hstep⟩
      · obtain ⟨hescape, hquote, hopens, hcontinues⟩ := ordinary_of_blank hc
        have hslash : c ≠ '/' := by rintro rfl; exact absurd hcontinues (by decide)
        rw [step_ordinary hescape hquote hslash (addressLength_of_not_opensScheme _ hopens _)]
        exact ⟨nofun, ih (.code role) hz _⟩
      · rw [hstep]
        exact ⟨hrole, ih hs₁ hz _⟩

/-- Blanks at the end hide no comment and bring none. -/
theorem comment_mem_roles_append {s : Scanner} (hs : OutsideComment s) {z : Text}
    (hz : Text.AllBlank z) (before : Option Char) (t : Text) :
    Role.comment ∈ (s.roles before (t ++ z)).1 ↔ Role.comment ∈ (s.roles before t).1 := by
  induction t generalizing s before with
  | nil => exact iff_of_false (comment_not_mem_blanks hs hz before) (by simp)
  | cons c t ih =>
      have hstep : s.step before c (t ++ z) = s.step before c t := by
        rcases hs.step_cases c with ⟨role, rfl⟩ | ⟨role, s₁, -, -, hstep⟩
        · exact step_append_blanks hz
        · rw [hstep, hstep]
      rw [List.cons_append, comment_mem_roles_cons, comment_mem_roles_cons, hstep]
      rcases hs.step before c t with hcomment | hs₁
      · simp [hcomment]
      · rw [ih hs₁]

end Scanner

/-! ### Lines without comments -/

/-- **A text with a comment**: a walk that begins in code meets one. -/
def HasComment (t : Text) : Prop := Role.comment ∈ (scanLine .code t).1

instance (t : Text) : Decidable (HasComment t) := by
  unfold HasComment
  infer_instance

/-- **A line with a comment between a word and an address**: directly before the comment stands a
letter or digit that is no part of a comment, and directly behind it an address. -/
def JoinsWord (mode : Mode) (t : Text) : Prop :=
  ∃ front c role gap a back,
    t.zip (scanLine mode t).1 = front ++ (c, role) :: (gap ++ (a, .address) :: back) ∧
      c.isAlphanum = true ∧ role ≠ .comment ∧ gap ≠ [] ∧ ∀ p ∈ gap, p.2 = .comment

theorem joinsWord_iff_hasJoint {mode : Mode} {t : Text} :
    JoinsWord mode t ↔ Scanner.HasJoint (t.zip (scanLine mode t).1) := by
  constructor
  · rintro ⟨front, c, role, gap, a, back, heq, hc, hrole, hgap, hcomment⟩
    exact ⟨front, c, role, _, heq, hc, hrole, gap, a, back, rfl, Or.inr hgap, hcomment⟩
  · rintro ⟨front, c, role, rest, heq, hc, hrole, gap, a, back, rfl, hgap, hcomment⟩
    exact ⟨front, c, role, gap, a, back, heq, hc, hrole, hgap.resolve_left nofun, hcomment⟩

theorem hasComment_trimEnd (t : Text) : HasComment (Text.trimEnd t) ↔ HasComment t := by
  obtain ⟨z, hz, ht⟩ := Text.exists_trimEnd_blanks t
  have happend := Scanner.comment_mem_roles_append (.code .code) hz none (Text.trimEnd t)
  rw [← ht] at happend
  exact happend.symm

/-- At the front of a line the second walk, which begins in code, stands beside the first one. -/
theorem Mode.IsStart.tracks {mode : Mode} (h : mode.IsStart) (t : Text) :
    Scanner.Tracks (Scanner.start mode) none t (Scanner.start .code) none false := by
  rcases h with rfl | rfl
  · exact .code t (Or.inl ⟨rfl, rfl⟩)
  · exact .comment _ _ _ (.inside _ t)

/-- What is left of a line is what is kept of it, without blanks at its end if it ended in a
comment. -/
theorem stripLine_eq (mode : Mode) (t : Text) :
    (stripLine mode t).1 = Text.trimEnd ((Scanner.start mode).kept none t) ∨
      (stripLine mode t).1 = (Scanner.start mode).kept none t := by
  by_cases hlast : (scanLine mode t).2 = .lineComment
  · exact Or.inl (if_pos hlast)
  · exact Or.inr (if_neg hlast)

/-- At the front of a line nothing stands before an address. -/
theorem joinsWord_iff_start {mode : Mode} {t : Text} :
    Scanner.joinsWord none false (t.zip (scanLine mode t).1) = true ↔ JoinsWord mode t := by
  rw [Scanner.joinsWord_iff, joinsWord_iff_hasJoint]
  simp

/-- What is left of a line has a comment exactly if one stood between a word and an address. -/
theorem stripLine_hasComment {mode : Mode} (hmode : mode.IsStart) (t : Text) :
    HasComment (stripLine mode t).1 ↔ JoinsWord mode t := by
  have hkept : HasComment ((Scanner.start mode).kept none t) ↔ JoinsWord mode t :=
    (hmode.tracks t).comment_iff.trans joinsWord_iff_start
  rcases stripLine_eq mode t with hstrip | hstrip
  · rw [hstrip, hasComment_trimEnd, hkept]
  · rw [hstrip, hkept]

/-- **Lines without comments.**  A line of a stripped stream that is no raw line is what is left of
one line of the stream, and it has a comment exactly if in that line a comment stood between a word
and an address. -/
theorem stripComments_hasComment_iff (ls : List Line) {m : Line} (hm : m ∈ stripComments ls)
    (hraw : isRawText m.text = false) :
    ∃ before l after, ls = before ++ l :: after ∧
      m = l.withText (stripLine (Mode.code.after before) l.text).1 ∧
      (HasComment m.text ↔ JoinsWord (Mode.code.after before) l.text) := by
  obtain ⟨before, l, after, rfl, hleft⟩ := mem_stripFrom_iff.1 hm
  have hm' := eq_of_strippedLine? hleft hraw
  refine ⟨before, l, after, rfl, hm', ?_⟩
  rw [hm', Line.withText_text]
  exact stripLine_hasComment (Mode.after_code before) l.text

/-- An address behind a word and a comment, on a line that begins inside a block comment. -/
theorem stripComments_hasComment_iff_joining :
    ∃ before l after,
      [⟨"a /* b".toList, "main", 1⟩, ⟨"*/x/**/ftp://a // c".toList, "main", 2⟩] =
          before ++ l :: after ∧
        (⟨"xftp://a".toList, "main", 2⟩ : Line) =
          l.withText (stripLine (Mode.code.after before) l.text).1 ∧
        (HasComment "xftp://a".toList ↔ JoinsWord (Mode.code.after before) l.text) :=
  stripComments_hasComment_iff
    [⟨"a /* b".toList, "main", 1⟩, ⟨"*/x/**/ftp://a // c".toList, "main", 2⟩]
    (m := ⟨"xftp://a".toList, "main", 2⟩) (by decide +kernel) (by decide +kernel)

/-- **A comment in a stripped line**: what is left of `x/**/http://a` has one, and loses it when it
is stripped once more. -/
theorem stripComments_leaves_comment :
    stripComments [⟨"x/**/http://a".toList, "main", 1⟩] = [⟨"xhttp://a".toList, "main", 1⟩] ∧
      isRawText "xhttp://a".toList = false ∧ HasComment "xhttp://a".toList ∧
      stripComments [⟨"xhttp://a".toList, "main", 1⟩] = [⟨"xhttp:".toList, "main", 1⟩] := by
  decide +kernel

end Softcode
