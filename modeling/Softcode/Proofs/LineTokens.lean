/-
**The tokens of a line.**

Seen from a distance, a line is not a row of characters with roles but a row of tokens: at each
place the first that applies of an escape pair, a quoted span, an address, a comment to the end of
the line, a block comment and a single character.  A block comment that its line does not end goes
on over the lines behind it, as a token at their front.  This module reads lines in this way, with
no state other than the character before a token, and says what a stream is of which the comments
are left out: line by line, the text of all tokens but the comments.

Main definitions:

* `Softcode.quotedSpan`, `Softcode.commentSpan` — what belongs to a quoted span and to a comment;
* `Softcode.Token`, `Softcode.firstToken` — **tokens**, and the one at the front of a text;
* `Softcode.lineTokens` — the tokens of a line;
* `Softcode.withoutComments` — **a stream of which the comments are left out**, by its tokens.

Main results:

* `Softcode.text_lineTokens` — the tokens of a line are the line;
* `Softcode.firstToken_escape`, …, `Softcode.firstToken_plain` — the six tokens;
* `Softcode.withoutComments_append` — a stream in two parts is read part by part.
-/

import Mathlib.Data.List.Infix
import Softcode.Proofs.Brackets
import Softcode.Proofs.Rescanning

set_option autoImplicit false

namespace Softcode

/-! ### Spans -/

/-- What belongs to a quoted span behind its quote: all up to the next quote of that kind that is no
part of an escape pair, or all that is left. -/
def quotedSpan (q : Char) (s : Text) : Text :=
  ((units s).take ((units s).findIdx (· == [q]) + 1)).flatten

/-- What belongs to a block comment behind its opening: all up to the next mark that closes one, or
all that is left. -/
def commentSpan (s : Text) : Text :=
  s.take (s.tails.findIdx (Text.startsWith blockCloseMark) + 2)

/-- Whether a block comment is closed in a text. -/
def closesComment (s : Text) : Bool := s.tails.any (Text.startsWith blockCloseMark)

theorem quotedSpan_escape (q c : Char) (s : Text) :
    quotedSpan q ('\\' :: c :: s) = '\\' :: c :: quotedSpan q s := by
  have hpair : ([('\\' : Char), c] == [q]) = false := by simp
  rw [quotedSpan, units_escape, List.findIdx_cons, hpair]
  rfl

theorem quotedSpan_backslash (q : Char) : quotedSpan q ['\\'] = ['\\'] := by
  simp [quotedSpan, units]

theorem quotedSpan_quote {q : Char} (hq : q ≠ '\\') (s : Text) :
    quotedSpan q (q :: s) = [q] := by
  rw [quotedSpan, units_cons hq, List.findIdx_cons, beq_self_eq_true]
  rfl

theorem quotedSpan_cons {q c : Char} (hc : c ≠ '\\') (hquote : c ≠ q) (s : Text) :
    quotedSpan q (c :: s) = c :: quotedSpan q s := by
  have hunit : ([c] == [q]) = false := by simpa using hquote
  rw [quotedSpan, units_cons hc, List.findIdx_cons, hunit]
  rfl

theorem isPrefix_quotedSpan (q : Char) (s : Text) : quotedSpan q s <+: s := by
  refine ⟨((units s).drop ((units s).findIdx (· == [q]) + 1)).flatten, ?_⟩
  rw [quotedSpan, ← List.flatten_append, List.take_append_drop, flatten_units]

theorem commentSpan_close {c : Char} {s : Text}
    (h : Text.startsWith blockCloseMark (c :: s) = true) :
    commentSpan (c :: s) = (c :: s).take 2 := by
  rw [commentSpan, List.tails_cons, List.findIdx_cons, h]
  rfl

theorem commentSpan_cons {c : Char} {s : Text}
    (h : Text.startsWith blockCloseMark (c :: s) = false) :
    commentSpan (c :: s) = c :: commentSpan s := by
  rw [commentSpan, List.tails_cons, List.findIdx_cons, h]
  rfl

theorem isPrefix_commentSpan (s : Text) : commentSpan s <+: s := List.take_prefix _ _

theorem commentSpan_append_drop (s : Text) :
    commentSpan s ++ s.drop (commentSpan s).length = s :=
  List.prefix_iff_eq_append.1 (isPrefix_commentSpan s)

theorem closesComment_cons (c : Char) (s : Text) :
    closesComment (c :: s) = (Text.startsWith blockCloseMark (c :: s) || closesComment s) := by
  rw [closesComment, List.tails_cons, List.any_cons]
  rfl

/-! ### Tokens -/

/-- The kinds of tokens.  A block comment may be closed on its line or not. -/
inductive TokenKind where
  | escape | quoted | address | lineComment
  | blockComment (closed : Bool)
  | plain
  deriving DecidableEq

/-- The kinds of tokens that are comments. -/
def TokenKind.isComment : TokenKind → Bool
  | lineComment | blockComment _ => true
  | escape | quoted | address | plain => false

/-- **A token**: its kind and its text. -/
structure Token where
  kind : TokenKind
  text : Text
  deriving DecidableEq

/-- A block comment, of which the opening and what follows it are given. -/
def commentToken (opening s : Text) : Token :=
  ⟨.blockComment (closesComment s), opening ++ commentSpan s⟩

/-- **The token at the front of a text** behind the character `before`: the first that applies of an
escape pair, a quoted span, an address, a comment to the end of the line, a block comment and a
single character. -/
def firstToken (before : Option Char) (c : Char) (rest : Text) : Token :=
  if c = '\\' then ⟨.escape, c :: rest.take 1⟩
  else if c = '"' ∨ c = '\'' then ⟨.quoted, c :: quotedSpan c rest⟩
  else if addressLength before (c :: rest) ≠ 0 then
    ⟨.address, (c :: rest).take (addressLength before (c :: rest))⟩
  else if c = '/' ∧ rest.head? = some '/' then ⟨.lineComment, c :: rest⟩
  else if c = '/' ∧ rest.head? = some '*' ∧ before ≠ some '*' then
    commentToken ['/', '*'] rest.tail
  else ⟨.plain, [c]⟩

theorem isPrefix_firstToken (before : Option Char) (c : Char) (rest : Text) :
    (firstToken before c rest).text <+: c :: rest := by
  unfold firstToken
  split
  · exact List.prefix_cons_inj _ |>.2 (List.take_prefix _ _)
  · split
    · exact List.prefix_cons_inj _ |>.2 (isPrefix_quotedSpan _ _)
    · split
      · exact List.take_prefix _ _
      · split
        · exact List.prefix_refl _
        · split
          · next h =>
              obtain ⟨rfl, hhead, -⟩ := h
              obtain ⟨s, rfl⟩ := List.head?_eq_some_iff.1 hhead
              exact (List.prefix_append_right_inj ['/', '*']).2 (isPrefix_commentSpan s)
          · exact ⟨rest, rfl⟩

theorem firstToken_ne_nil (before : Option Char) (c : Char) (rest : Text) :
    (firstToken before c rest).text ≠ [] := by
  unfold firstToken
  split
  · exact List.cons_ne_nil _ _
  · split
    · exact List.cons_ne_nil _ _
    · split
      · next h =>
          obtain ⟨n, hn⟩ := Nat.exists_eq_succ_of_ne_zero h
          rw [hn]
          exact List.cons_ne_nil _ _
      · split
        · exact List.cons_ne_nil _ _
        · split
          · exact List.cons_ne_nil _ _
          · exact List.cons_ne_nil _ _

/-- What follows the token at the front of a text. -/
def afterToken (before : Option Char) (c : Char) (rest : Text) : Text :=
  (c :: rest).drop (firstToken before c rest).text.length

theorem text_afterToken (before : Option Char) (c : Char) (rest : Text) :
    (firstToken before c rest).text ++ afterToken before c rest = c :: rest :=
  List.prefix_iff_eq_append.1 (isPrefix_firstToken before c rest)

theorem length_afterToken_lt (before : Option Char) (c : Char) (rest : Text) :
    (afterToken before c rest).length < (c :: rest).length := by
  have hlength := congrArg List.length (text_afterToken before c rest)
  have hpos := List.length_pos_iff.2 (firstToken_ne_nil before c rest)
  rw [List.length_append] at hlength
  omega

/-- The tokens of a text behind the character `before`, outside comments. -/
def tokens (before : Option Char) : Text → List Token
  | [] => []
  | c :: rest =>
      firstToken before c rest ::
        tokens (firstToken before c rest).text.getLast? (afterToken before c rest)
termination_by t => t.length
decreasing_by exact length_afterToken_lt before c rest

/-- **The tokens of a line**, which may begin in a block comment. -/
def lineTokens (opened : Bool) (t : Text) : List Token :=
  if opened then
    commentToken [] t :: tokens (commentSpan t).getLast? (t.drop (commentSpan t).length)
  else tokens none t

theorem text_tokens (before : Option Char) (t : Text) :
    (tokens before t).flatMap Token.text = t := by
  fun_induction tokens before t with
  | case1 => rfl
  | case2 before c rest ih => rw [List.flatMap_cons, ih, text_afterToken]

/-- **The tokens of a line, put together, are the line.** -/
theorem text_lineTokens (opened : Bool) (t : Text) :
    (lineTokens opened t).flatMap Token.text = t := by
  cases opened with
  | false => exact text_tokens none t
  | true =>
      rw [lineTokens, if_pos rfl, List.flatMap_cons, text_tokens]
      exact commentSpan_append_drop t

/-! ### The six things -/

/-- An address is a part of the text that it is read from. -/
theorem addressLength_le (before : Option Char) (t : Text) : addressLength before t ≤ t.length := by
  cases h : addressLength before t with
  | zero => exact Nat.zero_le _
  | succ n =>
      obtain ⟨-, w, s, rfl, -, hn⟩ := addressLength_eq_iff.1 h
      have := (List.takeWhile_prefix (fun c => !endsAddress c) (l := s)).length_le
      rw [List.length_append]
      omega

section Sight

variable {before : Option Char} {c : Char} {rest : Text}

theorem firstToken_escape (h : c = '\\') :
    firstToken before c rest = ⟨.escape, c :: rest.take 1⟩ := if_pos h

theorem firstToken_quote (h : c = '"' ∨ c = '\'') :
    firstToken before c rest = ⟨.quoted, c :: quotedSpan c rest⟩ := by
  have hescape : c ≠ '\\' := by rcases h with rfl | rfl <;> decide
  rw [firstToken, if_neg hescape, if_pos h]

theorem firstToken_address {n : Nat} (h : addressLength before (c :: rest) = n + 1) :
    firstToken before c rest = ⟨.address, c :: rest.take n⟩ := by
  obtain ⟨hescape, hquote, -⟩ :=
    ordinary_of_isAlphanum (isAlphanum_of_opensScheme (opensScheme_of_addressLength h))
  rw [firstToken, if_neg hescape, if_neg hquote, if_pos (by rw [h]; exact Nat.succ_ne_zero n), h]
  rfl

theorem firstToken_slash (hc : c = '/') :
    firstToken before c rest =
      if rest.head? = some '/' then ⟨.lineComment, c :: rest⟩
      else if rest.head? = some '*' ∧ before ≠ some '*' then commentToken ['/', '*'] rest.tail
      else ⟨.plain, [c]⟩ := by
  subst hc
  have haddress := addressLength_of_not_opensScheme before (c := '/') (by decide) rest
  simp [firstToken, haddress]

theorem firstToken_line (h : Text.startsWith lineCommentMark (c :: rest) = true) :
    firstToken before c rest = ⟨.lineComment, c :: rest⟩ := by
  obtain ⟨hc, hhead⟩ := lineCommentMark_iff.1 h
  rw [firstToken_slash hc, if_pos hhead]

theorem firstToken_block (h : opensBlock before (c :: rest) = true) :
    firstToken before c rest = commentToken ['/', '*'] rest.tail := by
  obtain ⟨hc, hhead, hstar⟩ := opensBlock_iff.1 h
  rw [firstToken_slash hc, if_neg (by rw [hhead]; decide), if_pos ⟨hhead, hstar⟩]

theorem firstToken_plain (hescape : c ≠ '\\') (hquote : ¬ (c = '"' ∨ c = '\''))
    (haddress : addressLength before (c :: rest) = 0)
    (hline : Text.startsWith lineCommentMark (c :: rest) = false)
    (hblock : opensBlock before (c :: rest) = false) :
    firstToken before c rest = ⟨.plain, [c]⟩ := by
  rw [firstToken, if_neg hescape, if_neg hquote, if_neg (not_not_intro haddress),
    if_neg (mt lineCommentMark_iff.2 (by rw [hline]; exact Bool.false_ne_true)),
    if_neg (mt opensBlock_iff.2 (by rw [hblock]; exact Bool.false_ne_true))]

end Sight

/-! ### Leaving comments out -/

/-- The text of the tokens that are no comments. -/
def keptText (ts : List Token) : Text :=
  (ts.filter fun tok => !tok.kind.isComment).flatMap Token.text

/-- What is left of the tokens of a line: the text of those that are no comments, without the blanks
at the end if the line is cut by a comment to its end. -/
def leftText (ts : List Token) : Text :=
  if ts.any (·.kind == .lineComment) then Text.trimEnd (keptText ts) else keptText ts

/-- Whether a block comment is left open by one of the tokens. -/
def leavesOpen (ts : List Token) : Bool := ts.any (·.kind == .blockComment false)

/-- Whether a line is read as tokens.  Lines with a marker are not, unless a block comment is open. -/
def isRead (opened : Bool) (t : Text) : Bool := opened || !(isDroppedText t || isRawText t)

/-- What is left of a line.  Outside block comments a line with the drop marker is left out and a
line with the raw marker is kept; every other line is read as tokens, and left out if only blanks
are left of it. -/
def leftLine? (opened : Bool) (l : Line) : Option Line :=
  if isRead opened l.text then
    if Text.isBlankText (leftText (lineTokens opened l.text)) then none
    else some (l.withText (leftText (lineTokens opened l.text)))
  else if isDroppedText l.text then none
  else some l

/-- Whether a block comment is open behind a line. -/
def openAfter (opened : Bool) (l : Line) : Bool :=
  if isRead opened l.text then leavesOpen (lineTokens opened l.text) else opened

/-- **A stream of which the comments are left out**, by the tokens of its lines. -/
def withoutComments : Bool → List Line → List Line
  | _, [] => []
  | opened, l :: ls => (leftLine? opened l).toList ++ withoutComments (openAfter opened l) ls

/-- **A stream in two parts is read part by part.** -/
theorem withoutComments_append (opened : Bool) (ls ms : List Line) :
    withoutComments opened (ls ++ ms) =
      withoutComments opened ls ++ withoutComments (ls.foldl openAfter opened) ms := by
  induction ls generalizing opened with
  | nil => rfl
  | cons l ls ih =>
      rw [List.cons_append, withoutComments, ih, withoutComments, List.append_assoc,
        List.foldl_cons]

theorem keptText_cons (tok : Token) (ts : List Token) :
    keptText (tok :: ts) = (if !tok.kind.isComment then tok.text else []) ++ keptText ts := by
  rw [keptText, List.filter_cons]
  split
  · rw [List.flatMap_cons, keptText]
  · rw [List.nil_append, keptText]

theorem keptText_append (ts us : List Token) :
    keptText (ts ++ us) = keptText ts ++ keptText us := by
  rw [keptText, List.filter_append, List.flatMap_append]
  rfl

end Softcode
