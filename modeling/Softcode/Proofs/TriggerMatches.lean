/-
**Where macros with arguments are found.**

A macro whose body asks for arguments has a pattern that goes on behind the trigger: blanks, a
parenthesis, the arguments, and a parenthesis.  A match should therefore be a call.  It is one
unless the trigger is an alternation: what is written behind the alternatives belongs to the last of
them (`Proofs/ExtendedPatterns.lean`), and the others are found alone.

* `Softcode.Macro.exists_of_matches_argumentParts` — **what an argument list matches**: at least one
  and at most `n` arguments in parentheses, the first of them noted as a group;
* `Softcode.Macro.compile_writtenPattern` — the pattern of a trigger with an argument list;
* `Softcode.Macro.IsCall` — a match of the trigger with arguments behind it;
* `Softcode.Macro.isCall_or_alternative` — **every match is a call, or an alternative of the trigger
  without arguments**, and `Softcode.Macro.expand_beyond_calls`, texts that are no calls.
-/

import Softcode.Proofs.MacroCalls
import Softcode.Proofs.ExtendedPatterns

set_option autoImplicit false

namespace Softcode

namespace Macro

open Pattern

/-! ### Matches of an argument list -/

section Matches

variable {s t : Place}

/-- Repetitions of a class match texts of its characters. -/
theorem exists_of_matches_star {a : CharClass} {id : Nat} {greedy : Bool}
    (h : (Pattern.star id greedy (.char a)).Matches s t) :
    ∃ x, (∀ c ∈ x, a.contains c = true) ∧ s.Passes x t := by
  induction h with
  | refl => exact ⟨[], by simp, .refl s⟩
  | tail _ hstep ih =>
      obtain ⟨x, hx, hpasses⟩ := ih
      obtain ⟨c, rest, hrest, hc, rfl⟩ := hstep
      refine ⟨x ++ [c], ?_, hpasses.trans (Place.passes_advance hrest)⟩
      intro d hd
      rcases List.mem_append.1 hd with hd | hd
      · exact hx d hd
      · rw [List.mem_singleton.1 hd]
        exact hc

theorem exists_of_matches_blanks (h : blanks.Matches s t) :
    ∃ b, Text.AllBlank b ∧ s.Passes b t :=
  exists_of_matches_star h

theorem exists_of_matches_char {c : Char} {a : CharClass} (ha : ∀ d, a.contains d = (d == c))
    (h : (Pattern.char a).Matches s t) : s.Passes [c] t := by
  obtain ⟨d, rest, hrest, hd, rfl⟩ := h
  rw [ha, beq_iff_eq] at hd
  rw [← hd]
  exact Place.passes_advance hrest

theorem exists_of_matches_argument {i : Nat} (h : (argument i).Matches s t) :
    ∃ a, IsArgument a ∧ s.Passes a t ∧ (i, a) ∈ t.groups := by
  obtain ⟨u, hstar, rfl⟩ := h
  obtain ⟨a, ha, hpasses⟩ := exists_of_matches_star hstar
  refine ⟨a, ?_, ⟨hpasses.rest, hpasses.pos, hpasses.groups.trans (List.suffix_cons _ _)⟩, ?_⟩
  · intro c hc
    have := ha c hc
    rwa [contains_argumentChar, Bool.not_eq_true'] at this
  · rw [hpasses.textTo]
    exact List.mem_cons_self

theorem isArgument_of_allBlank {b : Text} (h : Text.AllBlank b) : IsArgument b := by
  intro c hc
  by_contra hends
  have := isBlank_of_endsArgument (by simpa using hends)
  rw [h c hc] at this
  cases this

theorem IsArgument.append {a b : Text} (ha : IsArgument a) (hb : IsArgument b) :
    IsArgument (a ++ b) := by
  intro c hc
  exact (List.mem_append.1 hc).elim (ha c) (hb c)

/-- Blanks and an argument. -/
theorem exists_of_matches_blanks_argument {i : Nat} {ps : List Pattern}
    (h : (concat (blanks :: argument i :: ps)).Matches s t) :
    ∃ a u, IsArgument a ∧ s.Passes a u ∧ (∃ x, (i, x) ∈ u.groups) ∧ (concat ps).Matches u t := by
  obtain ⟨v, hblanks, h⟩ := matches_concat_cons.1 h
  obtain ⟨u, hargument, h⟩ := matches_concat_cons.1 h
  obtain ⟨b, hb, hv⟩ := exists_of_matches_blanks hblanks
  obtain ⟨a, ha, hu, hgroup⟩ := exists_of_matches_argument hargument
  exact ⟨b ++ a, u, (isArgument_of_allBlank hb).append ha, hv.trans hu, ⟨a, hgroup⟩, h⟩

/-- **The further arguments and the end of the list.**  Blanks before a comma or the parenthesis
belong to the argument before it. -/
theorem exists_of_matches_arguments {i k : Nat}
    (h : (concat ((List.range' i k).map further ++ [blanks, .char (.sameCase ')')])).Matches s t) :
    ∃ (b : Text) (as : List Text), Text.AllBlank b ∧ as.length ≤ k ∧ (∀ a ∈ as, IsArgument a) ∧
      s.Passes (b ++ (as.flatMap ([','] ++ ·) ++ [')'])) t := by
  induction k generalizing i s with
  | zero =>
      obtain ⟨u, hblanks, hclose⟩ := matches_concat_cons.1 h
      obtain ⟨b, hb, hu⟩ := exists_of_matches_blanks hblanks
      exact ⟨b, [], hb, Nat.le_refl 0, by simp,
        hu.trans (exists_of_matches_char contains_close hclose)⟩
  | succ k ih =>
      rw [List.range'_succ, List.map_cons, List.cons_append] at h
      obtain ⟨u, hfurther, h⟩ := matches_concat_cons.1 h
      obtain ⟨b, as, hb, hlength, has, hpasses⟩ := ih h
      rcases hfurther with hfurther | rfl
      · obtain ⟨v, hblanks, hfurther⟩ := matches_concat_cons.1 hfurther
        obtain ⟨w, hcomma, hfurther⟩ := matches_concat_cons.1 hfurther
        obtain ⟨b₁, hb₁, hv⟩ := exists_of_matches_blanks hblanks
        obtain ⟨a, u', ha, hu', -, hnil⟩ := exists_of_matches_blanks_argument hfurther
        obtain rfl : u = u' := hnil
        refine ⟨b₁, (a ++ b) :: as, hb₁, Nat.succ_le_succ hlength,
          List.forall_mem_cons.2 ⟨ha.append (isArgument_of_allBlank hb), has⟩, ?_⟩
        have := hv.trans ((exists_of_matches_char contains_comma hcomma).trans (hu'.trans hpasses))
        simpa using this
      · exact ⟨b, as, hb, Nat.le_succ_of_le hlength, has, hpasses⟩

/-- **What an argument list matches.** -/
theorem exists_of_matches_argumentParts {n : Nat} (hn : 1 ≤ n)
    (h : (concat (argumentParts n)).Matches s t) :
    ∃ (b : Text) (args : List Text), Text.AllBlank b ∧ args ≠ [] ∧ args.length ≤ n ∧
      (∀ a ∈ args, IsArgument a) ∧ s.Passes (argumentText b args) t ∧ ∃ x, (1, x) ∈ t.groups := by
  obtain ⟨u, hblanks, h⟩ := matches_concat_cons.1 h
  obtain ⟨v, hopen, h⟩ := matches_concat_cons.1 h
  obtain ⟨b, hb, hu⟩ := exists_of_matches_blanks hblanks
  obtain ⟨a, w, ha, hw, ⟨x, hx⟩, h⟩ := exists_of_matches_blanks_argument h
  obtain ⟨b', as, hb', hlength, has, hpasses⟩ := exists_of_matches_arguments h
  refine ⟨b, (a ++ b') :: as, hb, by simp, ?_,
    List.forall_mem_cons.2 ⟨ha.append (isArgument_of_allBlank hb'), has⟩, ?_, x,
    hpasses.groups.subset hx⟩
  · rw [List.length_cons]
    omega
  · have := hu.trans ((exists_of_matches_char contains_open hopen).trans (hw.trans hpasses))
    simpa [argumentText, Text.join_cons] using this

end Matches

/-! ### Matches of macros -/

/-- **A match is a call**: a match of the trigger with at least one and at most `n` arguments behind
it, in parentheses. -/
def IsCall (trigger : Pattern) (n : Nat) (start : Place) (m : Match) : Prop :=
  ∃ (u : Place) (b : Text) (args : List Text), trigger.Matches start u ∧ Text.AllBlank b ∧
    args ≠ [] ∧ args.length ≤ n ∧ (∀ a ∈ args, ',' ∉ a ∧ ')' ∉ a) ∧
    m.text = start.textTo u ++ argumentText b args

theorem isTail_argumentList (n : Nat) : IsTail (argumentList n) := by
  intro c hc
  exact (Option.some.inj hc).symm

theorem group?_one_isSome {m : Match} {x : Text} (h : (1, x) ∈ m.groups) :
    (m.group? 1).isSome = true := by
  rw [Match.group?, if_neg (by decide), Option.isSome_map, List.find?_isSome]
  exact ⟨(1, x), h, by simp⟩

theorem getLast?_argumentText (x b : Text) (args : List Text) :
    (x ++ argumentText b args).getLast? = some ')' := by
  have : x ++ argumentText b args = (x ++ (b ++ '(' :: Text.join [','] args)) ++ [')'] := by
    simp [argumentText]
  rw [this, List.getLast?_concat]

/-- **The pattern of a trigger with an argument list.**  The list belongs to the last alternative of
the trigger, so the others match without one; they have no groups. -/
theorem compile_writtenPattern {trigger : Text} {p : Pattern} {n : Nat} (hopen : '(' ∉ trigger)
    (hvalid : Pattern.compile trigger = .ok p) (hn : 1 ≤ n) :
    ∃ q w, Pattern.compile ("(?i)".toList ++ trigger) = .ok q ∧
      Pattern.compile (writtenPattern trigger n) = .ok w ∧
      ∀ {s t : Place}, w.Matches s t →
        (∃ u, q.Matches s u ∧ (concat (argumentParts n)).Matches u t) ∨
          (∃ a b, Pattern.parse trigger = .ok (.alt a b)) ∧ q.Matches s t ∧
            t.groups = s.groups := by
  obtain ⟨a₀, a₁, q, hparse₀, hparse₁, hq, hgroupless, halternation⟩ :=
    parse_caseSwitch hopen hvalid
  obtain ⟨qs, ps, rfl, hqs, hcompile⟩ := compile_append (isTail_argumentList n) hopen hparse₁ hq
    (readsParts_argumentList hn)
  have hwritten : writtenPattern trigger n = "(?i)".toList ++ (trigger ++ argumentList n) := by
    rw [writtenPattern, if_pos ⟨hn, hopen⟩, List.append_assoc]
  rw [← hwritten] at hcompile
  refine ⟨_, _, compile_of_toPattern hparse₁ hq, hcompile, fun {s t} ht => ?_⟩
  rw [matches_label, matches_alternatives, matches_concat_append] at ht
  rw [matches_label]
  rcases ht with ⟨q, hmem, ht⟩ | ⟨u, hu, ht⟩
  · right
    obtain ⟨a, b, rfl⟩ := halternation (hqs (List.ne_nil_of_mem hmem))
    exact ⟨⟨a, b, hparse₀⟩, matches_alternatives.2 (Or.inl ⟨q, hmem, ht⟩),
      ht.groups_eq ((groupless_alternatives.1 hgroupless).1 q hmem)⟩
  · exact Or.inl ⟨u, matches_alternatives.2 (Or.inr hu), ht⟩

/-- **A macro that asks for arguments is found only in calls, unless its trigger is an
alternation.** -/
theorem isCall_or_alternative {trigger body : Text} {p : Pattern} (origin : Option Location)
    (hopen : '(' ∉ trigger) (hvalid : Pattern.compile (Text.trim trigger) = .ok p)
    (hasks : 1 ≤ maxParamOf body) :
    ∃ q d, Pattern.compile ("(?i)".toList ++ Text.trim trigger) = .ok q ∧
      Macro.compile trigger body origin = .ok d ∧
      ∀ (start : Place) (tried : Tried) (m : Match), start.groups = [] →
        (d.pattern.matchAt? start tried).1 = some m →
        IsCall q (maxParamOf body) start m ∧ m.text.getLast? = some ')' ∧
            (m.group? 1).isSome = true ∨
          (∃ a b, Pattern.parse (Text.trim trigger) = .ok (.alt a b)) ∧
            (∃ u, q.Matches start u ∧ m.text = start.textTo u) ∧ m.group? 1 = none := by
  have hopen' : '(' ∉ Text.trim trigger := fun h => hopen (Text.mem_of_mem_trim h)
  obtain ⟨q, w, hq, hw, hmatches⟩ := compile_writtenPattern hopen' hvalid hasks
  refine ⟨q, ⟨Text.trim trigger, writtenPattern (Text.trim trigger) (maxParamOf body), w, body,
    maxParamOf body, origin⟩, hq, ?_, ?_⟩
  · simp only [Macro.compile, hw]
  · intro start tried m hgroups hm
    obtain ⟨t, ht, rfl⟩ := exists_of_matchAt? hm
    rcases hmatches ht with ⟨u, hu, ht⟩ | ⟨halternation, ht, hsame⟩
    · left
      obtain ⟨x, hx⟩ := hu.passes
      obtain ⟨b, args, hb, hne, hlength, hargs, hpasses, y, hy⟩ :=
        exists_of_matches_argumentParts hasks ht
      have htext : start.textTo t = start.textTo u ++ argumentText b args := by
        rw [(hx.trans hpasses).textTo, hx.textTo]
      refine ⟨⟨u, b, args, hu, hb, hne, hlength, ?_, htext⟩, ?_, group?_one_isSome hy⟩
      · intro a ha
        exact ⟨fun h => absurd (hargs a ha ',' h) (by decide),
          fun h => absurd (hargs a ha ')' h) (by decide)⟩
      · change (start.textTo t).getLast? = some ')'
        rw [htext, getLast?_argumentText]
    · refine Or.inr ⟨halternation, ⟨t, ht, rfl⟩, ?_⟩
      simp only [Match.group?, hsame, hgroups, List.find?_nil, Option.map_none]
      rfl

/-- A trigger that is no plain word. -/
theorem isCall_or_alternative_repeated :
    ∃ q d m, Pattern.compile "(?i)a+".toList = .ok q ∧
      Macro.compile ['a', '+'] ['$', '1'] none = .ok d ∧
      (d.pattern.matchAt? ⟨none, ['A', 'a', ' ', '(', 'x', ')'], 0, []⟩ []).1 = some m ∧
      IsCall q 1 ⟨none, ['A', 'a', ' ', '(', 'x', ')'], 0, []⟩ m := by
  obtain ⟨p, hp⟩ : ∃ p, Pattern.compile (Text.trim ['a', '+']) = .ok p := ⟨_, rfl⟩
  have hopen : '(' ∉ ['a', '+'] := by decide
  have hasks : 1 ≤ maxParamOf ['$', '1'] := by decide
  obtain ⟨q, d, hq, hd, hall⟩ := isCall_or_alternative none hopen hp hasks
  have hfound : ((Macro.compile ['a', '+'] ['$', '1'] none).toOption.bind fun d =>
      (d.pattern.matchAt? ⟨none, ['A', 'a', ' ', '(', 'x', ')'], 0, []⟩ []).1).isSome = true := by
    decide +kernel
  rw [hd] at hfound
  obtain ⟨m, hm⟩ := Option.isSome_iff_exists.1 hfound
  refine ⟨q, d, m, hq, hd, hm, ?_⟩
  rcases hall _ _ m rfl hm with ⟨hcall, -⟩ | ⟨⟨a, b, hparse⟩, -⟩
  · exact hcall
  · have : (Pattern.parse (Text.trim ['a', '+'])).toOption.all
        (fun | .alt _ _ => false | _ => true) = true := by decide +kernel
    rw [hparse] at this
    cases this

/-- **Texts that are no calls.**  The first alternative of a trigger is found without arguments.
And a trigger that ends with an escaped blank loses the blank when it is registered, so that its
backslash escapes what is written behind it. -/
theorem expand_beyond_calls :
    ((Macro.compile ['h', 'i', '|', 'b', 'y', 'e'] ['[', '$', '1', ']'] none).toOption.map
        fun d => d.expand ['h', 'i']) = some ['[', ']'] ∧
      (Pattern.compile ['a', '\\', ' ']).toOption.isSome = true ∧
      ((Macro.compile ['a', '\\', ' '] ['[', '$', '1', ']'] none).toOption.map
        fun d => d.expand ['a', '\\', 's', '(', 'x', ')']) = some ['[', 'x', ']'] := by
  decide +kernel

end Macro

end Softcode
