/-
**What the stages keep.**

The stages rewrite the texts of lines, leave lines out, repeat them, join them and put them back.
Whether some property of lines holds behind a stage depends only on the few texts that the stage
makes itself: the command for a self-check, a line with a number put in, the text beside the
beginning of a definition, what is left of a line without its comments, a line with its
continuation.  All else is the recursion of the stage.

This module follows the recursions once, for any property of lines and any property of findings.
Each result has one condition for every kind of text that its stage makes and one for the findings
that it reports, and says that the stage keeps the property.

Main definitions:

* `Softcode.Staged.Holds`, `Softcode.Template.Expander.Holds`, `Softcode.Macro.Extraction.Holds` —
  what a stage has given so far has the two properties.

Main results:

* `Softcode.SelfCheck.holds_expandFrom` — self-checks;
* `Softcode.Template.holds_walk`, `Softcode.Template.holds_process` — **blocks, at any depth**;
* `Softcode.Macro.holds_extractFrom` — definitions, open ones included;
* `Softcode.forall_stripComments`, `Softcode.forall_joinFrom` — comments and continuation lines.
-/

import Softcode.Proofs.Stripping
import Softcode.Session

set_option autoImplicit false

namespace Softcode

variable {Q : Line → Prop} {D : Diagnostic → Prop}

/-! ### Lines and findings -/

/-- All lines and all findings have a property. -/
structure Staged.Holds (Q : Line → Prop) (D : Diagnostic → Prop) (r : Staged) : Prop where
  lines : ∀ l ∈ r.lines, Q l
  diagnostics : ∀ d ∈ r.diagnostics, D d

namespace Staged

theorem holds_quiet {ls : List Line} (h : ∀ l ∈ ls, Q l) : (quiet ls).Holds Q D :=
  ⟨h, List.forall_mem_nil _⟩

theorem Holds.append {a b : Staged} (ha : a.Holds Q D) (hb : b.Holds Q D) : (a ++ b).Holds Q D :=
  ⟨List.forall_mem_append.2 ⟨ha.lines, hb.lines⟩,
    List.forall_mem_append.2 ⟨ha.diagnostics, hb.diagnostics⟩⟩

/-- A stage that treats each line by itself. -/
theorem holds_each {f : Line → Staged} (hf : ∀ l, Q l → (f l).Holds Q D) {ls : List Line}
    (h : ∀ l ∈ ls, Q l) : (each f ls).Holds Q D := by
  constructor
  · intro m hm
    simp only [each, List.mem_flatMap, List.mem_map] at hm
    obtain ⟨r, ⟨l, hl, rfl⟩, hm⟩ := hm
    exact (hf l (h l hl)).lines m hm
  · intro d hd
    simp only [each, List.mem_flatMap, List.mem_map] at hd
    obtain ⟨r, ⟨l, hl, rfl⟩, hd⟩ := hd
    exact (hf l (h l hl)).diagnostics d hd

end Staged

/-! ### Self-checks -/

namespace SelfCheck

/-- Self-checks become commands, one line each. -/
theorem holds_expandFrom
    (hcheck : ∀ l ls t n, Q l → (∀ m ∈ ls, Q m) → parse? l.text ls = some (t, n) →
      Q (l.withText t.render))
    (hwarn : ∀ l, Q l → D (malformed l.location)) (skip : Nat) {ls : List Line}
    (h : ∀ l ∈ ls, Q l) : (expandFrom skip ls).Holds Q D := by
  fun_induction expandFrom skip ls with
  | case1 => exact Staged.holds_quiet h
  | case2 skip l ls ih => exact ih (List.forall_mem_cons.1 h).2
  | case3 l ls hopens t n hparse ih =>
      obtain ⟨hl, hls⟩ := List.forall_mem_cons.1 h
      have hcommand := List.forall_mem_singleton.2 (hcheck l ls t n hl hls hparse)
      exact (Staged.holds_quiet hcommand).append (ih hls)
  | case4 l ls hopens hparse ih =>
      obtain ⟨hl, hls⟩ := List.forall_mem_cons.1 h
      have hkept : Staged.Holds Q D ⟨[l], [malformed l.location]⟩ :=
        ⟨List.forall_mem_singleton.2 hl, List.forall_mem_singleton.2 (hwarn l hl)⟩
      exact hkept.append (ih hls)
  | case5 l ls hopens ih =>
      obtain ⟨hl, hls⟩ := List.forall_mem_cons.1 h
      exact (Staged.holds_quiet (List.forall_mem_singleton.2 hl)).append (ih hls)

end SelfCheck

/-! ### Blocks -/

namespace Template

/-- The output and the warnings so far have a property. -/
structure Expander.Holds (Q : Line → Prop) (D : Diagnostic → Prop) (e : Expander) : Prop where
  out : ∀ l ∈ e.out, Q l
  warnings : ∀ d ∈ e.warnings, D d

theorem Expander.Holds.push {e : Expander} (h : e.Holds Q D) {l : Line} (hl : Q l) :
    (e.push l).Holds Q D :=
  ⟨List.forall_mem_cons.2 ⟨hl, h.out⟩, h.warnings⟩

theorem Expander.Holds.warn {e : Expander} (h : e.Holds Q D) {f : Fault} {l : Line}
    (hd : D (f.diagnostic l)) : (e.warn f l).Holds Q D :=
  ⟨h.out, List.forall_mem_cons.2 ⟨hd, h.warnings⟩⟩

/-- The body of a block is part of the lines behind its opener. -/
theorem forall_splitBlock? {depth : Nat} {ls body : List Line} (h : ∀ l ∈ ls, Q l)
    (hsplit : splitBlock? depth ls = some body) : ∀ l ∈ body, Q l := by
  fun_induction splitBlock? depth ls generalizing body with
  | case1 => cases hsplit
  | case2 depth l ls hopener ih | case5 depth l ls hopener hcloser ih =>
      obtain ⟨hl, hls⟩ := List.forall_mem_cons.1 h
      obtain ⟨more, hmore, rfl⟩ := Option.map_eq_some_iff.1 hsplit
      exact List.forall_mem_cons.2 ⟨hl, ih hls hmore⟩
  | case3 =>
      obtain rfl := Option.some.inj hsplit
      exact List.forall_mem_nil _
  | case4 l ls hopener hcloser d ih =>
      obtain ⟨hl, hls⟩ := List.forall_mem_cons.1 h
      obtain ⟨more, hmore, rfl⟩ := Option.map_eq_some_iff.1 hsplit
      exact List.forall_mem_cons.2 ⟨hl, ih hls hmore⟩

/-- Processing that keeps the two properties. -/
def Keeps (Q : Line → Prop) (D : Diagnostic → Prop) (inner : List Line → Expander → Expander) :
    Prop :=
  ∀ body e, (∀ l ∈ body, Q l) → e.Holds Q D → (inner body e).Holds Q D

section Blocks

variable
  (hput : ∀ var n l, Q l →
    Q (l.withText (replaceTextFrom (placeholder var) (Text.ofInt n) 0 l.text)))
  (hwarn : ∀ f l, Q l → D (Fault.diagnostic f l))

include hput hwarn

/-- The rounds of a loop. -/
theorem holds_rounds {inner : List Line → Expander → Expander} (hinner : Keeps Q D inner)
    (var : Text) {body : List Line} (hbody : ∀ l ∈ body, Q l) {opener : Line} (hopener : Q opener)
    (n : Nat) (value : Int) {e : Expander} (he : e.Holds Q D) :
    (rounds inner var body opener n value e).Holds Q D := by
  induction n generalizing value e with
  | zero => exact he
  | succ n ih =>
      rw [rounds]
      by_cases hroom : maxLines < e.size + body.length
      · simp only [if_pos hroom, if_true]
        exact ⟨he.out, (he.warn (hwarn .tooLong opener hopener)).warnings⟩
      · simp only [if_neg hroom]
        split
        · exact he
        · have hround : ∀ l ∈ instantiate var value body, Q l :=
            List.forall_mem_map.2 fun l hl => hput var value l (hbody l hl)
          exact ih _ (hinner _ _ hround he)

omit hput hwarn in
theorem holds_leaveLoop {e : Expander} (he : e.Holds Q D) (mark : Nat) :
    (e.leaveLoop mark).Holds Q D := by
  unfold Expander.leaveLoop
  dsimp only
  split
  · exact ⟨fun l hl => he.out l (List.mem_of_mem_drop hl), he.warnings⟩
  · exact ⟨he.out, he.warnings⟩

theorem holds_runBlock (debug : Bool) {inner : List Line → Expander → Expander}
    (hinner : Keeps Q D inner) (opener : Opener) {l : Line} (hl : Q l) {body : List Line}
    (hbody : ∀ l ∈ body, Q l) {e : Expander} (he : e.Holds Q D) :
    (runBlock debug inner opener l body e).Holds Q D := by
  cases opener with
  | loop var bounds =>
      change (unroll inner var bounds body l e).Holds Q D
      unfold unroll
      split
      · exact he.warn (hwarn _ l hl)
      · split
        · exact he
        · split
          · exact he.warn (hwarn _ l hl)
          · have hentered : e.enterLoop.Holds Q D := ⟨he.out, he.warnings⟩
            exact holds_leaveLoop (holds_rounds hput hwarn hinner var hbody hl _ _ hentered) _
  | cond c =>
      simp only [runBlock]
      split
      · exact hinner body e hbody he
      · exact he
      · exact he.warn (hwarn _ l hl)
  | debug =>
      simp only [runBlock]
      split
      · exact hinner body e hbody he
      · exact he
  | malformed directive => exact he

omit hput in
/-- **The lines of a stream, one after the other.** -/
theorem holds_walk {block : Opener → Line → List Line → Expander → Expander}
    (hblock : ∀ opener l body e, Q l → (∀ m ∈ body, Q m) → e.Holds Q D →
      (block opener l body e).Holds Q D)
    (skip : Nat) {ls : List Line} (h : ∀ l ∈ ls, Q l) {e : Expander} (he : e.Holds Q D) :
    (walk block skip ls e).Holds Q D := by
  fun_induction walk block skip ls e with
  | case1 => exact he
  | case2 skip l ls e ih => exact ih (List.forall_mem_cons.1 h).2 he
  | case3 => exact he
  | case4 l ls e hexhausted hparse ih =>
      obtain ⟨hl, hls⟩ := List.forall_mem_cons.1 h
      exact ih hls (he.push hl)
  | case5 l ls e hexhausted directive hparse ih =>
      obtain ⟨hl, hls⟩ := List.forall_mem_cons.1 h
      exact ih hls ((he.warn (hwarn _ l hl)).push hl)
  | case6 l ls e hexhausted opener hopener hparse hsplit ih =>
      obtain ⟨hl, hls⟩ := List.forall_mem_cons.1 h
      exact ih hls ((he.warn (hwarn _ l hl)).push hl)
  | case7 l ls e hexhausted opener hopener hparse body hsplit ih =>
      obtain ⟨hl, hls⟩ := List.forall_mem_cons.1 h
      exact ih hls (hblock opener l body e hl (forall_splitBlock? hls hsplit) he)

/-- **The processing of lines at any depth.** -/
theorem holds_process (debug : Bool) (depth : Nat) : Keeps Q D (process debug depth) := by
  induction depth with
  | zero =>
      intro ls e h he
      exact holds_walk hwarn (fun _ l _ _ hl _ he' => he'.warn (hwarn _ l hl)) 0 h he
  | succ depth ih =>
      intro ls e h he
      refine holds_walk hwarn (fun opener l body e' hl hbody he' => ?_) 0 h he
      exact holds_runBlock hput hwarn debug ih opener hl hbody he'

theorem holds_expandBlocks (debug : Bool) {ls : List Line} (h : ∀ l ∈ ls, Q l) :
    (expandBlocks debug ls).Holds Q D := by
  have hstart : Expander.start.Holds Q D := ⟨List.forall_mem_nil _, List.forall_mem_nil _⟩
  have hdone := holds_process hput hwarn debug maxDepth ls .start h hstart
  exact ⟨fun l hl => hdone.out l (List.mem_reverse.1 hl),
    fun d hd => hdone.warnings d (List.mem_reverse.1 hd)⟩

end Blocks

end Template

/-! ### Definitions -/

namespace Macro

/-- What is left of a stream, and what was found, has a property. -/
structure Extraction.Holds (Q : Line → Prop) (D : Diagnostic → Prop) (x : Extraction) : Prop where
  lines : ∀ l ∈ x.lines, Q l
  diagnostics : ∀ d ∈ x.diagnostics, D d

theorem Extraction.holds_text {ls : List Line} (h : ∀ l ∈ ls, Q l) : (text ls).Holds Q D :=
  ⟨h, List.forall_mem_nil _⟩

theorem Extraction.Holds.append {a b : Extraction} (ha : a.Holds Q D) (hb : b.Holds Q D) :
    (a ++ b).Holds Q D :=
  ⟨List.forall_mem_append.2 ⟨ha.lines, hb.lines⟩,
    List.forall_mem_append.2 ⟨ha.diagnostics, hb.diagnostics⟩⟩

/-- The texts of a body that stand beside the beginning of a definition. -/
def Opener.beside : Opener → List Text
  | block _ first => first.toList
  | inline _ body => [body]

/-- The lines of a definition that is being read have a property. -/
structure Open.Holds (Q : Line → Prop) (o : Open) : Prop where
  opener : Q o.opener
  body : ∀ l ∈ o.body, Q l

theorem Open.Holds.lines {o : Open} (h : o.Holds Q) : ∀ l ∈ o.opener :: o.body, Q l :=
  List.forall_mem_cons.2 ⟨h.opener, h.body⟩

section Definitions

variable (hbeside : ∀ l o, Q l → parseOpener? l.text = some o → ∀ t ∈ o.beside, Q (l.withText t))
  (hwarn : ∀ r l, Q l → D (Rejected.diagnostic r (Line.location l)))

include hwarn in
theorem Open.Holds.close {o : Open} (h : o.Holds Q) {closer : Option Line}
    (hcloser : ∀ l ∈ closer.toList, Q l) : (o.close closer).Holds Q D := by
  unfold Open.close
  split
  · exact Extraction.holds_text (List.forall_mem_nil _)
  · split
    · exact ⟨List.forall_mem_nil _, List.forall_mem_nil _⟩
    · exact ⟨List.forall_mem_append.2 ⟨h.lines, hcloser⟩,
        List.forall_mem_singleton.2 (hwarn _ _ h.opener)⟩

include hbeside hwarn in
/-- **Definitions are taken out, or put back.** -/
theorem holds_extractFrom {pending : Option Open} (hpending : ∀ o ∈ pending, o.Holds Q)
    {ls : List Line} (h : ∀ l ∈ ls, Q l) : (extractFrom pending ls).Holds Q D := by
  have hnone : ∀ o ∈ (none : Option Open), o.Holds Q := nofun
  fun_induction extractFrom pending ls with
  | case1 => exact Extraction.holds_text (List.forall_mem_nil _)
  | case2 o =>
      have ho := hpending o rfl
      exact ⟨ho.lines, List.forall_mem_singleton.2 (hwarn _ _ ho.opener)⟩
  | case3 o l ls hcloses ih =>
      obtain ⟨hl, hls⟩ := List.forall_mem_cons.1 h
      have hcloser : ∀ m ∈ (some l).toList, Q m := List.forall_mem_singleton.2 hl
      exact ((hpending o rfl).close hwarn hcloser).append (ih hnone hls)
  | case4 o l ls hcloses ih =>
      obtain ⟨hl, hls⟩ := List.forall_mem_cons.1 h
      have ho := hpending o rfl
      refine ih (fun o' ho' => ?_) hls
      obtain rfl := Option.some.inj ho'
      exact ⟨ho.opener, List.forall_mem_append.2 ⟨ho.body, List.forall_mem_singleton.2 hl⟩⟩
  | case5 l ls hparse ih =>
      obtain ⟨hl, hls⟩ := List.forall_mem_cons.1 h
      exact (Extraction.holds_text (List.forall_mem_singleton.2 hl)).append (ih hnone hls)
  | case6 l ls trigger first hparse ih =>
      obtain ⟨hl, hls⟩ := List.forall_mem_cons.1 h
      refine ih (fun o ho => ?_) hls
      obtain rfl := Option.some.inj ho
      exact ⟨hl, List.forall_mem_map.2 (hbeside l _ hl hparse)⟩
  | case7 l ls trigger body hparse ih =>
      obtain ⟨hl, hls⟩ := List.forall_mem_cons.1 h
      have hopen : (Open.mk l trigger [l.withText body]).Holds Q :=
        ⟨hl, List.forall_mem_singleton.2 (hbeside l _ hl hparse body List.mem_cons_self)⟩
      exact (hopen.close hwarn (List.forall_mem_nil _)).append (ih hnone hls)

include hbeside hwarn in
theorem holds_extract {ls : List Line} (h : ∀ l ∈ ls, Q l) : (extract ls).Holds Q D := by
  refine holds_extractFrom hbeside hwarn (fun o ho => ?_) h
  cases ho

end Definitions

end Macro

/-! ### Comments and continuation lines -/

theorem forall_stripComments (hstrip : ∀ mode l, Q l → Q (l.withText (stripLine mode l.text).1))
    {ls : List Line} (h : ∀ l ∈ ls, Q l) : ∀ m ∈ stripComments ls, Q m := by
  intro m hm
  obtain ⟨before, l, after, rfl, hleft⟩ := mem_stripFrom_iff.1 hm
  have hl : Q l := h l (by simp)
  unfold strippedLine? at hleft
  split at hleft
  · cases hleft
  · split at hleft
    · obtain rfl := Option.some.inj hleft
      exact hl
    · split at hleft
      · cases hleft
      · obtain rfl := Option.some.inj hleft
        exact hstrip _ l hl

theorem forall_joinFrom
    (hjoin : ∀ p l, Q p → Q l → Q (p.withText (p.text ++ Text.trimStart l.text)))
    (htrim : ∀ l, Q l → Q (l.withText (Text.trimStart l.text))) {current : Option Line}
    {ls : List Line} (hcurrent : ∀ l ∈ current.toList, Q l) (h : ∀ l ∈ ls, Q l) :
    ∀ m ∈ joinFrom current ls, Q m := by
  fun_induction joinFrom current ls with
  | case1 => exact hcurrent
  | case2 current l ls hraw ih =>
      obtain ⟨hl, hls⟩ := List.forall_mem_cons.1 h
      exact List.forall_mem_append.2
        ⟨hcurrent, List.forall_mem_cons.2 ⟨hl, ih (List.forall_mem_nil _) hls⟩⟩
  | case3 l ls hraw hindented p ih =>
      obtain ⟨hl, hls⟩ := List.forall_mem_cons.1 h
      have hp : Q p := List.forall_mem_singleton.1 hcurrent
      exact ih (List.forall_mem_singleton.2 (hjoin p l hp hl)) hls
  | case4 l ls hraw hindented ih =>
      obtain ⟨hl, hls⟩ := List.forall_mem_cons.1 h
      exact ih (List.forall_mem_singleton.2 (htrim l hl)) hls
  | case5 current l ls hraw hindented ih =>
      obtain ⟨hl, hls⟩ := List.forall_mem_cons.1 h
      exact List.forall_mem_append.2 ⟨hcurrent, ih (List.forall_mem_singleton.2 hl) hls⟩

end Softcode
