import TypedImp.Proofs.Grammar.Yields
import TypedImp.Proofs.Places.Node

/-!
# The grammar gives right spans

`Parser.SpansAt ts p cursor P` is the contract of a parser on the tokens `ts` of a text: where it
succeeds it stops at one of these tokens, and `P` holds of its value and of the offset of that
token; where it fails, it does so at one of them.  For the rules of the grammar, `P` says that the
nodes that were built are a row between the two tokens (`Rules.Spanned`).

Contracts are put together along `>>=` (`SpansAt.bind`).  A rule passes tokens and nodes one after
the other, each a row of its own, and at its end the row of what is to become of them is that of a
single node, by the lemma of `Tree.Node.Row` that tells by what the rule begins and ends.
-/

namespace TypedImp.Grammar

open TypedImp.Grammar.Parser
open TypedImp.Tree (Node)

/-! ### Tokens in a text -/

/-- **Tokens that stand in a text**, one behind the other, up to the end of the input. -/
structure Standing (cs : List Char) (ts : List Token) : Prop where
  sits : ∀ t ∈ ts, t.kind ≠ .eof → t.span.Sits cs
  ordered : ts.Pairwise fun t t' => t.span.stop ≤ t'.span.start.offset
  ended : Ended (ts.map Token.kind)

theorem standing_of_laid {cs : List Char} {ts : List Token} (h : Token.Laid [] cs ts) :
    Standing cs ts := by
  obtain ⟨front, eof, hts, hfront, heof, hstart, -⟩ := h.last_eof
  have hordered := h.ordered.2
  refine ⟨fun t ht hk => ⟨(h.alone t ht hk).1, ?_, h.position t ht⟩, hordered, ?_⟩
  · have hmem : t ∈ front := by
      rw [hts] at ht
      rcases List.mem_append.mp ht with ht | ht
      · exact ht
      · rw [List.mem_singleton.mp ht] at hk
        exact absurd heof hk
    rw [hts] at hordered
    have hle := (List.pairwise_append.mp hordered).2.2 t hmem eof (List.mem_singleton_self eof)
    rwa [hstart] at hle
  · refine ⟨front.map Token.kind, ?_⟩
    rw [hts, List.map_append, List.map_cons, heof]
    rfl

def Cursor.offset (cursor : Cursor) : Nat := cursor.current.span.start.offset

/-- The tokens from a place on are the last ones of the given tokens. -/
def Cursor.On (ts : List Token) (cursor : Cursor) : Prop := cursor.tokens <:+ ts

variable {cs : List Char} {ts : List Token}

theorem Cursor.On.current_mem {cursor : Cursor} (hc : cursor.On ts) : cursor.current ∈ ts :=
  hc.subset List.mem_cons_self

/-- Passing a token that does not end the input. -/
theorem Cursor.On.step {cursor : Cursor} (hts : Standing cs ts) (hc : cursor.On ts)
    (hk : cursor.current.kind ≠ .eof) :
    cursor.step.On ts ∧ Span.Row cs cursor.offset cursor.step.offset [cursor.current.span] := by
  obtain ⟨front, hfront⟩ := hc
  have hended : Ended (front.map Token.kind ++ cursor.kinds) := by
    rw [← cursor.map_kind_tokens, ← List.map_append, hfront]
    exact hts.ended
  have hstep := (Cursor.tokens_step (hended.of_append (by simp [Cursor.kinds])) hk).1
  have hc' : cursor.tokens <:+ ts := ⟨front, hfront⟩
  have hpairs := hts.ordered.sublist hc'.sublist
  rw [hstep] at hpairs hc'
  refine ⟨(List.suffix_cons _ _).trans hc', .single (Nat.le_refl _) ?_ ?_⟩
  · exact hts.sits _ (hc'.subset List.mem_cons_self) hk
  · exact (List.pairwise_cons.mp hpairs).1 cursor.step.current List.mem_cons_self

/-! ### Contracts -/

namespace Parser

variable {α β : Type}

/-- **The contract of a parser at a place**: it stops at one of the tokens, with a value that `P`
holds of, or fails at one of them. -/
def SpansAt (ts : List Token) (p : Parser α) (cursor : Cursor) (P : α → Nat → Prop) : Prop :=
  (∀ value behind, p cursor = .done value behind → behind.On ts ∧ P value behind.offset) ∧
    ∀ fault, p cursor = .failed fault → ∃ t ∈ ts, fault.span = t.span

variable {p : Parser α} {f : α → Parser β} {cursor : Cursor} {P : α → Nat → Prop}
  {Q : β → Nat → Prop}

theorem SpansAt.bind (hp : SpansAt ts p cursor P)
    (hf : ∀ value behind, behind.On ts → P value behind.offset → SpansAt ts (f value) behind Q) :
    SpansAt ts (p >>= f) cursor Q := by
  rw [SpansAt, bind_apply]
  cases hpc : p cursor with
  | exhausted => exact ⟨by simp, by simp⟩
  | failed fault =>
    refine ⟨by simp, fun fault' h => ?_⟩
    cases h
    exact hp.2 fault hpc
  | done value behind =>
    obtain ⟨hbehind, hvalue⟩ := hp.1 value behind hpc
    exact hf value behind hbehind hvalue

theorem spansAt_done {value : α} {behind : Cursor} (hp : p cursor = .done value behind)
    (hbehind : behind.On ts) (h : P value behind.offset) : SpansAt ts p cursor P := by
  refine ⟨fun v b hv => ?_, fun fault hfault => ?_⟩
  · rw [hp] at hv
    cases hv
    exact ⟨hbehind, h⟩
  · rw [hp] at hfault
    cases hfault

theorem spansAt_pure {value : α} (hc : cursor.On ts) (h : P value cursor.offset) :
    SpansAt ts (pure value) cursor P :=
  spansAt_done rfl hc h

theorem spansAt_exhausted : SpansAt ts exhausted cursor P := by
  refine ⟨fun _ _ h => ?_, fun _ h => ?_⟩
  · cases h
  · cases h

/-- A parser that fails where it stands. -/
theorem spansAt_fails {cause : Fault} (hp : p cursor = .failed ⟨cause, cursor.current.span⟩)
    (hc : cursor.On ts) : SpansAt ts p cursor P := by
  refine ⟨fun _ _ h => ?_, fun fault h => ?_⟩
  · rw [hp] at h
    cases h
  · rw [hp] at h
    cases h
    exact ⟨cursor.current, hc.current_mem, rfl⟩

theorem spansAt_unexpected {wanted : Expected} (hc : cursor.On ts) :
    SpansAt ts (unexpected wanted) cursor P :=
  spansAt_fails rfl hc

theorem spansAt_peek_bind {f : Token.Kind → Parser β}
    (hf : SpansAt ts (f cursor.current.kind) cursor Q) : SpansAt ts (peek >>= f) cursor Q :=
  hf

/-! ### Tokens -/

section

variable (hts : Standing cs ts) (hc : cursor.On ts)

include hts hc

theorem spansAt_advance (hk : cursor.current.kind ≠ .eof) :
    SpansAt ts advance cursor fun span hi => Span.Row cs cursor.offset hi [span] := by
  obtain ⟨hstep, hrow⟩ := hc.step hts hk
  exact spansAt_done rfl hstep hrow

theorem spansAt_expect (s : Symbol) :
    SpansAt ts (expect s) cursor fun span hi => Span.Row cs cursor.offset hi [span] := by
  by_cases hs : cursor.current.kind.isSymbol s = true
  · have hk : cursor.current.kind ≠ .eof := by
      rw [Token.Kind.isSymbol_iff.mp hs]
      simp
    obtain ⟨hstep, hrow⟩ := hc.step hts hk
    exact spansAt_done (by rw [expect, if_pos hs]) hstep hrow
  · exact spansAt_fails (by rw [expect, if_neg hs]; rfl) hc

/-- What is accepted is passed. -/
theorem spansAt_accept (s : Symbol) :
    SpansAt ts (accept s) cursor fun _ hi => Span.Row cs cursor.offset hi [] := by
  by_cases hs : cursor.current.kind.isSymbol s = true
  · have hk : cursor.current.kind ≠ .eof := by
      rw [Token.Kind.isSymbol_iff.mp hs]
      simp
    obtain ⟨hstep, hrow⟩ := hc.step hts hk
    exact spansAt_done (by rw [accept, if_pos hs]) hstep (.nil hrow.le)
  · exact spansAt_done (by rw [accept, if_neg hs]) hc (.nil (Nat.le_refl _))

theorem spansAt_identifier :
    SpansAt ts identifier cursor fun name hi => Node.Row cs cursor.offset hi [.name name] := by
  cases hk : cursor.current.kind with
  | name text =>
    obtain ⟨hstep, hrow⟩ := hc.step hts (by rw [hk]; simp)
    exact spansAt_done (by rw [identifier, hk]) hstep
      (Node.Row.leaf (n := .name ⟨text, cursor.current.span⟩) hrow rfl)
  | _ => exact spansAt_fails (by rw [identifier, hk]; rfl) hc

/-! ### Lists -/

omit hts in
theorem SpansAt.attempt (hp : SpansAt ts p cursor P) :
    SpansAt ts (attempt p) cursor fun found hi =>
      match found with
      | some value => P value hi
      | none => cursor.offset ≤ hi := by
  cases hpc : p cursor with
  | exhausted =>
    have hattempt : Parser.attempt p cursor = .exhausted := by rw [Parser.attempt, hpc]
    exact ⟨by simp [hattempt], by simp [hattempt]⟩
  | failed fault =>
    have hattempt : Parser.attempt p cursor = .done none cursor := by rw [Parser.attempt, hpc]
    exact spansAt_done hattempt hc (Nat.le_refl cursor.offset)
  | done value behind =>
    obtain ⟨hbehind, hvalue⟩ := hp.1 value behind hpc
    exact spansAt_done (by rw [Parser.attempt, hpc]) hbehind hvalue

omit hts in
/-- Items one behind the other. -/
theorem spansAt_itemsUntil {ends : Parser Bool} (node : α → Node)
    (hends : ∀ place, ∃ ended, ends place = .done ended place)
    (hitem : ∀ place : Cursor, place.On ts →
      SpansAt ts p place fun value hi => Node.Row cs place.offset hi [node value])
    (steps : Nat) :
    SpansAt ts (itemsUntil ends p steps) cursor fun values hi =>
      Node.Row cs cursor.offset hi (values.map node) := by
  induction steps generalizing cursor with
  | zero => exact spansAt_exhausted
  | succ steps ih =>
    obtain ⟨ended, hended⟩ := hends cursor
    refine SpansAt.bind (P := fun _ hi => hi = cursor.offset) (spansAt_done hended hc rfl) ?_
    intro ended behind hbehind hoffset
    cases ended with
    | true => exact spansAt_pure hbehind (.nil (Nat.le_of_eq hoffset.symm))
    | false =>
      refine (hitem behind hbehind).bind fun first place hplace hfirst => ?_
      refine (ih hplace).bind fun others last hlast hothers => spansAt_pure hlast ?_
      rw [hoffset] at hfirst
      exact hfirst.append hothers

/-- Items with commas between them. -/
theorem spansAt_commaItems (closing : Symbol) (node : α → Node)
    (hitem : ∀ place : Cursor, place.On ts →
      SpansAt ts p place fun value hi => Node.Row cs place.offset hi [node value])
    (steps : Nat) :
    SpansAt ts (commaItems closing p steps) cursor fun values hi =>
      Node.Row cs cursor.offset hi (values.map node) := by
  induction steps generalizing cursor with
  | zero => exact spansAt_exhausted
  | succ steps ih =>
    refine SpansAt.bind (P := fun _ hi => hi = cursor.offset) (spansAt_done rfl hc rfl) ?_
    intro ended behind hbehind hoffset
    cases ended with
    | true => exact spansAt_pure hbehind (.nil (Nat.le_of_eq hoffset.symm))
    | false =>
      refine (hitem behind hbehind).bind fun first place hplace hfirst => ?_
      rw [hoffset] at hfirst
      refine (spansAt_accept hts hplace .comma).bind fun more place' hplace' hcomma => ?_
      cases more with
      | false => exact spansAt_pure hplace' (hfirst.skip hcomma)
      | true =>
        refine (ih hplace').bind fun others last hlast hothers => spansAt_pure hlast ?_
        exact (hfirst.skip hcomma).append hothers

end

end Parser

/-! ### The rules -/

namespace Rules

/-- **The parsers below a rule build rows.** -/
structure Spanned (cs : List Char) (ts : List Token) (r : Rules) : Prop where
  type : ∀ cursor : Cursor, cursor.On ts →
    SpansAt ts r.type cursor fun t hi => Node.Row cs cursor.offset hi [.type t]
  expr : ∀ (least : Nat) (cursor : Cursor), cursor.On ts →
    SpansAt ts (r.expr least) cursor fun e hi => Node.Row cs cursor.offset hi [.expr e]
  stmt : ∀ cursor : Cursor, cursor.On ts →
    SpansAt ts r.stmt cursor fun s hi => Node.Row cs cursor.offset hi [.stmt s]

variable {r : Rules} {cursor : Cursor} (hts : Standing cs ts) (h : r.Spanned cs ts)
  (hc : cursor.On ts)

include hts h hc

/-! ### Types -/

theorem Spanned.typeRule :
    SpansAt ts r.typeRule cursor fun t hi => Node.Row cs cursor.offset hi [.type t] := by
  refine spansAt_peek_bind ?_
  split
  · refine (spansAt_identifier hts hc).bind fun name last hlast hname => spansAt_pure hlast ?_
    exact hname.of_only rfl rfl
  · rename_i hk
    refine (spansAt_advance hts hc (by rw [hk]; simp)).bind fun start c₁ h₁ hstart => ?_
    refine (h.type c₁ h₁).bind fun element c₂ h₂ helement => ?_
    refine (spansAt_expect hts h₂ _).bind fun stop c₃ h₃ hstop => spansAt_pure h₃ ?_
    exact Node.Row.of_tokens hstart helement hstop rfl
  · rename_i hk
    refine (spansAt_advance hts hc (by rw [hk]; simp)).bind fun start c₁ h₁ hstart => ?_
    refine (spansAt_commaItems hts h₁ _ Node.type h.type _).bind fun params c₂ h₂ hparams => ?_
    refine (spansAt_expect hts h₂ _).bind fun _ c₃ h₃ hclose => ?_
    refine (spansAt_expect hts h₃ _).bind fun _ c₄ h₄ harrow => ?_
    refine (h.type c₄ h₄).bind fun result c₅ h₅ hresult => spansAt_pure h₅ ?_
    exact Node.Row.of_last hstart (((hparams.skip hclose).skip harrow).append hresult)
      List.getLast?_concat rfl
  · exact spansAt_unexpected hc

theorem Spanned.annotated :
    SpansAt ts r.annotated cursor fun a hi => Node.Row cs cursor.offset hi [.annotated a] := by
  refine (spansAt_identifier hts hc).bind fun name c₁ h₁ hname => ?_
  refine (spansAt_expect hts h₁ _).bind fun _ c₂ h₂ hcolon => ?_
  refine (h.type c₂ h₂).bind fun type c₃ h₃ htype => spansAt_pure h₃ ?_
  exact Node.Row.of_ends ((hname.skip hcolon).append htype) rfl rfl rfl

theorem Spanned.colonType :
    SpansAt ts (Rules.colonType r) cursor fun type hi =>
      Node.Row cs cursor.offset hi (type.toList.map .type) := by
  refine (spansAt_accept hts hc _).bind fun colon c₁ h₁ hcolon => ?_
  cases colon with
  | true =>
    refine (h.type c₁ h₁).bind fun type c₂ h₂ htype => spansAt_pure h₂ ?_
    exact htype.behind hcolon
  | false => exact spansAt_pure h₁ (.nil hcolon.le)

/-! ### Expressions -/

theorem Spanned.emptyArray :
    SpansAt ts r.emptyArray cursor fun found hi =>
      ∃ mid, Node.Row cs cursor.offset mid [.type found.1] ∧ Span.Row cs mid hi [found.2] := by
  refine (h.type cursor hc).bind fun element c₁ h₁ helement => ?_
  refine (spansAt_expect hts h₁ _).bind fun _ c₂ h₂ hclose => ?_
  refine (spansAt_expect hts h₂ _).bind fun _ c₃ h₃ hopen => ?_
  refine (spansAt_expect hts h₃ _).bind fun stop c₄ h₄ hstop => spansAt_pure h₄ ?_
  exact ⟨c₃.offset, (helement.skip hclose).skip hopen, hstop⟩

theorem Spanned.array (hk : cursor.current.kind ≠ .eof) :
    SpansAt ts r.array cursor fun e hi => Node.Row cs cursor.offset hi [.expr e] := by
  refine (spansAt_advance hts hc hk).bind fun start c₁ h₁ hstart => ?_
  refine (SpansAt.attempt h₁ (h.emptyArray hts h₁)).bind fun found c₂ h₂ hfound => ?_
  cases found with
  | some found =>
    obtain ⟨mid, helement, hstop⟩ := hfound
    exact spansAt_pure h₂ (Node.Row.of_tokens hstart helement hstop rfl)
  | none =>
    refine (spansAt_commaItems hts h₂ _ Node.expr (h.expr 0) _).bind
      fun elements c₃ h₃ helements => ?_
    refine (spansAt_expect hts h₃ _).bind fun stop c₄ h₄ hstop => spansAt_pure h₄ ?_
    exact Node.Row.of_tokens hstart (helements.widen hfound (Nat.le_refl _)) hstop rfl

theorem Spanned.primary :
    SpansAt ts r.primary cursor fun e hi => Node.Row cs cursor.offset hi [.expr e] := by
  have literal : ∀ (hk : cursor.current.kind ≠ .eof) (e : Span → Tree.Expr),
      (∀ span, (e span).span = span) → (∀ span, (e span).children = []) →
        SpansAt ts (do
          let span ← advance
          pure (e span)) cursor fun e hi => Node.Row cs cursor.offset hi [.expr e] := by
    intro hk e hspan hchildren
    refine (spansAt_advance hts hc hk).bind fun span c₁ h₁ hrow => spansAt_pure h₁ ?_
    refine Node.Row.leaf (n := .expr (e span)) ?_ (hchildren span)
    show Span.Row cs _ _ [(e span).span]
    rwa [hspan]
  refine spansAt_peek_bind ?_
  split
  · rename_i hk
    exact literal (by rw [hk]; simp) _ (fun _ => rfl) fun _ => rfl
  · rename_i hk
    exact literal (by rw [hk]; simp) _ (fun _ => rfl) fun _ => rfl
  · rename_i hk
    exact literal (by rw [hk]; simp) _ (fun _ => rfl) fun _ => rfl
  · rename_i hk
    exact literal (by rw [hk]; simp) _ (fun _ => rfl) fun _ => rfl
  · refine (spansAt_identifier hts hc).bind fun name c₁ h₁ hname => spansAt_pure h₁ ?_
    exact hname.of_only rfl rfl
  · rename_i hk
    refine (spansAt_advance hts hc (by rw [hk]; simp)).bind fun _ c₁ h₁ hopen => ?_
    refine (h.expr 0 c₁ h₁).bind fun inner c₂ h₂ hinner => ?_
    refine (spansAt_expect hts h₂ _).bind fun _ c₃ h₃ hclose => spansAt_pure h₃ ?_
    -- Parentheses are no part of the span of what is between them.
    exact (hinner.behind hopen).skip hclose
  · rename_i hk
    exact h.array hts hc (by rw [hk]; simp)
  · exact spansAt_unexpected hc

/-- What stands behind an expression makes it the first part of a longer one. -/
theorem Spanned.suffixes (steps : Nat) {lo : Nat} {e : Tree.Expr}
    (he : Node.Row cs lo cursor.offset [.expr e]) :
    SpansAt ts (r.suffixes steps e) cursor fun e hi => Node.Row cs lo hi [.expr e] := by
  induction steps generalizing cursor e with
  | zero => exact spansAt_exhausted
  | succ steps ih =>
    refine spansAt_peek_bind ?_
    split
    · rename_i hk
      refine (spansAt_advance hts hc (by rw [hk]; simp)).bind fun _ c₁ h₁ hopen => ?_
      refine (spansAt_commaItems hts h₁ _ Node.expr (h.expr 0) _).bind fun args c₂ h₂ hargs => ?_
      refine (spansAt_expect hts h₂ _).bind fun stop c₃ h₃ hstop => ?_
      exact ih h₃ (Node.Row.of_first ((he.skip hopen).append hargs) rfl hstop rfl)
    · rename_i hk
      refine (spansAt_advance hts hc (by rw [hk]; simp)).bind fun _ c₁ h₁ hdot => ?_
      refine (spansAt_identifier hts h₁).bind fun field c₂ h₂ hfield => ?_
      exact ih h₂ (Node.Row.of_ends ((he.skip hdot).append hfield) rfl rfl rfl)
    · rename_i hk
      refine (spansAt_advance hts hc (by rw [hk]; simp)).bind fun _ c₁ h₁ hopen => ?_
      refine (h.expr 0 c₁ h₁).bind fun index c₂ h₂ hindex => ?_
      refine (spansAt_expect hts h₂ _).bind fun stop c₃ h₃ hstop => ?_
      exact ih h₃ (Node.Row.of_first ((he.skip hopen).append hindex) rfl hstop rfl)
    · exact spansAt_pure hc he

theorem Spanned.operand :
    SpansAt ts r.operand cursor fun e hi => Node.Row cs cursor.offset hi [.expr e] := by
  refine spansAt_peek_bind ?_
  split
  · rename_i hop
    have hk : cursor.current.kind ≠ .eof := by
      intro hk
      rw [hk] at hop
      cases hop
    refine (spansAt_advance hts hc hk).bind fun start c₁ h₁ hstart => ?_
    refine (h.expr _ c₁ h₁).bind fun operand c₂ h₂ hoperand => spansAt_pure h₂ ?_
    exact Node.Row.of_last hstart hoperand rfl rfl
  · refine (h.primary hts hc).bind fun first c₁ h₁ hfirst => ?_
    exact h.suffixes hts h₁ _ hfirst

theorem Spanned.operators (least steps : Nat) {lo : Nat} {left : Tree.Expr}
    (hleft : Node.Row cs lo cursor.offset [.expr left]) :
    SpansAt ts (r.operators least steps left) cursor fun e hi => Node.Row cs lo hi [.expr e] := by
  induction steps generalizing cursor left with
  | zero => exact spansAt_exhausted
  | succ steps ih =>
    refine spansAt_peek_bind ?_
    split
    · rename_i hop
      have hk : cursor.current.kind ≠ .eof := by
        intro hk
        rw [hk] at hop
        cases hop
      split
      · exact spansAt_pure hc hleft
      · refine (spansAt_advance hts hc hk).bind fun _ c₁ h₁ hsign => ?_
        refine (h.expr _ c₁ h₁).bind fun right c₂ h₂ hright => ?_
        exact ih h₂ (Node.Row.of_ends ((hleft.skip hsign).append hright) rfl rfl rfl)
    · exact spansAt_pure hc hleft

theorem Spanned.exprRule (least : Nat) :
    SpansAt ts (r.exprRule least) cursor fun e hi => Node.Row cs cursor.offset hi [.expr e] := by
  refine (h.operand hts hc).bind fun first c₁ h₁ hfirst => ?_
  exact h.operators hts h₁ least _ hfirst

/-! ### Statements -/

theorem Spanned.block :
    SpansAt ts r.block cursor fun b hi => Node.Row cs cursor.offset hi [.block b] := by
  refine (spansAt_expect hts hc _).bind fun start c₁ h₁ hstart => ?_
  refine (spansAt_itemsUntil h₁ Node.stmt (fun _ => ⟨_, rfl⟩) h.stmt _).bind
    fun stmts c₂ h₂ hstmts => ?_
  refine (spansAt_expect hts h₂ _).bind fun stop c₃ h₃ hstop => spansAt_pure h₃ ?_
  exact Node.Row.of_tokens hstart hstmts hstop rfl

/-- What is written between the name of a variable and the end of its declaration. -/
theorem Spanned.variableRule (hk : cursor.current.kind ≠ .eof) (readOnly : Bool) :
    SpansAt ts (r.variableRule readOnly) cursor fun s hi =>
      Node.Row cs cursor.offset hi [.stmt s] := by
  refine (spansAt_advance hts hc hk).bind fun start c₁ h₁ hstart => ?_
  refine (spansAt_identifier hts h₁).bind fun name c₂ h₂ hname => ?_
  refine (h.colonType hts h₂).bind fun type c₃ h₃ htype => ?_
  refine (spansAt_accept hts h₃ _).bind fun assigned c₄ h₄ hassign => ?_
  have behind : ∀ (initializer : Option Tree.Expr) (c₅ : Cursor), c₅.On ts →
      Node.Row cs c₄.offset c₅.offset (initializer.toList.map .expr) →
        SpansAt ts (do
          let stop ← expect .semicolon
          pure (.declareVariable name readOnly type initializer (start.merge stop))) c₅
          fun s hi => Node.Row cs cursor.offset hi [.stmt s] := by
    intro initializer c₅ h₅ hinitializer
    refine (spansAt_expect hts h₅ _).bind fun stop c₆ h₆ hstop => spansAt_pure h₆ ?_
    exact Node.Row.of_tokens hstart
      (hname.append ((htype.skip hassign).append hinitializer)) hstop rfl
  cases assigned with
  | true =>
    refine SpansAt.bind (P := fun initializer hi =>
      Node.Row cs c₄.offset hi (initializer.toList.map .expr)) ?_ behind
    exact (h.expr 0 c₄ h₄).bind fun e c₅ h₅ he => spansAt_pure h₅ he
  | false => exact behind none c₄ h₄ (.nil (Nat.le_refl _))

theorem Spanned.functionRule (hk : cursor.current.kind ≠ .eof) :
    SpansAt ts r.functionRule cursor fun s hi => Node.Row cs cursor.offset hi [.stmt s] := by
  refine (spansAt_advance hts hc hk).bind fun start c₁ h₁ hstart => ?_
  refine (spansAt_identifier hts h₁).bind fun name c₂ h₂ hname => ?_
  refine (spansAt_expect hts h₂ _).bind fun _ c₃ h₃ hopen => ?_
  refine (spansAt_commaItems hts h₃ _ Node.annotated
    (fun place hplace => h.annotated hts hplace) _).bind fun params c₄ h₄ hparams => ?_
  refine (spansAt_expect hts h₄ _).bind fun _ c₅ h₅ hclose => ?_
  refine (h.colonType hts h₅).bind fun result c₆ h₆ hresult => ?_
  refine (h.block hts h₆).bind fun body c₇ h₇ hbody => spansAt_pure h₇ ?_
  refine Node.Row.of_last (l := .block body) hstart ((hname.skip hopen).append
    ((hparams.skip hclose).append (hresult.append hbody))) ?_ rfl
  simp [Node.children, Tree.Stmt.children, List.getLast?_cons]

theorem Spanned.field :
    SpansAt ts r.field cursor fun a hi => Node.Row cs cursor.offset hi [.annotated a] := by
  refine (h.annotated hts hc).bind fun field c₁ h₁ hfield => ?_
  refine (spansAt_accept hts h₁ _).bind fun comma c₂ h₂ hcomma => ?_
  cases comma with
  | true => exact spansAt_pure h₂ (hfield.skip hcomma)
  | false =>
    refine (spansAt_accept hts h₂ _).bind fun _ c₃ h₃ hsemicolon => spansAt_pure h₃ ?_
    exact (hfield.skip hcomma).skip hsemicolon

theorem Spanned.structRule (hk : cursor.current.kind ≠ .eof) (isClass : Bool) :
    SpansAt ts (r.structRule isClass) cursor fun s hi =>
      Node.Row cs cursor.offset hi [.stmt s] := by
  refine (spansAt_advance hts hc hk).bind fun start c₁ h₁ hstart => ?_
  refine (spansAt_identifier hts h₁).bind fun name c₂ h₂ hname => ?_
  refine (spansAt_expect hts h₂ _).bind fun _ c₃ h₃ hopen => ?_
  refine (spansAt_itemsUntil h₃ Node.annotated (fun _ => ⟨_, rfl⟩)
    (fun place hplace => h.field hts hplace) _).bind fun fields c₄ h₄ hfields => ?_
  refine (spansAt_expect hts h₄ _).bind fun stop c₅ h₅ hstop => spansAt_pure h₅ ?_
  exact Node.Row.of_tokens hstart ((hname.skip hopen).append hfields) hstop rfl

theorem Spanned.ifRule (hk : cursor.current.kind ≠ .eof) :
    SpansAt ts r.ifRule cursor fun s hi => Node.Row cs cursor.offset hi [.stmt s] := by
  refine (spansAt_advance hts hc hk).bind fun start c₁ h₁ hstart => ?_
  refine (h.expr 0 c₁ h₁).bind fun test c₂ h₂ htest => ?_
  refine (h.block hts h₂).bind fun consequent c₃ h₃ hconsequent => ?_
  refine (spansAt_accept hts h₃ _).bind fun more c₄ h₄ helse => ?_
  have hfront := htest.append (hconsequent.skip helse)
  cases more with
  | true =>
    refine spansAt_peek_bind ?_
    split
    · refine (h.stmt c₄ h₄).bind fun alternate c₅ h₅ halternate => spansAt_pure h₅ ?_
      exact Node.Row.of_last hstart (hfront.append halternate) rfl rfl
    · refine (h.block hts h₄).bind fun alternate c₅ h₅ halternate => spansAt_pure h₅ ?_
      exact Node.Row.of_last hstart (hfront.append halternate) rfl rfl
  | false => exact spansAt_pure h₄ (Node.Row.of_last hstart hfront rfl rfl)

theorem Spanned.whileRule (hk : cursor.current.kind ≠ .eof) :
    SpansAt ts r.whileRule cursor fun s hi => Node.Row cs cursor.offset hi [.stmt s] := by
  refine (spansAt_advance hts hc hk).bind fun start c₁ h₁ hstart => ?_
  refine (h.expr 0 c₁ h₁).bind fun test c₂ h₂ htest => ?_
  refine (h.block hts h₂).bind fun body c₃ h₃ hbody => spansAt_pure h₃ ?_
  exact Node.Row.of_last hstart (htest.append hbody) rfl rfl

theorem Spanned.forRule (hk : cursor.current.kind ≠ .eof) :
    SpansAt ts r.forRule cursor fun s hi => Node.Row cs cursor.offset hi [.stmt s] := by
  refine (spansAt_advance hts hc hk).bind fun start c₁ h₁ hstart => ?_
  refine (spansAt_identifier hts h₁).bind fun iterator c₂ h₂ hiterator => ?_
  refine (spansAt_expect hts h₂ _).bind fun _ c₃ h₃ hin => ?_
  refine (h.expr 0 c₃ h₃).bind fun first c₄ h₄ hfirst => ?_
  have hfront := (hiterator.skip hin).append hfirst
  refine spansAt_peek_bind ?_
  split
  · rename_i hop
    have hk : c₄.current.kind ≠ .eof := by
      intro hk
      rw [hk] at hop
      cases hop
    refine (spansAt_advance hts h₄ hk).bind fun _ c₅ h₅ hsign => ?_
    refine (h.expr 0 c₅ h₅).bind fun high c₆ h₆ hhigh => ?_
    refine (h.block hts h₆).bind fun body c₇ h₇ hbody => spansAt_pure h₇ ?_
    exact Node.Row.of_last hstart (((hfront.skip hsign).append hhigh).append hbody) rfl rfl
  · refine (h.block hts h₄).bind fun body c₅ h₅ hbody => spansAt_pure h₅ ?_
    exact Node.Row.of_last hstart (hfront.append hbody) rfl rfl

theorem Spanned.tryRule (hk : cursor.current.kind ≠ .eof) :
    SpansAt ts r.tryRule cursor fun s hi => Node.Row cs cursor.offset hi [.stmt s] := by
  refine (spansAt_advance hts hc hk).bind fun start c₁ h₁ hstart => ?_
  refine (h.block hts h₁).bind fun body c₂ h₂ hbody => ?_
  refine (spansAt_expect hts h₂ _).bind fun _ c₃ h₃ hcatch => ?_
  have behind : ∀ (error : Option Tree.Name) (c₄ : Cursor), c₄.On ts →
      Node.Row cs c₃.offset c₄.offset (error.toList.map .name) →
        SpansAt ts (do
          let handler ← r.block
          pure (.tryCatch body error handler (start.merge handler.span))) c₄
          fun s hi => Node.Row cs cursor.offset hi [.stmt s] := by
    intro error c₄ h₄ herror
    refine (h.block hts h₄).bind fun handler c₅ h₅ hhandler => spansAt_pure h₅ ?_
    refine Node.Row.of_last (l := .block handler) hstart
      ((hbody.skip hcatch).append (herror.append hhandler)) ?_ rfl
    simp [Node.children, Tree.Stmt.children, List.getLast?_cons]
  refine spansAt_peek_bind ?_
  dsimp only
  split
  · refine SpansAt.bind (P := fun error hi =>
      Node.Row cs c₃.offset hi (error.toList.map .name)) ?_ behind
    exact (spansAt_identifier hts h₃).bind fun name c₄ h₄ hname => spansAt_pure h₄ hname
  · exact behind none c₃ h₃ (.nil (Nat.le_refl _))

theorem Spanned.returnRule (hk : cursor.current.kind ≠ .eof) :
    SpansAt ts r.returnRule cursor fun s hi => Node.Row cs cursor.offset hi [.stmt s] := by
  refine (spansAt_advance hts hc hk).bind fun start c₁ h₁ hstart => ?_
  have behind : ∀ (value : Option Tree.Expr) (c₂ : Cursor), c₂.On ts →
      Node.Row cs c₁.offset c₂.offset (value.toList.map .expr) →
        SpansAt ts (do
          let stop ← expect .semicolon
          pure (.ret value (start.merge stop))) c₂
          fun s hi => Node.Row cs cursor.offset hi [.stmt s] := by
    intro value c₂ h₂ hvalue
    refine (spansAt_expect hts h₂ _).bind fun stop c₃ h₃ hstop => spansAt_pure h₃ ?_
    exact Node.Row.of_tokens hstart hvalue hstop rfl
  refine spansAt_peek_bind ?_
  dsimp only
  split
  · exact behind none c₁ h₁ (.nil (Nat.le_refl _))
  · refine SpansAt.bind (P := fun value hi =>
      Node.Row cs c₁.offset hi (value.toList.map .expr)) ?_ behind
    exact (h.expr 0 c₁ h₁).bind fun e c₂ h₂ he => spansAt_pure h₂ he

theorem Spanned.printRule (hk : cursor.current.kind ≠ .eof) :
    SpansAt ts r.printRule cursor fun s hi => Node.Row cs cursor.offset hi [.stmt s] := by
  refine (spansAt_advance hts hc hk).bind fun start c₁ h₁ hstart => ?_
  refine (h.expr 0 c₁ h₁).bind fun value c₂ h₂ hvalue => ?_
  refine (spansAt_expect hts h₂ _).bind fun stop c₃ h₃ hstop => spansAt_pure h₃ ?_
  exact Node.Row.of_tokens hstart hvalue hstop rfl

/-- The semicolon behind these statements is no part of their spans. -/
theorem Spanned.simpleRule :
    SpansAt ts r.simpleRule cursor fun s hi => Node.Row cs cursor.offset hi [.stmt s] := by
  refine (h.expr 0 cursor hc).bind fun target c₁ h₁ htarget => ?_
  have behind : ∀ (stmt : Tree.Stmt) (c₂ : Cursor), c₂.On ts →
      Node.Row cs cursor.offset c₂.offset [.stmt stmt] →
        SpansAt ts (do
          let _ ← expect .semicolon
          pure stmt) c₂ fun s hi => Node.Row cs cursor.offset hi [.stmt s] := by
    intro stmt c₂ h₂ hstmt
    refine (spansAt_expect hts h₂ _).bind fun _ c₃ h₃ hsemicolon => spansAt_pure h₃ ?_
    exact hstmt.skip hsemicolon
  refine spansAt_peek_bind ?_
  dsimp only
  split
  · rename_i hk
    refine (spansAt_advance hts h₁ (by rw [hk]; simp)).bind fun _ c₂ h₂ hsign => ?_
    refine (h.expr 0 c₂ h₂).bind fun value c₃ h₃ hvalue => behind _ c₃ h₃ ?_
    exact Node.Row.of_ends ((htarget.skip hsign).append hvalue) rfl rfl rfl
  · rename_i hk
    refine (spansAt_advance hts h₁ (by rw [hk]; simp)).bind fun stop c₂ h₂ hstop => ?_
    exact behind _ c₂ h₂ (Node.Row.of_first htarget rfl hstop rfl)
  · rename_i hk
    refine (spansAt_advance hts h₁ (by rw [hk]; simp)).bind fun stop c₂ h₂ hstop => ?_
    exact behind _ c₂ h₂ (Node.Row.of_first htarget rfl hstop rfl)
  · split
    · exact behind _ c₁ h₁ (htarget.of_only rfl rfl)
    · exact (spansAt_unexpected (P := fun stmt hi =>
        Node.Row cs cursor.offset hi [.stmt stmt]) h₁).bind behind

theorem Spanned.stmtRule :
    SpansAt ts r.stmtRule cursor fun s hi => Node.Row cs cursor.offset hi [.stmt s] := by
  have jump : ∀ (hk : cursor.current.kind ≠ .eof) (s : Span → Tree.Stmt),
      (∀ span, (s span).span = span) → (∀ span, (s span).children = []) →
        SpansAt ts (do
          let span ← advance
          let _ ← expect .semicolon
          pure (s span)) cursor fun s hi => Node.Row cs cursor.offset hi [.stmt s] := by
    intro hk s hspan hchildren
    refine (spansAt_advance hts hc hk).bind fun span c₁ h₁ hrow => ?_
    refine (spansAt_expect hts h₁ _).bind fun _ c₂ h₂ hsemicolon => spansAt_pure h₂ ?_
    refine (Node.Row.leaf (n := .stmt (s span)) ?_ (hchildren span)).skip hsemicolon
    show Span.Row cs _ _ [(s span).span]
    rwa [hspan]
  refine spansAt_peek_bind ?_
  split
  · rename_i hk
    exact h.variableRule hts hc (by rw [hk]; simp) _
  · rename_i hk
    exact h.variableRule hts hc (by rw [hk]; simp) _
  · rename_i hk
    exact h.functionRule hts hc (by rw [hk]; simp)
  · rename_i hk
    exact h.structRule hts hc (by rw [hk]; simp) _
  · rename_i hk
    exact h.structRule hts hc (by rw [hk]; simp) _
  · rename_i hk
    exact h.ifRule hts hc (by rw [hk]; simp)
  · rename_i hk
    exact h.whileRule hts hc (by rw [hk]; simp)
  · rename_i hk
    exact h.forRule hts hc (by rw [hk]; simp)
  · rename_i hk
    exact h.tryRule hts hc (by rw [hk]; simp)
  · rename_i hk
    exact h.returnRule hts hc (by rw [hk]; simp)
  · rename_i hk
    exact jump (by rw [hk]; simp) _ (fun _ => rfl) fun _ => rfl
  · rename_i hk
    exact jump (by rw [hk]; simp) _ (fun _ => rfl) fun _ => rfl
  · rename_i hk
    exact h.printRule hts hc (by rw [hk]; simp)
  · exact h.simpleRule hts hc

omit h hc

/-! ### The whole grammar -/

/-- **All parsers build rows**, however deep the rules are unfolded. -/
theorem spanned_unfold (depth : Nat) : (unfold depth).Spanned cs ts := by
  induction depth with
  | zero => exact ⟨fun _ _ => spansAt_exhausted, fun _ _ _ => spansAt_exhausted,
      fun _ _ => spansAt_exhausted⟩
  | succ depth ih =>
    exact ⟨fun _ hc => ih.typeRule hts hc, fun least _ hc => ih.exprRule hts hc least,
      fun _ hc => ih.stmtRule hts hc⟩

theorem spansAt_program {cursor : Cursor} (hc : cursor.On ts) (depth : Nat) :
    SpansAt ts (unfold depth).program cursor fun stmts hi =>
      Node.Row cs cursor.offset hi (stmts.map .stmt) :=
  spansAt_itemsUntil hc Node.stmt (fun _ => ⟨_, rfl⟩) (spanned_unfold hts depth).stmt _

end Rules

end TypedImp.Grammar

namespace TypedImp

open TypedImp.Grammar

variable {cs : List Char} {ts : List Token}

/-- **The statements that tokens spell are a row.** -/
theorem Tree.row_of_ofTokens (hts : Standing cs ts) {stmts : List Tree.Stmt}
    (h : Tree.ofTokens ts = .ok stmts) :
    ∃ lo hi, Tree.Node.Row cs lo hi (stmts.map .stmt) := by
  cases ts with
  | nil =>
    cases h
    exact ⟨0, 0, .nil (Nat.le_refl 0)⟩
  | cons current ahead =>
    have hc : Cursor.On (current :: ahead) ⟨current, ahead⟩ := List.suffix_refl _
    have hspans := Rules.spansAt_program hts hc (Rules.depthFor (ahead.length + 1))
    rw [ofTokens] at h
    split at h
    · rename_i hv
      cases h
      exact ⟨_, _, (hspans.1 _ _ hv).2⟩
    · cases h
    · cases h

/-- **Tokens that spell nothing** are refused at one of them. -/
theorem Tree.exists_token_of_ofTokens (hts : Standing cs ts) {fault : Located Fault}
    (h : Tree.ofTokens ts = .error fault) : ∃ t ∈ ts, fault.span = t.span := by
  cases ts with
  | nil => cases h
  | cons current ahead =>
    have hc : Cursor.On (current :: ahead) ⟨current, ahead⟩ := List.suffix_refl _
    have hspans := Rules.spansAt_program hts hc (Rules.depthFor (ahead.length + 1))
    rw [ofTokens] at h
    split at h
    · cases h
    · rename_i hv
      cases h
      exact hspans.2 _ hv
    · cases h
      exact ⟨current, List.mem_cons_self, rfl⟩

end TypedImp
