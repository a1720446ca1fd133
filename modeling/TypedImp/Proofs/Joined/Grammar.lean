import TypedImp.Proofs.Grammar.Statements
import TypedImp.Proofs.Joined.Rows

/-!
# The grammar on a row that goes on

Each rule of the grammar has on a longer row of tokens the answers that it has on a shorter one, if
the parsers below it do: types and expressions are read in the same way (`ReadsAt`), and statements
and blocks, which pass a semicolon or a brace, have the same answers (`ClosedAt`).  The only rule
that looks behind a statement is the one for `if`, so the longer row must not go on with `else`.
One induction on the depth closes the knot, where the second row may be read with more steps
(**`Rules.matches_unfold`**).

The statements of a row are then read on the longer row too, and those that come where the first row
ends are read behind them (**`itemsUntil_append`**).
-/

namespace TypedImp.Grammar

open TypedImp.Token (Kind)
open TypedImp.Grammar.Parser

namespace Rules

/-- The parsers of `r'` have on a longer row the answers of those of `r`. -/
structure Matches (f : Span → Span) (back : Cursor) (r r' : Rules) : Prop where
  steps : r.steps ≤ r'.steps
  type : ∀ c d, ReadsAt f back (Tree.TypeExpr.mapSpans f) r.type r'.type c d
  expr : ∀ least c d, ReadsAt f back (Tree.Expr.mapSpans f) (r.expr least) (r'.expr least) c d
  stmt : ∀ c d, ClosedAt f back (Tree.Stmt.mapSpans f) r.stmt r'.stmt c d

variable {f : Span → Span} {back c d : Cursor} {r r' : Rules}
  (hf : ∀ s t : Span, f (s.merge t) = (f s).merge (f t)) (h : Matches f back r r')

include hf h

/-! ### Types -/

theorem Matches.typeRule :
    ReadsAt f back (Tree.TypeExpr.mapSpans f) r.typeRule r'.typeRule c d := by
  refine readsAt_peek_bind fun kind hkind => ?_
  split
  · exact readsAt_identifier.bind fun name c d => readsAt_pure rfl
  · refine (readsAt_advance hkind rfl).bind fun start c d => (h.type c d).bind fun element c d => ?_
    refine (readsAt_expect rfl).bind fun stop c d => readsAt_pure ?_
    rw [Tree.TypeExpr.mapSpans, hf]
  · refine (readsAt_advance hkind rfl).bind fun start c d =>
      (readsAt_commaItems h.type h.steps).bind fun params c d => ?_
    refine (readsAt_expect rfl).bind fun _ c d => (readsAt_expect rfl).bind fun _ c d => ?_
    refine (h.type c d).bind fun result c d => readsAt_pure ?_
    rw [Tree.TypeExpr.mapSpans, Tree.TypeExpr.mapSpansAll_eq_map, Tree.TypeExpr.span_mapSpans, hf]
  · exact readsAt_unexpected _

omit hf in
theorem Matches.annotated :
    ReadsAt f back (Tree.Annotated.mapSpans f) r.annotated r'.annotated c d := by
  refine readsAt_identifier.bind fun name c d => (readsAt_expect rfl).bind fun _ c d => ?_
  exact (h.type c d).bind fun type c d => readsAt_pure rfl

omit hf in
theorem Matches.colonType : ReadsAt f back (Option.map (Tree.TypeExpr.mapSpans f))
    (Rules.colonType r) (Rules.colonType r') c d := by
  refine (readsAt_accept rfl).bind fun colon c d => ?_
  cases colon with
  | true => exact (h.type c d).bind fun type c d => readsAt_pure rfl
  | false => exact readsAt_pure rfl

/-! ### Expressions -/

omit hf in
theorem Matches.emptyArray :
    ReadsAt f back (Prod.map (Tree.TypeExpr.mapSpans f) f) r.emptyArray r'.emptyArray c d := by
  refine (h.type c d).bind fun element c d => (readsAt_expect rfl).bind fun _ c d => ?_
  refine (readsAt_expect rfl).bind fun _ c d => (readsAt_expect rfl).bind fun stop c d => ?_
  exact readsAt_pure rfl

theorem Matches.array (hkind : c.current.kind = .symbol .leftBracket) :
    ReadsAt f back (Tree.Expr.mapSpans f) r.array r'.array c d := by
  refine (readsAt_advance hkind rfl).bind fun start c d =>
    h.emptyArray.attempt.bind fun found c d => ?_
  cases found with
  | some found =>
    refine readsAt_pure ?_
    rw [Tree.Expr.mapSpans, hf]
  | none =>
    refine (readsAt_commaItems (h.expr 0) h.steps).bind fun elements c d => ?_
    refine (readsAt_expect rfl).bind fun stop c d => readsAt_pure ?_
    rw [Tree.Expr.mapSpans, Tree.Expr.mapSpansAll_eq_map, hf]

theorem Matches.primary : ReadsAt f back (Tree.Expr.mapSpans f) r.primary r'.primary c d := by
  refine readsAt_peek_bind fun kind hkind => ?_
  split
  · exact (readsAt_advance hkind rfl).bind fun span c d => readsAt_pure rfl
  · exact (readsAt_advance hkind rfl).bind fun span c d => readsAt_pure rfl
  · exact (readsAt_advance hkind rfl).bind fun span c d => readsAt_pure rfl
  · exact (readsAt_advance hkind rfl).bind fun span c d => readsAt_pure rfl
  · exact readsAt_identifier.bind fun name c d => readsAt_pure rfl
  · refine (readsAt_advance hkind rfl).bind fun _ c d => (h.expr 0 c d).bind fun inner c d => ?_
    exact (readsAt_expect rfl).bind fun _ c d => readsAt_pure rfl
  · exact h.array hf hkind
  · exact readsAt_unexpected _

theorem Matches.suffixes {steps steps' : Nat} (hle : steps ≤ steps') (e : Tree.Expr) :
    ReadsAt f back (Tree.Expr.mapSpans f) (r.suffixes steps e)
      (r'.suffixes steps' (e.mapSpans f)) c d := by
  induction steps generalizing steps' e c d with
  | zero => exact readsAt_exhausted
  | succ steps ih =>
    obtain ⟨steps', rfl⟩ : ∃ n, steps' = n + 1 := ⟨steps' - 1, by omega⟩
    have behind (e : Tree.Expr) {e' : Tree.Expr} (he : e' = e.mapSpans f) (c d : Cursor) :
        ReadsAt f back (Tree.Expr.mapSpans f) (r.suffixes steps e) (r'.suffixes steps' e') c d := by
      subst he
      exact ih (by omega) e
    refine readsAt_peek_bind fun kind hkind => ?_
    split
    · refine (readsAt_advance hkind rfl).bind fun _ c d =>
        (readsAt_commaItems (h.expr 0) h.steps).bind fun args c d => ?_
      refine (readsAt_expect rfl).bind fun stop => behind _ ?_
      rw [Tree.Expr.mapSpans, Tree.Expr.mapSpansAll_eq_map, Tree.Expr.span_mapSpans, hf]
    · refine (readsAt_advance hkind rfl).bind fun _ c d =>
        readsAt_identifier.bind fun field => behind _ ?_
      rw [Tree.Expr.mapSpans, Tree.Expr.span_mapSpans, Tree.Name.span_mapSpans, hf]
    · refine (readsAt_advance hkind rfl).bind fun _ c d => (h.expr 0 c d).bind fun index c d => ?_
      refine (readsAt_expect rfl).bind fun stop => behind _ ?_
      rw [Tree.Expr.mapSpans, Tree.Expr.span_mapSpans, hf]
    · exact readsAt_pure rfl

theorem Matches.operand : ReadsAt f back (Tree.Expr.mapSpans f) r.operand r'.operand c d := by
  refine readsAt_peek_bind fun kind hkind => ?_
  split
  · rename_i op hop
    rw [unary?_eq_some_iff] at hop
    have hinner : isInner kind = true := by
      subst hop
      cases op <;> rfl
    refine (readsAt_advance hkind hinner).bind fun start c d =>
      (h.expr _ c d).bind fun operand c d => readsAt_pure ?_
    rw [Tree.Expr.mapSpans, Tree.Expr.span_mapSpans, hf]
  · exact (h.primary hf).bind fun first c d => h.suffixes hf h.steps first

theorem Matches.operators (least : Nat) {steps steps' : Nat} (hle : steps ≤ steps')
    (left : Tree.Expr) : ReadsAt f back (Tree.Expr.mapSpans f) (r.operators least steps left)
      (r'.operators least steps' (left.mapSpans f)) c d := by
  induction steps generalizing steps' left c d with
  | zero => exact readsAt_exhausted
  | succ steps ih =>
    obtain ⟨steps', rfl⟩ : ∃ n, steps' = n + 1 := ⟨steps' - 1, by omega⟩
    have behind (e : Tree.Expr) {e' : Tree.Expr} (he : e' = e.mapSpans f) (c d : Cursor) :
        ReadsAt f back (Tree.Expr.mapSpans f) (r.operators least steps e)
          (r'.operators least steps' e') c d := by
      subst he
      exact ih (by omega) e
    refine readsAt_peek_bind fun kind hkind => ?_
    split
    · rename_i op hop
      rw [binary?_eq_some_iff] at hop
      have hinner : isInner kind = true := by
        subst hop
        cases op <;> rfl
      split
      · exact readsAt_pure rfl
      · refine (readsAt_advance hkind hinner).bind fun _ c d =>
          (h.expr _ c d).bind fun right => behind _ ?_
        rw [Tree.Expr.mapSpans, Tree.Expr.span_mapSpans, Tree.Expr.span_mapSpans, hf]
    · exact readsAt_pure rfl

theorem Matches.exprRule (least : Nat) :
    ReadsAt f back (Tree.Expr.mapSpans f) (r.exprRule least) (r'.exprRule least) c d :=
  (h.operand hf).bind fun first _ _ => h.operators hf least h.steps first

/-! ### Statements -/

theorem Matches.block : ClosedAt f back (Tree.Block.mapSpans f) r.block r'.block c d := by
  refine (closedAt_expect rfl).bind fun start c d hc => ClosedAt.followsAt ?_ hc
  refine (passesAt_itemsUntil (fun c d => (h.stmt c d).passesAt) h.steps).bind_closed
    fun stmts c d => ?_
  refine (closedAt_expect rfl).bind fun stop c d hc => followsAt_pure hc ?_
  rw [Tree.Block.mapSpans, hf]

theorem Matches.variableRule (readOnly : Bool) {kind : Kind} (hkind : c.current.kind = kind)
    (hinner : isInner kind = true) :
    ClosedAt f back (Tree.Stmt.mapSpans f) (r.variableRule readOnly) (r'.variableRule readOnly)
      c d := by
  refine (readsAt_advance hkind hinner).bind_closed fun start c d =>
    readsAt_identifier.bind_closed fun name c d => h.colonType.bind_closed fun type c d => ?_
  refine (readsAt_accept rfl).bind_closed fun assigned c d => ?_
  have behind (value : Option Tree.Expr) (c d : Cursor) : ClosedAt f back (Tree.Stmt.mapSpans f)
      (do
        let stop ← expect .semicolon
        pure (.declareVariable name readOnly type value (start.merge stop)))
      (do
        let stop ← expect .semicolon
        pure (.declareVariable (name.mapSpans f) readOnly (type.map (Tree.TypeExpr.mapSpans f))
          (value.map (Tree.Expr.mapSpans f)) ((f start).merge stop))) c d := by
    refine (closedAt_expect rfl).bind fun stop c d hc => followsAt_pure hc ?_
    rw [Tree.Stmt.mapSpans, hf]
  cases assigned with
  | true => exact (h.expr 0 c d).map_some.bind_closed behind
  | false => exact behind none c d

theorem Matches.functionRule {kind : Kind} (hkind : c.current.kind = kind)
    (hinner : isInner kind = true) :
    ClosedAt f back (Tree.Stmt.mapSpans f) r.functionRule r'.functionRule c d := by
  refine (readsAt_advance hkind hinner).bind_closed fun start c d =>
    readsAt_identifier.bind_closed fun name c d => (readsAt_expect rfl).bind_closed fun _ c d => ?_
  refine (readsAt_commaItems (fun c d => h.annotated) h.steps).bind_closed fun params c d =>
    (readsAt_expect rfl).bind_closed fun _ c d => h.colonType.bind_closed fun result c d => ?_
  refine (h.block hf).bind fun body c d hc => followsAt_pure hc ?_
  rw [Tree.Stmt.mapSpans, Tree.Stmt.mapSpansAll_eq_map, hf]
  rfl

omit hf in
theorem Matches.field : PassesAt f back (Tree.Annotated.mapSpans f) r.field r'.field c d := by
  refine h.annotated.passesAt.bind fun field c d => (passesAt_accept _).bind fun comma c d => ?_
  cases comma with
  | true => exact (readsAt_pure rfl).passesAt
  | false => exact (passesAt_accept _).bind fun _ c d => (readsAt_pure rfl).passesAt

theorem Matches.structRule (isClass : Bool) {kind : Kind} (hkind : c.current.kind = kind)
    (hinner : isInner kind = true) :
    ClosedAt f back (Tree.Stmt.mapSpans f) (r.structRule isClass) (r'.structRule isClass) c d := by
  refine (readsAt_advance hkind hinner).bind_closed fun start c d =>
    readsAt_identifier.bind_closed fun name c d => ?_
  refine (closedAt_expect rfl).bind fun _ c d hc => ClosedAt.followsAt ?_ hc
  refine (passesAt_itemsUntil (fun c d => h.field) h.steps).bind_closed fun fields c d => ?_
  refine (closedAt_expect rfl).bind fun stop c d hc => followsAt_pure hc ?_
  rw [Tree.Stmt.mapSpans, hf]

/-- The only rule that looks behind a statement that could be over. -/
theorem Matches.ifRule (hback : back.current.kind.isSymbol .elseWord = false) {kind : Kind}
    (hkind : c.current.kind = kind) (hinner : isInner kind = true) :
    ClosedAt f back (Tree.Stmt.mapSpans f) r.ifRule r'.ifRule c d := by
  refine (readsAt_advance hkind hinner).bind_closed fun start c d =>
    (h.expr 0 c d).bind_closed fun test c d => ?_
  refine (h.block hf).bind fun consequent c d hc =>
    (followsAt_accept hc hback).bind fun alternative c d hc => ?_
  cases alternative with
  | false =>
    refine followsAt_pure hc ?_
    rw [Tree.Stmt.mapSpans, Tree.Stmt.mapSpansAll_eq_map, hf]
    rfl
  | true =>
    refine (closedAt_peek_bind fun kind _ => ?_).followsAt hc
    split
    · refine (h.stmt c d).bind fun alternate c d hc => followsAt_pure hc ?_
      rw [Tree.Stmt.mapSpans, Tree.Stmt.mapSpansAll_eq_map, Tree.Stmt.span_mapSpans, hf]
      rfl
    · refine (h.block hf).bind fun alternate c d hc => followsAt_pure hc ?_
      rw [Tree.Stmt.mapSpans, Tree.Stmt.mapSpansAll_eq_map, Tree.Stmt.mapSpansAll_eq_map, hf]
      rfl

theorem Matches.whileRule {kind : Kind} (hkind : c.current.kind = kind)
    (hinner : isInner kind = true) :
    ClosedAt f back (Tree.Stmt.mapSpans f) r.whileRule r'.whileRule c d := by
  refine (readsAt_advance hkind hinner).bind_closed fun start c d =>
    (h.expr 0 c d).bind_closed fun test c d => ?_
  refine (h.block hf).bind fun body c d hc => followsAt_pure hc ?_
  rw [Tree.Stmt.mapSpans, Tree.Stmt.mapSpansAll_eq_map, hf]
  rfl

theorem Matches.forRule {kind : Kind} (hkind : c.current.kind = kind)
    (hinner : isInner kind = true) :
    ClosedAt f back (Tree.Stmt.mapSpans f) r.forRule r'.forRule c d := by
  refine (readsAt_advance hkind hinner).bind_closed fun start c d =>
    readsAt_identifier.bind_closed fun iterator c d => ?_
  refine (readsAt_expect rfl).bind_closed fun _ c d =>
    (h.expr 0 c d).bind_closed fun first c d => ?_
  refine closedAt_peek_bind fun kind hkind => ?_
  split
  · rename_i op hop
    rw [range?_eq_some_iff] at hop
    have hrange : isInner kind = true := by
      subst hop
      cases op <;> rfl
    refine (readsAt_advance hkind hrange).bind_closed fun _ c d =>
      (h.expr 0 c d).bind_closed fun high c d => ?_
    refine (h.block hf).bind fun body c d hc => followsAt_pure hc ?_
    rw [Tree.Stmt.mapSpans, Tree.Stmt.mapSpansAll_eq_map, hf]
    rfl
  · refine (h.block hf).bind fun body c d hc => followsAt_pure hc ?_
    rw [Tree.Stmt.mapSpans, Tree.Stmt.mapSpansAll_eq_map, hf]
    rfl

theorem Matches.tryRule {kind : Kind} (hkind : c.current.kind = kind)
    (hinner : isInner kind = true) :
    ClosedAt f back (Tree.Stmt.mapSpans f) r.tryRule r'.tryRule c d := by
  refine (readsAt_advance hkind hinner).bind_closed fun start c d =>
    (h.block hf).bind fun body c d hc => ClosedAt.followsAt ?_ hc
  refine (readsAt_expect rfl).bind_closed fun _ c d => closedAt_peek_bind fun kind _ => ?_
  have behind (error : Option Tree.Name) (c d : Cursor) : ClosedAt f back (Tree.Stmt.mapSpans f)
      (do
        let handler ← r.block
        pure (.tryCatch body error handler (start.merge handler.span)))
      (do
        let handler ← r'.block
        pure (.tryCatch (body.mapSpans f) (error.map (Tree.Name.mapSpans f)) handler
          ((f start).merge handler.span))) c d := by
    refine (h.block hf).bind fun handler c d hc => followsAt_pure hc ?_
    rw [Tree.Stmt.mapSpans, Tree.Stmt.mapSpansAll_eq_map, Tree.Stmt.mapSpansAll_eq_map, hf]
    rfl
  dsimp only
  split
  · exact readsAt_identifier.map_some.bind_closed behind
  · exact behind none c d

theorem Matches.returnRule {kind : Kind} (hkind : c.current.kind = kind)
    (hinner : isInner kind = true) :
    ClosedAt f back (Tree.Stmt.mapSpans f) r.returnRule r'.returnRule c d := by
  refine (readsAt_advance hkind hinner).bind_closed fun start c d =>
    closedAt_peek_bind fun kind _ => ?_
  have behind (value : Option Tree.Expr) (c d : Cursor) : ClosedAt f back (Tree.Stmt.mapSpans f)
      (do
        let stop ← expect .semicolon
        pure (.ret value (start.merge stop)))
      (do
        let stop ← expect .semicolon
        pure (.ret (value.map (Tree.Expr.mapSpans f)) ((f start).merge stop))) c d := by
    refine (closedAt_expect rfl).bind fun stop c d hc => followsAt_pure hc ?_
    rw [Tree.Stmt.mapSpans, hf]
  dsimp only
  split
  · exact behind none c d
  · exact (h.expr 0 c d).map_some.bind_closed behind

theorem Matches.printRule {kind : Kind} (hkind : c.current.kind = kind)
    (hinner : isInner kind = true) :
    ClosedAt f back (Tree.Stmt.mapSpans f) r.printRule r'.printRule c d := by
  refine (readsAt_advance hkind hinner).bind_closed fun start c d =>
    (h.expr 0 c d).bind_closed fun value c d => ?_
  refine (closedAt_expect rfl).bind fun stop c d hc => followsAt_pure hc ?_
  rw [Tree.Stmt.mapSpans, hf]

theorem Matches.simpleRule :
    ClosedAt f back (Tree.Stmt.mapSpans f) r.simpleRule r'.simpleRule c d := by
  refine (h.expr 0 c d).bind_closed fun target c d => closedAt_peek_bind fun kind hkind => ?_
  have behind (stmt : Tree.Stmt) {stmt' : Tree.Stmt} (hstmt : stmt' = stmt.mapSpans f)
      (c d : Cursor) : ClosedAt f back (Tree.Stmt.mapSpans f)
      (do
        let _ ← expect .semicolon
        pure stmt)
      (do
        let _ ← expect .semicolon
        pure stmt') c d :=
    (closedAt_expect rfl).bind fun _ c d hc => followsAt_pure hc hstmt
  dsimp only
  rw [Tree.Expr.isCall_mapSpans]
  split
  · refine (readsAt_advance hkind rfl).bind_closed fun _ c d =>
      (h.expr 0 c d).bind_closed fun value => behind _ ?_
    rw [Tree.Stmt.mapSpans, Tree.Expr.span_mapSpans, Tree.Expr.span_mapSpans, hf]
  · refine (readsAt_advance hkind rfl).bind_closed fun stop => behind _ ?_
    rw [Tree.Stmt.mapSpans, Tree.Expr.span_mapSpans, hf]
  · refine (readsAt_advance hkind rfl).bind_closed fun stop => behind _ ?_
    rw [Tree.Stmt.mapSpans, Tree.Expr.span_mapSpans, hf]
  · split
    · refine behind _ ?_ c d
      rw [Tree.Stmt.mapSpans, Tree.Expr.span_mapSpans]
    · exact (readsAt_unexpected _).bind_closed fun stmt => behind stmt rfl

theorem Matches.stmtRule (hback : back.current.kind.isSymbol .elseWord = false) :
    ClosedAt f back (Tree.Stmt.mapSpans f) r.stmtRule r'.stmtRule c d := by
  have word {form : Span → Tree.Stmt} (hform : ∀ span, form (f span) = (form span).mapSpans f)
      {kind : Kind} (hkind : c.current.kind = kind) (hinner : isInner kind = true) :
      ClosedAt f back (Tree.Stmt.mapSpans f)
        (do
          let span ← advance
          let _ ← expect .semicolon
          pure (form span))
        (do
          let span ← advance
          let _ ← expect .semicolon
          pure (form span)) c d :=
    (readsAt_advance hkind hinner).bind_closed fun span c d =>
      (closedAt_expect rfl).bind fun _ c d hc => followsAt_pure hc (hform span)
  refine closedAt_peek_bind fun kind hkind => ?_
  split
  · exact h.variableRule hf false hkind rfl
  · exact h.variableRule hf true hkind rfl
  · exact h.functionRule hf hkind rfl
  · exact h.structRule hf false hkind rfl
  · exact h.structRule hf true hkind rfl
  · exact h.ifRule hf hback hkind rfl
  · exact h.whileRule hf hkind rfl
  · exact h.forRule hf hkind rfl
  · exact h.tryRule hf hkind rfl
  · exact h.returnRule hf hkind rfl
  · exact word (fun _ => rfl) hkind rfl
  · exact word (fun _ => rfl) hkind rfl
  · exact h.printRule hf hkind rfl
  · exact h.simpleRule hf

omit h

/-! ### The whole grammar -/

/-- **Each rule has on the longer row the answers that it has on the shorter one**, also if it is
unfolded deeper. -/
theorem matches_unfold (hback : back.current.kind.isSymbol .elseWord = false) {depth depth' : Nat}
    (hle : depth ≤ depth') : Matches f back (unfold depth) (unfold depth') := by
  induction depth generalizing depth' with
  | zero =>
    refine ⟨Nat.zero_le _, fun _ _ => readsAt_exhausted, fun _ _ _ => readsAt_exhausted,
      fun _ _ => ⟨fun _ value rest hp => ?_, fun _ value rest hp => ?_⟩⟩ <;> cases hp
  | succ depth ih =>
    obtain ⟨depth', rfl⟩ : ∃ n, depth' = n + 1 := ⟨depth' - 1, by omega⟩
    have hbelow := ih (show depth ≤ depth' by omega)
    exact ⟨hle, fun _ _ => hbelow.typeRule hf, fun least _ _ => hbelow.exprRule hf least,
      fun _ _ => hbelow.stmtRule hf hback⟩

end Rules

/-! ### Statements up to the end of the input -/

section

variable {α : Type} {c : Cursor} {p : Parser α}

theorem itemsUntil_atEnd_of_eof (hc : c.current.kind = .eof) (steps : Nat) :
    itemsUntil Rules.atEnd p (steps + 1) c = .done [] c := by
  rw [itemsUntil, bind_apply, Rules.atEnd, hc]
  rfl

theorem itemsUntil_atEnd_of_ne_eof (hc : c.current.kind ≠ .eof) (steps : Nat) :
    itemsUntil Rules.atEnd p (steps + 1) c =
      (do
        let first ← p
        let others ← itemsUntil Rules.atEnd p steps
        pure (first :: others)) c := by
  have hmore : c.current.kind.isEof = false := by
    rw [← Bool.not_eq_true, Kind.isEof_iff]
    exact hc
  rw [itemsUntil, bind_apply, Rules.atEnd, hmore]
  rfl

end

/-- **The statements of a row and those behind it**, read one after the other. -/
theorem itemsUntil_append {α : Type} {f : Span → Span} {g : α → α} {back c d stop rest : Cursor}
    {p q : Parser α} (hitem : ∀ c d, ClosedAt f back g p q c d) (hc : Extends f back c d)
    {steps : Nat} {values : List α} (h : itemsUntil Rules.atEnd p steps c = .done values rest)
    {steps' : Nat} {others : List α}
    (hothers : itemsUntil Rules.atEnd q steps' back = .done others stop) :
    itemsUntil Rules.atEnd q (values.length + steps') d =
      .done (values.map g ++ others) stop := by
  induction steps generalizing c d values with
  | zero => cases h
  | succ steps ih =>
    cases hc with
    | @last eof heof =>
      rw [itemsUntil_atEnd_of_eof heof] at h
      cases h
      rwa [List.length_nil, Nat.zero_add, List.map_nil, List.nil_append]
    | @token t c d hkind hc =>
      rw [itemsUntil_atEnd_of_ne_eof hkind] at h
      obtain ⟨first, middle, hfirst, h⟩ := done_of_bind h
      obtain ⟨further, behind, hfurther, h⟩ := done_of_bind h
      cases h
      obtain ⟨middle', hfirst', hmiddle⟩ := (hitem _ _).followsAt (.token hkind hc) _ _ hfirst
      rw [List.length_cons, Nat.succ_add, itemsUntil_atEnd_of_ne_eof hkind, bind_of_done hfirst',
        bind_of_done (ih hmiddle hfurther)]
      rfl

end TypedImp.Grammar
