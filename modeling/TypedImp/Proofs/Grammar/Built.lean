import TypedImp.Compile

/-!
# What the grammar builds

A parse tree has more forms than the grammar builds: behind an `else if` there is
always a conditional, and a call that stands as a statement is a call.  `Stmt.Built Q`
says this of a statement and all that is inside it, and that every name, number and
string in it is one that `Q` holds of.  A tree that is read from tokens of which `Q`
holds is built so (`ofTokens_built`), whatever `Q` says of tokens.

`Parser.Meets Q p P` is the contract of a parser: on tokens of which `Q` holds it
yields only what `P` holds of, and leaves only such tokens.  Contracts are put
together along `>>=` (`Meets.bind`), so each rule of the grammar meets its own as soon
as the parsers below it meet theirs, and one induction on the depth closes the knot.
-/

namespace TypedImp

namespace Tree

/-! ### Built trees -/

section

variable (Q : Token.Kind → Prop)

mutual

def TypeExpr.Built : TypeExpr → Prop
  | .named name => Q (.name name.text)
  | .array element _ => element.Built
  | .function params result _ => TypeExpr.BuiltAll params ∧ result.Built

def TypeExpr.BuiltAll : List TypeExpr → Prop
  | [] => True
  | type :: types => type.Built ∧ TypeExpr.BuiltAll types

end

def Annotated.Built (a : Annotated) : Prop := Q (.name a.name.text) ∧ a.type.Built Q

mutual

def Expr.Built : Expr → Prop
  | .number value _ => Q (.number value)
  | .string value _ => Q (.string value)
  | .bool _ _ => True
  | .name n => Q (.name n.text)
  | .binary _ left right _ => left.Built ∧ right.Built
  | .unary _ operand _ => operand.Built
  | .array elements _ => Expr.BuiltAll elements
  | .emptyArray element _ => element.Built Q
  | .call callee args _ => callee.Built ∧ Expr.BuiltAll args
  | .member object field _ => object.Built ∧ Q (.name field.text)
  | .subscript a index _ => a.Built ∧ index.Built

def Expr.BuiltAll : List Expr → Prop
  | [] => True
  | e :: es => e.Built ∧ Expr.BuiltAll es

end

end

def Stmt.isConditional : Stmt → Bool
  | ifThen .. | ifElse .. | ifElseIf .. => true
  | _ => false

section

variable (Q : Token.Kind → Prop)

mutual

/-- **What the grammar builds** from tokens of which `Q` holds. -/
def Stmt.Built : Stmt → Prop
  | .declareVariable name _ type initializer _ =>
    Q (.name name.text) ∧ (∀ t ∈ type, t.Built Q) ∧ ∀ e ∈ initializer, e.Built Q
  | .declareFunction name params result ⟨body, _⟩ _ =>
    Q (.name name.text) ∧ (∀ p ∈ params, p.Built Q) ∧ (∀ t ∈ result, t.Built Q) ∧
      Stmt.BuiltAll body
  | .declareStruct name fields _ _ => Q (.name name.text) ∧ ∀ f ∈ fields, f.Built Q
  | .ifThen test ⟨consequent, _⟩ _ => test.Built Q ∧ Stmt.BuiltAll consequent
  | .ifElse test ⟨consequent, _⟩ ⟨alternate, _⟩ _ =>
    test.Built Q ∧ Stmt.BuiltAll consequent ∧ Stmt.BuiltAll alternate
  | .ifElseIf test ⟨consequent, _⟩ alternate _ =>
    test.Built Q ∧ Stmt.BuiltAll consequent ∧ alternate.isConditional = true ∧ alternate.Built
  | .whileLoop test ⟨body, _⟩ _ => test.Built Q ∧ Stmt.BuiltAll body
  | .rangeLoop iterator low _ high ⟨body, _⟩ _ =>
    Q (.name iterator.text) ∧ low.Built Q ∧ high.Built Q ∧ Stmt.BuiltAll body
  | .collectionLoop iterator collection ⟨body, _⟩ _ =>
    Q (.name iterator.text) ∧ collection.Built Q ∧ Stmt.BuiltAll body
  | .ret value _ => ∀ e ∈ value, e.Built Q
  | .breakLoop _ | .continueLoop _ => True
  | .tryCatch ⟨body, _⟩ error ⟨handler, _⟩ _ =>
    Stmt.BuiltAll body ∧ (∀ name ∈ error, Q (.name name.text)) ∧ Stmt.BuiltAll handler
  | .print value _ => value.Built Q
  | .increment target _ | .decrement target _ => target.Built Q
  | .assign target value _ => target.Built Q ∧ value.Built Q
  | .call e _ => e.isCall = true ∧ e.Built Q

def Stmt.BuiltAll : List Stmt → Prop
  | [] => True
  | s :: ss => s.Built ∧ Stmt.BuiltAll ss

end

end

variable {Q : Token.Kind → Prop}

theorem TypeExpr.builtAll_iff {types : List TypeExpr} :
    TypeExpr.BuiltAll Q types ↔ ∀ t ∈ types, t.Built Q := by
  induction types with
  | nil => simp [BuiltAll]
  | cons t ts ih => simp [BuiltAll, ih]

theorem Expr.builtAll_iff {es : List Expr} : Expr.BuiltAll Q es ↔ ∀ e ∈ es, e.Built Q := by
  induction es with
  | nil => simp [BuiltAll]
  | cons e es ih => simp [BuiltAll, ih]

theorem Stmt.builtAll_iff {ss : List Stmt} : Stmt.BuiltAll Q ss ↔ ∀ s ∈ ss, s.Built Q := by
  induction ss with
  | nil => simp [BuiltAll]
  | cons s ss ih => simp [BuiltAll, ih]

end Tree

namespace Grammar

open TypedImp.Grammar.Parser

variable {Q : Token.Kind → Prop}

/-! ### Contracts of parsers -/

def Cursor.All (Q : Token.Kind → Prop) (cursor : Cursor) : Prop :=
  Q cursor.current.kind ∧ ∀ t ∈ cursor.ahead, Q t.kind

theorem Cursor.All.step {cursor : Cursor} (h : cursor.All Q) : cursor.step.All Q := by
  obtain ⟨current, ahead⟩ := cursor
  cases ahead with
  | nil => exact h
  | cons next ahead =>
    exact ⟨h.2 next List.mem_cons_self, fun t ht => h.2 t (List.mem_cons_of_mem _ ht)⟩

namespace Parser

variable {α β : Type}

/-- Two parsers are done one after the other. -/
theorem done_of_bind {p : Parser α} {f : α → Parser β} {cursor rest : Cursor} {result : β}
    (h : (p >>= f) cursor = .done result rest) :
    ∃ value middle, p cursor = .done value middle ∧ f value middle = .done result rest := by
  rw [bind_apply] at h
  cases hp : p cursor with
  | done value middle => exact ⟨value, middle, rfl, by rwa [hp] at h⟩
  | failed | exhausted => rw [hp] at h; cases h

theorem bind_of_done {p : Parser α} {cursor middle : Cursor} {value : α}
    (h : p cursor = .done value middle) (f : α → Parser β) :
    (p >>= f) cursor = f value middle := by
  rw [bind_apply, h]

/-- **The contract of a parser**: from tokens of which `Q` holds it yields what `P`
holds of, and it leaves such tokens. -/
def Meets (Q : Token.Kind → Prop) (p : Parser α) (P : α → Prop) : Prop :=
  ∀ cursor : Cursor, cursor.All Q → ∀ (value : α) (rest : Cursor),
    p cursor = .done value rest → P value ∧ rest.All Q

theorem Meets.pure {P : α → Prop} {value : α} (h : P value) : Meets Q (Pure.pure value) P := by
  intro cursor hc v rest hv
  cases hv
  exact ⟨h, hc⟩

theorem Meets.bind {P : α → Prop} {R : β → Prop} {p : Parser α} {f : α → Parser β}
    (hp : Meets Q p P) (hf : ∀ a, P a → Meets Q (f a) R) : Meets Q (p >>= f) R := by
  intro cursor hc v rest hv
  obtain ⟨a, mid, hpc, hv⟩ := done_of_bind hv
  obtain ⟨ha, hmid⟩ := hp cursor hc a mid hpc
  exact hf a ha mid hmid v rest hv

theorem Meets.mono {P R : α → Prop} {p : Parser α} (hp : Meets Q p P) (h : ∀ a, P a → R a) :
    Meets Q p R := by
  intro cursor hc v rest hv
  obtain ⟨ha, hrest⟩ := hp cursor hc v rest hv
  exact ⟨h v ha, hrest⟩

theorem Meets.map {P : α → Prop} {R : β → Prop} {p : Parser α} {f : α → β} (hp : Meets Q p P)
    (hf : ∀ a, P a → R (f a)) : Meets Q (f <$> p) R :=
  hp.bind fun a ha => .pure (hf a ha)

theorem meets_exhausted {P : α → Prop} : Meets Q exhausted P := by
  intro cursor hc v rest hv
  cases hv

theorem meets_unexpected {P : α → Prop} (wanted : Expected) : Meets Q (unexpected wanted) P := by
  intro cursor hc v rest hv
  cases hv

theorem meets_peek : Meets Q peek Q := by
  intro cursor hc v rest hv
  cases hv
  exact ⟨hc.1, hc⟩

theorem meets_advance : Meets Q advance fun _ => True := by
  intro cursor hc v rest hv
  cases hv
  exact ⟨trivial, hc.step⟩

theorem meets_accept (s : Symbol) : Meets Q (accept s) fun _ => True := by
  intro cursor hc v rest hv
  rw [accept] at hv
  split at hv
  · cases hv; exact ⟨trivial, hc.step⟩
  · cases hv; exact ⟨trivial, hc⟩

theorem meets_expect (s : Symbol) : Meets Q (expect s) fun _ => True := by
  intro cursor hc v rest hv
  rw [expect] at hv
  split at hv
  · cases hv; exact ⟨trivial, hc.step⟩
  · cases hv

theorem meets_closes (closing : Symbol) : Meets Q (closes closing) fun _ => True := by
  intro cursor hc v rest hv
  cases hv
  exact ⟨trivial, hc⟩

theorem meets_attempt {P : α → Prop} {p : Parser α} (hp : Meets Q p P) :
    Meets Q (attempt p) fun o => ∀ a ∈ o, P a := by
  intro cursor hc v rest hv
  rw [attempt] at hv
  cases hpc : p cursor with
  | exhausted => rw [hpc] at hv; cases hv
  | failed fault => rw [hpc] at hv; cases hv; exact ⟨by simp, hc⟩
  | done a mid =>
    rw [hpc] at hv
    cases hv
    obtain ⟨ha, hmid⟩ := hp cursor hc a rest hpc
    exact ⟨by simpa using ha, hmid⟩

theorem meets_itemsUntil {P : α → Prop} {ends : Parser Bool} {item : Parser α}
    (hends : Meets Q ends fun _ => True) (hitem : Meets Q item P) (steps : Nat) :
    Meets Q (itemsUntil ends item steps) fun as => ∀ a ∈ as, P a := by
  induction steps with
  | zero => exact meets_exhausted
  | succ steps ih =>
    refine hends.bind fun ended _ => ?_
    cases ended with
    | true => exact .pure (by simp)
    | false =>
      refine hitem.bind fun first hfirst => ih.bind fun others hothers => .pure ?_
      simpa using ⟨hfirst, hothers⟩

theorem meets_commaItems {P : α → Prop} {item : Parser α} (closing : Symbol)
    (hitem : Meets Q item P) (steps : Nat) :
    Meets Q (commaItems closing item steps) fun as => ∀ a ∈ as, P a := by
  induction steps with
  | zero => exact meets_exhausted
  | succ steps ih =>
    refine (meets_closes closing).bind fun ended _ => ?_
    cases ended with
    | true => exact .pure (by simp)
    | false =>
      refine hitem.bind fun first hfirst => (meets_accept .comma).bind fun more _ => ?_
      cases more with
      | true =>
        refine ih.bind fun others hothers => .pure ?_
        simpa using ⟨hfirst, hothers⟩
      | false => exact .pure (by simpa using hfirst)

end Parser

theorem meets_identifier : Meets Q identifier fun name => Q (.name name.text) := by
  intro cursor hc v rest hv
  rw [identifier] at hv
  split at hv
  · rename_i text hk
    have hq : Q (.name text) := by
      rw [← hk]
      exact hc.1
    cases hv
    exact ⟨hq, hc.step⟩
  · cases hv

/-! ### The rules -/

namespace Rules

/-- The parsers below a rule meet their contracts.  A statement that begins with `if` is
a conditional. -/
structure Sound (Q : Token.Kind → Prop) (r : Rules) : Prop where
  type : Meets Q r.type (Tree.TypeExpr.Built Q)
  expr : ∀ least, Meets Q (r.expr least) (Tree.Expr.Built Q)
  stmt : Meets Q r.stmt (Tree.Stmt.Built Q)
  conditional : ∀ cursor : Cursor, cursor.All Q → cursor.current.kind = .symbol .ifWord →
    ∀ (value : Tree.Stmt) (rest : Cursor), r.stmt cursor = .done value rest →
      value.isConditional = true

variable {r : Rules} (h : r.Sound Q)

include h

/-! ### Types -/

theorem Sound.typeRule : Meets Q r.typeRule (Tree.TypeExpr.Built Q) := by
  refine meets_peek.bind fun kind hkind => ?_
  split
  · exact meets_identifier.bind fun name hname => .pure hname
  · refine meets_advance.bind fun start _ => h.type.bind fun element helement => ?_
    exact (meets_expect _).bind fun stop _ => .pure helement
  · refine meets_advance.bind fun start _ =>
      (meets_commaItems _ h.type _).bind fun params hparams => ?_
    refine (meets_expect _).bind fun _ _ => (meets_expect _).bind fun _ _ => ?_
    refine h.type.bind fun result hresult => .pure ?_
    exact ⟨Tree.TypeExpr.builtAll_iff.mpr hparams, hresult⟩
  · exact meets_unexpected _

theorem Sound.annotated : Meets Q r.annotated (Tree.Annotated.Built Q) := by
  refine meets_identifier.bind fun name hname => (meets_expect _).bind fun _ _ => ?_
  exact h.type.bind fun type htype => .pure ⟨hname, htype⟩

theorem Sound.colonType : Meets Q r.colonType fun type => ∀ t ∈ type, t.Built Q := by
  refine (meets_accept _).bind fun colon _ => ?_
  cases colon with
  | true => exact h.type.bind fun type htype => .pure (by simpa using htype)
  | false => exact .pure (by simp)

/-! ### Expressions -/

theorem Sound.emptyArray : Meets Q r.emptyArray fun found => found.1.Built Q := by
  refine h.type.bind fun element helement => (meets_expect _).bind fun _ _ => ?_
  exact (meets_expect _).bind fun _ _ => (meets_expect _).bind fun stop _ => .pure helement

theorem Sound.array : Meets Q r.array (Tree.Expr.Built Q) := by
  refine meets_advance.bind fun start _ =>
    (meets_attempt h.emptyArray).bind fun found hfound => ?_
  cases found with
  | some found => exact .pure (hfound found rfl)
  | none =>
    refine (meets_commaItems _ (h.expr 0) _).bind fun elements helements => ?_
    exact (meets_expect _).bind fun stop _ => .pure (Tree.Expr.builtAll_iff.mpr helements)

theorem Sound.primary : Meets Q r.primary (Tree.Expr.Built Q) := by
  refine meets_peek.bind fun kind hkind => ?_
  split
  · exact meets_advance.bind fun span _ => .pure hkind
  · exact meets_advance.bind fun span _ => .pure hkind
  · exact meets_advance.bind fun span _ => .pure trivial
  · exact meets_advance.bind fun span _ => .pure trivial
  · exact meets_identifier.bind fun name hname => .pure hname
  · refine meets_advance.bind fun _ _ => (h.expr 0).bind fun inner hinner => ?_
    exact (meets_expect _).bind fun _ _ => .pure hinner
  · exact h.array
  · exact meets_unexpected _

theorem Sound.suffixes (steps : Nat) {e : Tree.Expr} (he : e.Built Q) :
    Meets Q (r.suffixes steps e) (Tree.Expr.Built Q) := by
  induction steps generalizing e with
  | zero => exact meets_exhausted
  | succ steps ih =>
    refine meets_peek.bind fun kind hkind => ?_
    split
    · refine meets_advance.bind fun _ _ =>
        (meets_commaItems _ (h.expr 0) _).bind fun args hargs => ?_
      exact (meets_expect _).bind fun stop _ => ih ⟨he, Tree.Expr.builtAll_iff.mpr hargs⟩
    · exact meets_advance.bind fun _ _ => meets_identifier.bind fun field hfield => ih ⟨he, hfield⟩
    · refine meets_advance.bind fun _ _ => (h.expr 0).bind fun index hindex => ?_
      exact (meets_expect _).bind fun stop _ => ih ⟨he, hindex⟩
    · exact .pure he

theorem Sound.operand : Meets Q r.operand (Tree.Expr.Built Q) := by
  refine meets_peek.bind fun kind hkind => ?_
  split
  · exact meets_advance.bind fun start _ => (h.expr _).bind fun operand hoperand => .pure hoperand
  · exact h.primary.bind fun first hfirst => h.suffixes _ hfirst

theorem Sound.operators (least steps : Nat) {left : Tree.Expr} (hleft : left.Built Q) :
    Meets Q (r.operators least steps left) (Tree.Expr.Built Q) := by
  induction steps generalizing left with
  | zero => exact meets_exhausted
  | succ steps ih =>
    refine meets_peek.bind fun kind hkind => ?_
    split
    · split
      · exact .pure hleft
      · exact meets_advance.bind fun _ _ => (h.expr _).bind fun right hright => ih ⟨hleft, hright⟩
    · exact .pure hleft

theorem Sound.exprRule (least : Nat) : Meets Q (r.exprRule least) (Tree.Expr.Built Q) :=
  h.operand.bind fun _ hfirst => h.operators least _ hfirst

/-! ### Statements -/

theorem Sound.block : Meets Q r.block fun block => Tree.Stmt.BuiltAll Q block.stmts := by
  refine (meets_expect _).bind fun start _ =>
    (meets_itemsUntil (meets_closes _) h.stmt _).bind fun stmts hstmts => ?_
  exact (meets_expect _).bind fun stop _ => .pure (Tree.Stmt.builtAll_iff.mpr hstmts)

theorem Sound.variableRule (readOnly : Bool) :
    Meets Q (r.variableRule readOnly) (Tree.Stmt.Built Q) := by
  refine meets_advance.bind fun start _ => meets_identifier.bind fun name hname => ?_
  refine h.colonType.bind fun type htype => (meets_accept _).bind fun assigned _ => ?_
  have behind : ∀ initializer : Option Tree.Expr, (∀ e ∈ initializer, e.Built Q) →
      Meets Q (do
        let stop ← expect .semicolon
        pure (.declareVariable name readOnly type initializer (start.merge stop)))
        (Tree.Stmt.Built Q) :=
    fun initializer hi => (meets_expect _).bind fun stop _ => .pure ⟨hname, htype, hi⟩
  cases assigned with
  | true => exact Meets.bind ((h.expr 0).map (by simp)) behind
  | false => exact behind none (by simp)

theorem Sound.functionRule : Meets Q r.functionRule (Tree.Stmt.Built Q) := by
  refine meets_advance.bind fun start _ => meets_identifier.bind fun name hname => ?_
  refine (meets_expect _).bind fun _ _ =>
    (meets_commaItems _ h.annotated _).bind fun params hparams => ?_
  refine (meets_expect _).bind fun _ _ => h.colonType.bind fun result hresult => ?_
  exact h.block.bind fun body hbody => .pure ⟨hname, hparams, hresult, hbody⟩

theorem Sound.field : Meets Q r.field (Tree.Annotated.Built Q) := by
  refine h.annotated.bind fun field hfield => (meets_accept _).bind fun comma _ => ?_
  cases comma with
  | true => exact .pure hfield
  | false => exact (meets_accept _).bind fun _ _ => .pure hfield

theorem Sound.structRule (isClass : Bool) :
    Meets Q (r.structRule isClass) (Tree.Stmt.Built Q) := by
  refine meets_advance.bind fun start _ => meets_identifier.bind fun name hname => ?_
  refine (meets_expect _).bind fun _ _ =>
    (meets_itemsUntil (meets_closes _) h.field _).bind fun fields hfields => ?_
  exact (meets_expect _).bind fun stop _ => .pure ⟨hname, hfields⟩

/-- The alternate is read by the rule for statements, at a token `if`. -/
theorem Sound.ifRule : Meets Q r.ifRule
    fun s => s.Built Q ∧ s.isConditional = true := by
  refine meets_advance.bind fun start _ => (h.expr 0).bind fun test htest => ?_
  refine h.block.bind fun consequent hconsequent => (meets_accept _).bind fun alternative _ => ?_
  cases alternative with
  | false => exact .pure ⟨⟨htest, hconsequent⟩, rfl⟩
  | true =>
    have helse : Meets Q (do
        let alternate ← r.block
        pure (Tree.Stmt.ifElse test consequent alternate (start.merge alternate.span)))
        fun s => s.Built Q ∧ s.isConditional = true :=
      h.block.bind fun alternate halternate => .pure ⟨⟨htest, hconsequent, halternate⟩, rfl⟩
    intro cursor hc v rest hv
    rw [if_pos rfl, bind_apply, peek] at hv
    by_cases hk : cursor.current.kind = .symbol .ifWord
    · simp only [hk] at hv
      obtain ⟨alternate, mid, hs, hv⟩ := done_of_bind hv
      cases hv
      obtain ⟨hbuilt, hrest⟩ := h.stmt cursor hc alternate rest hs
      exact ⟨⟨⟨htest, hconsequent, h.conditional cursor hc hk alternate rest hs, hbuilt⟩, rfl⟩,
        hrest⟩
    · refine helse cursor hc v rest ?_
      generalize cursor.current.kind = kind at hk hv
      cases kind with
      | symbol s =>
        cases s with
        | ifWord => exact absurd rfl hk
        | _ => exact hv
      | _ => exact hv

theorem Sound.whileRule : Meets Q r.whileRule (Tree.Stmt.Built Q) := by
  refine meets_advance.bind fun start _ => (h.expr 0).bind fun test htest => ?_
  exact h.block.bind fun body hbody => .pure ⟨htest, hbody⟩

theorem Sound.forRule : Meets Q r.forRule (Tree.Stmt.Built Q) := by
  refine meets_advance.bind fun start _ => meets_identifier.bind fun iterator hiterator => ?_
  refine (meets_expect _).bind fun _ _ => (h.expr 0).bind fun first hfirst => ?_
  refine meets_peek.bind fun kind _ => ?_
  split
  · refine meets_advance.bind fun _ _ => (h.expr 0).bind fun high hhigh => ?_
    exact h.block.bind fun body hbody => .pure ⟨hiterator, hfirst, hhigh, hbody⟩
  · exact h.block.bind fun body hbody => .pure ⟨hiterator, hfirst, hbody⟩

theorem Sound.tryRule : Meets Q r.tryRule (Tree.Stmt.Built Q) := by
  refine meets_advance.bind fun start _ => h.block.bind fun body hbody => ?_
  refine (meets_expect _).bind fun _ _ => meets_peek.bind fun kind _ => ?_
  have behind : ∀ error : Option Tree.Name, (∀ name ∈ error, Q (.name name.text)) →
      Meets Q (do
        let handler ← r.block
        pure (.tryCatch body error handler (start.merge handler.span)))
        (Tree.Stmt.Built Q) :=
    fun error herror => h.block.bind fun handler hhandler => .pure ⟨hbody, herror, hhandler⟩
  dsimp only
  split
  · exact Meets.bind (meets_identifier.map (by simp)) behind
  · exact behind none (by simp)

theorem Sound.returnRule : Meets Q r.returnRule (Tree.Stmt.Built Q) := by
  refine meets_advance.bind fun start _ => meets_peek.bind fun kind _ => ?_
  have behind : ∀ value : Option Tree.Expr, (∀ e ∈ value, e.Built Q) →
      Meets Q (do
        let stop ← expect .semicolon
        pure (.ret value (start.merge stop)))
        (Tree.Stmt.Built Q) :=
    fun value hvalue => (meets_expect _).bind fun stop _ => .pure hvalue
  dsimp only
  split
  · exact behind none (by simp)
  · exact Meets.bind ((h.expr 0).map (by simp)) behind

theorem Sound.printRule : Meets Q r.printRule (Tree.Stmt.Built Q) := by
  refine meets_advance.bind fun start _ => (h.expr 0).bind fun value hvalue => ?_
  exact (meets_expect _).bind fun stop _ => .pure hvalue

theorem Sound.simpleRule : Meets Q r.simpleRule (Tree.Stmt.Built Q) := by
  refine (h.expr 0).bind fun target htarget => meets_peek.bind fun kind _ => ?_
  have behind : ∀ stmt : Tree.Stmt, stmt.Built Q →
      Meets Q (do
        let _ ← expect .semicolon
        pure stmt) (Tree.Stmt.Built Q) :=
    fun stmt hstmt => (meets_expect _).bind fun _ _ => .pure hstmt
  dsimp only
  split
  · refine meets_advance.bind fun _ _ => (h.expr 0).bind fun value hvalue => ?_
    exact behind _ ⟨htarget, hvalue⟩
  · exact meets_advance.bind fun stop _ => behind _ htarget
  · exact meets_advance.bind fun stop _ => behind _ htarget
  · split
    · rename_i hcall
      exact behind _ ⟨hcall, htarget⟩
    · exact (meets_unexpected _).bind behind

theorem Sound.stmtRule : Meets Q r.stmtRule (Tree.Stmt.Built Q) := by
  refine meets_peek.bind fun kind _ => ?_
  split
  · exact h.variableRule _
  · exact h.variableRule _
  · exact h.functionRule
  · exact h.structRule _
  · exact h.structRule _
  · exact h.ifRule.mono fun _ hs => hs.1
  · exact h.whileRule
  · exact h.forRule
  · exact h.tryRule
  · exact h.returnRule
  · exact meets_advance.bind fun span _ => (meets_expect _).bind fun _ _ => .pure trivial
  · exact meets_advance.bind fun span _ => (meets_expect _).bind fun _ _ => .pure trivial
  · exact h.printRule
  · exact h.simpleRule

theorem Sound.conditional_stmtRule (cursor : Cursor) (hc : cursor.All Q)
    (hk : cursor.current.kind = .symbol .ifWord) (value : Tree.Stmt) (rest : Cursor)
    (hv : r.stmtRule cursor = .done value rest) : value.isConditional = true := by
  rw [Rules.stmtRule, bind_apply, peek] at hv
  simp only [hk] at hv
  exact (h.ifRule cursor hc value rest hv).1.2

omit h

/-! ### The whole grammar -/

/-- **All parsers meet their contracts**, however deep the rules are unfolded. -/
theorem sound_unfold (depth : Nat) : (unfold depth).Sound Q := by
  induction depth with
  | zero =>
    refine ⟨meets_exhausted, fun _ => meets_exhausted, meets_exhausted, ?_⟩
    intro cursor _ _ value rest hv
    cases hv
  | succ depth ih =>
    exact ⟨ih.typeRule, ih.exprRule, ih.stmtRule, ih.conditional_stmtRule⟩

theorem meets_program (depth : Nat) :
    Meets Q (unfold depth).program fun stmts => ∀ s ∈ stmts, s.Built Q := by
  have hend : Meets Q atEnd fun _ => True := by
    intro cursor hc v rest hv
    cases hv
    exact ⟨trivial, hc⟩
  exact meets_itemsUntil hend (sound_unfold depth).stmt _

end Rules

end Grammar

open TypedImp.Grammar

/-- **Statements that are read from tokens are built from them.** -/
theorem Tree.ofTokens_built {Q : Token.Kind → Prop} {tokens : List Token}
    (hQ : ∀ t ∈ tokens, Q t.kind) {stmts : List Tree.Stmt}
    (h : Tree.ofTokens tokens = .ok stmts) : ∀ s ∈ stmts, s.Built Q := by
  cases tokens with
  | nil => cases h; simp
  | cons current ahead =>
    have hall : Cursor.All Q ⟨current, ahead⟩ :=
      ⟨hQ current List.mem_cons_self, fun t ht => hQ t (List.mem_cons_of_mem _ ht)⟩
    rw [ofTokens] at h
    split at h
    · rename_i hv
      cases h
      exact (Rules.meets_program _ _ hall _ _ hv).1
    · cases h
    · cases h

theorem parse_eq_ok {source : String} {stmts : List Tree.Stmt} (h : parse source = .ok stmts) :
    Tree.ofTokens (Token.ofSource source) = .ok stmts := by
  rw [parse, Tree.ofSource] at h
  cases ht : Tree.ofTokens (Token.ofSource source) with
  | error fault => rw [ht] at h; cases h
  | ok trees => rw [ht] at h; cases h; rfl

/-- Whatever is read from a source has the forms that the grammar builds. -/
theorem parse_built {source : String} {stmts : List Tree.Stmt} (h : parse source = .ok stmts) :
    ∀ s ∈ stmts, s.Built fun _ => True :=
  Tree.ofTokens_built (fun _ _ => trivial) (parse_eq_ok h)

end TypedImp
