import TypedImp.Compile
import TypedImp.Proofs.Places.Node

/-!
# Broken rules are reported at nodes

Checking reports a broken rule at a span, and that is always the span of a node of the tree that
is checked (`Program.exists_node_of_ofTree`).  `Result.At S x` says that if `x` is an error, then
`S` holds of where it is reported.  It is kept by `>>=`, so there is one lemma for each step of
checking: the span it names is that of the node it is given, or of one below it (`Node.Holds`).
-/

namespace TypedImp

/-- A span of a node, or of one below it. -/
def Tree.Node.Holds (n : Node) (span : Span) : Prop := ∃ m : Node, m.Within n ∧ span = m.span

namespace Checking

open TypedImp.Tree (Node)

/-! ### Where errors are reported -/

/-- **An error is reported at such a span.** -/
def Result.At {α : Type} (S : Span → Prop) (x : Result α) : Prop :=
  ∀ fault, x = .error fault → S fault.span

variable {α β : Type} {S S' : Span → Prop}

theorem at_pure (a : α) : Result.At S (pure a) := by
  intro fault h
  cases h

theorem Result.At.bind {x : Result α} {f : α → Result β} (hx : Result.At S x)
    (hf : ∀ a, Result.At S (f a)) : Result.At S (x >>= f) := by
  intro fault h
  cases x with
  | error fault' =>
    cases h
    exact hx fault rfl
  | ok a => exact hf a fault h

theorem Result.At.mono {x : Result α} (hx : Result.At S x) (h : ∀ span, S span → S' span) :
    Result.At S' x :=
  fun fault hfault => h _ (hx fault hfault)

theorem at_refuse {fault : Fault} {span : Span} (h : S span) :
    Result.At S (refuse fault span : Result α) := by
  intro fault' hfault
  cases hfault
  exact h

theorem at_require {kept : Bool} {fault : Fault} {span : Span} (h : S span) :
    Result.At S (require kept fault span) := by
  cases kept with
  | true => exact at_pure ()
  | false => exact at_refuse h

theorem at_look {x : Lookup α} {span : Span} (h : S span) : Result.At S (look x span) := by
  cases x with
  | ok a => exact at_pure a
  | error missing => exact at_refuse h

/-! ### Nodes -/

theorem holds_self (n : Node) : n.Holds n.span := ⟨n, .refl n, rfl⟩

theorem holds_of_child {n c : Node} (hc : c ∈ n.children) {span : Span} (h : c.Holds span) :
    n.Holds span := by
  obtain ⟨m, hm, hspan⟩ := h
  exact ⟨m, .child hc hm, hspan⟩

def AnyHolds (ns : List Node) (span : Span) : Prop := ∃ n ∈ ns, n.Holds span

theorem anyHolds_cons {n : Node} {ns : List Node} {span : Span} :
    AnyHolds (n :: ns) span ↔ n.Holds span ∨ AnyHolds ns span := by
  simp [AnyHolds]

/-- What holds of the nodes below. -/
theorem holds_of_children {n : Node} {ns : List Node} (hns : ns ⊆ n.children) {span : Span}
    (h : AnyHolds ns span) : n.Holds span := by
  obtain ⟨c, hc, h⟩ := h
  exact holds_of_child (hns hc) h

/-- What holds of the statements of a block below. -/
theorem holds_of_block {n : Node} {b : Tree.Block Tree.Stmt} (hb : .block b ∈ n.children)
    {span : Span} (h : AnyHolds (b.stmts.map .stmt) span) : n.Holds span :=
  holds_of_child hb (holds_of_children (n := .block b) (List.Subset.refl _) h)

/-! ### Types -/

mutual

theorem resolveType_at (scope : Scope) (type : Tree.TypeExpr) :
    Result.At (Node.type type).Holds (resolveType scope type) := by
  cases type with
  | named name =>
    rw [resolveType]
    split
    · exact at_pure _
    · exact at_pure _
    · exact at_refuse (holds_self (.type (.named name)))
    · exact at_refuse (holds_self (.type (.named name)))
  | array element span =>
    refine Result.At.bind ?_ fun _ => at_pure _
    exact (resolveType_at scope element).mono fun _ => holds_of_child List.mem_cons_self
  | function params result span =>
    refine Result.At.bind ?_ fun _ => Result.At.bind ?_ fun _ => at_pure _
    · refine (resolveTypes_at scope params).mono fun _ => holds_of_children ?_
      exact List.subset_append_left _ _
    · refine (resolveType_at scope result).mono fun _ => holds_of_child ?_
      exact List.mem_append_right _ List.mem_cons_self
termination_by structural type

theorem resolveTypes_at (scope : Scope) (types : List Tree.TypeExpr) :
    Result.At (AnyHolds (types.map .type)) (resolveTypes scope types) := by
  cases types with
  | nil => exact at_pure _
  | cons type types =>
    refine Result.At.bind ?_ fun _ => Result.At.bind ?_ fun _ => at_pure _
    · exact (resolveType_at scope type).mono fun _ h => anyHolds_cons.mpr (.inl h)
    · exact (resolveTypes_at scope types).mono fun _ h => anyHolds_cons.mpr (.inr h)
termination_by structural types

end

/-! ### Expressions -/

theorem requireAssignable_at {entities : Entities} {source : Expr} {target : Ty} {span : Span}
    (h : S span) : Result.At S (requireAssignable entities source target span) := by
  rw [requireAssignable]
  split
  · exact at_pure _
  · exact (at_look h).bind fun _ => (at_look h).bind fun _ => at_refuse h

theorem elementOf_at {array : Expr} {span : Span} (h : S span) :
    Result.At S (elementOf array span) := by
  rw [elementOf]
  split
  · exact at_pure _
  · exact at_refuse h

theorem requireLeft_at {operands : Operands} {left : Expr} {span : Span} (h : S span) :
    Result.At S (requireLeft operands left span) := by
  cases operands with
  | alike => exact at_pure ()
  | bools | numbers | ordered => exact at_require h

theorem requireRight_at {operands : Operands} {left right : Expr} {span : Span} (h : S span) :
    Result.At S (requireRight operands left right span) := by
  cases operands with
  | bools | numbers | ordered | alike => exact at_require h

theorem checkName_at (env : Env) {name : Tree.Name} (h : S name.span) :
    Result.At S (checkName env name) := by
  rw [checkName]
  split
  · exact (at_look h).bind fun _ => at_pure _
  · exact (at_look h).bind fun _ => at_pure _
  · exact (at_look h).bind fun _ => at_pure _
  · exact at_refuse h
  · exact at_refuse h

theorem fieldTy_at {entities : Entities} {object : Ty} {field : Tree.Name} (h : S field.span) :
    Result.At S (fieldTy entities object field) := by
  cases object with
  | struct id =>
    refine Result.At.bind (at_look h) fun found => ?_
    cases found with
    | none => exact at_refuse h
    | some found => exact at_pure _
  | _ => exact at_refuse h

theorem signatureFor_at {callee : Expr} {count : Nat} {span : Span} (h : S span) :
    Result.At S (signatureFor callee count span) := by
  rw [signatureFor]
  split
  · exact (at_require h).bind fun _ => at_pure _
  · exact at_refuse h

theorem arrayTy_at {elements : List Expr} {span : Span} (h : S span) :
    Result.At S (arrayTy elements span) := by
  cases elements with
  | nil => exact at_refuse h
  | cons => exact (at_require h).bind fun _ => at_pure _

mutual

/-- **An expression breaks a rule at itself or at a node below it.** -/
theorem checkExpr_at (env : Env) (e : Tree.Expr) :
    Result.At (Node.expr e).Holds (checkExpr env e) := by
  cases e with
  | number | string | bool => exact at_pure _
  | name name => exact checkName_at env (holds_self (.expr (.name name)))
  | binary op left right span =>
    have hl : ∀ s, (Node.expr left).Holds s → (Node.expr (.binary op left right span)).Holds s :=
      fun _ => holds_of_child List.mem_cons_self
    have hr : ∀ s, (Node.expr right).Holds s → (Node.expr (.binary op left right span)).Holds s :=
      fun _ => holds_of_child (List.mem_cons_of_mem _ List.mem_cons_self)
    refine Result.At.bind ((checkExpr_at env left).mono hl) fun l => ?_
    refine Result.At.bind (requireLeft_at (hl _ (holds_self _))) fun _ => ?_
    refine Result.At.bind ((checkExpr_at env right).mono hr) fun r => ?_
    exact Result.At.bind (requireRight_at (hr _ (holds_self _))) fun _ => at_pure _
  | unary op operand span =>
    have ho : ∀ s, (Node.expr operand).Holds s → (Node.expr (.unary op operand span)).Holds s :=
      fun _ => holds_of_child List.mem_cons_self
    refine Result.At.bind ((checkExpr_at env operand).mono ho) fun x => ?_
    cases op with
    | neg => exact (at_require (ho _ (holds_self _))).bind fun _ => at_pure _
    | not => exact (at_require (ho _ (holds_self _))).bind fun _ => at_pure _
  | array elements span =>
    refine Result.At.bind ?_ fun es => Result.At.bind ?_ fun _ => at_pure _
    · exact (checkExprs_at env elements).mono fun _ h =>
        holds_of_children (n := .expr (.array elements span)) (List.Subset.refl _) h
    · exact arrayTy_at (holds_self (.expr (.array elements span)))
  | emptyArray element span =>
    refine Result.At.bind ?_ fun _ => at_pure _
    exact (resolveType_at env.scope element).mono fun _ => holds_of_child List.mem_cons_self
  | call callee args span =>
    refine Result.At.bind ?_ fun f => Result.At.bind ?_ fun signature =>
      Result.At.bind ?_ fun _ => at_pure _
    · exact (checkExpr_at env callee).mono fun _ => holds_of_child List.mem_cons_self
    · exact signatureFor_at (holds_self (.expr (.call callee args span)))
    · exact (checkArgs_at env args signature.params).mono fun _ =>
        holds_of_children (List.subset_cons_self _ _)
  | member object field span =>
    refine Result.At.bind ?_ fun o => Result.At.bind ?_ fun _ => at_pure _
    · exact (checkExpr_at env object).mono fun _ => holds_of_child List.mem_cons_self
    · refine fieldTy_at (holds_of_child (c := .name field) ?_ (holds_self _))
      exact List.mem_cons_of_mem _ List.mem_cons_self
  | subscript of index span =>
    have ha : ∀ s, (Node.expr of).Holds s → (Node.expr (.subscript of index span)).Holds s :=
      fun _ => holds_of_child List.mem_cons_self
    have hi : ∀ s, (Node.expr index).Holds s → (Node.expr (.subscript of index span)).Holds s :=
      fun _ => holds_of_child (List.mem_cons_of_mem _ List.mem_cons_self)
    refine Result.At.bind ((checkExpr_at env of).mono ha) fun a => ?_
    refine Result.At.bind (elementOf_at (ha _ (holds_self _))) fun _ => ?_
    refine Result.At.bind ((checkExpr_at env index).mono hi) fun i => ?_
    exact Result.At.bind (at_require (hi _ (holds_self _))) fun _ => at_pure _
termination_by structural e

theorem checkExprs_at (env : Env) (es : List Tree.Expr) :
    Result.At (AnyHolds (es.map .expr)) (checkExprs env es) := by
  cases es with
  | nil => exact at_pure _
  | cons e es =>
    refine Result.At.bind ?_ fun _ => Result.At.bind ?_ fun _ => at_pure _
    · exact (checkExpr_at env e).mono fun _ h => anyHolds_cons.mpr (.inl h)
    · exact (checkExprs_at env es).mono fun _ h => anyHolds_cons.mpr (.inr h)
termination_by structural es

theorem checkArgs_at (env : Env) (es : List Tree.Expr) (tys : List Ty) :
    Result.At (AnyHolds (es.map .expr)) (checkArgs env es tys) := by
  cases es with
  | nil => exact at_pure _
  | cons e es =>
    cases tys with
    | nil => exact at_pure _
    | cons ty tys =>
      refine Result.At.bind ?_ fun _ => Result.At.bind ?_ fun _ => Result.At.bind ?_ fun _ =>
        at_pure _
      · exact (checkExpr_at env e).mono fun _ h => anyHolds_cons.mpr (.inl h)
      · exact requireAssignable_at (anyHolds_cons.mpr (.inl (holds_self (.expr e))))
      · exact (checkArgs_at env es tys).mono fun _ h => anyHolds_cons.mpr (.inr h)
termination_by structural es

end

theorem checkNumber_at (env : Env) (e : Tree.Expr) :
    Result.At (Node.expr e).Holds (checkNumber env e) :=
  (checkExpr_at env e).bind fun _ => (at_require (holds_self (.expr e))).bind fun _ => at_pure _

theorem checkCondition_at (env : Env) (e : Tree.Expr) :
    Result.At (Node.expr e).Holds (checkCondition env e) :=
  (checkExpr_at env e).bind fun _ => (at_require (holds_self (.expr e))).bind fun _ => at_pure _

theorem checkTarget_at (env : Env) (e : Tree.Expr) :
    Result.At (Node.expr e).Holds (checkTarget env e) := by
  refine (checkExpr_at env e).bind fun checked => ?_
  have behind : Result.At (Node.expr e).Holds (pure checked) := at_pure checked
  cases checked with
  | var =>
    refine Result.At.bind (at_look (holds_self (.expr e))) fun row => ?_
    exact (at_require (holds_self (.expr e))).bind fun _ => behind
  | member | subscript => exact behind
  | _ => exact (at_refuse (holds_self (.expr e))).bind fun _ => behind

theorem checkNumberTarget_at (env : Env) (e : Tree.Expr) :
    Result.At (Node.expr e).Holds (checkNumberTarget env e) :=
  (checkTarget_at env e).bind fun _ => (at_require (holds_self (.expr e))).bind fun _ => at_pure _

/-! ### Declarations -/

theorem checkOption_at (env : Env) (written : Option Tree.Expr) :
    Result.At (AnyHolds (written.toList.map .expr)) (checkOption env written) := by
  cases written with
  | none => exact at_pure _
  | some e =>
    refine Result.At.bind ?_ fun _ => at_pure _
    exact (checkExpr_at env e).mono fun _ h => anyHolds_cons.mpr (.inl h)

theorem resultType_at (scope : Scope) (type : Option Tree.TypeExpr) :
    Result.At (AnyHolds (type.toList.map .type)) (resultType scope type) := by
  cases type with
  | none => exact at_pure _
  | some type => exact (resolveType_at scope type).mono fun _ h => anyHolds_cons.mpr (.inl h)

theorem variableTy_at (env : Env) {name : Tree.Name} {type : Option Tree.TypeExpr}
    {written : Option Tree.Expr} {initializer : Option Expr} (hname : S name.span)
    (htype : ∀ span, AnyHolds (type.toList.map .type) span → S span)
    (hwritten : ∀ span, AnyHolds (written.toList.map .expr) span → S span) :
    Result.At S (variableTy env name type written initializer) := by
  cases type with
  | none =>
    cases initializer with
    | none => exact at_refuse hname
    | some value => exact at_pure _
  | some type =>
    have hresolve : Result.At S (resolveType env.scope type) :=
      (resolveType_at env.scope type).mono fun span h => htype span (anyHolds_cons.mpr (.inl h))
    refine hresolve.bind fun ty => ?_
    cases initializer with
    | none => exact at_pure _
    | some value =>
      cases written with
      | none => exact at_pure _
      | some tree =>
        refine Result.At.bind ?_ fun _ => at_pure _
        exact requireAssignable_at (hwritten _ (anyHolds_cons.mpr (.inl (holds_self (.expr tree)))))

theorem declareVariable_at (env : Env) (name : Tree.Name) (readOnly : Bool)
    (type : Option Tree.TypeExpr) (written : Option Tree.Expr) (span : Span) :
    Result.At (Node.stmt (.declareVariable name readOnly type written span)).Holds
      (declareVariable env name readOnly type written span) := by
  let n : Node := .stmt (.declareVariable name readOnly type written span)
  have hself : n.Holds span := holds_self n
  have hname : n.Holds name.span :=
    holds_of_child (c := .name name) List.mem_cons_self (holds_self _)
  have htype : ∀ s, AnyHolds (type.toList.map .type) s → n.Holds s := fun _ =>
    holds_of_children (n := n) fun _ hc => List.mem_cons_of_mem _ (List.mem_append_left _ hc)
  have hwritten : ∀ s, AnyHolds (written.toList.map .expr) s → n.Holds s := fun _ =>
    holds_of_children (n := n) fun _ hc => List.mem_cons_of_mem _ (List.mem_append_right _ hc)
  refine Result.At.bind (at_require hself) fun _ => ?_
  refine Result.At.bind (at_require hname) fun _ => ?_
  refine Result.At.bind ((checkOption_at env written).mono hwritten) fun initializer => ?_
  refine Result.At.bind (variableTy_at env hname htype hwritten) fun ty => ?_
  exact (at_require hself).bind fun _ => at_pure _

theorem declareParams_at (env : Env) (params : List Tree.Annotated) :
    Result.At (AnyHolds (params.map .annotated)) (declareParams env params) := by
  induction params generalizing env with
  | nil => exact at_pure _
  | cons param params ih =>
    have hhere : ∀ s, (Node.annotated param).Holds s →
        AnyHolds ((param :: params).map .annotated) s := fun _ h => anyHolds_cons.mpr (.inl h)
    refine Result.At.bind (at_require (hhere _ (holds_of_child (c := .name param.name)
      List.mem_cons_self (holds_self _)))) fun _ => ?_
    refine Result.At.bind ((resolveType_at env.scope param.type).mono fun s h =>
      hhere s (holds_of_child (List.mem_cons_of_mem _ List.mem_cons_self) h)) fun ty => ?_
    refine Result.At.bind (at_require (hhere _ (holds_self _))) fun _ => ?_
    refine Result.At.bind ?_ fun _ => at_pure _
    exact (ih _).mono fun _ h => anyHolds_cons.mpr (.inr h)

theorem resolveFields_at (scope : Scope) (seen : List String) (fields : List Tree.Annotated) :
    Result.At (AnyHolds (fields.map .annotated)) (resolveFields scope seen fields) := by
  induction fields generalizing seen with
  | nil => exact at_pure _
  | cons field fields ih =>
    have hhere : ∀ s, (Node.annotated field).Holds s →
        AnyHolds ((field :: fields).map .annotated) s := fun _ h => anyHolds_cons.mpr (.inl h)
    refine Result.At.bind (at_require (hhere _ (holds_of_child (c := .name field.name)
      List.mem_cons_self (holds_self _)))) fun _ => ?_
    refine Result.At.bind ((resolveType_at scope field.type).mono fun s h =>
      hhere s (holds_of_child (List.mem_cons_of_mem _ List.mem_cons_self) h)) fun ty => ?_
    refine Result.At.bind ?_ fun _ => at_pure _
    exact (ih _).mono fun _ h => anyHolds_cons.mpr (.inr h)

theorem openFunction_at (env : Env) (name : Tree.Name) (params : List Tree.Annotated)
    (result : Option Tree.TypeExpr) (body : Tree.Block Tree.Stmt) (span : Span) :
    Result.At (Node.stmt (.declareFunction name params result body span)).Holds
      (openFunction env name params result) := by
  let n : Node := .stmt (.declareFunction name params result body span)
  have hname : n.Holds name.span :=
    holds_of_child (c := .name name) List.mem_cons_self (holds_self _)
  have hparams : ∀ s, AnyHolds (params.map .annotated) s → n.Holds s := fun _ =>
    holds_of_children (n := n) fun _ hc => List.mem_cons_of_mem _ (List.mem_append_left _ hc)
  have hresult : ∀ s, AnyHolds (result.toList.map .type) s → n.Holds s := fun _ =>
    holds_of_children (n := n) fun _ hc =>
      List.mem_cons_of_mem _ (List.mem_append_right _ (List.mem_append_left _ hc))
  refine Result.At.bind (at_require hname) fun _ => ?_
  refine Result.At.bind ((resultType_at _ result).mono hresult) fun ty => ?_
  refine Result.At.bind ((declareParams_at _ params).mono hparams) fun (ids, tys, inner) => ?_
  exact (at_look hname).bind fun _ => at_pure _

theorem declareStruct_at (env : Env) (name : Tree.Name) (fields : List Tree.Annotated)
    (isClass : Bool) (span : Span) :
    Result.At (Node.stmt (.declareStruct name fields isClass span)).Holds
      (declareStruct env name fields isClass span) := by
  let n : Node := .stmt (.declareStruct name fields isClass span)
  have hself : n.Holds span := holds_self n
  have hname : n.Holds name.span :=
    holds_of_child (c := .name name) List.mem_cons_self (holds_self _)
  have hfields : ∀ s, AnyHolds (fields.map .annotated) s → n.Holds s := fun _ =>
    holds_of_children (List.subset_cons_self _ _)
  refine Result.At.bind (at_require hself) fun _ => ?_
  refine Result.At.bind (at_require hname) fun _ => ?_
  refine Result.At.bind ((resolveFields_at _ _ fields).mono hfields) fun fields => ?_
  refine Result.At.bind (at_look hname) fun entities => ?_
  refine Result.At.bind (at_look hname) fun circular => ?_
  exact (at_require hname).bind fun _ => at_pure _

/-! ### Statements -/

theorem checkReturn_at (env : Env) (value : Option Tree.Expr) (span : Span) :
    Result.At (Node.stmt (.ret value span)).Holds (checkReturn env value span) := by
  let n : Node := .stmt (.ret value span)
  have hself : n.Holds span := holds_self n
  rw [checkReturn]
  split
  · exact at_refuse hself
  · refine Result.At.bind (at_look hself) fun row => ?_
    cases value with
    | none => exact (at_require hself).bind fun _ => at_pure _
    | some e =>
      have he : ∀ s, (Node.expr e).Holds s → n.Holds s := fun _ =>
        holds_of_child List.mem_cons_self
      refine Result.At.bind (at_require hself) fun _ => ?_
      refine Result.At.bind ((checkExpr_at env e).mono he) fun _ => ?_
      exact (requireAssignable_at (he _ (holds_self _))).bind fun _ => at_pure _

mutual

/-- **A statement breaks a rule at itself or at a node below it.** -/
theorem checkStmt_at (env : Env) (s : Tree.Stmt) :
    Result.At (Node.stmt s).Holds (checkStmt env s) := by
  cases s with
  | declareVariable => exact declareVariable_at env _ _ _ _ _
  | declareStruct => exact declareStruct_at env _ _ _ _
  | declareFunction name params result body span =>
    obtain ⟨body, bodySpan⟩ := body
    refine Result.At.bind (openFunction_at env name params result _ span) fun f => ?_
    refine Result.At.bind ((checkStmts_at f.inner body).mono fun _ => ?_) fun _ => at_pure _
    exact holds_of_block (b := ⟨body, bodySpan⟩) (by simp [Node.children, Tree.Stmt.children])
  | ifThen test c span =>
    obtain ⟨c, cSpan⟩ := c
    refine Result.At.bind ?_ fun _ => Result.At.bind ?_ fun _ => at_pure _
    · exact (checkCondition_at env test).mono fun _ => holds_of_child List.mem_cons_self
    · refine (checkStmts_at _ c).mono fun _ => ?_
      exact holds_of_block (b := ⟨c, cSpan⟩) (by simp [Node.children, Tree.Stmt.children])
  | ifElse test c a span =>
    obtain ⟨c, cSpan⟩ := c
    obtain ⟨a, aSpan⟩ := a
    refine Result.At.bind ?_ fun _ => Result.At.bind ?_ fun _ => Result.At.bind ?_ fun _ =>
      at_pure _
    · exact (checkCondition_at env test).mono fun _ => holds_of_child List.mem_cons_self
    · refine (checkStmts_at _ c).mono fun _ => ?_
      exact holds_of_block (b := ⟨c, cSpan⟩) (by simp [Node.children, Tree.Stmt.children])
    · refine (checkStmts_at _ a).mono fun _ => ?_
      exact holds_of_block (b := ⟨a, aSpan⟩) (by simp [Node.children, Tree.Stmt.children])
  | ifElseIf test c a span =>
    obtain ⟨c, cSpan⟩ := c
    refine Result.At.bind ?_ fun _ => Result.At.bind ?_ fun _ => Result.At.bind ?_ fun _ =>
      at_pure _
    · exact (checkCondition_at env test).mono fun _ => holds_of_child List.mem_cons_self
    · refine (checkStmts_at _ c).mono fun _ => ?_
      exact holds_of_block (b := ⟨c, cSpan⟩) (by simp [Node.children, Tree.Stmt.children])
    · exact (checkStmt_at _ a).mono fun _ =>
        holds_of_child (by simp [Node.children, Tree.Stmt.children])
  | whileLoop test body span =>
    obtain ⟨body, bodySpan⟩ := body
    refine Result.At.bind ?_ fun _ => Result.At.bind ?_ fun _ => at_pure _
    · exact (checkCondition_at env test).mono fun _ => holds_of_child List.mem_cons_self
    · refine (checkStmts_at _ body).mono fun _ => ?_
      exact holds_of_block (b := ⟨body, bodySpan⟩) (by simp [Node.children, Tree.Stmt.children])
  | rangeLoop iterator low op high body span =>
    obtain ⟨body, bodySpan⟩ := body
    refine Result.At.bind ?_ fun _ => Result.At.bind ?_ fun _ => Result.At.bind ?_ fun _ =>
      at_pure _
    · exact (checkNumber_at env low).mono fun _ =>
        holds_of_child (by simp [Node.children, Tree.Stmt.children])
    · exact (checkNumber_at env high).mono fun _ =>
        holds_of_child (by simp [Node.children, Tree.Stmt.children])
    · refine (checkStmts_at _ body).mono fun _ => ?_
      exact holds_of_block (b := ⟨body, bodySpan⟩) (by simp [Node.children, Tree.Stmt.children])
  | collectionLoop iterator e body span =>
    obtain ⟨body, bodySpan⟩ := body
    have he : ∀ s, (Node.expr e).Holds s →
        (Node.stmt (.collectionLoop iterator e ⟨body, bodySpan⟩ span)).Holds s := fun _ =>
      holds_of_child (List.mem_cons_of_mem _ List.mem_cons_self)
    refine Result.At.bind ((checkExpr_at env e).mono he) fun _ => ?_
    refine Result.At.bind (elementOf_at (he _ (holds_self _))) fun _ => ?_
    refine Result.At.bind ((checkStmts_at _ body).mono fun _ => ?_) fun _ => at_pure _
    exact holds_of_block (b := ⟨body, bodySpan⟩) (by simp [Node.children, Tree.Stmt.children])
  | ret value span => exact (checkReturn_at env value span).bind fun _ => at_pure _
  | breakLoop span =>
    exact (at_require (holds_self (.stmt (.breakLoop span)))).bind fun _ => at_pure _
  | continueLoop span =>
    exact (at_require (holds_self (.stmt (.continueLoop span)))).bind fun _ => at_pure _
  | tryCatch body error handler span =>
    obtain ⟨body, bodySpan⟩ := body
    obtain ⟨handler, handlerSpan⟩ := handler
    refine Result.At.bind ?_ fun _ => Result.At.bind ?_ fun _ => at_pure _
    · refine (checkStmts_at _ body).mono fun _ => ?_
      exact holds_of_block (b := ⟨body, bodySpan⟩) List.mem_cons_self
    · refine (checkStmts_at _ handler).mono fun _ => ?_
      exact holds_of_block (b := ⟨handler, handlerSpan⟩)
        (by simp [Node.children, Tree.Stmt.children])
  | print value span =>
    refine Result.At.bind ?_ fun _ => at_pure _
    exact (checkExpr_at env value).mono fun _ => holds_of_child List.mem_cons_self
  | increment target span =>
    refine Result.At.bind ?_ fun _ => at_pure _
    exact (checkNumberTarget_at env target).mono fun _ => holds_of_child List.mem_cons_self
  | decrement target span =>
    refine Result.At.bind ?_ fun _ => at_pure _
    exact (checkNumberTarget_at env target).mono fun _ => holds_of_child List.mem_cons_self
  | assign target value span =>
    have hv : ∀ s, (Node.expr value).Holds s → (Node.stmt (.assign target value span)).Holds s :=
      fun _ => holds_of_child (List.mem_cons_of_mem _ List.mem_cons_self)
    refine Result.At.bind ?_ fun _ => ?_
    · exact (checkTarget_at env target).mono fun _ => holds_of_child List.mem_cons_self
    refine Result.At.bind ((checkExpr_at env value).mono hv) fun _ => ?_
    exact (requireAssignable_at (hv _ (holds_self _))).bind fun _ => at_pure _
  | call e span =>
    refine Result.At.bind ?_ fun _ => at_pure _
    exact (checkExpr_at env e).mono fun _ => holds_of_child List.mem_cons_self
termination_by structural s

theorem checkStmts_at (env : Env) (ss : List Tree.Stmt) :
    Result.At (AnyHolds (ss.map .stmt)) (checkStmts env ss) := by
  cases ss with
  | nil => exact at_pure _
  | cons s ss =>
    refine Result.At.bind ?_ fun _ => Result.At.bind ?_ fun _ => at_pure _
    · exact (checkStmt_at env s).mono fun _ h => anyHolds_cons.mpr (.inl h)
    · exact (checkStmts_at _ ss).mono fun _ h => anyHolds_cons.mpr (.inr h)
termination_by structural ss

end

end Checking

/-- **A broken rule is reported at a node** of the tree that is checked. -/
theorem Program.exists_node_of_ofTree {stmts : List Tree.Stmt} {fault : Located Checking.Fault}
    (h : Program.ofTree stmts = .error fault) :
    ∃ s ∈ stmts, ∃ n : Tree.Node, n.Within (.stmt s) ∧ fault.span = n.span := by
  have hat : Checking.Result.At (Checking.AnyHolds (stmts.map .stmt)) (Program.ofTree stmts) :=
    (Checking.checkStmts_at _ stmts).bind fun _ => Checking.at_pure _
  obtain ⟨n, hn, m, hm, hspan⟩ := hat fault h
  obtain ⟨s, hs, rfl⟩ := List.mem_map.mp hn
  exact ⟨s, hs, m, hm, hspan⟩

end TypedImp
