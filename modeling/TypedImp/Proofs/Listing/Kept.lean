import TypedImp.Proofs.Listing.Lexed
import TypedImp.Proofs.Tables.Range

/-!
# The rows that a listing needs

A listing looks up the rows of all that a program mentions, and no others.  So it does not see what
stands in the tables behind the rows of the program: **`Program.InRange.listing_eq`**, for every
program that mentions nothing without a row.  Each of the functions that make up a listing has a
lemma that says the same of it.
-/

namespace TypedImp

/-! ### Rows -/

namespace Listing

variable {E E' : Entities}

theorem variableAt_of_kept (h : E.Kept E') {id : VariableId} (hid : E.HasRow (.var id)) :
    E'.variableAt id = E.variableAt id := by
  have hrow := Array.getElem?_eq_getElem hid
  rw [Entities.variableAt, Entities.variableAt, h.vars hrow, hrow]

theorem functionAt_of_kept (h : E.Kept E') {id : FunctionId} (hid : E.HasRow (.func id)) :
    E'.functionAt id = E.functionAt id := by
  have hrow := Array.getElem?_eq_getElem hid
  rw [Entities.functionAt, Entities.functionAt, h.funcs hrow, hrow]

theorem structAt_of_kept (h : E.Kept E') {id : StructId} (hid : E.HasRow (.struct id)) :
    E'.structAt id = E.structAt id := by
  have hrow := Array.getElem?_eq_getElem hid
  rw [Entities.structAt, Entities.structAt, h.structs hrow, hrow]

/-! ### Types -/

mutual

/-- A type is spelled with the names of its own structs. -/
theorem describe_of_kept (h : E.Kept E') (ty : Ty) (hty : ty.Known E) :
    E'.describe ty = E.describe ty := by
  cases ty with
  | number | string | bool | void | any => rfl
  | array element => rw [Entities.describe, Entities.describe, describe_of_kept h element hty]
  | struct id => rw [Entities.describe, Entities.describe, structAt_of_kept h hty]
  | function params result =>
    rw [Entities.describe, Entities.describe, describe_of_kept h result hty.2,
      describeAll_of_kept h params hty.1]
termination_by structural ty

theorem describeAll_of_kept (h : E.Kept E') (tys : List Ty) (htys : Ty.KnownAll E tys) :
    E'.describeAll tys = E.describeAll tys := by
  cases tys with
  | nil => rfl
  | cons ty tys =>
    have hty := describe_of_kept h ty htys.1
    have hrest := describeAll_of_kept h tys htys.2
    cases tys with
    | nil => exact hty
    | cons other others =>
      show E'.describe ty ++ "," ++ E'.describeAll (other :: others) = _
      rw [hty, hrest]
      rfl
termination_by structural tys

end

/-! ### Expressions -/

theorem ofVariable_of_kept (h : E.Kept E') {id : VariableId} (hid : E.HasRow (.var id)) :
    ofVariable E' id = ofVariable E id := by
  rw [ofVariable, ofVariable, variableAt_of_kept h hid]

theorem ofFunction_of_kept (h : E.Kept E') {id : FunctionId} (hid : E.HasRow (.func id)) :
    ofFunction E' id = ofFunction E id := by
  rw [ofFunction, ofFunction, functionAt_of_kept h hid]

theorem ofStruct_of_kept (h : E.Kept E') {id : StructId} (hid : E.HasRow (.struct id)) :
    ofStruct E' id = ofStruct E id := by
  rw [ofStruct, ofStruct, structAt_of_kept h hid]

theorem annotated_of_kept (h : E.Kept E') (name : String) {ty : Ty} (hty : ty.Known E) :
    annotated E' name ty = annotated E name ty := by
  rw [annotated, annotated, describe_of_kept h ty hty]

theorem ofExprs_of_eq {es : List Expr} (h : ∀ e ∈ es, ofExpr E' e = ofExpr E e) :
    ofExprs E' es = ofExprs E es := by
  rw [ofExprs_eq_map, ofExprs_eq_map]
  exact List.map_congr_left h

theorem ofExpr_of_kept (h : E.Kept E') (e : Expr) (he : e.InRange E) :
    ofExpr E' e = ofExpr E e := by
  induction e using Expr.parts_induction with
  | step e ih =>
    have hself := he e e.mem_nested_self
    have hparts : ∀ part ∈ e.parts, ofExpr E' part = ofExpr E part := fun part hp =>
      ih part hp fun x hx => he x (Expr.mem_nested_of_part hp hx)
    cases e with
    | number | string | bool => rfl
    | var => exact ofVariable_of_kept h (hself.row _ rfl)
    | func => exact ofFunction_of_kept h (hself.row _ rfl)
    | struct => exact ofStruct_of_kept h (hself.row _ rfl)
    | binary op l r ty =>
      obtain ⟨hl, hr⟩ := List.forall_mem_cons.mp hparts
      rw [ofExpr, ofExpr, hl, List.forall_mem_singleton.mp hr]
    | unary op x ty => rw [ofExpr, ofExpr, List.forall_mem_singleton.mp hparts]
    | array es ty =>
      cases es with
      | nil => rw [ofExpr, ofExpr, describe_of_kept h ty hself.known]
      | cons first others =>
        obtain ⟨hfirst, hothers⟩ := List.forall_mem_cons.mp hparts
        rw [ofExpr, ofExpr, hfirst, ofExprs_of_eq hothers]
    | call f args ty =>
      obtain ⟨hf, hargs⟩ := List.forall_mem_cons.mp hparts
      rw [ofExpr, ofExpr, hf, ofExprs_of_eq hargs]
    | member o field ty => rw [ofExpr, ofExpr, List.forall_mem_singleton.mp hparts]
    | subscript a i ty =>
      obtain ⟨ha, hi⟩ := List.forall_mem_cons.mp hparts
      rw [ofExpr, ofExpr, ha, List.forall_mem_singleton.mp hi]

/-! ### Statements -/

theorem functionHeader_of_kept (hE : E.InRange) (h : E.Kept E') {id : FunctionId}
    {params : List VariableId}
    (hbound : ∀ x ∈ EntityId.func id :: params.map .var, E.HasRow x) :
    functionHeader E' id params = functionHeader E id params := by
  obtain ⟨hid, hparams⟩ := List.forall_mem_cons.mp hbound
  have hall : ∀ p ∈ params, annotated E' (ofVariable E' p) (E'.variableAt p).ty =
      annotated E (ofVariable E p) (E.variableAt p).ty := by
    intro p hp
    have hrow := hparams _ (List.mem_map_of_mem hp)
    rw [ofVariable_of_kept h hrow, variableAt_of_kept h hrow,
      annotated_of_kept h _ (hE.variableAt p)]
  rw [functionHeader, functionHeader, ofFunction_of_kept h hid, functionAt_of_kept h hid,
    describe_of_kept h _ (hE.functionAt id).2, List.map_congr_left hall]

theorem variableLine_of_kept (hE : E.InRange) (h : E.Kept E') {id : VariableId}
    {initializer : Option Expr} (hid : E.HasRow (.var id))
    (hvalue : ∀ e ∈ initializer, e.InRange E) :
    variableLine E' id initializer = variableLine E id initializer := by
  have hname := annotated_of_kept h (ofVariable E id) (hE.variableAt id)
  simp only [variableLine, variableAt_of_kept h hid, ofVariable_of_kept h hid, hname]
  cases initializer with
  | none => rfl
  | some e => simp only [ofExpr_of_kept h e (hvalue e rfl)]

theorem structLine_of_kept (hE : E.InRange) (h : E.Kept E') {id : StructId}
    (hid : E.HasRow (.struct id)) : structLine E' id = structLine E id := by
  have hfields : ∀ field ∈ (E.structAt id).fields, annotated E' field.name field.ty =
      annotated E field.name field.ty :=
    fun field hf => annotated_of_kept h _ (hE.structAt id field hf)
  rw [structLine, structLine, structAt_of_kept h hid, ofStruct_of_kept h hid,
    List.map_congr_left hfields]

theorem ofStmts_of_eq (ss : List Stmt)
    (h : ∀ s ∈ ss, ∀ depth, ofStmt E' depth s = ofStmt E depth s) (depth : Nat) :
    ofStmts E' depth ss = ofStmts E depth ss := by
  induction ss with
  | nil => rfl
  | cons s ss ih =>
    obtain ⟨hs, hss⟩ := List.forall_mem_cons.mp h
    rw [ofStmts, ofStmts, hs depth, ih hss]

/-- **The lines of a statement in range need no rows but those of its tables.** -/
theorem ofStmt_of_kept (hE : E.InRange) (h : E.Kept E') (s : Stmt) (hs : s.InRange E)
    (depth : Nat) : ofStmt E' depth s = ofStmt E depth s := by
  induction s using Stmt.parts_induction generalizing depth with
  | step s ih =>
    have hbound := Stmt.Throughout.self hs
    have hexprs : ∀ e ∈ s.exprs, ofExpr E' e = ofExpr E e :=
      fun e he => ofExpr_of_kept h e (Stmt.Throughout.expr hs he)
    have hparts : ∀ part ∈ s.parts, ∀ depth, ofStmt E' depth part = ofStmt E depth part :=
      fun part hp => ih part hp (Stmt.Throughout.part hs hp)
    cases s with
    | declareVariable id initializer =>
      rw [ofStmt, ofStmt, variableLine_of_kept hE h (hbound _ List.mem_cons_self)
        fun e he => Stmt.Throughout.expr hs (Option.mem_toList.mpr he)]
    | declareFunction id params body =>
      rw [ofStmt, ofStmt, functionHeader_of_kept hE h hbound, ofStmts_of_eq body hparts]
    | declareStruct id | declareClass id =>
      rw [ofStmt, ofStmt, structLine_of_kept hE h (hbound _ List.mem_cons_self)]
    | ifThen test c | whileLoop test c =>
      rw [ofStmt, ofStmt, List.forall_mem_singleton.mp hexprs, ofStmts_of_eq c hparts]
    | ifElse test c a =>
      obtain ⟨hc, ha⟩ := List.forall_mem_append.mp hparts
      rw [ofStmt, ofStmt, List.forall_mem_singleton.mp hexprs, ofStmts_of_eq c hc,
        ofStmts_of_eq a ha]
    | ifElseIf test c a =>
      obtain ⟨hc, ha⟩ := List.forall_mem_append.mp hparts
      rw [ofStmt, ofStmt, List.forall_mem_singleton.mp hexprs, ofStmts_of_eq c hc,
        List.forall_mem_singleton.mp ha]
    | rangeLoop id low op high body =>
      obtain ⟨hl, hh⟩ := List.forall_mem_cons.mp hexprs
      rw [ofStmt, ofStmt, ofVariable_of_kept h (hbound _ List.mem_cons_self), hl,
        List.forall_mem_singleton.mp hh, ofStmts_of_eq body hparts]
    | collectionLoop id e body =>
      rw [ofStmt, ofStmt, ofVariable_of_kept h (hbound _ List.mem_cons_self),
        List.forall_mem_singleton.mp hexprs, ofStmts_of_eq body hparts]
    | tryCatch body error handler =>
      obtain ⟨hb, hh⟩ := List.forall_mem_append.mp hparts
      cases error with
      | none => rw [ofStmt, ofStmt, ofStmts_of_eq body hb, ofStmts_of_eq handler hh]
      | some id =>
        rw [ofStmt, ofStmt, ofStmts_of_eq body hb, ofStmts_of_eq handler hh]
        simp only [ofVariable_of_kept h (hbound _ List.mem_cons_self)]
    | ret value =>
      cases value with
      | none => rfl
      | some e => rw [ofStmt, ofStmt, List.forall_mem_singleton.mp hexprs]
    | breakLoop | continueLoop => rfl
    | print e | increment e | decrement e | call e =>
      rw [ofStmt, ofStmt, List.forall_mem_singleton.mp hexprs]
    | assign target source =>
      obtain ⟨ht, hs⟩ := List.forall_mem_cons.mp hexprs
      rw [ofStmt, ofStmt, ht, List.forall_mem_singleton.mp hs]

end Listing

/-- **Rows behind those of a program do not change its listing**, so it looks up no others. -/
theorem Program.InRange.listing_eq {p : Program} (hp : p.InRange) {E' : Entities}
    (h : p.entities.Kept E') : Listing.render E' p.statements = p.listing := by
  have hall : ∀ s ∈ p.statements, ∀ depth,
      Listing.ofStmt E' depth s = Listing.ofStmt p.entities depth s :=
    fun s hs => Listing.ofStmt_of_kept hp.tables h s (hp.statements s hs)
  rw [listing, Listing.render, Listing.render, Listing.ofStmts_of_eq _ hall]

end TypedImp
