import TypedImp.Program.Printing
import TypedImp.Proofs.Listing.Kept
import TypedImp.Proofs.Tables.Found

/-!
# Printing finds every row

A run reads all names and types that it prints from the tables.  Where a program is in range they
are all there, so printing does not fail, and it prints the listing: **`Program.InRange.print_eq`**.
Each part of a listing has a lemma that says the same of it, and it is said of expressions and of
statements by induction on their parts.
-/

namespace TypedImp

/-- A list is gone through to its end if nothing in it fails. -/
theorem mapM_eq_ok {ε α β : Type} {f : α → Except ε β} {g : α → β} {l : List α}
    (h : ∀ a ∈ l, f a = .ok (g a)) : l.mapM f = .ok (l.map g) := by
  induction l with
  | nil => rfl
  | cons a l ih =>
    obtain ⟨ha, hl⟩ := List.forall_mem_cons.mp h
    rw [List.mapM_cons, ha, ih hl]
    rfl

namespace Listing

open Entities

variable {E : Entities}

/-! ### Expressions -/

theorem tryVariable_eq_ofVariable {id : VariableId} (h : E.HasRow (.var id)) :
    tryVariable E id = .ok (ofVariable E id) := by
  rw [tryVariable, tryVariable_eq h]
  rfl

theorem tryFunction_eq_ofFunction {id : FunctionId} (h : E.HasRow (.func id)) :
    tryFunction E id = .ok (ofFunction E id) := by
  rw [tryFunction, tryFunction_eq h]
  rfl

theorem tryStruct_eq_ofStruct {id : StructId} (h : E.HasRow (.struct id)) :
    tryStruct E id = .ok (ofStruct E id) := by
  rw [tryStruct, tryStruct_eq h]
  rfl

theorem tryExprs_eq_ofExprs {es : List Expr} (h : ∀ e ∈ es, tryExpr E e = .ok (ofExpr E e)) :
    tryExprs E es = .ok (ofExprs E es) := by
  induction es with
  | nil => rfl
  | cons e es ih =>
    obtain ⟨he, hes⟩ := List.forall_mem_cons.mp h
    rw [tryExprs, he, ih hes]
    rfl

/-- **The text of an expression in range is printed.** -/
theorem tryExpr_eq_ofExpr (e : Expr) (he : e.InRange E) : tryExpr E e = .ok (ofExpr E e) := by
  induction e using Expr.parts_induction with
  | step e ih =>
    have hself := he e e.mem_nested_self
    have hparts : ∀ part ∈ e.parts, tryExpr E part = .ok (ofExpr E part) := fun part hp =>
      ih part hp fun x hx => he x (Expr.mem_nested_of_part hp hx)
    cases e with
    | number | string | bool => rfl
    | var => exact tryVariable_eq_ofVariable (hself.row _ rfl)
    | func => exact tryFunction_eq_ofFunction (hself.row _ rfl)
    | struct => exact tryStruct_eq_ofStruct (hself.row _ rfl)
    | binary op l r ty =>
      obtain ⟨hl, hr⟩ := List.forall_mem_cons.mp hparts
      rw [tryExpr, hl, List.forall_mem_singleton.mp hr]
      rfl
    | unary op x ty =>
      rw [tryExpr, List.forall_mem_singleton.mp hparts]
      rfl
    | array es ty =>
      cases es with
      | nil =>
        rw [tryExpr, tryDescribe_eq ty hself.known]
        rfl
      | cons first others =>
        obtain ⟨hfirst, hothers⟩ := List.forall_mem_cons.mp hparts
        rw [tryExpr, hfirst, tryExprs_eq_ofExprs hothers]
        rfl
    | call f args ty =>
      obtain ⟨hf, hargs⟩ := List.forall_mem_cons.mp hparts
      rw [tryExpr, hf, tryExprs_eq_ofExprs hargs]
      rfl
    | member o field ty =>
      rw [tryExpr, List.forall_mem_singleton.mp hparts]
      rfl
    | subscript a i ty =>
      obtain ⟨ha, hi⟩ := List.forall_mem_cons.mp hparts
      rw [tryExpr, ha, List.forall_mem_singleton.mp hi]
      rfl

/-! ### Statements -/

theorem tryAnnotated_eq (name : String) {ty : Ty} (hty : ty.Known E) :
    tryAnnotated E name ty = .ok (annotated E name ty) := by
  rw [tryAnnotated, tryDescribe_eq ty hty]
  rfl

theorem tryFunctionHeader_eq (hE : E.InRange) {id : FunctionId} {params : List VariableId}
    (hbound : ∀ x ∈ EntityId.func id :: params.map .var, E.HasRow x) :
    tryFunctionHeader E id params = .ok (functionHeader E id params) := by
  obtain ⟨hid, hparams⟩ := List.forall_mem_cons.mp hbound
  have hall : ∀ p ∈ params, tryParam E p =
      .ok (annotated E (ofVariable E p) (E.variableAt p).ty) := by
    intro p hp
    have hrow := hparams _ (List.mem_map_of_mem hp)
    rw [tryParam, tryVariable_eq_ofVariable hrow, tryVariable_eq hrow]
    exact tryAnnotated_eq _ (hE.variableAt p)
  rw [tryFunctionHeader, tryFunction_eq hid, mapM_eq_ok hall, tryFunction_eq_ofFunction hid]
  simp only [bind, Except.bind, tryDescribe_eq _ (hE.functionAt id).2]
  rfl

theorem tryVariableLine_eq (hE : E.InRange) {id : VariableId} {initializer : Option Expr}
    (hid : E.HasRow (.var id)) (hvalue : ∀ e ∈ initializer, e.InRange E) :
    tryVariableLine E id initializer = .ok (variableLine E id initializer) := by
  have hname := tryAnnotated_eq (ofVariable E id) (hE.variableAt id)
  rw [tryVariableLine, tryVariable_eq hid, tryVariable_eq_ofVariable hid]
  cases initializer with
  | none =>
    simp only [bind, Except.bind, hname]
    rfl
  | some e =>
    simp only [bind, Except.bind, hname, tryExpr_eq_ofExpr e (hvalue e rfl)]
    rfl

theorem tryStructLine_eq (hE : E.InRange) {id : StructId} (hid : E.HasRow (.struct id)) :
    tryStructLine E id = .ok (structLine E id) := by
  have hfields : ∀ field ∈ (E.structAt id).fields, tryAnnotated E field.name field.ty =
      .ok (annotated E field.name field.ty) :=
    fun field hf => tryAnnotated_eq _ (hE.structAt id field hf)
  rw [tryStructLine, tryStruct_eq hid]
  simp only [bind, Except.bind, mapM_eq_ok hfields]
  rfl

theorem tryStmts_eq_ofStmts (ss : List Stmt)
    (h : ∀ s ∈ ss, ∀ depth, tryStmt E depth s = .ok (ofStmt E depth s)) (depth : Nat) :
    tryStmts E depth ss = .ok (ofStmts E depth ss) := by
  induction ss with
  | nil => rfl
  | cons s ss ih =>
    obtain ⟨hs, hss⟩ := List.forall_mem_cons.mp h
    rw [tryStmts, hs depth, ih hss]
    rfl

/-- **The lines of a statement in range are printed.** -/
theorem tryStmt_eq_ofStmt (hE : E.InRange) (s : Stmt) (hs : s.InRange E) (depth : Nat) :
    tryStmt E depth s = .ok (ofStmt E depth s) := by
  induction s using Stmt.parts_induction generalizing depth with
  | step s ih =>
    have hbound := Stmt.Throughout.self hs
    have hexprs : ∀ e ∈ s.exprs, tryExpr E e = .ok (ofExpr E e) :=
      fun e he => tryExpr_eq_ofExpr e (Stmt.Throughout.expr hs he)
    have hparts : ∀ part ∈ s.parts, ∀ depth, tryStmt E depth part = .ok (ofStmt E depth part) :=
      fun part hp => ih part hp (Stmt.Throughout.part hs hp)
    cases s with
    | declareVariable id initializer =>
      rw [tryStmt, tryVariableLine_eq hE (hbound _ List.mem_cons_self)
        fun e he => Stmt.Throughout.expr hs (Option.mem_toList.mpr he)]
      rfl
    | declareFunction id params body =>
      rw [tryStmt, tryFunctionHeader_eq hE hbound, tryStmts_eq_ofStmts body hparts]
      rfl
    | declareStruct id | declareClass id =>
      rw [tryStmt, tryStructLine_eq hE (hbound _ List.mem_cons_self)]
      rfl
    | ifThen test c | whileLoop test c =>
      rw [tryStmt, List.forall_mem_singleton.mp hexprs, tryStmts_eq_ofStmts c hparts]
      rfl
    | ifElse test c a =>
      obtain ⟨hc, ha⟩ := List.forall_mem_append.mp hparts
      rw [tryStmt, List.forall_mem_singleton.mp hexprs, tryStmts_eq_ofStmts c hc,
        tryStmts_eq_ofStmts a ha]
      rfl
    | ifElseIf test c a =>
      obtain ⟨hc, ha⟩ := List.forall_mem_append.mp hparts
      rw [tryStmt, List.forall_mem_singleton.mp hexprs, tryStmts_eq_ofStmts c hc,
        List.forall_mem_singleton.mp ha]
      rfl
    | rangeLoop id low op high body =>
      obtain ⟨hl, hh⟩ := List.forall_mem_cons.mp hexprs
      rw [tryStmt, tryVariable_eq_ofVariable (hbound _ List.mem_cons_self), hl,
        List.forall_mem_singleton.mp hh, tryStmts_eq_ofStmts body hparts]
      rfl
    | collectionLoop id e body =>
      rw [tryStmt, tryVariable_eq_ofVariable (hbound _ List.mem_cons_self),
        List.forall_mem_singleton.mp hexprs, tryStmts_eq_ofStmts body hparts]
      rfl
    | tryCatch body error handler =>
      obtain ⟨hb, hh⟩ := List.forall_mem_append.mp hparts
      rw [tryStmt, tryStmts_eq_ofStmts body hb, tryStmts_eq_ofStmts handler hh]
      cases error with
      | none => rfl
      | some id =>
        simp only [tryVariable_eq_ofVariable (hbound _ List.mem_cons_self)]
        rfl
    | ret value =>
      cases value with
      | none => rfl
      | some e =>
        rw [tryStmt, List.forall_mem_singleton.mp hexprs]
        rfl
    | breakLoop | continueLoop => rfl
    | print e | increment e | decrement e | call e =>
      rw [tryStmt, List.forall_mem_singleton.mp hexprs]
      rfl
    | assign target source =>
      obtain ⟨ht, hs⟩ := List.forall_mem_cons.mp hexprs
      rw [tryStmt, ht, List.forall_mem_singleton.mp hs]
      rfl

end Listing

/-- **Printing a program in range finds every row**, and what it prints is the listing. -/
theorem Program.InRange.print_eq {p : Program} (hp : p.InRange) : p.print = .ok p.listing := by
  have hall : ∀ s ∈ p.statements, ∀ depth,
      Listing.tryStmt p.entities depth s = .ok (Listing.ofStmt p.entities depth s) :=
    fun s hs => Listing.tryStmt_eq_ofStmt hp.tables s (hp.statements s hs)
  rw [print, Listing.tryStmts_eq_ofStmts _ hall]
  rfl

end TypedImp
