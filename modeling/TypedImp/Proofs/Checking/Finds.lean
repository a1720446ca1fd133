import TypedImp.Proofs.Checking.Points
import TypedImp.Proofs.Tables.Found

/-!
# Checking finds every row

Checking ends with `Fault.noRow` if it looks for a row that is not there.  `Result.Finds` says that
a result is not this one, and it is kept by `>>=`; so there is one lemma for each step of checking,
which takes the rows that the step reads from what its environment has in range.

* **`checkExpr_finds`**, **`checkStmt_finds`**: where all is in range, checking ends in a tree or
  with a rule that is broken.  This is an induction over the tree; what is looked up behind a part
  is there since the part leaves all in range (`Env.InRange.stmt`).
-/

namespace TypedImp.Checking

open Entities

variable {α β : Type} {env : Env}

/-- **No row is missed.** -/
def Result.Finds (x : Result α) : Prop :=
  ∀ (missing : NoRow) (span : Span), x ≠ .error ⟨.noRow missing, span⟩

theorem finds_pure (a : α) : Result.Finds (pure a) := nofun

theorem Result.Finds.bind {x : Result α} {f : α → Result β} (hx : x.Finds)
    (hf : ∀ a, x = .ok a → (f a).Finds) : (x >>= f).Finds := by
  intro missing span h
  cases x with
  | error fault =>
    cases h
    exact hx missing span rfl
  | ok a => exact hf a rfl missing span h

theorem finds_refuse {fault : Fault} {span : Span}
    (h : ∀ missing, fault ≠ .noRow missing := by intro _ h; cases h) :
    Result.Finds (refuse fault span : Result α) := by
  intro missing other hfault
  cases hfault
  exact h missing rfl

theorem finds_require {kept : Bool} {fault : Fault} {span : Span}
    (h : ∀ missing, fault ≠ .noRow missing := by intro _ h; cases h) :
    Result.Finds (require kept fault span) := by
  cases kept with
  | true => exact finds_pure ()
  | false => exact finds_refuse h

/-- What is looked up is at hand. -/
theorem finds_look_bind {x : Lookup α} {a : α} {span : Span} {f : α → Result β} (hx : x = .ok a)
    (hf : (f a).Finds) : Result.Finds (look x span >>= f) := by
  rw [hx]
  exact hf

/-! ### Types -/

mutual

theorem resolveType_finds (scope : Scope) (type : Tree.TypeExpr) :
    (resolveType scope type).Finds := by
  cases type with
  | named name =>
    rw [resolveType]
    split
    · exact finds_pure _
    · exact finds_pure _
    · exact finds_refuse
    · exact finds_refuse
  | array element => exact (resolveType_finds scope element).bind fun _ _ => finds_pure _
  | function params result =>
    refine (resolveTypes_finds scope params).bind fun _ _ => ?_
    exact (resolveType_finds scope result).bind fun _ _ => finds_pure _
termination_by structural type

theorem resolveTypes_finds (scope : Scope) (types : List Tree.TypeExpr) :
    (resolveTypes scope types).Finds := by
  cases types with
  | nil => exact finds_pure _
  | cons type types =>
    refine (resolveType_finds scope type).bind fun _ _ => ?_
    exact (resolveTypes_finds scope types).bind fun _ _ => finds_pure _
termination_by structural types

end

/-! ### Expressions -/

/-- The two types that do not fit each other are spelled in the message. -/
theorem requireAssignable_finds {E : Entities} {source : Expr} {target : Ty} {span : Span}
    (hsource : source.ty.Known E) (htarget : target.Known E) :
    (requireAssignable E source target span).Finds := by
  rw [requireAssignable]
  split
  · exact finds_pure ()
  · refine finds_look_bind (tryDescribe_eq _ hsource) ?_
    exact finds_look_bind (tryDescribe_eq _ htarget) finds_refuse

theorem elementOf_finds (array : Expr) (span : Span) : (elementOf array span).Finds := by
  rw [elementOf]
  split
  · exact finds_pure _
  · exact finds_refuse

theorem requireLeft_finds (operands : Operands) (left : Expr) (span : Span) :
    (requireLeft operands left span).Finds := by
  cases operands with
  | alike => exact finds_pure ()
  | bools | numbers | ordered => exact finds_require

theorem requireRight_finds (operands : Operands) (left right : Expr) (span : Span) :
    (requireRight operands left right span).Finds := by
  cases operands with
  | bools | numbers | ordered | alike => exact finds_require

/-- The row of what a name stands for is read for its type. -/
theorem checkName_finds (henv : env.InRange) (name : Tree.Name) : (checkName env name).Finds := by
  rw [checkName]
  split
  · rename_i id hfind
    exact finds_look_bind (tryVariable_eq (henv.scope.find? hfind)) (finds_pure _)
  · rename_i id hfind
    exact finds_look_bind (tryFunction_eq (henv.scope.find? hfind)) (finds_pure _)
  · rename_i id hfind
    exact finds_look_bind (tryConstructor_eq (henv.scope.find? hfind)) (finds_pure _)
  · exact finds_refuse
  · exact finds_refuse

theorem fieldTy_finds {E : Entities} {object : Ty} (hobject : object.Known E)
    (field : Tree.Name) : (fieldTy E object field).Finds := by
  cases object with
  | struct id =>
    refine finds_look_bind (tryField_eq hobject field.text) ?_
    cases E.field? id field.text with
    | none => exact finds_refuse
    | some found => exact finds_pure _
  | _ => exact finds_refuse

theorem signatureFor_finds (callee : Expr) (count : Nat) (span : Span) :
    (signatureFor callee count span).Finds := by
  rw [signatureFor]
  split
  · exact Result.Finds.bind finds_require fun _ _ => finds_pure _
  · exact finds_refuse

theorem arrayTy_finds (elements : List Expr) (span : Span) : (arrayTy elements span).Finds := by
  cases elements with
  | nil => exact finds_refuse
  | cons first others => exact Result.Finds.bind finds_require fun _ _ => finds_pure _

mutual

/-- **Checking an expression finds every row that it reads.** -/
theorem checkExpr_finds (henv : env.InRange) (tree : Tree.Expr) :
    (checkExpr env tree).Finds := by
  cases tree with
  | number | string | bool => exact finds_pure _
  | name name => exact checkName_finds henv name
  | binary op left right =>
    refine (checkExpr_finds henv left).bind fun l _ => ?_
    refine (requireLeft_finds _ l _).bind fun _ _ => ?_
    refine (checkExpr_finds henv right).bind fun r _ => ?_
    exact (requireRight_finds _ l r _).bind fun _ _ => finds_pure _
  | unary op operand =>
    refine (checkExpr_finds henv operand).bind fun e _ => ?_
    cases op with
    | neg | not => exact Result.Finds.bind finds_require fun _ _ => finds_pure _
  | array elements span =>
    refine (checkExprs_finds henv elements).bind fun es _ => ?_
    exact (arrayTy_finds es span).bind fun _ _ => finds_pure _
  | emptyArray element =>
    exact (resolveType_finds env.scope element).bind fun _ _ => finds_pure _
  | call callee args span =>
    refine (checkExpr_finds henv callee).bind fun f hf => ?_
    refine (signatureFor_finds f _ span).bind fun signature hs => ?_
    -- The parameters stand in the type of the callee, so their structs have rows.
    have hknown := (checkExpr_inRange henv callee hf).ty
    rw [(signatureFor_eq_ok hs).1] at hknown
    refine (checkArgs_finds henv args (Ty.knownAll_iff.mp hknown.1)).bind fun _ _ => ?_
    exact finds_pure _
  | member object field =>
    refine (checkExpr_finds henv object).bind fun o ho => ?_
    have hknown := (checkExpr_inRange henv object ho).ty
    exact (fieldTy_finds hknown field).bind fun _ _ => finds_pure _
  | subscript array index =>
    refine (checkExpr_finds henv array).bind fun a _ => ?_
    refine (elementOf_finds a _).bind fun _ _ => ?_
    refine (checkExpr_finds henv index).bind fun i _ => ?_
    exact Result.Finds.bind finds_require fun _ _ => finds_pure _
termination_by structural tree

theorem checkExprs_finds (henv : env.InRange) (trees : List Tree.Expr) :
    (checkExprs env trees).Finds := by
  cases trees with
  | nil => exact finds_pure _
  | cons tree trees =>
    refine (checkExpr_finds henv tree).bind fun _ _ => ?_
    exact (checkExprs_finds henv trees).bind fun _ _ => finds_pure _
termination_by structural trees

theorem checkArgs_finds (henv : env.InRange) (trees : List Tree.Expr) {tys : List Ty}
    (htys : ∀ ty ∈ tys, ty.Known env.entities) : (checkArgs env trees tys).Finds := by
  cases trees with
  | nil => exact finds_pure _
  | cons tree trees =>
    cases tys with
    | nil => exact finds_pure _
    | cons ty tys =>
      obtain ⟨hty, htys⟩ := List.forall_mem_cons.mp htys
      refine (checkExpr_finds henv tree).bind fun arg harg => ?_
      have hknown := (checkExpr_inRange henv tree harg).ty
      refine (requireAssignable_finds hknown hty).bind fun _ _ => ?_
      exact (checkArgs_finds henv trees htys).bind fun _ _ => finds_pure _
termination_by structural trees

end

theorem checkNumber_finds (henv : env.InRange) (tree : Tree.Expr) :
    (checkNumber env tree).Finds := by
  refine (checkExpr_finds henv tree).bind fun e _ => ?_
  exact Result.Finds.bind finds_require fun _ _ => finds_pure _

theorem checkCondition_finds (henv : env.InRange) (tree : Tree.Expr) :
    (checkCondition env tree).Finds := by
  refine (checkExpr_finds henv tree).bind fun e _ => ?_
  exact Result.Finds.bind finds_require fun _ _ => finds_pure _

/-- The row of a variable that is written to is read, since it may be a constant. -/
theorem checkTarget_finds (henv : env.InRange) (tree : Tree.Expr) :
    (checkTarget env tree).Finds := by
  refine (checkExpr_finds henv tree).bind fun e he => ?_
  have hself := (checkExpr_inRange henv tree he) e e.mem_nested_self
  cases e with
  | var id ty =>
    refine finds_look_bind (tryVariable_eq (hself.row _ rfl)) ?_
    exact Result.Finds.bind finds_require fun _ _ => finds_pure _
  | member | subscript => exact finds_pure _
  | _ => exact Result.Finds.bind finds_refuse fun _ _ => finds_pure _

theorem checkNumberTarget_finds (henv : env.InRange) (tree : Tree.Expr) :
    (checkNumberTarget env tree).Finds := by
  refine (checkTarget_finds henv tree).bind fun e _ => ?_
  exact Result.Finds.bind finds_require fun _ _ => finds_pure _

/-! ### Declarations -/

theorem checkOption_finds (henv : env.InRange) (written : Option Tree.Expr) :
    (checkOption env written).Finds := by
  cases written with
  | none => exact finds_pure _
  | some tree => exact (checkExpr_finds henv tree).bind fun _ _ => finds_pure _

theorem variableTy_finds (henv : env.InRange) (name : Tree.Name) (type : Option Tree.TypeExpr)
    (written : Option Tree.Expr) {initializer : Option Expr}
    (hvalue : ∀ e ∈ initializer, e.ty.Known env.entities) :
    (variableTy env name type written initializer).Finds := by
  cases type with
  | none =>
    cases initializer with
    | none => exact finds_refuse
    | some value => exact finds_pure _
  | some type =>
    refine (resolveType_finds env.scope type).bind fun ty hty => ?_
    have hknown : ty.Known env.entities := resolveType_keeps henv.keeps type hty
    cases initializer with
    | none => exact finds_pure _
    | some value =>
      cases written with
      | none => exact finds_pure _
      | some tree =>
        exact (requireAssignable_finds (hvalue value rfl) hknown).bind fun _ _ => finds_pure _

theorem declareVariable_finds (henv : env.InRange) (name : Tree.Name) (readOnly : Bool)
    (type : Option Tree.TypeExpr) (written : Option Tree.Expr) (span : Span) :
    (declareVariable env name readOnly type written span).Finds := by
  refine Result.Finds.bind finds_require fun _ _ => Result.Finds.bind finds_require fun _ _ => ?_
  refine (checkOption_finds henv written).bind fun initializer hinit => ?_
  have hvalue : ∀ e ∈ initializer, e.ty.Known env.entities := by
    intro e he
    obtain ⟨tree, _, he⟩ := (checkOption_eq_ok hinit).2 e he
    exact (checkExpr_inRange henv tree he).ty
  refine (variableTy_finds henv name type written hvalue).bind fun ty _ => ?_
  exact Result.Finds.bind finds_require fun _ _ => finds_pure _

theorem declareParams_finds (env : Env) (params : List Tree.Annotated) :
    (declareParams env params).Finds := by
  induction params generalizing env with
  | nil => exact finds_pure _
  | cons param params ih =>
    refine Result.Finds.bind finds_require fun _ _ => ?_
    refine (resolveType_finds env.scope param.type).bind fun ty _ => ?_
    refine Result.Finds.bind finds_require fun _ _ => ?_
    exact (ih _).bind fun _ _ => finds_pure _

theorem resultType_finds (scope : Scope) (result : Option Tree.TypeExpr) :
    (resultType scope result).Finds := by
  cases result with
  | none => exact finds_pure _
  | some type => exact resolveType_finds scope type

/-- The row of a function is completed behind its parameters, which took none away. -/
theorem openFunction_finds (henv : env.InRange) (name : Tree.Name) (params : List Tree.Annotated)
    (result : Option Tree.TypeExpr) : (openFunction env name params result).Finds := by
  refine Result.Finds.bind finds_require fun _ hnew => ?_
  refine (resultType_finds _ result).bind fun ty _ => ?_
  refine (declareParams_finds _ params).bind fun found hfound => ?_
  obtain ⟨ids, tys, inner⟩ := found
  obtain ⟨-, hinside, hrow⟩ := henv.enterFunction (requireNew_eq_ok hnew)
  have hlater := ((hinside.declareParams params).last _ hfound).noShorter
  exact finds_look_bind (trySetSignature_eq (hrow.mono hlater) _) (finds_pure _)

theorem resolveFields_finds (scope : Scope) (seen : List String) (fields : List Tree.Annotated) :
    (resolveFields scope seen fields).Finds := by
  induction fields generalizing seen with
  | nil => exact finds_pure _
  | cons field fields ih =>
    refine Result.Finds.bind finds_require fun _ _ => ?_
    refine (resolveType_finds scope field.type).bind fun ty _ => ?_
    exact (ih _).bind fun _ _ => finds_pure _

/-- The row of a struct is completed before it is searched for the struct itself. -/
theorem declareStruct_finds (henv : env.InRange) (name : Tree.Name)
    (fields : List Tree.Annotated) (isClass : Bool) (span : Span) :
    (declareStruct env name fields isClass span).Finds := by
  refine Result.Finds.bind finds_require fun _ _ => Result.Finds.bind finds_require fun _ hnew => ?_
  refine (resolveFields_finds _ _ fields).bind fun rows hrows => ?_
  have hadd : env.Move (env.addStruct name.text isClass).2 := .addStruct (requireNew_eq_ok hnew)
  have hdeclared := henv.move hadd
  have hrow := (env.entities.addStruct_row ⟨name.text, [], isClass⟩).1
  have hset := hdeclared.move (.setFields hrow (resolveFields_keeps hdeclared.keeps hrows))
  refine finds_look_bind (trySetFields_eq hrow rows) ?_
  refine finds_look_bind (tryContains_eq hset.tables (hrow.mono ?_) _) ?_
  · exact noShorter_setFields _ _ _
  · exact Result.Finds.bind finds_require fun _ _ => finds_pure _

/-! ### Statements -/

/-- The row of the function whose body this is is read for what it returns. -/
theorem checkReturn_finds (henv : env.InRange) (value : Option Tree.Expr) (span : Span) :
    (checkReturn env value span).Finds := by
  rw [checkReturn]
  split
  · exact finds_refuse
  · rename_i id hfunction
    refine finds_look_bind (tryFunction_eq (henv.scope.function hfunction)) ?_
    cases value with
    | none => exact Result.Finds.bind finds_require fun _ _ => finds_pure _
    | some tree =>
      refine Result.Finds.bind finds_require fun _ _ => ?_
      refine (checkExpr_finds henv tree).bind fun e he => ?_
      have hresult := (henv.tables.functionAt id).2
      have hknown := (checkExpr_inRange henv tree he).ty
      exact (requireAssignable_finds hknown hresult).bind fun _ _ => finds_pure _

/-- Behind braces all is in range. -/
theorem Env.InRange.behind (henv : env.InRange) {o : Overrides} (ho : o.function = none)
    {trees : List Tree.Stmt} {ss : List Stmt} {last : Env}
    (h : checkStmts (env.within (env.scope.enter o)) trees = .ok (ss, last)) :
    (last.around env.scope).InRange := by
  obtain ⟨hmove, hinside⟩ := henv.enter ho
  have hway := hinside.stmts trees
  have hgrown := hmove.noShorter.trans (hway.last _ h).noShorter
  exact ⟨(hway.inRange hinside h).tables, henv.scope.mono hgrown⟩

mutual

/-- **Checking a statement finds every row that it reads.** -/
theorem checkStmt_finds {env : Env} (henv : env.InRange) (tree : Tree.Stmt) :
    (checkStmt env tree).Finds := by
  cases tree with
  | declareVariable => exact declareVariable_finds henv _ _ _ _ _
  | declareStruct => exact declareStruct_finds henv _ _ _ _
  | declareFunction name params result body =>
    obtain ⟨body, _⟩ := body
    refine (openFunction_finds henv name params result).bind fun f hf => ?_
    have hinner := (henv.openFunction name params result).inRange henv hf
    exact (checkStmts_finds hinner body).bind fun _ _ => finds_pure _
  | ifThen test c =>
    obtain ⟨c, _⟩ := c
    refine (checkCondition_finds henv test).bind fun _ _ => ?_
    have hinside := (henv.enter (o := {}) rfl).2
    exact (checkStmts_finds hinside c).bind fun _ _ => finds_pure _
  | whileLoop test body =>
    obtain ⟨body, _⟩ := body
    refine (checkCondition_finds henv test).bind fun _ _ => ?_
    have hinside := (henv.enter (o := { inLoop := some true }) rfl).2
    exact (checkStmts_finds hinside body).bind fun _ _ => finds_pure _
  | ifElse test c a =>
    obtain ⟨c, _⟩ := c
    obtain ⟨a, _⟩ := a
    refine (checkCondition_finds henv test).bind fun _ _ => ?_
    have hinside := (henv.enter (o := {}) rfl).2
    refine (checkStmts_finds hinside c).bind fun found hc => ?_
    have hmid := henv.behind rfl hc
    have hinside := (hmid.enter (o := {}) rfl).2
    exact (checkStmts_finds hinside a).bind fun _ _ => finds_pure _
  | ifElseIf test c a =>
    obtain ⟨c, _⟩ := c
    refine (checkCondition_finds henv test).bind fun _ _ => ?_
    have hinside := (henv.enter (o := {}) rfl).2
    refine (checkStmts_finds hinside c).bind fun found hc => ?_
    have hmid := henv.behind rfl hc
    exact (checkStmt_finds hmid a).bind fun _ _ => finds_pure _
  | rangeLoop iterator low op high body =>
    obtain ⟨body, _⟩ := body
    refine (checkNumber_finds henv low).bind fun _ _ => ?_
    refine (checkNumber_finds henv high).bind fun _ _ => ?_
    have hinner := (henv.iterator iterator.text .number trivial).2
    exact (checkStmts_finds hinner body).bind fun _ _ => finds_pure _
  | collectionLoop iterator collection body =>
    obtain ⟨body, _⟩ := body
    refine (checkExpr_finds henv collection).bind fun e he => ?_
    refine (elementOf_finds e _).bind fun element hty => ?_
    have hknown := (checkExpr_inRange henv collection he).ty
    rw [elementOf_eq_ok hty] at hknown
    have hinner := (henv.iterator iterator.text element hknown).2
    exact (checkStmts_finds hinner body).bind fun _ _ => finds_pure _
  | ret value span => exact (checkReturn_finds henv value span).bind fun _ _ => finds_pure _
  | breakLoop | continueLoop => exact Result.Finds.bind finds_require fun _ _ => finds_pure _
  | tryCatch body error handler =>
    obtain ⟨body, _⟩ := body
    obtain ⟨handler, _⟩ := handler
    have hinside := (henv.enter (o := {}) rfl).2
    refine (checkStmts_finds hinside body).bind fun found hbody => ?_
    have hmid := henv.behind rfl hbody
    have hinside := (hmid.enter (o := {}) rfl).2
    -- The name of the error is bound in the frame of the handler.
    have hpath := (Env.InRange.declareError (found.2.around env.scope.enterBlock)
      (fun _ => rfl) error).1
    have hinner := (hpath.induction Env.InRange.move hinside).2
    exact (checkStmts_finds hinner handler).bind fun _ _ => finds_pure _
  | print value => exact (checkExpr_finds henv value).bind fun _ _ => finds_pure _
  | increment target | decrement target =>
    exact (checkNumberTarget_finds henv target).bind fun _ _ => finds_pure _
  | assign target value =>
    refine (checkTarget_finds henv target).bind fun t ht => ?_
    refine (checkExpr_finds henv value).bind fun e he => ?_
    have htarget := (checkExpr_inRange henv target (checkTarget_eq_ok ht).1).ty
    have hsource := (checkExpr_inRange henv value he).ty
    exact (requireAssignable_finds hsource htarget).bind fun _ _ => finds_pure _
  | call call => exact (checkExpr_finds henv call).bind fun _ _ => finds_pure _
termination_by structural tree

theorem checkStmts_finds {env : Env} (henv : env.InRange) (trees : List Tree.Stmt) :
    (checkStmts env trees).Finds := by
  cases trees with
  | nil => exact finds_pure _
  | cons tree trees =>
    refine (checkStmt_finds henv tree).bind fun found hfound => ?_
    have hnext := (henv.stmt tree).inRange henv hfound
    exact (checkStmts_finds hnext trees).bind fun _ _ => finds_pure _
termination_by structural trees

end

/-- **Checking a whole program finds every row that it reads.** -/
theorem ofTree_finds (trees : List Tree.Stmt) : (Program.ofTree trees).Finds :=
  (checkStmts_finds Env.inRange_root trees).bind fun _ _ => finds_pure _

/-- In a scope that is not in range a row is missed. -/
example :
    let blank : Span := ⟨.start, 0⟩
    checkExpr ⟨Scope.root.bind "x" (.var ⟨7⟩), .initial⟩ (.name ⟨"x", blank⟩) =
      .error ⟨.noRow ⟨1, 7⟩, blank⟩ := by
  rfl

end TypedImp.Checking
