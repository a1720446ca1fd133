import TypedImp.Checking.Stmt
import TypedImp.Proofs.Listing.Tree

/-!
# Checking does not look at places

Spans are in a parse tree for the sake of messages only.  A tree and the same tree without
its spans stand for the same program, or break the same rule; the place that is reported
is all that can differ.

`SameEnd E R x y` compares two results: both are values, related by `R`, or both are errors,
related by `E`.  For checking, values are the same and so are the broken rules (`Alike`).
This is kept by `>>=`, so there is one lemma for each step of checking, which compares what
it does with a part of a tree and with that part without spans.  `Program.ofTree_bare` is
the result for whole trees; trees of the same shape have the same bare tree, so they are
compared through it (**`Program.ofTree_alike`**).
-/

namespace TypedImp

/-! ### Results that end in the same way -/

section

variable {ε ε' α β : Type} {E : ε → ε → Prop} {R : α → α → Prop} {Q : β → β → Prop}

/-- **Two results end in the same way**: in values that `R` relates, or in errors that `E`
relates. -/
inductive SameEnd (E : ε → ε → Prop) (R : α → α → Prop) : Except ε α → Except ε α → Prop where
  | ok {a b : α} (h : R a b) : SameEnd E R (.ok a) (.ok b)
  | error {f g : ε} (h : E f g) : SameEnd E R (.error f) (.error g)

theorem SameEnd.bind {x y : Except ε α} {f g : α → Except ε β} (h : SameEnd E R x y)
    (hf : ∀ a b, R a b → SameEnd E Q (f a) (g b)) : SameEnd E Q (x >>= f) (y >>= g) := by
  cases h with
  | ok h => exact hf _ _ h
  | error h => exact .error h

theorem SameEnd.mapError {F : ε' → ε' → Prop} {k : ε → ε'} {x y : Except ε α}
    (h : SameEnd E R x y) (hk : ∀ f g, E f g → F (k f) (k g)) :
    SameEnd F R (x.mapError k) (y.mapError k) := by
  cases h with
  | ok h => exact .ok h
  | error h => exact .error (hk _ _ h)

theorem SameEnd.mono {F : ε → ε → Prop} {x y : Except ε α} (h : SameEnd E R x y)
    (hE : ∀ f g, E f g → F f g) : SameEnd F R x y := by
  cases h with
  | ok h => exact .ok h
  | error h => exact .error (hE _ _ h)

end

namespace Checking

variable {α β : Type}

/-- **Two outcomes are alike**: the same value, or the same broken rule. -/
def Alike (x y : Result α) : Prop := SameEnd (fun f g => f.cause = g.cause) Eq x y

theorem Alike.refl (x : Result α) : Alike x x := by
  cases x with
  | error fault => exact .error rfl
  | ok a => exact .ok rfl

theorem Alike.symm {x y : Result α} (h : Alike x y) : Alike y x := by
  cases h with
  | ok h => exact .ok h.symm
  | error h => exact .error h.symm

theorem Alike.trans {x y z : Result α} (h : Alike x y) (h' : Alike y z) : Alike x z := by
  cases h with
  | ok h =>
    cases h' with
    | ok h' => exact .ok (h.trans h')
  | error h =>
    cases h' with
    | error h' => exact .error (h.trans h')

theorem Alike.bind {x y : Result α} {f g : α → Result β} (h : Alike x y)
    (hf : ∀ a, Alike (f a) (g a)) : Alike (x >>= f) (y >>= g) :=
  SameEnd.bind h fun a b hab => by
    subst hab
    exact hf a

theorem alike_refuse (fault : Fault) (p q : Span) :
    Alike (refuse fault p : Result α) (refuse fault q) := .error rfl

theorem alike_require (kept : Bool) (fault : Fault) (p q : Span) :
    Alike (require kept fault p) (require kept fault q) := by
  cases kept
  · exact alike_refuse fault p q
  · exact .refl _

theorem alike_look (x : Lookup α) (p q : Span) : Alike (look x p) (look x q) := by
  cases x with
  | ok a => exact .refl _
  | error missing => exact alike_refuse _ p q

theorem bare_text (name : Tree.Name) : name.bare.text = name.text := rfl

/-! ### Types -/

mutual

theorem resolveType_bare (scope : Scope) :
    ∀ type : Tree.TypeExpr, Alike (resolveType scope type) (resolveType scope type.bare)
  | .named name => by
    rw [Tree.TypeExpr.bare, resolveType, resolveType, bare_text]
    split
    · exact .refl _
    · exact .refl _
    · exact alike_refuse _ _ _
    · exact alike_refuse _ _ _
  | .array element _ => by
    rw [Tree.TypeExpr.bare, resolveType, resolveType]
    exact (resolveType_bare scope element).bind fun _ => .refl _
  | .function params result _ => by
    rw [Tree.TypeExpr.bare, resolveType, resolveType]
    refine (resolveTypes_bare scope params).bind fun params => ?_
    exact (resolveType_bare scope result).bind fun _ => .refl _

theorem resolveTypes_bare (scope : Scope) : ∀ types : List Tree.TypeExpr,
    Alike (resolveTypes scope types) (resolveTypes scope (Tree.TypeExpr.bareAll types))
  | [] => .refl _
  | type :: types => by
    rw [Tree.TypeExpr.bareAll, resolveTypes, resolveTypes]
    refine (resolveType_bare scope type).bind fun ty => ?_
    exact (resolveTypes_bare scope types).bind fun _ => .refl _

end

/-! ### Expressions -/

theorem alike_requireLeft (operands : Operands) (left : Expr) (p q : Span) :
    Alike (requireLeft operands left p) (requireLeft operands left q) := by
  cases operands with
  | alike => exact .refl _
  | bools | numbers | ordered => exact alike_require _ _ p q

theorem alike_requireRight (operands : Operands) (left right : Expr) (p q : Span) :
    Alike (requireRight operands left right p) (requireRight operands left right q) := by
  cases operands <;> exact alike_require _ _ p q

theorem alike_requireAssignable (entities : Entities) (source : Expr) (target : Ty)
    (p q : Span) :
    Alike (requireAssignable entities source target p)
      (requireAssignable entities source target q) := by
  rw [requireAssignable, requireAssignable]
  split
  · exact .refl _
  · refine (alike_look _ p q).bind fun given => (alike_look _ p q).bind fun wanted => ?_
    exact alike_refuse _ p q

theorem alike_elementOf (array : Expr) (p q : Span) :
    Alike (elementOf array p) (elementOf array q) := by
  rw [elementOf, elementOf]
  split
  · exact .refl _
  · exact alike_refuse _ p q

theorem alike_signatureFor (callee : Expr) (count : Nat) (p q : Span) :
    Alike (signatureFor callee count p) (signatureFor callee count q) := by
  rw [signatureFor, signatureFor]
  split
  · exact (alike_require _ _ p q).bind fun _ => .refl _
  · exact alike_refuse _ p q

theorem alike_arrayTy (elements : List Expr) (p q : Span) :
    Alike (arrayTy elements p) (arrayTy elements q) := by
  cases elements with
  | nil => exact alike_refuse _ p q
  | cons first others => exact (alike_require _ _ p q).bind fun _ => .refl _

theorem checkName_bare (env : Env) (name : Tree.Name) :
    Alike (checkName env name) (checkName env name.bare) := by
  rw [checkName, checkName, bare_text]
  split
  · exact (alike_look _ _ _).bind fun _ => .refl _
  · exact (alike_look _ _ _).bind fun _ => .refl _
  · exact (alike_look _ _ _).bind fun _ => .refl _
  · exact alike_refuse _ _ _
  · exact alike_refuse _ _ _

theorem fieldTy_bare (entities : Entities) (object : Ty) (field : Tree.Name) :
    Alike (fieldTy entities object field) (fieldTy entities object field.bare) := by
  unfold fieldTy
  split
  · refine (alike_look _ _ _).bind fun found => ?_
    cases found with
    | none => exact alike_refuse _ _ _
    | some found => exact .refl _
  · exact alike_refuse _ _ _

mutual

theorem checkExpr_bare (env : Env) :
    ∀ e : Tree.Expr, Alike (checkExpr env e) (checkExpr env e.bare)
  | .number _ _ | .string _ _ | .bool _ _ => .refl _
  | .name name => checkName_bare env name
  | .binary op left right _ => by
    rw [Tree.Expr.bare, checkExpr, checkExpr]
    refine (checkExpr_bare env left).bind fun l => (alike_requireLeft _ l _ _).bind fun _ => ?_
    refine (checkExpr_bare env right).bind fun r => ?_
    exact (alike_requireRight _ l r _ _).bind fun _ => .refl _
  | .unary op operand _ => by
    rw [Tree.Expr.bare, checkExpr, checkExpr]
    refine (checkExpr_bare env operand).bind fun e => ?_
    cases op <;> exact (alike_require _ _ _ _).bind fun _ => .refl _
  | .array elements _ => by
    rw [Tree.Expr.bare, checkExpr, checkExpr]
    refine (checkExprs_bare env elements).bind fun elements => ?_
    exact (alike_arrayTy elements _ _).bind fun _ => .refl _
  | .emptyArray element _ => by
    rw [Tree.Expr.bare, checkExpr, checkExpr]
    exact (resolveType_bare env.scope element).bind fun _ => .refl _
  | .call callee args _ => by
    have hlength : (Tree.Expr.bareAll args).length = args.length := by
      rw [Tree.Expr.bareAll_eq_map, List.length_map]
    rw [Tree.Expr.bare, checkExpr, checkExpr, hlength]
    refine (checkExpr_bare env callee).bind fun callee => ?_
    refine (alike_signatureFor callee _ _ _).bind fun signature => ?_
    exact (checkArgs_bare env args _).bind fun _ => .refl _
  | .member object field _ => by
    rw [Tree.Expr.bare, checkExpr, checkExpr]
    refine (checkExpr_bare env object).bind fun object => ?_
    exact (fieldTy_bare env.entities object.ty field).bind fun _ => .refl _
  | .subscript array index _ => by
    rw [Tree.Expr.bare, checkExpr, checkExpr]
    refine (checkExpr_bare env array).bind fun a => (alike_elementOf a _ _).bind fun element => ?_
    refine (checkExpr_bare env index).bind fun i => ?_
    exact (alike_require _ _ _ _).bind fun _ => .refl _

theorem checkExprs_bare (env : Env) : ∀ es : List Tree.Expr,
    Alike (checkExprs env es) (checkExprs env (Tree.Expr.bareAll es))
  | [] => .refl _
  | e :: es => by
    rw [Tree.Expr.bareAll, checkExprs, checkExprs]
    refine (checkExpr_bare env e).bind fun e => ?_
    exact (checkExprs_bare env es).bind fun _ => .refl _

theorem checkArgs_bare (env : Env) : ∀ (es : List Tree.Expr) (tys : List Ty),
    Alike (checkArgs env es tys) (checkArgs env (Tree.Expr.bareAll es) tys)
  | [], _ => .refl _
  | _ :: _, [] => .refl _
  | e :: es, ty :: tys => by
    rw [Tree.Expr.bareAll, checkArgs, checkArgs]
    refine (checkExpr_bare env e).bind fun arg => ?_
    refine (alike_requireAssignable _ arg ty _ _).bind fun _ => ?_
    exact (checkArgs_bare env es tys).bind fun _ => .refl _

end

theorem checkNumber_bare (env : Env) (e : Tree.Expr) :
    Alike (checkNumber env e) (checkNumber env e.bare) :=
  (checkExpr_bare env e).bind fun _ => (alike_require _ _ _ _).bind fun _ => .refl _

theorem checkCondition_bare (env : Env) (e : Tree.Expr) :
    Alike (checkCondition env e) (checkCondition env e.bare) :=
  (checkExpr_bare env e).bind fun _ => (alike_require _ _ _ _).bind fun _ => .refl _

theorem checkTarget_bare (env : Env) (e : Tree.Expr) :
    Alike (checkTarget env e) (checkTarget env e.bare) := by
  refine (checkExpr_bare env e).bind fun checked => ?_
  cases checked with
  | var id ty =>
    refine (alike_look _ _ _).bind fun row => ?_
    exact (alike_require _ _ _ _).bind fun _ => .refl _
  | member | subscript => exact .refl _
  | _ => exact (alike_refuse _ _ _).bind fun _ => .refl _

theorem checkNumberTarget_bare (env : Env) (e : Tree.Expr) :
    Alike (checkNumberTarget env e) (checkNumberTarget env e.bare) :=
  (checkTarget_bare env e).bind fun _ => (alike_require _ _ _ _).bind fun _ => .refl _

/-! ### Declarations -/

theorem checkOption_bare (env : Env) (written : Option Tree.Expr) :
    Alike (checkOption env written) (checkOption env (written.map Tree.Expr.bare)) := by
  cases written with
  | none => exact .refl _
  | some e => exact (checkExpr_bare env e).bind fun _ => .refl _

theorem variableTy_bare (env : Env) (name : Tree.Name) (type : Option Tree.TypeExpr)
    (written : Option Tree.Expr) (initializer : Option Expr) :
    Alike (variableTy env name type written initializer)
      (variableTy env name.bare (type.map Tree.TypeExpr.bare) (written.map Tree.Expr.bare)
        initializer) := by
  cases type with
  | none =>
    cases initializer with
    | none => exact alike_refuse _ _ _
    | some value => exact .refl _
  | some type =>
    refine (resolveType_bare env.scope type).bind fun ty => ?_
    cases initializer with
    | none => exact .refl _
    | some value =>
      cases written with
      | none => exact .refl _
      | some tree => exact (alike_requireAssignable _ value ty _ _).bind fun _ => .refl _

theorem declareVariable_bare (env : Env) (name : Tree.Name) (readOnly : Bool)
    (type : Option Tree.TypeExpr) (written : Option Tree.Expr) (p q : Span) :
    Alike (declareVariable env name readOnly type written p)
      (declareVariable env name.bare readOnly (type.map Tree.TypeExpr.bare)
        (written.map Tree.Expr.bare) q) := by
  rw [declareVariable, declareVariable, Option.isSome_map]
  refine (alike_require _ _ _ _).bind fun _ => (alike_require _ _ _ _).bind fun _ => ?_
  refine (checkOption_bare env written).bind fun initializer => ?_
  refine (variableTy_bare env name type written initializer).bind fun ty => ?_
  exact (alike_require _ _ _ _).bind fun _ => .refl _

theorem declareParams_bare (env : Env) (params : List Tree.Annotated) :
    Alike (declareParams env params) (declareParams env (params.map Tree.Annotated.bare)) := by
  induction params generalizing env with
  | nil => exact .refl _
  | cons param params ih =>
    rw [List.map_cons, declareParams, declareParams]
    refine (alike_require _ _ _ _).bind fun _ => ?_
    refine (resolveType_bare env.scope param.type).bind fun ty => ?_
    refine (alike_require _ _ _ _).bind fun _ => ?_
    exact (ih _).bind fun _ => .refl _

theorem resultType_bare (scope : Scope) (result : Option Tree.TypeExpr) :
    Alike (resultType scope result) (resultType scope (result.map Tree.TypeExpr.bare)) := by
  cases result with
  | none => exact .refl _
  | some type => exact resolveType_bare scope type

theorem openFunction_bare (env : Env) (name : Tree.Name) (params : List Tree.Annotated)
    (result : Option Tree.TypeExpr) :
    Alike (openFunction env name params result)
      (openFunction env name.bare (params.map Tree.Annotated.bare)
        (result.map Tree.TypeExpr.bare)) := by
  refine (alike_require _ _ _ _).bind fun _ => ?_
  refine (resultType_bare _ result).bind fun result => ?_
  refine (declareParams_bare _ params).bind fun (ids, tys, inner) => ?_
  exact (alike_look _ _ _).bind fun _ => .refl _

theorem resolveFields_bare (scope : Scope) (seen : List String) (fields : List Tree.Annotated) :
    Alike (resolveFields scope seen fields)
      (resolveFields scope seen (fields.map Tree.Annotated.bare)) := by
  induction fields generalizing seen with
  | nil => exact .refl _
  | cons field fields ih =>
    rw [List.map_cons, resolveFields, resolveFields]
    refine (alike_require _ _ _ _).bind fun _ => ?_
    refine (resolveType_bare scope field.type).bind fun ty => ?_
    exact (ih _).bind fun _ => .refl _

theorem declareStruct_bare (env : Env) (name : Tree.Name) (fields : List Tree.Annotated)
    (isClass : Bool) (p q : Span) :
    Alike (declareStruct env name fields isClass p)
      (declareStruct env name.bare (fields.map Tree.Annotated.bare) isClass q) := by
  refine (alike_require _ _ _ _).bind fun _ => (alike_require _ _ _ _).bind fun _ => ?_
  refine (resolveFields_bare _ _ fields).bind fun fields => ?_
  refine (alike_look _ _ _).bind fun entities => (alike_look _ _ _).bind fun circular => ?_
  exact (alike_require _ _ _ _).bind fun _ => .refl _

/-! ### Statements -/

theorem checkReturn_bare (env : Env) (value : Option Tree.Expr) (p q : Span) :
    Alike (checkReturn env value p) (checkReturn env (value.map Tree.Expr.bare) q) := by
  rw [checkReturn, checkReturn]
  split
  · exact alike_refuse _ p q
  · refine (alike_look _ p q).bind fun row => ?_
    cases value with
    | none => exact (alike_require _ _ p q).bind fun _ => .refl _
    | some tree =>
      refine (alike_require _ _ p q).bind fun _ => (checkExpr_bare env tree).bind fun value => ?_
      exact (alike_requireAssignable _ value _ _ _).bind fun _ => .refl _

theorem declareError_bare (env : Env) (error : Option Tree.Name) :
    declareError env (error.map Tree.Name.bare) = declareError env error := by
  cases error <;> rfl

mutual

theorem checkStmt_bare (env : Env) :
    ∀ s : Tree.Stmt, Alike (checkStmt env s) (checkStmt env s.bare)
  | .declareVariable name readOnly type written _ => by
    rw [Tree.Stmt.bare, checkStmt, checkStmt]
    exact declareVariable_bare env name readOnly type written _ _
  | .declareFunction name params result ⟨body, _⟩ _ => by
    rw [Tree.Stmt.bare, checkStmt, checkStmt]
    refine (openFunction_bare env name params result).bind fun f => ?_
    exact (checkStmts_bare f.inner body).bind fun _ => .refl _
  | .declareStruct name fields isClass _ => by
    rw [Tree.Stmt.bare, checkStmt, checkStmt]
    exact declareStruct_bare env name fields isClass _ _
  | .ifThen test ⟨consequent, _⟩ _ => by
    rw [Tree.Stmt.bare, checkStmt, checkStmt]
    refine (checkCondition_bare env test).bind fun test => ?_
    exact (checkStmts_bare _ consequent).bind fun _ => .refl _
  | .ifElse test ⟨consequent, _⟩ ⟨alternate, _⟩ _ => by
    rw [Tree.Stmt.bare, checkStmt, checkStmt]
    refine (checkCondition_bare env test).bind fun test => ?_
    refine (checkStmts_bare _ consequent).bind fun (_, last) => ?_
    exact (checkStmts_bare _ alternate).bind fun _ => .refl _
  | .ifElseIf test ⟨consequent, _⟩ alternate _ => by
    rw [Tree.Stmt.bare, checkStmt, checkStmt]
    refine (checkCondition_bare env test).bind fun test => ?_
    refine (checkStmts_bare _ consequent).bind fun (_, last) => ?_
    exact (checkStmt_bare _ alternate).bind fun _ => .refl _
  | .whileLoop test ⟨body, _⟩ _ => by
    rw [Tree.Stmt.bare, checkStmt, checkStmt]
    refine (checkCondition_bare env test).bind fun test => ?_
    exact (checkStmts_bare _ body).bind fun _ => .refl _
  | .rangeLoop iterator low op high ⟨body, _⟩ _ => by
    rw [Tree.Stmt.bare, checkStmt, checkStmt]
    refine (checkNumber_bare env low).bind fun low => ?_
    refine (checkNumber_bare env high).bind fun high => ?_
    exact (checkStmts_bare _ body).bind fun _ => .refl _
  | .collectionLoop iterator tree ⟨body, _⟩ _ => by
    rw [Tree.Stmt.bare, checkStmt, checkStmt]
    refine (checkExpr_bare env tree).bind fun collection => ?_
    refine (alike_elementOf collection _ _).bind fun element => ?_
    exact (checkStmts_bare _ body).bind fun _ => .refl _
  | .ret value _ => by
    rw [Tree.Stmt.bare, checkStmt, checkStmt]
    exact (checkReturn_bare env value _ _).bind fun _ => .refl _
  | .breakLoop _ | .continueLoop _ => by
    rw [Tree.Stmt.bare, checkStmt, checkStmt]
    exact (alike_require _ _ _ _).bind fun _ => .refl _
  | .tryCatch ⟨body, _⟩ error ⟨handler, _⟩ _ => by
    rw [Tree.Stmt.bare, checkStmt, checkStmt]
    refine (checkStmts_bare _ body).bind fun (_, last) => ?_
    dsimp only
    rw [declareError_bare]
    exact (checkStmts_bare _ handler).bind fun _ => .refl _
  | .print value _ => by
    rw [Tree.Stmt.bare, checkStmt, checkStmt]
    exact (checkExpr_bare env value).bind fun _ => .refl _
  | .increment target _ | .decrement target _ => by
    rw [Tree.Stmt.bare, checkStmt, checkStmt]
    exact (checkNumberTarget_bare env target).bind fun _ => .refl _
  | .assign target tree _ => by
    rw [Tree.Stmt.bare, checkStmt, checkStmt]
    refine (checkTarget_bare env target).bind fun target => ?_
    refine (checkExpr_bare env tree).bind fun source => ?_
    exact (alike_requireAssignable _ source _ _ _).bind fun _ => .refl _
  | .call call _ => by
    rw [Tree.Stmt.bare, checkStmt, checkStmt]
    exact (checkExpr_bare env call).bind fun _ => .refl _

theorem checkStmts_bare (env : Env) : ∀ ss : List Tree.Stmt,
    Alike (checkStmts env ss) (checkStmts env (Tree.Stmt.bareAll ss))
  | [] => .refl _
  | s :: ss => by
    rw [Tree.Stmt.bareAll, checkStmts, checkStmts]
    refine (checkStmt_bare env s).bind fun (_, env) => ?_
    exact (checkStmts_bare env ss).bind fun _ => .refl _

end

end Checking

open TypedImp.Checking

/-- **A tree and its bare tree** stand for the same program or break the same rule. -/
theorem Program.ofTree_bare (stmts : List Tree.Stmt) :
    Checking.Alike (Program.ofTree stmts) (Program.ofTree (stmts.map Tree.Stmt.bare)) := by
  rw [← Tree.Stmt.bareAll_eq_map]
  exact (checkStmts_bare _ stmts).bind fun _ => .refl _

/-- **The spans of a tree have no influence** on what it stands for. -/
theorem Program.ofTree_alike {stmts stmts' : List Tree.Stmt}
    (h : stmts.map Tree.Stmt.bare = stmts'.map Tree.Stmt.bare) :
    Checking.Alike (Program.ofTree stmts) (Program.ofTree stmts') := by
  have hbare := Program.ofTree_bare stmts
  rw [h] at hbare
  exact hbare.trans (Program.ofTree_bare stmts').symm

end TypedImp
