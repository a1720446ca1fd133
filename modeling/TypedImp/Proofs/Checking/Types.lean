import TypedImp.Proofs.Simplify.Types
import TypedImp.Proofs.Typing.Checked

/-!
# The types that checking makes

Checking makes types in few ways.  It takes them from the tables and from the names of types, it
puts them together to arrays and functions, and it takes the elements of arrays and the results
of functions out again.  `Env.Keeps P` says of a property of types that all of these ways keep it.

* `resolveType_keeps`: a type that is written has the property.
* **`checkExpr_keeps`**: all types within an expression that passes checking have it.
-/

namespace TypedImp.Checking

/-- **A property of types that all types made here have.** -/
structure Env.Keeps (P : Ty → Prop) (env : Env) : Prop where
  number : P .number
  string : P .string
  bool : P .bool
  array : ∀ {element : Ty}, P element → P (.array element)
  element : ∀ {element : Ty}, P (.array element) → P element
  function : ∀ {params : List Ty} {result : Ty}, (∀ ty ∈ params, P ty) → P result →
    P (.function params result)
  result : ∀ {params : List Ty} {result : Ty}, P (.function params result) → P result
  type : ∀ {name : String} {ty : Ty}, env.scope.find? name = some (.type ty) → P ty
  var : ∀ {name : String} {id : VariableId}, env.scope.find? name = some (.var id) →
    P (env.entities.variableAt id).ty
  func : ∀ {name : String} {id : FunctionId}, env.scope.find? name = some (.func id) →
    P (env.entities.functionAt id).signature.ty
  struct : ∀ {name : String} {id : StructId}, env.scope.find? name = some (.struct id) →
    P (env.entities.constructor id).ty
  field : ∀ {id : StructId}, P (.struct id) →
    ∀ field ∈ (env.entities.structAt id).fields, P field.ty

variable {P : Ty → Prop} {env : Env}

/-! ### Types that are written -/

/-- A type that is written is made of types that have a name. -/
theorem resolveType_keeps (hP : env.Keeps P) (type : Tree.TypeExpr) {ty : Ty}
    (h : resolveType env.scope type = .ok ty) : P ty := by
  replace h := resolves_of_resolveType type h
  induction h with
  | type h => exact hP.type h
  -- A struct is what its constructor yields.
  | struct h => exact hP.result (hP.struct h)
  | array _ ih => exact hP.array ih
  | function hlen _ _ ihparams ihresult =>
    exact hP.function (forall_mem_of_zip hlen ihparams) ihresult

theorem resolveFields_keeps (hP : env.Keeps P) {seen : List String} {trees : List Tree.Annotated}
    {fields : List Field} (h : resolveFields env.scope seen trees = .ok fields) :
    ∀ field ∈ fields, P field.ty := by
  intro field hf
  obtain ⟨_, tree, _, _, hty⟩ := (resolveFields_eq_ok h).2 field hf
  exact resolveType_keeps hP tree.type hty

/-! ### Expressions -/

theorem Env.Keeps.resultTy (hP : env.Keeps P) {op : BinaryOp} {ty : Ty} (h : P ty) :
    P (resultTy op ty) := by
  cases op with
  | add => exact h
  | sub | mul | div | pow => exact hP.number
  | or | and | eq | ne | lt | le | gt | ge => exact hP.bool

/-- **All types within an expression that passes checking have the property.** -/
theorem checkExpr_keeps (hP : env.Keeps P) (tree : Tree.Expr) {e : Expr}
    (h : checkExpr env tree = .ok e) : e.AllTypes P := by
  replace h := passes_of_checkExpr tree h
  induction h with
  | number => exact Expr.allTypes_of_leaf rfl hP.number
  | string => exact Expr.allTypes_of_leaf rfl hP.string
  | bool => exact Expr.allTypes_of_leaf rfl hP.bool
  | var h => exact Expr.allTypes_of_leaf rfl (hP.var h)
  | func h => exact Expr.allTypes_of_leaf rfl (hP.func h)
  | struct h => exact Expr.allTypes_of_leaf rfl (hP.struct h)
  | binary _ _ _ ihl ihr =>
    exact Expr.allTypes_iff.mpr ⟨hP.resultTy ihl.ty,
      List.forall_mem_cons.mpr ⟨ihl, List.forall_mem_singleton.mpr ihr⟩⟩
  | neg _ _ ih => exact Expr.allTypes_iff.mpr ⟨hP.number, List.forall_mem_singleton.mpr ih⟩
  | not _ _ ih => exact Expr.allTypes_iff.mpr ⟨hP.bool, List.forall_mem_singleton.mpr ih⟩
  | array hlen _ hfirst _ ih =>
    have hes := forall_mem_of_zip hlen ih
    exact Expr.allTypes_iff.mpr ⟨hP.array (hes _ hfirst).ty, hes⟩
  | emptyArray h => exact Expr.allTypes_of_leaf rfl (hP.array (resolveType_keeps hP _ h))
  | call _ hty hlen _ _ ihf ihes =>
    have hcallee := ihf.ty
    rw [hty] at hcallee
    exact Expr.allTypes_iff.mpr ⟨hP.result hcallee,
      List.forall_mem_cons.mpr ⟨ihf, forall_mem_of_zip hlen ihes⟩⟩
  | member _ hty hrow ih =>
    exact Expr.allTypes_iff.mpr
      ⟨hP.field (hty ▸ ih.ty) _ (List.mem_of_find?_eq_some hrow),
        List.forall_mem_singleton.mpr ih⟩
  | subscript _ hty _ _ iha ihi =>
    have harray := iha.ty
    rw [hty] at harray
    exact Expr.allTypes_iff.mpr ⟨hP.element harray,
      List.forall_mem_cons.mpr ⟨iha, List.forall_mem_singleton.mpr ihi⟩⟩

end TypedImp.Checking
