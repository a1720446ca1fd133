import TypedImp.Proofs.Checking.Rules

/-!
# Checked expressions are typed

`checkExpr_typed`: in a sound environment, an expression that passes checking is
typed relative to the tables of the environment, and its type is concrete.  The
induction is on the rules by which it passes.
-/

namespace TypedImp.Checking

theorem isConcrete_resultTy {op : BinaryOp} {ty : Ty} (h : ty.isConcrete = true) :
    (resultTy op ty).isConcrete = true := by
  cases op with
  | add => exact h
  | _ => rfl

theorem resolveType_concrete {E : Entities} {s : Scope} (hs : s.Sound E) (type : Tree.TypeExpr)
    {ty : Ty} (h : resolveType s type = .ok ty) : ty.isConcrete = true := by
  replace h := resolves_of_resolveType type h
  induction h with
  | type h => exact hs.bound h
  | struct => rfl
  | array _ ih => rwa [Ty.isConcrete_array]
  | function hlen _ _ ihparams ihresult =>
    have hparams := forall_mem_of_zip hlen ihparams
    exact Ty.isConcrete_function.mpr ⟨fun t ht => .inr (hparams t ht), ihresult⟩

/-- **An expression that passes checking is typed**, and its type is concrete. -/
theorem checkExpr_typed {env : Env} (henv : env.Sound) (tree : Tree.Expr) {e : Expr}
    (h : checkExpr env tree = .ok e) : e.Typed env.entities ∧ e.ty.isConcrete = true := by
  replace h := passes_of_checkExpr tree h
  induction h with
  | number => exact ⟨.number, rfl⟩
  | string => exact ⟨.string, rfl⟩
  | bool => exact ⟨.bool, rfl⟩
  | var h =>
    have hv := Entities.hasVariable_variableAt (henv.scope.bound h)
    exact ⟨.var hv, henv.concrete.variable hv⟩
  | func h =>
    have hf := Entities.hasFunction_functionAt (henv.scope.bound h)
    exact ⟨.func hf, henv.concrete.function hf⟩
  | struct h =>
    have hd := Entities.hasStruct_structAt (henv.scope.bound h)
    exact ⟨.struct hd, henv.concrete.constructor hd⟩
  | binary _ _ hjoins ihl ihr =>
    exact ⟨.binary ihl.1 ihr.1 hjoins, isConcrete_resultTy ihl.2⟩
  | neg _ hty ih => exact ⟨.neg ih.1 hty, rfl⟩
  | not _ hty ih => exact ⟨.not ih.1 hty, rfl⟩
  | array hlen _ hfirst hty ih =>
    have hes := forall_mem_of_zip hlen ih
    refine ⟨.array (fun x hx => (hes x hx).1) hty, ?_⟩
    rw [Expr.ty, Ty.isConcrete_array]
    exact (hes _ hfirst).2
  | emptyArray h =>
    refine ⟨.array (List.forall_mem_nil _) (List.forall_mem_nil _), ?_⟩
    rw [Expr.ty, Ty.isConcrete_array]
    exact resolveType_concrete henv.scope _ h
  | call _ hty hlen _ hfits ihf ihes =>
    rw [hty, Signature.ty, Ty.isConcrete_function] at ihf
    have hes := forall_mem_of_zip hlen ihes
    exact ⟨.call ihf.1 (fun x hx => (hes x hx).1) hty hfits, ihf.2.2⟩
  | member _ hty hrow ih => exact ⟨.member ih.1 hty hrow, henv.concrete.field? hrow⟩
  | subscript _ hty _ hindex iha ihi =>
    rw [hty, Ty.isConcrete_array] at iha
    exact ⟨.subscript iha.1 ihi.1 hty hindex, iha.2⟩

end TypedImp.Checking
