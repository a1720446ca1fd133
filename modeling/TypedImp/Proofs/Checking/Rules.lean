import TypedImp.Proofs.Tables.Lookups
import TypedImp.Proofs.Typing.Concrete

/-!
# What it takes to pass checking

A part of a tree passes checking if none of the steps of its check refuses.  This module goes
through the steps once and says what they ask for and what they make, so that nothing else needs
to take a check apart.

* `Scope.Resolves` and `Env.Passes` are rules, one for each form of types and of expressions.
  What passes has been made by them (`resolves_of_resolveType`, **`passes_of_checkExpr`**), so an
  induction on a check is one on the rules.
* `declareVariable_eq_ok` and its like say it of a declaration.
* **`passesStmt_of_checkStmt`**: what it says of a statement is not recursive.  Of the statements
  between braces it only says that they pass as well, and in which environment.
-/

namespace TypedImp

/-- What holds of the second member of each pair holds of the second list. -/
theorem forall_mem_of_zip {α β : Type} {xs : List α} {ys : List β} {P : β → Prop}
    (hlen : xs.length = ys.length) (h : ∀ x y, (x, y) ∈ xs.zip ys → P y) : ∀ y ∈ ys, P y := by
  intro y hy
  rw [← List.map_snd_zip (Nat.le_of_eq hlen.symm)] at hy
  obtain ⟨⟨x, _⟩, hp, rfl⟩ := List.mem_map.mp hy
  exact h x _ hp

/-- The same where it depends on the first member, with what is known of the first list. -/
theorem forall_mem_of_zip_imp {α β : Type} {xs : List α} {ys : List β} {Q : α → Prop}
    {P : β → Prop} (hlen : xs.length = ys.length) (h : ∀ x y, (x, y) ∈ xs.zip ys → Q x → P y)
    (hQ : ∀ x ∈ xs, Q x) : ∀ y ∈ ys, P y :=
  forall_mem_of_zip hlen fun x y hp => h x y hp (hQ x (List.of_mem_zip hp).1)

/-- A value that fits a concrete type has that type. -/
theorem Expr.Fits.ty_eq {e : Expr} {ty : Ty} (h : e.Fits ty) (hty : ty.isConcrete = true) :
    e.ty = ty := by
  rcases h with rfl | h
  · cases hty
  · exact h

namespace Checking

/-! ### Single steps -/

theorem look_bind_eq_ok {α β : Type} {x : Lookup α} {span : Span} {f : α → Result β} {b : β}
    (h : look x span >>= f = .ok b) : ∃ a, x = .ok a ∧ f a = .ok b := by
  cases x with
  | error missing => cases h
  | ok a => exact ⟨a, rfl, h⟩

theorem require_bind_eq_ok {β : Type} {kept : Bool} {fault : Fault} {span : Span}
    {f : Unit → Result β} {b : β} (h : require kept fault span >>= f = .ok b) :
    kept = true ∧ f () = .ok b := by
  obtain ⟨⟨⟩, hk, hb⟩ := bind_eq_ok h
  exact ⟨require_eq_ok_iff.mp hk, hb⟩

theorem requireNumber_eq_ok {e : Expr} {span : Span} (h : requireNumber e span = .ok ()) :
    e.ty = .number := Ty.isNumber_iff.mp (require_eq_ok_iff.mp h)

theorem requireBool_eq_ok {e : Expr} {span : Span} (h : requireBool e span = .ok ()) :
    e.ty = .bool := Ty.isBool_iff.mp (require_eq_ok_iff.mp h)

theorem requireNotVoid_eq_ok {ty : Ty} {span : Span} (h : requireNotVoid ty span = .ok ()) :
    ty ≠ .void := by
  rintro rfl
  cases h

theorem requireNew_eq_ok {env : Env} {name : Tree.Name} (h : env.requireNew name = .ok ()) :
    env.scope.declares name.text = false := by
  rw [Env.requireNew, require_eq_ok_iff] at h
  simpa using h

theorem requireAssignable_eq_ok {E : Entities} {e : Expr} {ty : Ty} {span : Span}
    (h : requireAssignable E e ty span = .ok ()) : e.Fits ty := by
  rw [requireAssignable] at h
  by_cases hfits : e.ty.assignableTo ty = true
  · rw [Ty.assignableTo, Bool.or_eq_true, Ty.isAny_iff, Ty.equivalent_iff] at hfits
    exact hfits
  · rw [if_neg hfits] at h
    obtain ⟨given, -, h⟩ := look_bind_eq_ok h
    obtain ⟨wanted, -, h⟩ := look_bind_eq_ok h
    cases h

theorem elementOf_eq_ok {e : Expr} {span : Span} {ty : Ty} (h : elementOf e span = .ok ty) :
    e.ty = .array ty := by
  rw [elementOf] at h
  cases ht : e.ty.element? with
  | none => rw [ht] at h; cases h
  | some u =>
    rw [ht] at h
    cases h
    exact Ty.element?_eq_some_iff.mp ht

theorem signatureFor_eq_ok {f : Expr} {count : Nat} {span : Span} {signature : Signature}
    (h : signatureFor f count span = .ok signature) :
    f.ty = signature.ty ∧ signature.params.length = count := by
  rw [signatureFor] at h
  cases hs : f.ty.signature? with
  | none => rw [hs] at h; cases h
  | some s =>
    rw [hs] at h
    obtain ⟨hc, h⟩ := require_bind_eq_ok h
    cases h
    exact ⟨Ty.signature?_eq_some_iff.mp hs, by simpa using hc⟩

theorem fieldTy_eq_ok {E : Entities} {ty object : Ty} {name : Tree.Name}
    (h : fieldTy E object name = .ok ty) :
    ∃ id field, object = .struct id ∧ E.field? id name.text = some field ∧ field.ty = ty := by
  cases object with
  | struct id =>
    obtain ⟨found, hfound, h⟩ := look_bind_eq_ok h
    cases found with
    | none => cases h
    | some field =>
      cases h
      exact ⟨id, field, rfl, Entities.field?_of_try hfound, rfl⟩
  | _ => cases h

theorem arrayTy_eq_ok {es : List Expr} {span : Span} {ty : Ty} (h : arrayTy es span = .ok ty) :
    ∃ first ∈ es, ty = .array first.ty ∧ ∀ e ∈ es, e.ty = first.ty := by
  cases es with
  | nil => cases h
  | cons first others =>
    obtain ⟨hall, h⟩ := require_bind_eq_ok h
    cases h
    refine ⟨first, List.mem_cons_self, rfl, fun e he => ?_⟩
    exact Ty.equivalent_iff.mp (List.all_eq_true.mp hall e he)

/-- The two rules on the operands of an operator are those of `BinaryOp.Joins`. -/
theorem joins_of_require {op : BinaryOp} {l r : Expr} {sl sr : Span}
    (hl : requireLeft (operandsOf op) l sl = .ok ())
    (hr : requireRight (operandsOf op) l r sr = .ok ()) :
    op.Joins l.ty r.ty (resultTy op l.ty) := by
  cases op with
  | or | and => exact ⟨requireBool_eq_ok hl, requireBool_eq_ok hr, rfl⟩
  | sub | mul | div | pow => exact ⟨requireNumber_eq_ok hl, requireNumber_eq_ok hr, rfl⟩
  | eq | ne => exact ⟨Ty.equivalent_iff.mp (require_eq_ok_iff.mp hr), rfl⟩
  | add | lt | le | gt | ge =>
    exact ⟨Ty.isNumberOrString_iff.mp (require_eq_ok_iff.mp hl),
      Ty.equivalent_iff.mp (require_eq_ok_iff.mp hr), rfl⟩

end Checking

/-! ### Types -/

/-- **How a type that is written is resolved.** -/
inductive Scope.Resolves (s : Scope) : Tree.TypeExpr → Ty → Prop
  | type {name : Tree.Name} {ty : Ty} (h : s.find? name.text = some (.type ty)) :
      Resolves s (.named name) ty
  | struct {name : Tree.Name} {id : StructId} (h : s.find? name.text = some (.struct id)) :
      Resolves s (.named name) (.struct id)
  | array {element : Tree.TypeExpr} {span : Span} {ty : Ty} (h : Resolves s element ty) :
      Resolves s (.array element span) (.array ty)
  | function {params : List Tree.TypeExpr} {result : Tree.TypeExpr} {span : Span} {tys : List Ty}
      {ty : Ty} (hlen : params.length = tys.length)
      (hparams : ∀ type ty, (type, ty) ∈ params.zip tys → Resolves s type ty)
      (hresult : Resolves s result ty) :
      Resolves s (.function params result span) (.function tys ty)

namespace Checking

variable {env env' : Env}

mutual

theorem resolves_of_resolveType {s : Scope} (type : Tree.TypeExpr) {ty : Ty}
    (h : resolveType s type = .ok ty) : s.Resolves type ty := by
  cases type with
  | named name =>
    simp only [resolveType] at h
    cases hb : s.find? name.text with
    | none => rw [hb] at h; cases h
    | some b =>
      rw [hb] at h
      cases b with
      | var | func => cases h
      | struct => cases h; exact .struct hb
      | type => cases h; exact .type hb
  | array element =>
    obtain ⟨t, ht, h⟩ := bind_eq_ok h
    cases h
    exact .array (resolves_of_resolveType element ht)
  | function params result =>
    obtain ⟨ts, hts, h⟩ := bind_eq_ok h
    obtain ⟨t, ht, h⟩ := bind_eq_ok h
    cases h
    obtain ⟨hlen, hparams⟩ := List.forall₂_iff_zip.mp (resolves_of_resolveTypes params hts)
    exact .function hlen (fun _ _ h => hparams h) (resolves_of_resolveType result ht)
termination_by structural type

theorem resolves_of_resolveTypes {s : Scope} (types : List Tree.TypeExpr) {tys : List Ty}
    (h : resolveTypes s types = .ok tys) : List.Forall₂ s.Resolves types tys := by
  cases types with
  | nil => cases h; exact .nil
  | cons type types =>
    obtain ⟨t, ht, h⟩ := bind_eq_ok h
    obtain ⟨ts, hts, h⟩ := bind_eq_ok h
    cases h
    exact .cons (resolves_of_resolveType type ht) (resolves_of_resolveTypes types hts)
termination_by structural types

end

/-! ### Expressions -/

/-- **How an expression passes checking.** -/
inductive Env.Passes (env : Env) : Tree.Expr → Expr → Prop
  | number {x : Float} {span : Span} : Passes env (.number x span) (.number x .number)
  | string {s : String} {span : Span} : Passes env (.string s span) (.string s .string)
  | bool {b : Bool} {span : Span} : Passes env (.bool b span) (.bool b .bool)
  | var {name : Tree.Name} {id : VariableId} (h : env.scope.find? name.text = some (.var id)) :
      Passes env (.name name) (.var id (env.entities.variableAt id).ty)
  | func {name : Tree.Name} {id : FunctionId} (h : env.scope.find? name.text = some (.func id)) :
      Passes env (.name name) (.func id (env.entities.functionAt id).signature.ty)
  | struct {name : Tree.Name} {id : StructId} (h : env.scope.find? name.text = some (.struct id)) :
      Passes env (.name name) (.struct id (env.entities.constructor id).ty)
  | binary {op : BinaryOp} {left right : Tree.Expr} {span : Span} {l r : Expr}
      (hl : Passes env left l) (hr : Passes env right r)
      (hjoins : op.Joins l.ty r.ty (resultTy op l.ty)) :
      Passes env (.binary op left right span) (.binary op l r (resultTy op l.ty))
  | neg {operand : Tree.Expr} {span : Span} {e : Expr} (he : Passes env operand e)
      (hty : e.ty = .number) : Passes env (.unary .neg operand span) (.unary .neg e .number)
  | not {operand : Tree.Expr} {span : Span} {e : Expr} (he : Passes env operand e)
      (hty : e.ty = .bool) : Passes env (.unary .not operand span) (.unary .not e .bool)
  | array {elements : List Tree.Expr} {span : Span} {es : List Expr} {first : Expr}
      (hlen : elements.length = es.length)
      (hes : ∀ tree e, (tree, e) ∈ elements.zip es → Passes env tree e)
      (hfirst : first ∈ es) (hty : ∀ e ∈ es, e.ty = first.ty) :
      Passes env (.array elements span) (.array es (.array first.ty))
  | emptyArray {element : Tree.TypeExpr} {span : Span} {ty : Ty}
      (h : resolveType env.scope element = .ok ty) :
      Passes env (.emptyArray element span) (.array [] (.array ty))
  | call {callee : Tree.Expr} {args : List Tree.Expr} {span : Span} {f : Expr} {es : List Expr}
      {signature : Signature} (hf : Passes env callee f) (hty : f.ty = signature.ty)
      (hlen : args.length = es.length)
      (hes : ∀ tree e, (tree, e) ∈ args.zip es → Passes env tree e)
      (hfits : List.Forall₂ Expr.Fits es signature.params) :
      Passes env (.call callee args span) (.call f es signature.result)
  | member {object : Tree.Expr} {field : Tree.Name} {span : Span} {o : Expr} {id : StructId}
      {row : Field} (ho : Passes env object o) (hty : o.ty = .struct id)
      (hrow : env.entities.field? id field.text = some row) :
      Passes env (.member object field span) (.member o field.text row.ty)
  | subscript {array index : Tree.Expr} {span : Span} {a i : Expr} {element : Ty}
      (ha : Passes env array a) (hty : a.ty = .array element) (hi : Passes env index i)
      (hindex : i.ty = .number) :
      Passes env (.subscript array index span) (.subscript a i element)

theorem passes_of_checkName {name : Tree.Name} {e : Expr} (h : checkName env name = .ok e) :
    env.Passes (.name name) e := by
  rw [checkName] at h
  cases hb : env.scope.find? name.text with
  | none => rw [hb] at h; cases h
  | some b =>
    rw [hb] at h
    cases b with
    | var =>
      obtain ⟨row, hrow, h⟩ := look_bind_eq_ok h
      cases h
      rw [← Entities.variableAt_of_try hrow]
      exact .var hb
    | func =>
      obtain ⟨row, hrow, h⟩ := look_bind_eq_ok h
      cases h
      rw [← Entities.functionAt_of_try hrow]
      exact .func hb
    | struct =>
      obtain ⟨signature, hs, h⟩ := look_bind_eq_ok h
      cases h
      rw [← Entities.constructor_of_try hs]
      exact .struct hb
    | type => cases h

mutual

/-- **An expression that passes checking passes by the rules.** -/
theorem passes_of_checkExpr (tree : Tree.Expr) {e : Expr} (h : checkExpr env tree = .ok e) :
    env.Passes tree e := by
  cases tree with
  | number => cases h; exact .number
  | string => cases h; exact .string
  | bool => cases h; exact .bool
  | name name => exact passes_of_checkName h
  | binary op left right =>
    obtain ⟨l, hl, h⟩ := bind_eq_ok h
    obtain ⟨⟨⟩, hl', h⟩ := bind_eq_ok h
    obtain ⟨r, hr, h⟩ := bind_eq_ok h
    obtain ⟨⟨⟩, hr', h⟩ := bind_eq_ok h
    cases h
    exact .binary (passes_of_checkExpr left hl) (passes_of_checkExpr right hr)
      (joins_of_require hl' hr')
  | unary op operand =>
    obtain ⟨x, hx, h⟩ := bind_eq_ok h
    have hxp := passes_of_checkExpr operand hx
    cases op with
    | neg =>
      obtain ⟨⟨⟩, hn, h⟩ := bind_eq_ok h
      cases h
      exact .neg hxp (requireNumber_eq_ok hn)
    | not =>
      obtain ⟨⟨⟩, hb, h⟩ := bind_eq_ok h
      cases h
      exact .not hxp (requireBool_eq_ok hb)
  | array elements =>
    obtain ⟨es, hes, h⟩ := bind_eq_ok h
    obtain ⟨ty, ht, h⟩ := bind_eq_ok h
    cases h
    obtain ⟨hlen, hall⟩ := List.forall₂_iff_zip.mp (passes_of_checkExprs elements hes)
    obtain ⟨first, hf, rfl, hty⟩ := arrayTy_eq_ok ht
    exact .array hlen (fun _ _ h => hall h) hf hty
  | emptyArray element =>
    obtain ⟨ty, ht, h⟩ := bind_eq_ok h
    cases h
    exact .emptyArray ht
  | call callee args =>
    obtain ⟨f, hf, h⟩ := bind_eq_ok h
    obtain ⟨signature, hs, h⟩ := bind_eq_ok h
    obtain ⟨es, hes, h⟩ := bind_eq_ok h
    cases h
    obtain ⟨hty, hcount⟩ := signatureFor_eq_ok hs
    obtain ⟨hargs, hfits⟩ := passes_of_checkArgs args hcount.symm hes
    obtain ⟨hlen, hall⟩ := List.forall₂_iff_zip.mp hargs
    exact .call (passes_of_checkExpr callee hf) hty hlen (fun _ _ h => hall h) hfits
  | member object field =>
    obtain ⟨o, ho, h⟩ := bind_eq_ok h
    obtain ⟨ty, ht, h⟩ := bind_eq_ok h
    cases h
    obtain ⟨id, row, hid, hrow, rfl⟩ := fieldTy_eq_ok ht
    exact .member (passes_of_checkExpr object ho) hid hrow
  | subscript array index =>
    obtain ⟨a, ha, h⟩ := bind_eq_ok h
    obtain ⟨ty, ht, h⟩ := bind_eq_ok h
    obtain ⟨i, hi, h⟩ := bind_eq_ok h
    obtain ⟨⟨⟩, hn, h⟩ := bind_eq_ok h
    cases h
    exact .subscript (passes_of_checkExpr array ha) (elementOf_eq_ok ht)
      (passes_of_checkExpr index hi) (requireNumber_eq_ok hn)
termination_by structural tree

theorem passes_of_checkExprs (trees : List Tree.Expr) {es : List Expr}
    (h : checkExprs env trees = .ok es) : List.Forall₂ env.Passes trees es := by
  cases trees with
  | nil => cases h; exact .nil
  | cons tree trees =>
    obtain ⟨e, he, h⟩ := bind_eq_ok h
    obtain ⟨es, hes, h⟩ := bind_eq_ok h
    cases h
    exact .cons (passes_of_checkExpr tree he) (passes_of_checkExprs trees hes)
termination_by structural trees

theorem passes_of_checkArgs (trees : List Tree.Expr) {tys : List Ty} {es : List Expr}
    (hcount : trees.length = tys.length) (h : checkArgs env trees tys = .ok es) :
    List.Forall₂ env.Passes trees es ∧ List.Forall₂ Expr.Fits es tys := by
  cases trees with
  | nil =>
    cases tys with
    | nil => cases h; exact ⟨.nil, .nil⟩
    | cons => simp at hcount
  | cons tree trees =>
    cases tys with
    | nil => simp at hcount
    | cons ty tys =>
      obtain ⟨e, he, h⟩ := bind_eq_ok h
      obtain ⟨⟨⟩, ha, h⟩ := bind_eq_ok h
      obtain ⟨es, hes, h⟩ := bind_eq_ok h
      cases h
      obtain ⟨hargs, hfits⟩ := passes_of_checkArgs trees (by simpa using hcount) hes
      exact ⟨.cons (passes_of_checkExpr tree he) hargs, .cons (requireAssignable_eq_ok ha) hfits⟩
termination_by structural trees

end

/-- A call is checked to a call. -/
theorem Env.Passes.isCall {tree : Tree.Expr} {e : Expr} (h : env.Passes tree e)
    (ht : tree.isCall = true) : e.isCall = true := by
  cases h with
  | call => rfl
  | _ => cases ht

/-! ### Expressions in their places -/

theorem checkOption_eq_ok {written : Option Tree.Expr} {e : Option Expr}
    (h : checkOption env written = .ok e) :
    e.isSome = written.isSome ∧ ∀ x ∈ e, ∃ tree ∈ written, checkExpr env tree = .ok x := by
  cases written with
  | none => cases h; exact ⟨rfl, nofun⟩
  | some tree =>
    obtain ⟨x, hx, h⟩ := bind_eq_ok h
    cases h
    refine ⟨rfl, fun y hy => ⟨tree, rfl, ?_⟩⟩
    rw [← Option.some.inj hy]
    exact hx

theorem checkNumber_eq_ok {tree : Tree.Expr} {e : Expr} (h : checkNumber env tree = .ok e) :
    checkExpr env tree = .ok e ∧ e.ty = .number := by
  obtain ⟨x, hx, h⟩ := bind_eq_ok h
  obtain ⟨⟨⟩, hn, h⟩ := bind_eq_ok h
  cases h
  exact ⟨hx, requireNumber_eq_ok hn⟩

theorem checkCondition_eq_ok {tree : Tree.Expr} {e : Expr} (h : checkCondition env tree = .ok e) :
    checkExpr env tree = .ok e ∧ e.ty = .bool := by
  obtain ⟨x, hx, h⟩ := bind_eq_ok h
  obtain ⟨⟨⟩, hb, h⟩ := bind_eq_ok h
  cases h
  exact ⟨hx, requireBool_eq_ok hb⟩

/-- A target is a place, and if it is a variable, it is no constant. -/
theorem checkTarget_eq_ok {tree : Tree.Expr} {e : Expr} (h : checkTarget env tree = .ok e) :
    checkExpr env tree = .ok e ∧ e.isPlace = true ∧
      ∀ id ty, e = .var id ty → (env.entities.variableAt id).readOnly = false := by
  obtain ⟨x, hx, h⟩ := bind_eq_ok h
  cases x with
  | var =>
    obtain ⟨row, hrow, h⟩ := look_bind_eq_ok h
    obtain ⟨hwritable, h⟩ := require_bind_eq_ok h
    cases h
    refine ⟨hx, rfl, fun id ty hid => ?_⟩
    cases hid
    rw [Entities.variableAt_of_try hrow]
    simpa using hwritable
  | member | subscript => cases h; exact ⟨hx, rfl, nofun⟩
  | _ => cases h

theorem checkNumberTarget_eq_ok {tree : Tree.Expr} {e : Expr}
    (h : checkNumberTarget env tree = .ok e) : checkTarget env tree = .ok e ∧ e.ty = .number := by
  obtain ⟨x, hx, h⟩ := bind_eq_ok h
  obtain ⟨⟨⟩, hn, h⟩ := bind_eq_ok h
  cases h
  exact ⟨hx, requireNumber_eq_ok hn⟩

/-! ### Declarations -/

/-- The type of a variable is the one that is written, which the initial value must fit, or else
that of the initial value. -/
theorem variableTy_eq_ok {name : Tree.Name} {type : Option Tree.TypeExpr}
    {written : Option Tree.Expr} {e : Option Expr} (he : e.isSome = written.isSome) {ty : Ty}
    (h : variableTy env name type written e = .ok ty) :
    (∃ t ∈ type, resolveType env.scope t = .ok ty ∧ ∀ x ∈ e, x.Fits ty) ∨
      ∃ x ∈ e, x.ty = ty := by
  cases type with
  | some type =>
    obtain ⟨t, ht, h⟩ := bind_eq_ok h
    cases e with
    | none => cases h; exact .inl ⟨type, rfl, ht, nofun⟩
    | some x =>
      cases written with
      | none => cases he
      | some tree =>
        obtain ⟨⟨⟩, ha, h⟩ := bind_eq_ok h
        cases h
        refine .inl ⟨type, rfl, ht, fun y hy => ?_⟩
        rw [← Option.some.inj hy]
        exact requireAssignable_eq_ok ha
  | none =>
    cases e with
    | none => cases h
    | some x => cases h; exact .inr ⟨x, rfl, rfl⟩

theorem declareVariable_eq_ok {name : Tree.Name} {readOnly : Bool} {type : Option Tree.TypeExpr}
    {written : Option Tree.Expr} {span : Span} {s : Stmt}
    (h : declareVariable env name readOnly type written span = .ok (s, env')) :
    ∃ e ty, env.scope.declares name.text = false ∧ checkOption env written = .ok e ∧
      variableTy env name type written e = .ok ty ∧ ty ≠ .void ∧
      s = .declareVariable env.entities.nextVariable e ∧
      env' = (env.addVariable name.text readOnly ty).2 := by
  obtain ⟨_, h⟩ := require_bind_eq_ok h
  obtain ⟨⟨⟩, hnew, h⟩ := bind_eq_ok h
  obtain ⟨e, he, h⟩ := bind_eq_ok h
  obtain ⟨ty, hty, h⟩ := bind_eq_ok h
  obtain ⟨⟨⟩, hvoid, h⟩ := bind_eq_ok h
  cases h
  exact ⟨e, ty, requireNew_eq_ok hnew, he, hty, requireNotVoid_eq_ok hvoid, rfl, rfl⟩

/-- **How parameters are declared**, one after the other. -/
inductive Env.PassesParams : Env → List Tree.Annotated → List VariableId → List Ty → Env → Prop
  | nil {env : Env} : PassesParams env [] [] [] env
  | cons {env last : Env} (param : Tree.Annotated) {params : List Tree.Annotated} {ty : Ty}
      {ids : List VariableId} {tys : List Ty}
      (hnew : env.scope.declares param.name.text = false)
      (hty : resolveType env.scope param.type = .ok ty) (hvoid : ty ≠ .void)
      (rest : PassesParams (env.addVariable param.name.text false ty).2 params ids tys last) :
      PassesParams env (param :: params) (env.entities.nextVariable :: ids) (ty :: tys) last

theorem passesParams_of_declareParams {params : List Tree.Annotated} {ids : List VariableId}
    {tys : List Ty} (h : declareParams env params = .ok (ids, tys, env')) :
    env.PassesParams params ids tys env' := by
  induction params generalizing env ids tys with
  | nil => cases h; exact .nil
  | cons param params ih =>
    obtain ⟨⟨⟩, hnew, h⟩ := bind_eq_ok h
    obtain ⟨ty, hty, h⟩ := bind_eq_ok h
    obtain ⟨⟨⟩, hvoid, h⟩ := bind_eq_ok h
    obtain ⟨⟨ids', tys', last⟩, hparams, h⟩ := bind_eq_ok h
    cases h
    exact .cons param (requireNew_eq_ok hnew) hty (requireNotVoid_eq_ok hvoid) (ih hparams)

/-- The signature of a function is complete before its body is looked at. -/
theorem openFunction_eq_ok {name : Tree.Name} {params : List Tree.Annotated}
    {result : Option Tree.TypeExpr} {f : OpenFunction}
    (h : openFunction env name params result = .ok f) :
    ∃ ty ids tys inner, env.scope.declares name.text = false ∧
      resultType (env.addFunction name.text).2.scope result = .ok ty ∧
      ((env.addFunction name.text).2.within ((env.addFunction name.text).2.scope.enterFunction
        env.entities.nextFunction)).PassesParams params ids tys inner ∧
      f = ⟨env.entities.nextFunction, ids,
        ⟨inner.scope, inner.entities.setSignature env.entities.nextFunction ⟨tys, ty⟩⟩,
        (env.addFunction name.text).2.scope⟩ := by
  obtain ⟨⟨⟩, hnew, h⟩ := bind_eq_ok h
  obtain ⟨ty, hty, h⟩ := bind_eq_ok h
  obtain ⟨⟨ids, tys, inner⟩, hparams, h⟩ := bind_eq_ok h
  obtain ⟨E, hset, h⟩ := look_bind_eq_ok h
  rw [← Entities.setSignature_of_try hset] at h
  cases h
  exact ⟨ty, ids, tys, inner, requireNew_eq_ok hnew, hty, passesParams_of_declareParams hparams,
    rfl⟩

/-- **The fields of a struct** differ in their names, and each has the type that is written. -/
theorem resolveFields_eq_ok {s : Scope} {seen : List String} {trees : List Tree.Annotated}
    {fields : List Field} (h : resolveFields s seen trees = .ok fields) :
    (fields.map Field.name).Nodup ∧ ∀ field ∈ fields, field.name ∉ seen ∧
      ∃ tree ∈ trees, tree.name.text = field.name ∧ resolveType s tree.type = .ok field.ty := by
  induction trees generalizing seen fields with
  | nil => cases h; exact ⟨List.nodup_nil, List.forall_mem_nil _⟩
  | cons tree trees ih =>
    obtain ⟨hnew, h⟩ := require_bind_eq_ok h
    obtain ⟨ty, hty, h⟩ := bind_eq_ok h
    obtain ⟨others, hothers, h⟩ := bind_eq_ok h
    cases h
    obtain ⟨hdistinct, hothers⟩ := ih hothers
    refine ⟨List.nodup_cons.mpr ⟨fun hmem => ?_, hdistinct⟩,
      List.forall_mem_cons.mpr ⟨⟨by simpa using hnew, tree, List.mem_cons_self, rfl, hty⟩,
        fun field hf => ?_⟩⟩
    · obtain ⟨field, hf, hname⟩ := List.mem_map.mp hmem
      exact (hothers field hf).1 (hname ▸ List.mem_cons_self)
    · obtain ⟨hseen, tree', ht, hfield⟩ := hothers field hf
      exact ⟨fun hmem => hseen (List.mem_cons_of_mem _ hmem), tree', List.mem_cons_of_mem _ ht,
        hfield⟩

theorem declareStruct_eq_ok {name : Tree.Name} {trees : List Tree.Annotated} {isClass : Bool}
    {span : Span} {s : Stmt} (h : declareStruct env name trees isClass span = .ok (s, env')) :
    ∃ fields, env.scope.function = none ∧ env.scope.declares name.text = false ∧
      resolveFields (env.addStruct name.text isClass).2.scope [] trees = .ok fields ∧
      ((env.addStruct name.text isClass).2.entities.setFields env.entities.nextStruct
        fields).contains env.entities.nextStruct env.entities.nextStruct = false ∧
      s = (if isClass then .declareClass env.entities.nextStruct
        else .declareStruct env.entities.nextStruct) ∧
      env' = ⟨(env.addStruct name.text isClass).2.scope,
        (env.addStruct name.text isClass).2.entities.setFields env.entities.nextStruct fields⟩ := by
  obtain ⟨hfn, h⟩ := require_bind_eq_ok h
  obtain ⟨⟨⟩, hnew, h⟩ := bind_eq_ok h
  obtain ⟨fields, hfields, h⟩ := bind_eq_ok h
  obtain ⟨E, hset, h⟩ := look_bind_eq_ok h
  obtain ⟨circular, hcircular, h⟩ := look_bind_eq_ok h
  obtain ⟨hself, h⟩ := require_bind_eq_ok h
  rw [Bool.not_eq_true'] at hself
  obtain rfl := Entities.setFields_of_try hset
  rw [← Entities.contains_of_try hcircular] at hself
  cases h
  exact ⟨fields, by simpa using hfn, requireNew_eq_ok hnew, hfields, hself, rfl, rfl⟩

/-! ### Statements -/

/-- **How a statement passes checking**, and what is behind it. -/
inductive Env.PassesStmt (env : Env) : Tree.Stmt → Stmt → Env → Prop
  | declareVariable {name : Tree.Name} {readOnly : Bool} {type : Option Tree.TypeExpr}
      {written : Option Tree.Expr} {span : Span} {s : Stmt} {next : Env}
      (h : declareVariable env name readOnly type written span = .ok (s, next)) :
      PassesStmt env (.declareVariable name readOnly type written span) s next
  | declareFunction {name : Tree.Name} {params : List Tree.Annotated}
      {result : Option Tree.TypeExpr} {body : List Tree.Stmt} {braces span : Span}
      {f : OpenFunction} {body' : List Stmt} {last : Env}
      (hf : openFunction env name params result = .ok f)
      (hbody : checkStmts f.inner body = .ok (body', last)) :
      PassesStmt env (.declareFunction name params result ⟨body, braces⟩ span)
        (.declareFunction f.id f.params body') (last.around f.outer)
  | declareStruct {name : Tree.Name} {fields : List Tree.Annotated} {isClass : Bool} {span : Span}
      {s : Stmt} {next : Env} (h : declareStruct env name fields isClass span = .ok (s, next)) :
      PassesStmt env (.declareStruct name fields isClass span) s next
  | ifThen {test : Tree.Expr} {c : List Tree.Stmt} {braces span : Span} {t : Expr}
      {c' : List Stmt} {last : Env} (htest : checkExpr env test = .ok t) (hty : t.ty = .bool)
      (hc : checkStmts (env.within env.scope.enterBlock) c = .ok (c', last)) :
      PassesStmt env (.ifThen test ⟨c, braces⟩ span) (.ifThen t c') (last.around env.scope)
  | ifElse {test : Tree.Expr} {c a : List Tree.Stmt} {braces braces' span : Span} {t : Expr}
      {c' a' : List Stmt} {mid last : Env} (htest : checkExpr env test = .ok t)
      (hty : t.ty = .bool) (hc : checkStmts (env.within env.scope.enterBlock) c = .ok (c', mid))
      (ha : checkStmts (mid.around env.scope.enterBlock) a = .ok (a', last)) :
      PassesStmt env (.ifElse test ⟨c, braces⟩ ⟨a, braces'⟩ span) (.ifElse t c' a')
        (last.around env.scope)
  | ifElseIf {test : Tree.Expr} {c : List Tree.Stmt} {a : Tree.Stmt} {braces span : Span}
      {t : Expr} {c' : List Stmt} {a' : Stmt} {mid next : Env}
      (htest : checkExpr env test = .ok t) (hty : t.ty = .bool)
      (hc : checkStmts (env.within env.scope.enterBlock) c = .ok (c', mid))
      (ha : checkStmt (mid.around env.scope) a = .ok (a', next)) :
      PassesStmt env (.ifElseIf test ⟨c, braces⟩ a span) (.ifElseIf t c' a') next
  | whileLoop {test : Tree.Expr} {body : List Tree.Stmt} {braces span : Span} {t : Expr}
      {body' : List Stmt} {last : Env} (htest : checkExpr env test = .ok t) (hty : t.ty = .bool)
      (hbody : checkStmts (env.within env.scope.enterLoop) body = .ok (body', last)) :
      PassesStmt env (.whileLoop test ⟨body, braces⟩ span) (.whileLoop t body')
        (last.around env.scope)
  | rangeLoop (iterator : Tree.Name) {low high : Tree.Expr} {op : RangeOp}
      {body : List Tree.Stmt} {braces span : Span} {l u : Expr} {body' : List Stmt} {last : Env}
      (hl : checkExpr env low = .ok l) (hlty : l.ty = .number)
      (hu : checkExpr env high = .ok u) (huty : u.ty = .number)
      (hbody : checkStmts ((env.within env.scope.enterLoop).addVariable iterator.text true
        .number).2 body = .ok (body', last)) :
      PassesStmt env (.rangeLoop iterator low op high ⟨body, braces⟩ span)
        (.rangeLoop env.entities.nextVariable l op u body') (last.around env.scope)
  | collectionLoop (iterator : Tree.Name) {tree : Tree.Expr} {body : List Tree.Stmt}
      {braces span : Span} {e : Expr} {element : Ty} {body' : List Stmt} {last : Env}
      (he : checkExpr env tree = .ok e) (hty : e.ty = .array element)
      (hbody : checkStmts ((env.within env.scope.enterLoop).addVariable iterator.text true
        element).2 body = .ok (body', last)) :
      PassesStmt env (.collectionLoop iterator tree ⟨body, braces⟩ span)
        (.collectionLoop env.entities.nextVariable e body') (last.around env.scope)
  | retValue {tree : Tree.Expr} {span : Span} {id : FunctionId} {e : Expr}
      (hfn : env.scope.function = some id)
      (hresult : (env.entities.functionAt id).signature.result ≠ .void)
      (he : checkExpr env tree = .ok e)
      (hfits : e.Fits (env.entities.functionAt id).signature.result) :
      PassesStmt env (.ret (some tree) span) (.ret (some e)) env
  | retNothing {span : Span} {id : FunctionId} (hfn : env.scope.function = some id)
      (hresult : (env.entities.functionAt id).signature.result = .void) :
      PassesStmt env (.ret none span) (.ret none) env
  | breakLoop {span : Span} (hloop : env.scope.inLoop = true) :
      PassesStmt env (.breakLoop span) .breakLoop env
  | continueLoop {span : Span} (hloop : env.scope.inLoop = true) :
      PassesStmt env (.continueLoop span) .continueLoop env
  | tryCatch (name : Option Tree.Name) {body handler : List Tree.Stmt} {braces braces' span : Span}
      {body' handler' : List Stmt} {mid last : Env}
      (hbody : checkStmts (env.within env.scope.enterBlock) body = .ok (body', mid))
      (hhandler : checkStmts (declareError (mid.around env.scope.enterBlock) name).2 handler =
        .ok (handler', last)) :
      PassesStmt env (.tryCatch ⟨body, braces⟩ name ⟨handler, braces'⟩ span)
        (.tryCatch body' (declareError (mid.around env.scope.enterBlock) name).1 handler')
        (last.around env.scope)
  | print {tree : Tree.Expr} {span : Span} {e : Expr} (he : checkExpr env tree = .ok e) :
      PassesStmt env (.print tree span) (.print e) env
  | increment {tree : Tree.Expr} {span : Span} {t : Expr} (ht : checkTarget env tree = .ok t)
      (hty : t.ty = .number) : PassesStmt env (.increment tree span) (.increment t) env
  | decrement {tree : Tree.Expr} {span : Span} {t : Expr} (ht : checkTarget env tree = .ok t)
      (hty : t.ty = .number) : PassesStmt env (.decrement tree span) (.decrement t) env
  | assign {target value : Tree.Expr} {span : Span} {t e : Expr}
      (ht : checkTarget env target = .ok t) (he : checkExpr env value = .ok e)
      (hfits : e.Fits t.ty) : PassesStmt env (.assign target value span) (.assign t e) env
  | call {tree : Tree.Expr} {span : Span} {e : Expr} (he : checkExpr env tree = .ok e) :
      PassesStmt env (.call tree span) (.call e) env

theorem passesStmt_of_checkReturn {value : Option Tree.Expr} {span : Span} {s : Stmt}
    (h : checkReturn env value span = .ok s) : env.PassesStmt (.ret value span) s env := by
  rw [checkReturn] at h
  cases hfn : env.scope.function with
  | none => rw [hfn] at h; cases h
  | some id =>
    rw [hfn] at h
    obtain ⟨row, hrow, h⟩ := look_bind_eq_ok h
    obtain rfl := Entities.functionAt_of_try hrow
    cases value with
    | none =>
      obtain ⟨hvoid, h⟩ := require_bind_eq_ok h
      cases h
      exact .retNothing hfn (Ty.isVoid_iff.mp hvoid)
    | some tree =>
      obtain ⟨hvoid, h⟩ := require_bind_eq_ok h
      obtain ⟨e, he, h⟩ := bind_eq_ok h
      obtain ⟨⟨⟩, ha, h⟩ := bind_eq_ok h
      cases h
      refine .retValue hfn (fun hresult => ?_) he (requireAssignable_eq_ok ha)
      rw [Ty.isVoid_iff.mpr hresult] at hvoid
      cases hvoid

/-- **A statement that passes checking passes by the rules.** -/
theorem passesStmt_of_checkStmt {tree : Tree.Stmt} {s : Stmt}
    (h : checkStmt env tree = .ok (s, env')) : env.PassesStmt tree s env' := by
  cases tree with
  | declareVariable => exact .declareVariable h
  | declareStruct => exact .declareStruct h
  | declareFunction =>
    obtain ⟨f, hf, h⟩ := bind_eq_ok h
    obtain ⟨⟨body', last⟩, hbody, h⟩ := bind_eq_ok h
    cases h
    exact .declareFunction hf hbody
  | ifThen =>
    obtain ⟨t, ht, h⟩ := bind_eq_ok h
    obtain ⟨⟨c', last⟩, hc, h⟩ := bind_eq_ok h
    cases h
    obtain ⟨htest, hty⟩ := checkCondition_eq_ok ht
    exact .ifThen htest hty hc
  | ifElse =>
    obtain ⟨t, ht, h⟩ := bind_eq_ok h
    obtain ⟨⟨c', mid⟩, hc, h⟩ := bind_eq_ok h
    obtain ⟨⟨a', last⟩, ha, h⟩ := bind_eq_ok h
    cases h
    obtain ⟨htest, hty⟩ := checkCondition_eq_ok ht
    exact .ifElse htest hty hc ha
  | ifElseIf =>
    obtain ⟨t, ht, h⟩ := bind_eq_ok h
    obtain ⟨⟨c', mid⟩, hc, h⟩ := bind_eq_ok h
    obtain ⟨⟨a', next⟩, ha, h⟩ := bind_eq_ok h
    cases h
    obtain ⟨htest, hty⟩ := checkCondition_eq_ok ht
    exact .ifElseIf htest hty hc ha
  | whileLoop =>
    obtain ⟨t, ht, h⟩ := bind_eq_ok h
    obtain ⟨⟨body', last⟩, hbody, h⟩ := bind_eq_ok h
    cases h
    obtain ⟨htest, hty⟩ := checkCondition_eq_ok ht
    exact .whileLoop htest hty hbody
  | rangeLoop =>
    obtain ⟨l, hl, h⟩ := bind_eq_ok h
    obtain ⟨u, hu, h⟩ := bind_eq_ok h
    obtain ⟨⟨body', last⟩, hbody, h⟩ := bind_eq_ok h
    cases h
    obtain ⟨hl, hlty⟩ := checkNumber_eq_ok hl
    obtain ⟨hu, huty⟩ := checkNumber_eq_ok hu
    exact .rangeLoop _ hl hlty hu huty hbody
  | collectionLoop =>
    obtain ⟨e, he, h⟩ := bind_eq_ok h
    obtain ⟨element, hty, h⟩ := bind_eq_ok h
    obtain ⟨⟨body', last⟩, hbody, h⟩ := bind_eq_ok h
    cases h
    exact .collectionLoop _ he (elementOf_eq_ok hty) hbody
  | ret =>
    obtain ⟨s', hs, h⟩ := bind_eq_ok h
    cases h
    exact passesStmt_of_checkReturn hs
  | breakLoop =>
    obtain ⟨hloop, h⟩ := require_bind_eq_ok h
    cases h
    exact .breakLoop hloop
  | continueLoop =>
    obtain ⟨hloop, h⟩ := require_bind_eq_ok h
    cases h
    exact .continueLoop hloop
  | tryCatch =>
    obtain ⟨⟨body', mid⟩, hbody, h⟩ := bind_eq_ok h
    obtain ⟨⟨handler', last⟩, hhandler, h⟩ := bind_eq_ok h
    cases h
    exact .tryCatch _ hbody hhandler
  | print =>
    obtain ⟨e, he, h⟩ := bind_eq_ok h
    cases h
    exact .print he
  | increment =>
    obtain ⟨t, ht, h⟩ := bind_eq_ok h
    cases h
    obtain ⟨ht, hty⟩ := checkNumberTarget_eq_ok ht
    exact .increment ht hty
  | decrement =>
    obtain ⟨t, ht, h⟩ := bind_eq_ok h
    cases h
    obtain ⟨ht, hty⟩ := checkNumberTarget_eq_ok ht
    exact .decrement ht hty
  | assign =>
    obtain ⟨t, ht, h⟩ := bind_eq_ok h
    obtain ⟨e, he, h⟩ := bind_eq_ok h
    obtain ⟨⟨⟩, ha, h⟩ := bind_eq_ok h
    cases h
    exact .assign ht he (requireAssignable_eq_ok ha)
  | call =>
    obtain ⟨e, he, h⟩ := bind_eq_ok h
    cases h
    exact .call he

theorem checkStmts_cons_eq_ok {tree : Tree.Stmt} {trees : List Tree.Stmt} {ss : List Stmt}
    (h : checkStmts env (tree :: trees) = .ok (ss, env')) :
    ∃ s mid others, checkStmt env tree = .ok (s, mid) ∧
      checkStmts mid trees = .ok (others, env') ∧ ss = s :: others := by
  obtain ⟨⟨s, mid⟩, hs, h⟩ := bind_eq_ok h
  obtain ⟨⟨others, last⟩, hothers, h⟩ := bind_eq_ok h
  cases h
  exact ⟨s, mid, others, hs, hothers, rfl⟩

end Checking

end TypedImp
