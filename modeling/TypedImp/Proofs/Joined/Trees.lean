import TypedImp.Proofs.Grammar.Built

/-!
# Trees that stand elsewhere

`mapSpans f` is a tree in which `f` says where each node stands, and nothing else is changed.  A
node stands where `f` puts it (`span_mapSpans`), also if its span is merged from those of its parts,
as long as `f` keeps the order of places; and if `f` moves nothing, the tree is the same one
(`mapSpans_id`).
-/

namespace TypedImp.Tree

section

variable (f : Span → Span)

def Name.mapSpans (name : Name) : Name := ⟨name.text, f name.span⟩

mutual

def TypeExpr.mapSpans : TypeExpr → TypeExpr
  | .named name => .named (name.mapSpans f)
  | .array element span => .array element.mapSpans (f span)
  | .function params result span =>
    .function (TypeExpr.mapSpansAll params) result.mapSpans (f span)

def TypeExpr.mapSpansAll : List TypeExpr → List TypeExpr
  | [] => []
  | type :: types => type.mapSpans :: TypeExpr.mapSpansAll types

end

def Annotated.mapSpans (a : Annotated) : Annotated := ⟨a.name.mapSpans f, a.type.mapSpans f⟩

mutual

def Expr.mapSpans : Expr → Expr
  | .number value span => .number value (f span)
  | .string value span => .string value (f span)
  | .bool value span => .bool value (f span)
  | .name n => .name (n.mapSpans f)
  | .binary op left right span => .binary op left.mapSpans right.mapSpans (f span)
  | .unary op operand span => .unary op operand.mapSpans (f span)
  | .array elements span => .array (Expr.mapSpansAll elements) (f span)
  | .emptyArray element span => .emptyArray (element.mapSpans f) (f span)
  | .call callee args span => .call callee.mapSpans (Expr.mapSpansAll args) (f span)
  | .member object field span => .member object.mapSpans (field.mapSpans f) (f span)
  | .subscript a index span => .subscript a.mapSpans index.mapSpans (f span)

def Expr.mapSpansAll : List Expr → List Expr
  | [] => []
  | e :: es => e.mapSpans :: Expr.mapSpansAll es

end

mutual

def Stmt.mapSpans : Stmt → Stmt
  | .declareVariable name readOnly type initializer span =>
    .declareVariable (name.mapSpans f) readOnly (type.map (TypeExpr.mapSpans f))
      (initializer.map (Expr.mapSpans f)) (f span)
  | .declareFunction name params result ⟨body, inner⟩ span =>
    .declareFunction (name.mapSpans f) (params.map (Annotated.mapSpans f))
      (result.map (TypeExpr.mapSpans f)) ⟨Stmt.mapSpansAll body, f inner⟩ (f span)
  | .declareStruct name fields isClass span =>
    .declareStruct (name.mapSpans f) (fields.map (Annotated.mapSpans f)) isClass (f span)
  | .ifThen test ⟨consequent, inner⟩ span =>
    .ifThen (test.mapSpans f) ⟨Stmt.mapSpansAll consequent, f inner⟩ (f span)
  | .ifElse test ⟨consequent, inner⟩ ⟨alternate, inner'⟩ span =>
    .ifElse (test.mapSpans f) ⟨Stmt.mapSpansAll consequent, f inner⟩
      ⟨Stmt.mapSpansAll alternate, f inner'⟩ (f span)
  | .ifElseIf test ⟨consequent, inner⟩ alternate span =>
    .ifElseIf (test.mapSpans f) ⟨Stmt.mapSpansAll consequent, f inner⟩ alternate.mapSpans (f span)
  | .whileLoop test ⟨body, inner⟩ span =>
    .whileLoop (test.mapSpans f) ⟨Stmt.mapSpansAll body, f inner⟩ (f span)
  | .rangeLoop iterator low op high ⟨body, inner⟩ span =>
    .rangeLoop (iterator.mapSpans f) (low.mapSpans f) op (high.mapSpans f)
      ⟨Stmt.mapSpansAll body, f inner⟩ (f span)
  | .collectionLoop iterator collection ⟨body, inner⟩ span =>
    .collectionLoop (iterator.mapSpans f) (collection.mapSpans f)
      ⟨Stmt.mapSpansAll body, f inner⟩ (f span)
  | .ret value span => .ret (value.map (Expr.mapSpans f)) (f span)
  | .breakLoop span => .breakLoop (f span)
  | .continueLoop span => .continueLoop (f span)
  | .tryCatch ⟨body, inner⟩ error ⟨handler, inner'⟩ span =>
    .tryCatch ⟨Stmt.mapSpansAll body, f inner⟩ (error.map (Name.mapSpans f))
      ⟨Stmt.mapSpansAll handler, f inner'⟩ (f span)
  | .print value span => .print (value.mapSpans f) (f span)
  | .increment target span => .increment (target.mapSpans f) (f span)
  | .decrement target span => .decrement (target.mapSpans f) (f span)
  | .assign target value span => .assign (target.mapSpans f) (value.mapSpans f) (f span)
  | .call e span => .call (e.mapSpans f) (f span)

def Stmt.mapSpansAll : List Stmt → List Stmt
  | [] => []
  | s :: ss => s.mapSpans :: Stmt.mapSpansAll ss

end

def Block.mapSpans (block : Block Stmt) : Block Stmt :=
  ⟨block.stmts.map (Stmt.mapSpans f), f block.span⟩

end

variable {f : Span → Span}

/-! ### Lists -/

theorem TypeExpr.mapSpansAll_eq_map (types : List TypeExpr) :
    mapSpansAll f types = types.map (mapSpans f) := by
  induction types with
  | nil => rfl
  | cons type types ih => rw [mapSpansAll, ih, List.map_cons]

theorem Expr.mapSpansAll_eq_map (es : List Expr) :
    mapSpansAll f es = es.map (mapSpans f) := by
  induction es with
  | nil => rfl
  | cons e es ih => rw [mapSpansAll, ih, List.map_cons]

theorem Stmt.mapSpansAll_eq_map (ss : List Stmt) :
    mapSpansAll f ss = ss.map (mapSpans f) := by
  induction ss with
  | nil => rfl
  | cons s ss ih => rw [mapSpansAll, ih, List.map_cons]

/-! ### Where a tree stands -/

@[simp] theorem Name.span_mapSpans (name : Name) : (name.mapSpans f).span = f name.span := rfl

@[simp] theorem TypeExpr.span_mapSpans (type : TypeExpr) :
    (type.mapSpans f).span = f type.span := by
  cases type <;> rfl

@[simp] theorem Expr.span_mapSpans (e : Expr) : (e.mapSpans f).span = f e.span := by
  cases e <;> rfl

@[simp] theorem Stmt.span_mapSpans (s : Stmt) : (s.mapSpans f).span = f s.span := by
  cases s <;> rfl

@[simp] theorem Block.span_mapSpans (block : Block Stmt) :
    (block.mapSpans f).span = f block.span := rfl

@[simp] theorem Expr.isCall_mapSpans (e : Expr) : (e.mapSpans f).isCall = e.isCall := by
  cases e <;> rfl

/-! ### Nothing moves -/

@[simp] theorem Name.mapSpans_id : Name.mapSpans id = id := rfl

mutual

theorem TypeExpr.mapSpans_id_apply : ∀ type : TypeExpr, type.mapSpans id = type
  | .named _ => rfl
  | .array element _ => by rw [mapSpans, mapSpans_id_apply element, id]
  | .function params result _ => by
    rw [mapSpans, mapSpansAll_id_apply params, mapSpans_id_apply result, id]

theorem TypeExpr.mapSpansAll_id_apply : ∀ types : List TypeExpr, mapSpansAll id types = types
  | [] => rfl
  | type :: types => by rw [mapSpansAll, mapSpans_id_apply type, mapSpansAll_id_apply types]

end

@[simp] theorem TypeExpr.mapSpans_id : TypeExpr.mapSpans id = id := funext mapSpans_id_apply

@[simp] theorem Annotated.mapSpans_id : Annotated.mapSpans id = id := by
  funext a
  simp [mapSpans]

mutual

theorem Expr.mapSpans_id_apply : ∀ e : Expr, e.mapSpans id = e
  | .number _ _ | .string _ _ | .bool _ _ | .name _ => rfl
  | .binary _ left right _ => by
    rw [mapSpans, mapSpans_id_apply left, mapSpans_id_apply right, id]
  | .unary _ operand _ => by rw [mapSpans, mapSpans_id_apply operand, id]
  | .array elements _ => by rw [mapSpans, mapSpansAll_id_apply elements, id]
  | .emptyArray element _ => by rw [mapSpans, TypeExpr.mapSpans_id, id, id]
  | .call callee args _ => by
    rw [mapSpans, mapSpans_id_apply callee, mapSpansAll_id_apply args, id]
  | .member object _ _ => by rw [mapSpans, mapSpans_id_apply object, Name.mapSpans_id, id, id]
  | .subscript a index _ => by rw [mapSpans, mapSpans_id_apply a, mapSpans_id_apply index, id]

theorem Expr.mapSpansAll_id_apply : ∀ es : List Expr, mapSpansAll id es = es
  | [] => rfl
  | e :: es => by rw [mapSpansAll, mapSpans_id_apply e, mapSpansAll_id_apply es]

end

@[simp] theorem Expr.mapSpans_id : Expr.mapSpans id = id := funext mapSpans_id_apply

mutual

theorem Stmt.mapSpans_id_apply : ∀ s : Stmt, s.mapSpans id = s
  | .declareVariable .. | .declareStruct .. | .ret .. | .breakLoop _ | .continueLoop _ | .print ..
  | .increment .. | .decrement .. | .assign .. | .call .. => by simp [mapSpans]
  | .declareFunction _ _ _ ⟨body, _⟩ _ | .ifThen _ ⟨body, _⟩ _ | .whileLoop _ ⟨body, _⟩ _
  | .rangeLoop _ _ _ _ ⟨body, _⟩ _ | .collectionLoop _ _ ⟨body, _⟩ _ => by
    simp [mapSpans, mapSpansAll_id_apply body]
  | .ifElse _ ⟨body, _⟩ ⟨body', _⟩ _ | .tryCatch ⟨body, _⟩ _ ⟨body', _⟩ _ => by
    simp [mapSpans, mapSpansAll_id_apply body, mapSpansAll_id_apply body']
  | .ifElseIf _ ⟨consequent, _⟩ alternate _ => by
    simp [mapSpans, mapSpansAll_id_apply consequent, mapSpans_id_apply alternate]

theorem Stmt.mapSpansAll_id_apply : ∀ ss : List Stmt, mapSpansAll id ss = ss
  | [] => rfl
  | s :: ss => by rw [mapSpansAll, mapSpans_id_apply s, mapSpansAll_id_apply ss]

end

@[simp] theorem Stmt.mapSpans_id : Stmt.mapSpans id = id := funext mapSpans_id_apply

end TypedImp.Tree
