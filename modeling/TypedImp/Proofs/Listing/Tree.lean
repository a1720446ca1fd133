import TypedImp.Program.Listing
import TypedImp.Proofs.Parts
import TypedImp.Tree

/-!
# The parse trees of a program

A program has a shape that can be compared with a parse tree: `Program.trees` are trees
of the same statements, in which every variable, function and struct is the identifier
that a listing shows for it and every declaration has its type.  The spans of these trees
say nothing, and `bare` takes the spans out of other trees.

There is one place where a listing is not read as it was meant.  A power whose left
operand has a sign, `(-x) ** 2`, is shown as `(-x ** 2)`, which is the negative of a power.
So the trees have a parameter: what such a *signed power* becomes.  `Tree.Expr.power` is
what it is, and `Tree.Expr.signedPower` is what it is read as.  `Program.trees_eq_iff`:
**the two trees of a program are the same only if it has no signed power.**
-/

namespace TypedImp

/-! ### Trees without spans -/

namespace Tree

def Name.of (text : String) : Name := ⟨text, default⟩

def Name.bare (name : Name) : Name := .of name.text

mutual

/-- A tree without the places it was read from. -/
def TypeExpr.bare : TypeExpr → TypeExpr
  | .named name => .named name.bare
  | .array element _ => .array element.bare default
  | .function params result _ => .function (TypeExpr.bareAll params) result.bare default

def TypeExpr.bareAll : List TypeExpr → List TypeExpr
  | [] => []
  | type :: types => type.bare :: TypeExpr.bareAll types

end

def Annotated.bare (a : Annotated) : Annotated := ⟨a.name.bare, a.type.bare⟩

mutual

def Expr.bare : Expr → Expr
  | .number value _ => .number value default
  | .string value _ => .string value default
  | .bool value _ => .bool value default
  | .name n => .name n.bare
  | .binary op left right _ => .binary op left.bare right.bare default
  | .unary op operand _ => .unary op operand.bare default
  | .array elements _ => .array (Expr.bareAll elements) default
  | .emptyArray element _ => .emptyArray element.bare default
  | .call callee args _ => .call callee.bare (Expr.bareAll args) default
  | .member object field _ => .member object.bare field.bare default
  | .subscript a index _ => .subscript a.bare index.bare default

def Expr.bareAll : List Expr → List Expr
  | [] => []
  | e :: es => e.bare :: Expr.bareAll es

end

mutual

def Stmt.bare : Stmt → Stmt
  | .declareVariable name readOnly type initializer _ =>
    .declareVariable name.bare readOnly (type.map TypeExpr.bare) (initializer.map Expr.bare) default
  | .declareFunction name params result ⟨body, _⟩ _ =>
    .declareFunction name.bare (params.map Annotated.bare) (result.map TypeExpr.bare)
      ⟨Stmt.bareAll body, default⟩ default
  | .declareStruct name fields isClass _ =>
    .declareStruct name.bare (fields.map Annotated.bare) isClass default
  | .ifThen test ⟨consequent, _⟩ _ =>
    .ifThen test.bare ⟨Stmt.bareAll consequent, default⟩ default
  | .ifElse test ⟨consequent, _⟩ ⟨alternate, _⟩ _ =>
    .ifElse test.bare ⟨Stmt.bareAll consequent, default⟩ ⟨Stmt.bareAll alternate, default⟩ default
  | .ifElseIf test ⟨consequent, _⟩ alternate _ =>
    .ifElseIf test.bare ⟨Stmt.bareAll consequent, default⟩ alternate.bare default
  | .whileLoop test ⟨body, _⟩ _ => .whileLoop test.bare ⟨Stmt.bareAll body, default⟩ default
  | .rangeLoop iterator low op high ⟨body, _⟩ _ =>
    .rangeLoop iterator.bare low.bare op high.bare ⟨Stmt.bareAll body, default⟩ default
  | .collectionLoop iterator collection ⟨body, _⟩ _ =>
    .collectionLoop iterator.bare collection.bare ⟨Stmt.bareAll body, default⟩ default
  | .ret value _ => .ret (value.map Expr.bare) default
  | .breakLoop _ => .breakLoop default
  | .continueLoop _ => .continueLoop default
  | .tryCatch ⟨body, _⟩ error ⟨handler, _⟩ _ =>
    .tryCatch ⟨Stmt.bareAll body, default⟩ (error.map Name.bare) ⟨Stmt.bareAll handler, default⟩
      default
  | .print value _ => .print value.bare default
  | .increment target _ => .increment target.bare default
  | .decrement target _ => .decrement target.bare default
  | .assign target value _ => .assign target.bare value.bare default
  | .call e _ => .call e.bare default

def Stmt.bareAll : List Stmt → List Stmt
  | [] => []
  | s :: ss => s.bare :: Stmt.bareAll ss

end

theorem TypeExpr.bareAll_eq_map (types : List TypeExpr) : bareAll types = types.map bare := by
  induction types with
  | nil => rfl
  | cons type types ih => rw [bareAll, ih, List.map_cons]

theorem Expr.bareAll_eq_map (es : List Expr) : bareAll es = es.map bare := by
  induction es with
  | nil => rfl
  | cons e es ih => rw [bareAll, ih, List.map_cons]

theorem Stmt.bareAll_eq_map (ss : List Stmt) : bareAll ss = ss.map bare := by
  induction ss with
  | nil => rfl
  | cons s ss ih => rw [bareAll, ih, List.map_cons]

/-! ### Signed powers -/

def Expr.power (l r : Expr) : Expr := .binary .pow l r default

/-- What a power whose left operand has a sign is read as: a sign in front of a power. -/
def Expr.signedPower (l r : Expr) : Expr :=
  match l with
  | .unary op operand _ => .unary op (.power operand r) default
  | l => .power l r

end Tree

/-! ### Trees of a program -/

namespace Entities

variable (E : Entities)

mutual

def typeTree : Ty → Tree.TypeExpr
  | .number => .named (.of "number")
  | .string => .named (.of "string")
  | .bool => .named (.of "boolean")
  | .void => .named (.of "void")
  | .any => .named (.of "any")
  | .array element => .array (typeTree element) default
  | .struct id => .named (.of (E.structAt id).name)
  | .function params result => .function (typeTrees params) (typeTree result) default

def typeTrees : List Ty → List Tree.TypeExpr
  | [] => []
  | ty :: tys => typeTree ty :: typeTrees tys

end

theorem typeTrees_eq_map (tys : List Ty) : E.typeTrees tys = tys.map E.typeTree := by
  induction tys with
  | nil => rfl
  | cons ty tys ih => rw [typeTrees, ih, List.map_cons]

def emptyArrayTree : Ty → Tree.Expr
  | .array element => .emptyArray (E.typeTree element) default
  | _ => .array [] default

def annotatedTree (name : String) (ty : Ty) : Tree.Annotated := ⟨.of name, E.typeTree ty⟩

def variableTree (id : VariableId) : Tree.Annotated :=
  E.annotatedTree (Listing.ofVariable E id) (E.variableAt id).ty

def fieldTrees (id : StructId) : List Tree.Annotated :=
  (E.structAt id).fields.map fun field => E.annotatedTree field.name field.ty

end Entities

def Expr.isSignedPower : Expr → Bool
  | binary op l _ _ => op == .pow && l.isUnary
  | _ => false

section

variable (E : Entities) (power : Tree.Expr → Tree.Expr → Tree.Expr)

mutual

def Expr.tree : Expr → Tree.Expr
  | .number value _ => .number value default
  | .string value _ => .string value default
  | .bool value _ => .bool value default
  | .var id _ => .name (.of (Listing.ofVariable E id))
  | .func id _ => .name (.of (Listing.ofFunction E id))
  | .struct id _ => .name (.of (Listing.ofStruct E id))
  | .binary op l r _ =>
    if op == .pow && l.isUnary then power l.tree r.tree else .binary op l.tree r.tree default
  | .unary op e _ => .unary op e.tree default
  | .array [] ty => E.emptyArrayTree ty
  | .array (e :: es) _ => .array (e.tree :: Expr.treeAll es) default
  | .call f args _ => .call f.tree (Expr.treeAll args) default
  | .member o field _ => .member o.tree (.of field) default
  | .subscript a i _ => .subscript a.tree i.tree default

def Expr.treeAll : List Expr → List Tree.Expr
  | [] => []
  | e :: es => e.tree :: Expr.treeAll es

end

mutual

def Stmt.tree : Stmt → Tree.Stmt
  | .declareVariable id e =>
    .declareVariable (.of (Listing.ofVariable E id)) (E.variableAt id).readOnly
      (some (E.typeTree (E.variableAt id).ty)) (e.map (Expr.tree E power)) default
  | .declareFunction id params body =>
    .declareFunction (.of (Listing.ofFunction E id)) (params.map E.variableTree)
      (some (E.typeTree (E.functionAt id).signature.result)) ⟨Stmt.treeAll body, default⟩ default
  | .declareStruct id => .declareStruct (.of (Listing.ofStruct E id)) (E.fieldTrees id) false default
  | .declareClass id => .declareStruct (.of (Listing.ofStruct E id)) (E.fieldTrees id) true default
  | .ifThen test c => .ifThen (test.tree E power) ⟨Stmt.treeAll c, default⟩ default
  | .ifElse test c a =>
    .ifElse (test.tree E power) ⟨Stmt.treeAll c, default⟩ ⟨Stmt.treeAll a, default⟩ default
  | .ifElseIf test c a =>
    .ifElseIf (test.tree E power) ⟨Stmt.treeAll c, default⟩ a.tree default
  | .whileLoop test body => .whileLoop (test.tree E power) ⟨Stmt.treeAll body, default⟩ default
  | .rangeLoop id low op high body =>
    .rangeLoop (.of (Listing.ofVariable E id)) (low.tree E power) op (high.tree E power)
      ⟨Stmt.treeAll body, default⟩ default
  | .collectionLoop id e body =>
    .collectionLoop (.of (Listing.ofVariable E id)) (e.tree E power) ⟨Stmt.treeAll body, default⟩
      default
  | .ret e => .ret (e.map (Expr.tree E power)) default
  | .breakLoop => .breakLoop default
  | .continueLoop => .continueLoop default
  | .tryCatch body error handler =>
    .tryCatch ⟨Stmt.treeAll body, default⟩ (error.map fun id => .of (Listing.ofVariable E id))
      ⟨Stmt.treeAll handler, default⟩ default
  | .print e => .print (e.tree E power) default
  | .increment e => .increment (e.tree E power) default
  | .decrement e => .decrement (e.tree E power) default
  | .assign t e => .assign (t.tree E power) (e.tree E power) default
  | .call e => .call (e.tree E power) default

def Stmt.treeAll : List Stmt → List Tree.Stmt
  | [] => []
  | s :: ss => s.tree :: Stmt.treeAll ss

end

end

/-- **The trees of a program.** -/
def Program.trees (power : Tree.Expr → Tree.Expr → Tree.Expr) (p : Program) : List Tree.Stmt :=
  p.statements.map (Stmt.tree p.entities power)

variable {E : Entities} {power : Tree.Expr → Tree.Expr → Tree.Expr}

theorem Expr.treeAll_eq_map (es : List Expr) :
    treeAll E power es = es.map (Expr.tree E power) := by
  induction es with
  | nil => rfl
  | cons e es ih => rw [treeAll, ih, List.map_cons]

theorem Stmt.treeAll_eq_map (ss : List Stmt) :
    treeAll E power ss = ss.map (Stmt.tree E power) := by
  induction ss with
  | nil => rfl
  | cons s ss ih => rw [treeAll, ih, List.map_cons]

/-! ### Where the two trees differ -/

def Expr.SameTrees (E : Entities) (e : Expr) : Prop :=
  e.tree E Tree.Expr.signedPower = e.tree E Tree.Expr.power

theorem Expr.sameTrees_iff_parts (e : Expr) :
    e.SameTrees E ↔ e.isSignedPower = false ∧ ∀ part ∈ e.parts, part.SameTrees E := by
  simp only [SameTrees]
  cases e with
  | number | string | bool | var | func | struct => simp [tree, isSignedPower, parts]
  | binary op l r ty =>
    rw [isSignedPower]
    by_cases h : (op == .pow && l.isUnary) = true
    · -- A signed power is read with its sign in front.
      have hunary := (Bool.and_eq_true_iff.mp h).2
      cases l with
      | unary o x ty' => simp [tree, h, Tree.Expr.signedPower, Tree.Expr.power]
      | _ => cases hunary
    · simp [tree, h, parts]
  | unary op e ty => simp [tree, isSignedPower, parts]
  | array es ty =>
    cases es with
    | nil => simp [tree, isSignedPower, parts]
    | cons e es => simp [tree, isSignedPower, parts, treeAll_eq_map]
  | call f args ty => simp [tree, isSignedPower, parts, treeAll_eq_map]
  | member o field ty => simp [tree, isSignedPower, parts]
  | subscript a i ty => simp [tree, isSignedPower, parts]

theorem Expr.sameTrees_iff (e : Expr) :
    e.SameTrees E ↔ ∀ e' ∈ e.nested, e'.isSignedPower = false := by
  induction e using parts_induction with
  | step e ih =>
    rw [sameTrees_iff_parts]
    constructor
    · rintro ⟨hself, hparts⟩ e' he'
      rcases mem_nested_iff.mp he' with rfl | ⟨part, hp, he'⟩
      · exact hself
      · exact (ih part hp).mp (hparts part hp) e' he'
    · intro h
      refine ⟨h e e.mem_nested_self, fun part hp => (ih part hp).mpr fun e' he' => ?_⟩
      exact h e' (mem_nested_of_part hp he')

def Stmt.SameTrees (E : Entities) (s : Stmt) : Prop :=
  s.tree E Tree.Expr.signedPower = s.tree E Tree.Expr.power

theorem Stmt.sameTrees_iff_parts (s : Stmt) :
    s.SameTrees E ↔ (∀ e ∈ s.exprs, e.SameTrees E) ∧ ∀ part ∈ s.parts, part.SameTrees E := by
  simp only [SameTrees, Expr.SameTrees]
  cases s with
  | declareVariable id e => cases e <;> simp [tree, exprs, parts]
  | ret e => cases e <;> simp [tree, exprs, parts]
  | _ => simp [tree, exprs, parts, treeAll_eq_map, or_imp, forall_and, and_assoc]

theorem Stmt.sameTrees_iff (s : Stmt) : s.SameTrees E ↔
    ∀ s' ∈ s.nested, ∀ e ∈ s'.exprs, e.SameTrees E := by
  induction s using parts_induction with
  | step s ih =>
    rw [sameTrees_iff_parts]
    constructor
    · rintro ⟨hself, hparts⟩ s' hs'
      rcases mem_nested_iff.mp hs' with rfl | ⟨part, hp, hs'⟩
      · exact hself
      · exact (ih part hp).mp (hparts part hp) s' hs'
    · intro h
      refine ⟨h s s.mem_nested_self, fun part hp => (ih part hp).mpr fun s' hs' => ?_⟩
      exact h s' (mem_nested_of_part hp hs')

/-- **The two trees of a program are the same** exactly if it has no signed power. -/
theorem Program.trees_eq_iff (p : Program) :
    p.trees Tree.Expr.signedPower = p.trees Tree.Expr.power ↔
      ∀ e ∈ p.exprs, e.isSignedPower = false := by
  rw [trees, trees, List.map_inj_left]
  constructor
  · intro h e he
    obtain ⟨s, hs, whole, hw, he⟩ := mem_exprs_iff.mp he
    obtain ⟨top, htop, hs⟩ := Stmt.mem_nestedAll.mp hs
    exact whole.sameTrees_iff.mp (top.sameTrees_iff.mp (h top htop) s hs whole hw) e he
  · intro h s hs
    refine s.sameTrees_iff.mpr fun s' hs' whole hw => whole.sameTrees_iff.mpr fun e he => ?_
    exact h e (mem_exprs_iff.mpr ⟨s', Stmt.mem_nestedAll.mpr ⟨s, hs, hs'⟩, whole, hw, he⟩)

end TypedImp
