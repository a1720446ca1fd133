import TypedImp.Proofs.Grammar.StatementCompleteness
import TypedImp.Proofs.Listing.Expressions

/-!
# Reading the statements of a program

The tokens of every statement that can be read again are a statement of the grammar, with the
tree of that statement but for signed powers (**`Stmt.isStmt`**).  Those of a program are
therefore a program of the grammar, which is read as its tree: **`Program.ofTokens_eq`**.

A listing has commas between the fields of a struct.  The grammar counts each to the field in
front of it, so that the last field, which has none, is a case of its own.
-/

namespace TypedImp

open Listing Grammar
open TypedImp.Token (Kind)

variable {E : Entities}

/-! ### Declarations -/

namespace Entities

theorem isAnnotated (E : Entities) (name : String) (ty : Ty) :
    IsAnnotated (E.annotatedKinds name ty) (E.annotatedTree name ty) :=
  .of name (E.isType ty)

/-- Parameters with their tokens and trees. -/
theorem annotated_items (params : List VariableId) :
    ∃ items : List (List Kind × Tree.Annotated), items.map Prod.snd = params.map E.variableTree ∧
      Separated (items.map Prod.fst) (commas (params.map E.variableKinds)) ∧
        ∀ p ∈ items, IsAnnotated p.1 p.2 := by
  refine ⟨params.map fun id => (E.variableKinds id, E.variableTree id), ?_, ?_, ?_⟩
  · rw [List.map_map]
    rfl
  · rw [List.map_map]
    exact separated_commas _
  · intro p hp
    obtain ⟨id, -, rfl⟩ := List.mem_map.mp hp
    exact E.isAnnotated _ _

/-- Fields with their tokens and trees. -/
theorem field_items (E : Entities) (fields : List Field) :
    ∃ items : List (List Kind × Tree.Annotated),
      items.flatMap Prod.fst = commas (fields.map fun f => E.annotatedKinds f.name f.ty) ∧
        (items.map Prod.snd = fields.map fun f => E.annotatedTree f.name f.ty) ∧
          ∀ p ∈ items, IsField p.1 p.2 := by
  induction fields with
  | nil => exact ⟨[], rfl, rfl, by simp⟩
  | cons f fields ih =>
    have hf := E.isAnnotated f.name f.ty
    cases fields with
    | nil =>
      exact ⟨[(E.annotatedKinds f.name f.ty, E.annotatedTree f.name f.ty)], List.append_nil _, rfl,
        List.forall_mem_singleton.mpr (.last hf)⟩
    | cons g fields =>
      obtain ⟨items, hkinds, htrees, hall⟩ := ih
      refine ⟨(E.annotatedKinds f.name f.ty ++ [.symbol .comma], E.annotatedTree f.name f.ty) ::
        items, ?_, ?_, ?_⟩
      · rw [List.flatMap_cons, hkinds, List.append_assoc]
        rfl
      · rw [List.map_cons, List.map_cons, htrees]
      · exact List.forall_mem_cons.mpr ⟨.comma hf, hall⟩

end Entities

/-! ### Statements -/

namespace Stmt

def items (E : Entities) (ss : List Stmt) : List (List Kind × Tree.Stmt) :=
  ss.map fun s => (s.kinds E, s.tree E Tree.Expr.signedPower)

theorem flatMap_items (ss : List Stmt) : (items E ss).flatMap Prod.fst = kindsAll E ss := by
  rw [items, List.flatMap_map, kindsAll_eq_flatMap]

theorem map_items (ss : List Stmt) :
    (items E ss).map Prod.snd = treeAll E Tree.Expr.signedPower ss := by
  rw [items, List.map_map, treeAll_eq_map]
  rfl

theorem blockKinds_items (ss : List Stmt) :
    blockKinds (items E ss) = bracedKinds (kindsAll E ss) := by
  rw [blockKinds, flatMap_items]

theorem blockTree_items (ss : List Stmt) :
    blockTree (items E ss) = ⟨treeAll E Tree.Expr.signedPower ss, default⟩ := by
  rw [blockTree, map_items]

theorem isStmt_items {ss : List Stmt}
    (h : ∀ s ∈ ss, IsStmt (s.kinds E) (s.tree E Tree.Expr.signedPower)) :
    ∀ p ∈ items E ss, IsStmt p.1 p.2 := by
  intro p hp
  obtain ⟨s, hs, rfl⟩ := List.mem_map.mp hp
  exact h s hs

theorem isConditional_tree {s : Stmt} (h : s.isConditional = true) :
    (s.tree E Tree.Expr.signedPower).isConditional = true := by
  cases s <;> first | rfl | cases h

/-- The expressions of a statement are expressions of the grammar. -/
theorem AllReadable.derives {s : Stmt} (h : s.AllReadable E) {e : Expr} (he : e ∈ s.exprs) :
    Derives .or (e.kinds E) (e.tree E Tree.Expr.signedPower) :=
  (e.derives (h.expr he) e e.mem_nested_self).ofLeast 0

/-- **The tokens of a statement that can be read again are one of the grammar.** -/
theorem isStmt (s : Stmt) (h : s.AllReadable E) :
    IsStmt (s.kinds E) (s.tree E Tree.Expr.signedPower) := by
  induction s using parts_induction with
  | step s ih =>
    have hparts {ss : List Stmt} (hss : ∀ part ∈ ss, part ∈ s.parts) :
        ∀ p ∈ items E ss, IsStmt p.1 p.2 :=
      isStmt_items fun part hp => ih part (hss part hp) (h.part (hss part hp))
    cases s with
    | declareVariable id e =>
      cases e with
      | none => exact .declareVariable _ _ (.cons (E.isType _)) .none
      | some e =>
        have he := h.derives (e := e) (by simp [exprs])
        exact .declareVariable _ _ (.cons (E.isType _)) (.cons he)
    | declareFunction id params body =>
      obtain ⟨items, hitems, hkinds, hall⟩ := E.annotated_items params
      have hfunction := IsStmt.declareFunction (ofFunction E id) hall hkinds
        (.cons (E.isType (E.functionAt id).signature.result))
        (hparts fun part (hp : part ∈ body) => hp)
      rw [hitems, blockKinds_items, blockTree_items] at hfunction
      exact hfunction
    | declareStruct id =>
      obtain ⟨items, hkinds, htrees, hall⟩ := E.field_items (E.structAt id).fields
      have hstruct := IsStmt.declareStruct (ofStruct E id) false hall
      rw [hkinds, htrees] at hstruct
      rw [kinds, h.self.2]
      exact hstruct
    | declareClass id =>
      obtain ⟨items, hkinds, htrees, hall⟩ := E.field_items (E.structAt id).fields
      have hclass := IsStmt.declareStruct (ofStruct E id) true hall
      rw [hkinds, htrees] at hclass
      rw [kinds, h.self.2]
      exact hclass
    | ifThen test c =>
      rw [kinds, tree, ← blockKinds_items, ← blockTree_items]
      exact .ifThen (h.derives List.mem_cons_self) (hparts fun _ hp => hp)
    | ifElse test c a =>
      rw [kinds, tree, ← blockKinds_items, ← blockTree_items, ← blockKinds_items,
        ← blockTree_items]
      exact .ifElse (h.derives List.mem_cons_self) (hparts fun _ hp => List.mem_append_left a hp)
        (hparts fun _ hp => List.mem_append_right c hp)
    | ifElseIf test c a =>
      have ha : a ∈ (ifElseIf test c a).parts := List.mem_append_right c List.mem_cons_self
      rw [kinds, tree, ← blockKinds_items, ← blockTree_items]
      exact .ifElseIf (h.derives List.mem_cons_self)
        (hparts fun _ hp => List.mem_append_left [a] hp) (ih a ha (h.part ha))
        (isConditional_tree h.self)
    | whileLoop test body =>
      rw [kinds, tree, ← blockKinds_items, ← blockTree_items]
      exact .whileLoop (h.derives List.mem_cons_self) (hparts fun _ hp => hp)
    | rangeLoop id low op high body =>
      rw [kinds, tree, ← blockKinds_items, ← blockTree_items]
      exact .rangeLoop _ op (h.derives List.mem_cons_self) (h.derives (by simp [exprs]))
        (hparts fun _ hp => hp)
    | collectionLoop id e body =>
      rw [kinds, tree, ← blockKinds_items, ← blockTree_items]
      exact .collectionLoop _ (h.derives List.mem_cons_self) (hparts fun _ hp => hp)
    | ret e =>
      cases e with
      | none => exact .ret .none
      | some e => exact .ret (.bare (h.derives (by simp [exprs])))
    | breakLoop => exact .breakLoop
    | continueLoop => exact .continueLoop
    | tryCatch body error handler =>
      rw [kinds, tree, ← blockKinds_items, ← blockTree_items, ← blockKinds_items,
        ← blockTree_items]
      refine .tryCatch (hparts fun _ hp => List.mem_append_left handler hp) ?_
        (hparts fun _ hp => List.mem_append_right body hp)
      cases error with
      | none => exact .none
      | some id => exact .bare (.of _)
    | print e => exact .print (h.derives List.mem_cons_self)
    | increment e => exact .increment (h.derives List.mem_cons_self)
    | decrement e => exact .decrement (h.derives List.mem_cons_self)
    | assign t e => exact .assign (h.derives List.mem_cons_self) (h.derives (by simp [exprs]))
    | call e =>
      have hcall := h.self
      refine .call (h.derives List.mem_cons_self) ?_
      cases e <;> first | rfl | cases hcall

end Stmt

/-! ### Programs -/

/-- **The tokens of a program are read as its trees**, but for signed powers. -/
theorem Program.ofTokens_eq {p : Program} (h : p.Readable) {tokens : List Token}
    (htokens : tokens.map Token.kind = p.kinds) :
    ∃ trees, Tree.ofTokens tokens = .ok trees ∧
      trees.map Tree.Stmt.bare = p.trees Tree.Expr.signedPower := by
  have hprogram : IsProgram (Stmt.kindsAll p.entities p.statements)
      (p.trees Tree.Expr.signedPower) := by
    refine ⟨Stmt.items p.entities p.statements, Stmt.flatMap_items _, ?_,
      Stmt.isStmt_items fun s hs => s.isStmt (h s hs)⟩
    rw [Stmt.map_items, Stmt.treeAll_eq_map, Program.trees]
  exact Tree.ofTokens_of_isProgram hprogram htokens ⟨[], rfl⟩

end TypedImp
