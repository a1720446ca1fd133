import TypedImp.Proofs.Scoping.Checked
import TypedImp.Proofs.Tables.Steps

/-!
# Variables of type void

A declaration of a variable, and one of a parameter, is refused where the type is void; the
iterator of a loop over a range and the variable of a caught error have a type of their own.
Of the iterator of a loop over a collection nothing is asked, and `[void]` is a type.

**`Program.hasVariable_void_iff`**: in every program that passes checking, the variables of type
void are just the iterators of the loops over an array of void.  There are such programs, and
such an array can even have elements (`exists_void_variable`).
-/

namespace TypedImp

namespace Entities

/-- Every variable of type void is the iterator of a loop over a collection. -/
def VoidIterated (S : Stmt → Prop) (E : Entities) : Prop :=
  ∀ id, E.HasVariable id .void → IsIterated S id

theorem voidIterated_initial (S : Stmt → Prop) : VoidIterated S initial := by
  have hnone : ∀ row ∈ initial.vars, row.ty ≠ .void := by decide
  rintro id ⟨row, hrow, hty⟩
  exact absurd hty (hnone row (Array.mem_of_getElem? hrow))

variable {S : Stmt → Prop} {E E' : Entities}

theorem VoidIterated.addVariable (hE : VoidIterated S E) {v : Variable}
    (hv : v.ty ≠ .void ∨ IsIterated S E.nextVariable) : VoidIterated S (E.addVariable v) := by
  rintro id ⟨row, hrow, hty⟩
  rw [Entities.addVariable, Array.getElem?_push] at hrow
  split at hrow
  · rename_i hid
    cases hrow
    rcases hv with hv | hv
    · exact absurd hty hv
    · have hnext : id = E.nextVariable := by
        cases id
        rw [nextVariable, ← hid]
      rw [hnext]
      exact hv
  · exact hE id ⟨row, hrow, hty⟩

theorem VoidIterated.step (h : Step S E E') (hE : VoidIterated S E) : VoidIterated S E' := by
  cases h with
  | addVariable hv => exact hE.addVariable hv
  | addFunction | addStruct | setSignature | setFields => exact hE

theorem Steps.voidIterated (h : Steps S .initial E) : VoidIterated S E :=
  h.induction (voidIterated_initial S) fun _ _ _ hstep hE => hE.step hstep

end Entities

/-- A loop over a collection goes over an array of what its iterator is. -/
theorem Program.WellTyped.collection_ty {p : Program} (hp : p.WellTyped) {id : VariableId}
    {collection : Expr} {body : List Stmt} (h : .collectionLoop id collection body ∈ p.stmts)
    (ty : Ty) : p.entities.HasVariable id ty ↔ collection.ty = .array ty := by
  obtain ⟨fn, hloop⟩ := hp.stmt h
  cases hloop with
  | @collectionLoop _ _ _ _ element _ hcollection hv _ =>
    constructor
    · intro hty
      rw [hcollection, hv.unique hty]
    · intro hty
      rw [hcollection] at hty
      cases hty
      exact hv

/-- **The variables of type void.**  In every program that passes checking they are the
iterators of the loops over an array of void, and there are no others. -/
theorem Program.hasVariable_void_iff {tree : List Tree.Stmt} {p : Program}
    (h : analyze tree = .ok p) (id : VariableId) :
    p.entities.HasVariable id .void ↔ ∃ collection body,
      .collectionLoop id collection body ∈ p.stmts ∧ collection.ty = .array .void := by
  have hp := wellTyped_of_analyze h
  constructor
  · intro hvoid
    obtain ⟨collection, body, hloop⟩ := (steps_of_analyze h).voidIterated id hvoid
    exact ⟨collection, body, hloop, (hp.collection_ty hloop .void).mp hvoid⟩
  · rintro ⟨collection, body, hloop, hty⟩
    exact (hp.collection_ty hloop .void).mpr hty

/-- What a function without a result gives is put into an array. -/
def voidVariableSource : String :=
  "fn f() \x7b \x7d for x in [f()] \x7b print x; \x7d"

def voidVariableProgram : Program :=
  { statements :=
      [.declareFunction ⟨8⟩ [] [],
        .collectionLoop ⟨1⟩
          (.array [.call (.func ⟨8⟩ (.function [] .void)) [] .void] (.array .void))
          [.print (.var ⟨1⟩ .void)]]
    entities := (Entities.initial.addFunction ⟨"f", ⟨[], .void⟩, false⟩).addVariable
      ⟨"x", true, .void⟩ }

theorem compile_voidVariableSource :
    compile voidVariableSource false = .ok voidVariableProgram := by
  cbv

theorem Program.hasVariable_void_iff_x : ∃ tree, analyze tree = .ok voidVariableProgram ∧
    voidVariableProgram.entities.HasVariable ⟨1⟩ .void ∧
      ¬ voidVariableProgram.entities.HasVariable ⟨0⟩ .void := by
  obtain ⟨tree, _, hanalyze⟩ := compile_eq_ok compile_voidVariableSource
  refine ⟨tree, hanalyze, ?_, ?_⟩
  · have hloop : .collectionLoop ⟨1⟩ _ _ ∈ voidVariableProgram.stmts :=
      List.mem_cons_of_mem _ List.mem_cons_self
    exact (hasVariable_void_iff hanalyze ⟨1⟩).mpr ⟨_, _, hloop, rfl⟩
  · intro hvoid
    obtain ⟨_, _, hloop, _⟩ := (hasVariable_void_iff hanalyze ⟨0⟩).mp hvoid
    simp [Program.stmts, voidVariableProgram, Stmt.nestedAll, Stmt.nested] at hloop

/-- **There are variables of type void**, and they can be used. -/
theorem exists_void_variable : ∃ (source : String) (tree : List Tree.Stmt) (p : Program)
    (id : VariableId), parse source = .ok tree ∧ analyze tree = .ok p ∧
      p.entities.HasVariable id .void ∧ .var id .void ∈ p.exprs := by
  obtain ⟨tree, hparse, hanalyze⟩ := compile_eq_ok compile_voidVariableSource
  refine ⟨voidVariableSource, tree, voidVariableProgram, ⟨1⟩, hparse, hanalyze, ⟨_, rfl, rfl⟩, ?_⟩
  simp [Program.exprs, Program.stmts, voidVariableProgram, Stmt.nestedAll, Stmt.nested, Stmt.exprs,
    Expr.nested, Expr.nestedAll]

end TypedImp
