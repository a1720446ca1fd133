import Mathlib.Logic.Function.Basic
import TypedImp.Proofs.Typing.Judgement

/-!
# Values and stores

A value is what an expression comes to, and a store has a value for every variable.
Arrays and records are values themselves and not references to such: an assignment
to an element changes the variable that holds the array.

`Value.HasTy E v ty` says that a value has a type relative to the tables `E`, in depth:
an array has it with all its elements, a record with all its fields.  Every value has
the type `any`.
-/

namespace TypedImp

inductive Value where
  | number (value : Float)
  | string (value : String)
  | bool (value : Bool)
  /-- What a call of a function without a result comes to. -/
  | unit
  | array (elements : List Value)
  /-- A value of a struct; only the names of its fields matter. -/
  | record (id : StructId) (fields : String → Value)
  | func (id : FunctionId)
  /-- A struct as the function that makes its values. -/
  | maker (id : StructId)
  /-- A function that is none of the program's. -/
  | foreign (params : List Ty) (result : Ty)
deriving Inhabited

abbrev Store : Type := VariableId → Value

inductive Value.HasTy (E : Entities) : Value → Ty → Prop
  | any {v : Value} : HasTy E v .any
  | number {x : Float} : HasTy E (.number x) .number
  | string {s : String} : HasTy E (.string s) .string
  | bool {b : Bool} : HasTy E (.bool b) .bool
  | unit : HasTy E .unit .void
  | array {vs : List Value} {ty : Ty} : (∀ v ∈ vs, HasTy E v ty) → HasTy E (.array vs) (.array ty)
  | record {id : StructId} {fields : String → Value} :
      (∀ name field, E.field? id name = some field → HasTy E (fields name) field.ty) →
      HasTy E (.record id fields) (.struct id)
  | func {id : FunctionId} {params : List Ty} {result : Ty} :
      E.HasFunction id ⟨params, result⟩ → HasTy E (.func id) (.function params result)
  | maker {id : StructId} {fields : List Field} :
      E.HasStruct id fields → HasTy E (.maker id) (.function (fields.map Field.ty) (.struct id))
  | foreign {params : List Ty} {result : Ty} :
      HasTy E (.foreign params result) (.function params result)

def Store.Typed (E : Entities) (s : Store) : Prop :=
  ∀ {id : VariableId} {ty : Ty}, E.HasVariable id ty → (s id).HasTy E ty

namespace Value.HasTy

variable {E : Entities} {v : Value}

/-! ### The values of a type -/

theorem exists_number (h : v.HasTy E .number) : ∃ x, v = .number x := by
  cases h
  exact ⟨_, rfl⟩

theorem exists_string (h : v.HasTy E .string) : ∃ s, v = .string s := by
  cases h
  exact ⟨_, rfl⟩

theorem exists_bool (h : v.HasTy E .bool) : ∃ b, v = .bool b := by
  cases h
  exact ⟨_, rfl⟩

theorem exists_array {ty : Ty} (h : v.HasTy E (.array ty)) :
    ∃ vs, v = .array vs ∧ ∀ w ∈ vs, w.HasTy E ty := by
  cases h with
  | array hvs => exact ⟨_, rfl, hvs⟩

theorem exists_record {id : StructId} (h : v.HasTy E (.struct id)) :
    ∃ fields, v = .record id fields ∧
      ∀ name field, E.field? id name = some field → (fields name).HasTy E field.ty := by
  cases h with
  | record hf => exact ⟨_, rfl, hf⟩

/-! ### Changing a part of a value -/

theorem set_element {vs : List Value} {ty : Ty} (h : ∀ w ∈ vs, w.HasTy E ty) (hv : v.HasTy E ty)
    (i : Nat) : (Value.array (vs.set i v)).HasTy E (.array ty) := by
  refine .array fun w hw => ?_
  rcases List.mem_or_eq_of_mem_set hw with hw | rfl
  · exact h w hw
  · exact hv

theorem set_field {id : StructId} {fields : String → Value} {name : String} {field : Field}
    (h : ∀ name field, E.field? id name = some field → (fields name).HasTy E field.ty)
    (hf : E.field? id name = some field) (hv : v.HasTy E field.ty) :
    (Value.record id (Function.update fields name v)).HasTy E (.struct id) := by
  refine .record fun other field' hf' => ?_
  by_cases ho : other = name
  · subst ho
    rw [Function.update_self, ← Option.some.inj (hf.symm.trans hf')]
    exact hv
  · rw [Function.update_of_ne ho]
    exact h other field' hf'

end Value.HasTy

theorem Store.Typed.update {E : Entities} {s : Store} (hs : s.Typed E) {id : VariableId} {ty : Ty}
    (hid : E.HasVariable id ty) {v : Value} (hv : v.HasTy E ty) :
    Store.Typed E (Function.update s id v) := by
  intro other ty' ho
  by_cases h : other = id
  · subst h
    rw [Function.update_self, ho.unique hid]
    exact hv
  · rw [Function.update_of_ne h]
    exact hs ho

end TypedImp
