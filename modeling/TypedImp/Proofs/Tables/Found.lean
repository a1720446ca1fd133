import TypedImp.Proofs.Tables.Lookups
import TypedImp.Proofs.Tables.Range

/-!
# Rows that are found

Where all is in range, the reading that can fail does not fail: it answers with what the total one
answers with.  This is said for single rows (`tryVariable_eq` and others), for the spelling of
types (**`tryDescribe_eq`**), which reads the row of each struct in a type, and for the search
through the parts of structs (**`tryContains_eq`**), which goes from row to row.
-/

namespace TypedImp.Entities

variable {E : Entities}

/-! ### Rows -/

theorem rowOf_eq {α : Type} [Inhabited α] {rows : Array α} {index : Nat}
    (h : index < rows.size) : rowOf rows index = .ok (rows[index]?.getD default) := by
  rw [rowOf_eq_ok_iff, Array.getElem?_eq_getElem h, Option.getD_some]

theorem tryVariable_eq {id : VariableId} (h : E.HasRow (.var id)) :
    E.tryVariable id = .ok (E.variableAt id) := rowOf_eq h

theorem tryFunction_eq {id : FunctionId} (h : E.HasRow (.func id)) :
    E.tryFunction id = .ok (E.functionAt id) := rowOf_eq h

theorem tryStruct_eq {id : StructId} (h : E.HasRow (.struct id)) :
    E.tryStruct id = .ok (E.structAt id) := rowOf_eq h

theorem tryField_eq {id : StructId} (h : E.HasRow (.struct id)) (name : String) :
    E.tryField id name = .ok (E.field? id name) := by
  rw [tryField, tryStruct_eq h]
  rfl

theorem tryConstructor_eq {id : StructId} (h : E.HasRow (.struct id)) :
    E.tryConstructor id = .ok (E.constructor id) := by
  rw [tryConstructor, tryStruct_eq h]
  rfl

theorem trySetSignature_eq {id : FunctionId} (h : E.HasRow (.func id)) (signature : Signature) :
    E.trySetSignature id signature = .ok (E.setSignature id signature) := by
  rw [trySetSignature, tryFunction_eq h]
  rfl

theorem trySetFields_eq {id : StructId} (h : E.HasRow (.struct id)) (fields : List Field) :
    E.trySetFields id fields = .ok (E.setFields id fields) := by
  rw [trySetFields, tryStruct_eq h]
  rfl

/-! ### Types -/

mutual

/-- **A type whose structs have rows can be spelled.** -/
theorem tryDescribe_eq (ty : Ty) (hty : ty.Known E) : E.tryDescribe ty = .ok (E.describe ty) := by
  cases ty with
  | number | string | bool | void | any => rfl
  | array element =>
    rw [tryDescribe, tryDescribe_eq element hty]
    rfl
  | struct id =>
    rw [tryDescribe, tryStruct_eq hty]
    rfl
  | function params result =>
    rw [tryDescribe, tryDescribeAll_eq params hty.1, tryDescribe_eq result hty.2]
    rfl
termination_by structural ty

theorem tryDescribeAll_eq (tys : List Ty) (htys : Ty.KnownAll E tys) :
    E.tryDescribeAll tys = .ok (E.describeAll tys) := by
  cases tys with
  | nil => rfl
  | cons ty tys =>
    have hty := tryDescribe_eq ty htys.1
    have hothers := tryDescribeAll_eq tys htys.2
    cases tys with
    | nil => exact hty
    | cons other others =>
      rw [tryDescribeAll, hty, hothers]
      · rfl
      · nofun
termination_by structural tys

end

/-! ### The search -/

/-- The parts of structs have rows. -/
theorem InRange.parts (h : E.InRange) (id : StructId) :
    ∀ part ∈ E.parts id, E.HasRow (.struct part) := by
  intro part hpart
  obtain ⟨field, hf, hty⟩ := List.mem_filterMap.mp hpart
  have hknown := h.structAt id field hf
  cases hfield : field.ty with
  | struct other =>
    rw [hfield] at hty hknown
    cases hty
    exact hknown
  | _ =>
    rw [hfield] at hty
    cases hty

/-- All that is pending has a row, and what a visit adds to it has one as well. -/
theorem trySearch_eq (hE : E.InRange) {target : StructId} {visited pending : List StructId}
    (hpending : ∀ id ∈ pending, E.HasRow (.struct id)) :
    E.trySearch target visited pending = .ok (E.search target visited pending) := by
  fun_induction search E target visited pending with
  | case1 =>
    rw [trySearch]
    rfl
  | case2 =>
    rw [trySearch, if_pos rfl]
    rfl
  | case3 visited id pending hne hvisited ih =>
    rw [trySearch, if_neg hne, if_pos hvisited]
    exact ih (List.forall_mem_cons.mp hpending).2
  | case4 visited id pending hne hnew ih =>
    obtain ⟨hid, hpending⟩ := List.forall_mem_cons.mp hpending
    rw [trySearch, if_neg hne, if_neg hnew, tryStruct_eq hid]
    exact ih (List.forall_mem_append.mpr ⟨hE.parts id, hpending⟩)

/-- **The search through the parts of structs finds the row of each struct that it visits.** -/
theorem tryContains_eq (hE : E.InRange) {outer : StructId} (houter : E.HasRow (.struct outer))
    (inner : StructId) : E.tryContains outer inner = .ok (E.contains outer inner) := by
  rw [tryContains, tryStruct_eq houter]
  exact trySearch_eq hE (hE.parts outer)

end TypedImp.Entities
