import TypedImp.Entities

/-!
# The two readings of the tables

A run reads the tables with `tryVariable` and its like, which fail where an index has no row;
`variableAt` and its like are total.  Where a run finds something, the total reading is the same:
`variableAt_of_try` for a row, and **`contains_of_try`** for the search through the parts of
structs, which reads many of them.
-/

namespace TypedImp

theorem bind_eq_ok {ε α β : Type} {x : Except ε α} {f : α → Except ε β} {b : β}
    (h : x >>= f = .ok b) : ∃ a, x = .ok a ∧ f a = .ok b := by
  cases x with
  | error fault => cases h
  | ok a => exact ⟨a, rfl, h⟩

namespace Entities

variable {E : Entities}

theorem rowOf_eq_ok_iff {α : Type} {rows : Array α} {index : Nat} {row : α} :
    rowOf rows index = .ok row ↔ rows[index]? = some row := by
  rw [rowOf]
  cases rows[index]? <;> simp

theorem variableAt_of_try {id : VariableId} {row : Variable} (h : E.tryVariable id = .ok row) :
    E.variableAt id = row := by
  rw [variableAt, rowOf_eq_ok_iff.mp h, Option.getD_some]

theorem functionAt_of_try {id : FunctionId} {row : Function} (h : E.tryFunction id = .ok row) :
    E.functionAt id = row := by
  rw [functionAt, rowOf_eq_ok_iff.mp h, Option.getD_some]

theorem structAt_of_try {id : StructId} {row : Struct} (h : E.tryStruct id = .ok row) :
    E.structAt id = row := by
  rw [structAt, rowOf_eq_ok_iff.mp h, Option.getD_some]

theorem field?_of_try {id : StructId} {name : String} {field : Option Field}
    (h : E.tryField id name = .ok field) : E.field? id name = field := by
  obtain ⟨row, hrow, h⟩ := bind_eq_ok h
  cases h
  rw [field?, structAt_of_try hrow]

theorem constructor_of_try {id : StructId} {signature : Signature}
    (h : E.tryConstructor id = .ok signature) : E.constructor id = signature := by
  obtain ⟨row, hrow, h⟩ := bind_eq_ok h
  cases h
  rw [constructor, structAt_of_try hrow]

theorem setSignature_of_try {id : FunctionId} {signature : Signature} {E' : Entities}
    (h : E.trySetSignature id signature = .ok E') : E.setSignature id signature = E' := by
  obtain ⟨_, _, h⟩ := bind_eq_ok h
  exact Except.ok.inj h

theorem setFields_of_try {id : StructId} {fields : List Field} {E' : Entities}
    (h : E.trySetFields id fields = .ok E') : E.setFields id fields = E' := by
  obtain ⟨_, _, h⟩ := bind_eq_ok h
  exact Except.ok.inj h

/-! ### The search -/

theorem search_of_try {target : StructId} {visited pending : List StructId} {found : Bool}
    (h : E.trySearch target visited pending = .ok found) :
    E.search target visited pending = found := by
  fun_induction search E target visited pending with
  | case1 =>
    rw [trySearch] at h
    exact Except.ok.inj h
  | case2 =>
    rw [trySearch, if_pos rfl] at h
    exact Except.ok.inj h
  | case3 visited id pending hne hvisited ih =>
    rw [trySearch, if_neg hne, if_pos hvisited] at h
    exact ih h
  | case4 visited id pending hne hnew ih =>
    rw [trySearch, if_neg hne, if_neg hnew] at h
    obtain ⟨_, _, h⟩ := bind_eq_ok h
    exact ih h

/-- **A search that does not fail finds what the total one finds.** -/
theorem contains_of_try {outer inner : StructId} {found : Bool}
    (h : E.tryContains outer inner = .ok found) : E.contains outer inner = found := by
  obtain ⟨_, _, h⟩ := bind_eq_ok h
  exact search_of_try h

end Entities

end TypedImp
