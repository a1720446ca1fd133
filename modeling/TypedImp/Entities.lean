import TypedImp.Ty

/-!
# Tables of declared things

Every variable, function and struct of a program has a row in one of three
tables, and is known everywhere else by the index of its row.  Rows are only ever
added at the end.  A function gets its signature, and a struct its fields, after
its row is there, since its own declaration may mention it.

There are two readings of an index.  The one that a run makes fails where the index has
no row, with the length of the table and the index: `tryVariable` and its like.  The
other one, `variableAt` and its like, answers with an empty row there, which spares
statements about tables the failure.  Where there is a row, both answer with it.
-/

namespace TypedImp

structure VariableId where
  index : Nat
deriving DecidableEq, Repr, Inhabited

structure FunctionId where
  index : Nat
deriving DecidableEq, Repr, Inhabited

structure Variable where
  name : String
  readOnly : Bool
  ty : Ty
deriving DecidableEq, Repr, Inhabited

structure Function where
  name : String
  signature : Signature
  /-- Whether it comes with the language. -/
  builtin : Bool
deriving DecidableEq, Repr, Inhabited

structure Field where
  name : String
  ty : Ty
deriving DecidableEq, Repr, Inhabited

/-- A struct or class. -/
structure Struct where
  name : String
  fields : List Field
  isClass : Bool
deriving DecidableEq, Repr, Inhabited

/-- The tables of a program. -/
structure Entities where
  vars : Array Variable := #[]
  funcs : Array Function := #[]
  structs : Array Struct := #[]
deriving DecidableEq, Repr, Inhabited

/-- An index that no row of a table stands behind. -/
structure NoRow where
  length : Nat
  index : Nat
deriving DecidableEq, Repr

def NoRow.text (missing : NoRow) : String :=
  "index out of bounds: the len is " ++ toString missing.length ++ " but the index is " ++
    toString missing.index

/-- What is read from tables, or the first index that has no row. -/
abbrev Lookup (α : Type) := Except NoRow α

namespace Entities

/-! ### Rows -/

/-- The row of an index, if it has one. -/
def rowOf {α : Type} (rows : Array α) (index : Nat) : Lookup α :=
  match rows[index]? with
  | some row => .ok row
  | none => .error ⟨rows.size, index⟩

def tryVariable (e : Entities) (id : VariableId) : Lookup Variable := rowOf e.vars id.index

def tryFunction (e : Entities) (id : FunctionId) : Lookup Function := rowOf e.funcs id.index

def tryStruct (e : Entities) (id : StructId) : Lookup Struct := rowOf e.structs id.index

def variableAt (e : Entities) (id : VariableId) : Variable := e.vars[id.index]?.getD default

def functionAt (e : Entities) (id : FunctionId) : Function := e.funcs[id.index]?.getD default

def structAt (e : Entities) (id : StructId) : Struct := e.structs[id.index]?.getD default

/-- The identity of the next variable. -/
def nextVariable (e : Entities) : VariableId := ⟨e.vars.size⟩

/-- The identity of the next function. -/
def nextFunction (e : Entities) : FunctionId := ⟨e.funcs.size⟩

/-- The identity of the next struct. -/
def nextStruct (e : Entities) : StructId := ⟨e.structs.size⟩

def addVariable (e : Entities) (v : Variable) : Entities :=
  { e with vars := e.vars.push v }

def addFunction (e : Entities) (f : Function) : Entities :=
  { e with funcs := e.funcs.push f }

def addStruct (e : Entities) (s : Struct) : Entities := { e with structs := e.structs.push s }

def setSignature (e : Entities) (id : FunctionId) (signature : Signature) : Entities :=
  { e with funcs := e.funcs.modify id.index fun f => { f with signature } }

def setFields (e : Entities) (id : StructId) (fields : List Field) : Entities :=
  { e with structs := e.structs.modify id.index fun s => { s with fields } }

def trySetSignature (e : Entities) (id : FunctionId) (signature : Signature) :
    Lookup Entities := do
  let _ ← e.tryFunction id
  pure (e.setSignature id signature)

def trySetFields (e : Entities) (id : StructId) (fields : List Field) : Lookup Entities := do
  let _ ← e.tryStruct id
  pure (e.setFields id fields)

/-! ### Structs -/

/-- The first field of that name. -/
def field? (e : Entities) (id : StructId) (name : String) : Option Field :=
  (e.structAt id).fields.find? (·.name == name)

def tryField (e : Entities) (id : StructId) (name : String) : Lookup (Option Field) := do
  let s ← e.tryStruct id
  pure (s.fields.find? (·.name == name))

/-- A struct is made from the values of its fields. -/
def constructor (e : Entities) (id : StructId) : Signature :=
  ⟨(e.structAt id).fields.map Field.ty, .struct id⟩

def tryConstructor (e : Entities) (id : StructId) : Lookup Signature := do
  let s ← e.tryStruct id
  pure ⟨s.fields.map Field.ty, .struct id⟩

/-- The structs that are the type of a field.  An array of structs and a function
over structs hold none. -/
def parts (e : Entities) (id : StructId) : List StructId :=
  (e.structAt id).fields.filterMap fun field =>
    match field.ty with
    | .struct part => some part
    | _ => none

/-- The structs that have a row. -/
def structIds (e : Entities) : List StructId := (List.range e.structs.size).map StructId.mk

/-- The parts of all structs that have not been visited. -/
def partsLeft (e : Entities) (visited : List StructId) : List StructId :=
  (e.structIds.filter (· ∉ visited)).flatMap e.parts

/-- All that the members of a list lead to, without one of the members. -/
theorem length_flatMap_filter_ne {α β : Type} [DecidableEq α] (f : α → List β) (a : α)
    (l : List α) :
    ((l.filter (· ≠ a)).flatMap f).length + (if a ∈ l then (f a).length else 0) ≤
      (l.flatMap f).length := by
  induction l with
  | nil => simp
  | cons b l ih =>
    by_cases hb : b = a
    · subst hb
      rw [List.filter_cons_of_neg (by simp), if_pos List.mem_cons_self, List.flatMap_cons,
        List.length_append]
      omega
    · rw [List.filter_cons_of_pos (by simp [hb]), List.flatMap_cons, List.flatMap_cons,
        List.length_append, List.length_append]
      simp only [List.mem_cons, Ne.symm hb, false_or]
      omega

/-- A visit takes the parts of a struct away from those that are left. -/
theorem length_partsLeft_cons (e : Entities) {id : StructId} {visited : List StructId}
    (h : id ∉ visited) :
    (e.partsLeft (id :: visited)).length + (e.parts id).length ≤ (e.partsLeft visited).length := by
  have hfilter : e.structIds.filter (· ∉ id :: visited) =
      (e.structIds.filter (· ∉ visited)).filter (· ≠ id) := by
    rw [List.filter_filter]
    exact List.filter_congr fun x _ => by simp
  have hle := length_flatMap_filter_ne e.parts id (e.structIds.filter (· ∉ visited))
  rw [← hfilter] at hle
  by_cases hid : id.index < e.structs.size
  · rwa [if_pos] at hle
    rw [List.mem_filter, structIds, List.mem_map]
    exact ⟨⟨id.index, List.mem_range.mpr hid, rfl⟩, by simpa using h⟩
  · -- A struct without a row has no parts.
    have hnone : e.parts id = [] := by
      rw [parts, structAt, Array.getElem?_eq_none (Nat.not_lt.mp hid)]
      rfl
    rw [hnone]
    exact Nat.le_trans (Nat.add_le_add_left (Nat.zero_le _) _) hle

/-- A search through the parts of structs, depth first: whether one of the pending structs is
the target, or leads to it.  What is visited is visited once in the whole search, so it ends
also where structs lead back to each other. -/
@[semireducible] def search (e : Entities) (target : StructId) (visited : List StructId) :
    List StructId → Bool
  | [] => false
  | id :: pending =>
    if id = target then true
    else if id ∈ visited then search e target visited pending
    else search e target (id :: visited) (e.parts id ++ pending)
termination_by pending => pending.length + (e.partsLeft visited).length
decreasing_by
  · exact Nat.add_lt_add_right (Nat.lt_succ_self _) _
  · rename_i hnew
    have hle := e.length_partsLeft_cons hnew
    rw [List.length_append, List.length_cons]
    omega

/-- The same search, which fails where a struct that it visits has no row. -/
@[semireducible] def trySearch (e : Entities) (target : StructId) (visited : List StructId) :
    List StructId → Lookup Bool
  | [] => pure false
  | id :: pending =>
    if id = target then pure true
    else if id ∈ visited then trySearch e target visited pending
    else do
      let _ ← e.tryStruct id
      trySearch e target (id :: visited) (e.parts id ++ pending)
termination_by pending => pending.length + (e.partsLeft visited).length
decreasing_by
  · exact Nat.add_lt_add_right (Nat.lt_succ_self _) _
  · rename_i hnew
    have hle := e.length_partsLeft_cons hnew
    rw [List.length_append, List.length_cons]
    omega

/-- Whether a value of struct `outer` holds a value of struct `inner`, directly
or through other structs. -/
def contains (e : Entities) (outer inner : StructId) : Bool :=
  e.search inner [outer] (e.parts outer)

def tryContains (e : Entities) (outer inner : StructId) : Lookup Bool := do
  let _ ← e.tryStruct outer
  e.trySearch inner [outer] (e.parts outer)

/-! ### The spelling of types -/

mutual

/-- A type as it is written in a program. -/
def describe (e : Entities) : Ty → String
  | .number => "number"
  | .string => "string"
  | .bool => "boolean"
  | .void => "void"
  | .any => "any"
  | .array element => "[" ++ describe e element ++ "]"
  | .struct id => (e.structAt id).name
  | .function params result => "(" ++ describeAll e params ++ ")->" ++ describe e result

/-- Types with commas between them. -/
def describeAll (e : Entities) : List Ty → String
  | [] => ""
  | [ty] => describe e ty
  | ty :: tys => describe e ty ++ "," ++ describeAll e tys

end

mutual

def tryDescribe (e : Entities) : Ty → Lookup String
  | .number => pure "number"
  | .string => pure "string"
  | .bool => pure "boolean"
  | .void => pure "void"
  | .any => pure "any"
  | .array element => do
    let element ← tryDescribe e element
    pure ("[" ++ element ++ "]")
  | .struct id => do
    let s ← e.tryStruct id
    pure s.name
  | .function params result => do
    let params ← tryDescribeAll e params
    let result ← tryDescribe e result
    pure ("(" ++ params ++ ")->" ++ result)

def tryDescribeAll (e : Entities) : List Ty → Lookup String
  | [] => pure ""
  | [ty] => tryDescribe e ty
  | ty :: tys => do
    let first ← tryDescribe e ty
    let others ← tryDescribeAll e tys
    pure (first ++ "," ++ others)

end

end Entities

end TypedImp
