import TypedImp.Checking.Stmt
import TypedImp.Proofs.Typing.Judgement

/-!
# Concrete types and sound environments

A type is concrete if `any` stands in it at most for a parameter of a function.
The type of every value is concrete, and so is every type that can be written, since
no name stands for `any`.

`Env.Sound` is what checking keeps: all types in the tables are concrete, and what
is in scope has a row.  This file shows it of the environment at the start and of
every way in which checking changes an environment.
-/

namespace TypedImp

/-! ### Concrete types -/

namespace Ty

theorem isNumber_iff {t : Ty} : t.isNumber = true ↔ t = .number := by cases t <;> simp [isNumber]

theorem isBool_iff {t : Ty} : t.isBool = true ↔ t = .bool := by cases t <;> simp [isBool]

theorem isVoid_iff {t : Ty} : t.isVoid = true ↔ t = .void := by cases t <;> simp [isVoid]

theorem isAny_iff {t : Ty} : t.isAny = true ↔ t = .any := by cases t <;> simp [isAny]

theorem isNumberOrString_iff {t : Ty} :
    t.isNumberOrString = true ↔ t = .number ∨ t = .string := by
  cases t <;> simp [isNumberOrString]

theorem element?_eq_some_iff {t u : Ty} : t.element? = some u ↔ t = .array u := by
  cases t <;> simp [element?]

theorem signature?_eq_some_iff {t : Ty} {s : Signature} :
    t.signature? = some s ↔ t = s.ty := by
  obtain ⟨params, result⟩ := s
  cases t <;> simp [signature?, Signature.ty]

mutual

/-- Whether `any` stands in a type at most for a parameter. -/
def isConcrete : Ty → Bool
  | any => false
  | array t => t.isConcrete
  | function params result => areParams params && result.isConcrete
  | _ => true

def areParams : List Ty → Bool
  | [] => true
  | t :: ts => (t.isAny || t.isConcrete) && areParams ts

end

theorem areParams_iff {ts : List Ty} :
    areParams ts = true ↔ ∀ t ∈ ts, t.isAny = true ∨ t.isConcrete = true := by
  induction ts with
  | nil => simp [areParams]
  | cons t ts ih => simp [areParams, ih]

theorem isConcrete_array {t : Ty} : (array t).isConcrete = t.isConcrete := by rw [isConcrete]

theorem isConcrete_function {params : List Ty} {result : Ty} :
    (function params result).isConcrete = true ↔
      (∀ t ∈ params, t.isAny = true ∨ t.isConcrete = true) ∧ result.isConcrete = true := by
  simp [isConcrete, areParams_iff]

end Ty

/-! ### Tables with concrete types -/

namespace Entities

structure Concrete (E : Entities) : Prop where
  vars : ∀ {i : Nat} {row : Variable}, E.vars[i]? = some row → row.ty.isConcrete = true
  funcs : ∀ {i : Nat} {row : Function}, E.funcs[i]? = some row →
    row.signature.ty.isConcrete = true
  structs : ∀ {i : Nat} {row : Struct}, E.structs[i]? = some row →
    ∀ field ∈ row.fields, field.ty.isConcrete = true

structure NoShorter (e e' : Entities) : Prop where
  vars : e.vars.size ≤ e'.vars.size
  funcs : e.funcs.size ≤ e'.funcs.size
  structs : e.structs.size ≤ e'.structs.size

theorem NoShorter.trans {e₁ e₂ e₃ : Entities} (h : NoShorter e₁ e₂) (g : NoShorter e₂ e₃) :
    NoShorter e₁ e₃ :=
  ⟨Nat.le_trans h.vars g.vars, Nat.le_trans h.funcs g.funcs, Nat.le_trans h.structs g.structs⟩

theorem size_le_of_getElem? {α : Type} {as bs : Array α}
    (h : ∀ {i : Nat} {a : α}, as[i]? = some a → bs[i]? = some a) : as.size ≤ bs.size := by
  by_contra hlt
  have := h (Array.getElem?_eq_getElem (show bs.size < as.size by omega))
  rw [Array.getElem?_eq_none (Nat.le_refl _)] at this
  exact absurd this (by simp)

theorem Kept.noShorter {e e' : Entities} (h : Kept e e') : NoShorter e e' :=
  ⟨size_le_of_getElem? h.vars, size_le_of_getElem? h.funcs, size_le_of_getElem? h.structs⟩

theorem hasVariable_variableAt {E : Entities} {id : VariableId} (h : id.index < E.vars.size) :
    E.HasVariable id (E.variableAt id).ty :=
  ⟨_, Array.getElem?_eq_getElem h, by
    rw [variableAt, Array.getElem?_eq_getElem h, Option.getD_some]⟩

theorem hasFunction_functionAt {E : Entities} {id : FunctionId} (h : id.index < E.funcs.size) :
    E.HasFunction id (E.functionAt id).signature :=
  ⟨_, Array.getElem?_eq_getElem h, by
    rw [functionAt, Array.getElem?_eq_getElem h, Option.getD_some]⟩

theorem hasStruct_structAt {E : Entities} {id : StructId} (h : id.index < E.structs.size) :
    E.HasStruct id (E.structAt id).fields :=
  ⟨_, Array.getElem?_eq_getElem h, by rw [structAt, Array.getElem?_eq_getElem h, Option.getD_some]⟩

theorem Concrete.variable {E : Entities} (h : E.Concrete) {id : VariableId} {ty : Ty}
    (hv : E.HasVariable id ty) : ty.isConcrete = true := by
  obtain ⟨row, hr, rfl⟩ := hv
  exact h.vars hr

theorem Concrete.function {E : Entities} (h : E.Concrete) {id : FunctionId} {signature : Signature}
    (hf : E.HasFunction id signature) : signature.ty.isConcrete = true := by
  obtain ⟨row, hr, rfl⟩ := hf
  exact h.funcs hr

theorem Concrete.struct {E : Entities} (h : E.Concrete) {id : StructId} {fields : List Field}
    (hs : E.HasStruct id fields) : ∀ field ∈ fields, field.ty.isConcrete = true := by
  obtain ⟨row, hr, rfl⟩ := hs
  exact h.structs hr

theorem Concrete.constructor {E : Entities} (h : E.Concrete) {id : StructId} {fields : List Field}
    (hs : E.HasStruct id fields) : (E.constructor id).ty.isConcrete = true := by
  rw [Entities.constructor, hs.structAt_fields, Signature.ty, Ty.isConcrete_function]
  refine ⟨fun t ht => ?_, rfl⟩
  obtain ⟨field, hf, rfl⟩ := List.mem_map.mp ht
  exact .inr (h.struct hs field hf)

theorem Concrete.field? {E : Entities} (h : E.Concrete) {id : StructId} {name : String}
    {field : Field} (hf : E.field? id name = some field) : field.ty.isConcrete = true :=
  h.struct (hasStruct_of_field? hf) field (List.mem_of_find?_eq_some hf)

/-! ### New rows -/

section Rows

variable {α : Type} {rows : Array α}

/-- A row stays where it is when another one is put behind it. -/
theorem getElem?_push_of_eq_some {i : Nat} {row : α} (h : rows[i]? = some row) (new : α) :
    (rows.push new)[i]? = some row := by
  have hi : i < rows.size := (Array.getElem?_eq_some_iff.mp h).1
  rw [Array.getElem?_push, if_neg (Nat.ne_of_lt hi)]
  exact h

/-- What the rows of a table have in common, they still have with a new row that has it. -/
theorem forall_getElem?_push {P : α → Prop}
    (h : ∀ {i : Nat} {row : α}, rows[i]? = some row → P row)
    {new : α} (hnew : P new) {i : Nat} {row : α} (hr : (rows.push new)[i]? = some row) :
    P row := by
  rw [Array.getElem?_push] at hr
  split at hr
  · rw [← Option.some.inj hr]
    exact hnew
  · exact h hr

/-- And they still have it with a row that is changed and keeps it. -/
theorem forall_getElem?_modify {P : α → Prop}
    (h : ∀ {i : Nat} {row : α}, rows[i]? = some row → P row) {change : α → α}
    (hchange : ∀ row, P row → P (change row)) {target i : Nat} {row : α}
    (hr : (rows.modify target change)[i]? = some row) : P row := by
  rw [Array.getElem?_modify] at hr
  split at hr
  · obtain ⟨old, hold, rfl⟩ := Option.map_eq_some_iff.mp hr
    exact hchange old (h hold)
  · exact h hr

end Rows

theorem kept_addVariable (E : Entities) (v : Variable) : E.Kept (E.addVariable v) :=
  ⟨fun h => getElem?_push_of_eq_some h v, id, id⟩

theorem kept_addFunction (E : Entities) (f : Function) : E.Kept (E.addFunction f) :=
  ⟨id, fun h => getElem?_push_of_eq_some h f, id⟩

theorem functionAt_addFunction (E : Entities) (f : Function) (id : FunctionId) :
    (E.addFunction f).functionAt id = if id.index = E.funcs.size then f else E.functionAt id := by
  rw [functionAt, addFunction, Array.getElem?_push]
  split
  · rfl
  · rfl

theorem kept_addStruct (E : Entities) (s : Struct) : E.Kept (E.addStruct s) :=
  ⟨id, id, fun h => getElem?_push_of_eq_some h s⟩

theorem hasVariable_addVariable (E : Entities) (v : Variable) :
    (E.addVariable v).HasVariable E.nextVariable v.ty :=
  ⟨v, by rw [addVariable, nextVariable, Array.getElem?_push, if_pos rfl], rfl⟩

theorem Concrete.addVariable {E : Entities} (h : E.Concrete) {v : Variable}
    (hv : v.ty.isConcrete = true) : (E.addVariable v).Concrete :=
  ⟨forall_getElem?_push h.vars hv, h.funcs, h.structs⟩

theorem Concrete.addFunction {E : Entities} (h : E.Concrete) {f : Function}
    (hf : f.signature.ty.isConcrete = true) : (E.addFunction f).Concrete :=
  ⟨h.vars, forall_getElem?_push h.funcs hf, h.structs⟩

theorem Concrete.addStruct {E : Entities} (h : E.Concrete) {s : Struct}
    (hs : ∀ field ∈ s.fields, field.ty.isConcrete = true) : (E.addStruct s).Concrete :=
  ⟨h.vars, h.funcs, forall_getElem?_push h.structs hs⟩

/-! ### Completed rows -/

theorem noShorter_setSignature (E : Entities) (id : FunctionId) (signature : Signature) :
    E.NoShorter (E.setSignature id signature) :=
  ⟨Nat.le_refl _, Nat.le_of_eq Array.size_modify.symm, Nat.le_refl _⟩

theorem noShorter_setFields (E : Entities) (id : StructId) (fields : List Field) :
    E.NoShorter (E.setFields id fields) :=
  ⟨Nat.le_refl _, Nat.le_refl _, Nat.le_of_eq Array.size_modify.symm⟩

/-- A signature is set in a row that was not there before, so all rows from before are
kept. -/
theorem Kept.setSignature {e E : Entities} (h : e.Kept E) {id : FunctionId}
    (hid : e.funcs.size ≤ id.index) (signature : Signature) :
    e.Kept (E.setSignature id signature) := by
  refine ⟨h.vars, fun {i row} hr => ?_, h.structs⟩
  have hi := (Array.getElem?_eq_some_iff.mp hr).1
  rw [Entities.setSignature, Array.getElem?_modify, if_neg (by omega)]
  exact h.funcs hr

theorem Kept.setFields {e E : Entities} (h : e.Kept E) {id : StructId}
    (hid : e.structs.size ≤ id.index) (fields : List Field) : e.Kept (E.setFields id fields) := by
  refine ⟨h.vars, h.funcs, fun {i row} hr => ?_⟩
  have hi := (Array.getElem?_eq_some_iff.mp hr).1
  rw [Entities.setFields, Array.getElem?_modify, if_neg (by omega)]
  exact h.structs hr

theorem hasFunction_setSignature {E : Entities} {id : FunctionId} (hid : id.index < E.funcs.size)
    (signature : Signature) : (E.setSignature id signature).HasFunction id signature := by
  refine ⟨{ E.funcs[id.index] with signature }, ?_, rfl⟩
  rw [setSignature, Array.getElem?_modify, if_pos rfl, Array.getElem?_eq_getElem hid,
    Option.map_some]

theorem hasStruct_setFields {E : Entities} {id : StructId} (hid : id.index < E.structs.size)
    (fields : List Field) : (E.setFields id fields).HasStruct id fields := by
  refine ⟨{ E.structs[id.index] with fields }, ?_, rfl⟩
  rw [setFields, Array.getElem?_modify, if_pos rfl, Array.getElem?_eq_getElem hid, Option.map_some]

theorem Concrete.setSignature {E : Entities} (h : E.Concrete) (id : FunctionId)
    {signature : Signature} (hs : signature.ty.isConcrete = true) :
    (E.setSignature id signature).Concrete :=
  ⟨h.vars, forall_getElem?_modify h.funcs fun _ _ => hs, h.structs⟩

theorem Concrete.setFields {E : Entities} (h : E.Concrete) (id : StructId) {fields : List Field}
    (hf : ∀ field ∈ fields, field.ty.isConcrete = true) : (E.setFields id fields).Concrete :=
  ⟨h.vars, h.funcs, forall_getElem?_modify h.structs fun _ _ => hf⟩

end Entities

/-! ### Scopes -/

def Binding.Sound (E : Entities) : Binding → Prop
  | .var id => id.index < E.vars.size
  | .func id => id.index < E.funcs.size
  | .struct id => id.index < E.structs.size
  | .type ty => ty.isConcrete = true

instance (E : Entities) (b : Binding) : Decidable (b.Sound E) := by
  cases b <;> unfold Binding.Sound <;> infer_instance

theorem Binding.Sound.mono {e e' : Entities} (h : e.NoShorter e') {b : Binding} (hb : b.Sound e) :
    b.Sound e' := by
  cases b with
  | var id => exact Nat.lt_of_lt_of_le hb h.vars
  | func id => exact Nat.lt_of_lt_of_le hb h.funcs
  | struct id => exact Nat.lt_of_lt_of_le hb h.structs
  | type ty => exact hb

namespace Scope

theorem find?_bind (s : Scope) (name x : String) (b : Binding) :
    (s.bind name b).find? x = if x = name then some b else s.find? x := by
  simp only [find?, bind, Frame.find?, List.findSome?_cons, List.lookup_cons]
  by_cases h : x = name
  · simp [h]
  · have hb : (x == name) = false := by simpa using h
    simp [h, hb]

theorem find?_enter (s : Scope) (o : Overrides) (x : String) : (s.enter o).find? x = s.find? x := by
  rw [find?, enter, List.findSome?_cons]
  rfl

/-- At the start there is one frame only. -/
theorem mem_of_find?_root {name : String} {b : Binding} (h : root.find? name = some b) :
    (name, b) ∈ root.current.bindings := by
  simp only [find?, show root.outer = [] from rfl, List.findSome?_cons, List.findSome?_nil,
    Frame.find?] at h
  cases hl : root.current.bindings.lookup name with
  | none => simp [hl] at h
  | some c =>
    simp only [hl, Option.some.injEq] at h
    obtain ⟨l₁, l₂, hbs, _⟩ := List.lookup_eq_some_iff.mp hl
    rw [hbs, h]
    simp

structure Sound (E : Entities) (s : Scope) : Prop where
  bound : ∀ {name : String} {b : Binding}, s.find? name = some b → b.Sound E
  function : ∀ {id : FunctionId}, s.function = some id → id.index < E.funcs.size

theorem Sound.mono {e e' : Entities} (h : e.NoShorter e') {s : Scope} (hs : s.Sound e) :
    s.Sound e' :=
  ⟨fun hb => (hs.bound hb).mono h, fun hf => Nat.lt_of_lt_of_le (hs.function hf) h.funcs⟩

theorem Sound.bind {E : Entities} {s : Scope} (h : s.Sound E) (name : String) {b : Binding}
    (hb : b.Sound E) : (s.bind name b).Sound E := by
  refine ⟨fun {x c} hc => ?_, h.function⟩
  rw [find?_bind] at hc
  split at hc
  · rw [← Option.some.inj hc]
    exact hb
  · exact h.bound hc

theorem Sound.enterBlock {E : Entities} {s : Scope} (h : s.Sound E) : s.enterBlock.Sound E :=
  ⟨fun hb => h.bound (by rwa [Scope.enterBlock, find?_enter] at hb), h.function⟩

theorem Sound.enterLoop {E : Entities} {s : Scope} (h : s.Sound E) : s.enterLoop.Sound E :=
  ⟨fun hb => h.bound (by rwa [Scope.enterLoop, find?_enter] at hb), h.function⟩

theorem Sound.enterFunction {E : Entities} {s : Scope} (h : s.Sound E) {id : FunctionId}
    (hid : id.index < E.funcs.size) : (s.enterFunction id).Sound E := by
  refine ⟨fun hb => h.bound (by rwa [Scope.enterFunction, find?_enter] at hb), fun hf => ?_⟩
  rw [← Option.some.inj hf]
  exact hid

end Scope

/-! ### Environments -/

namespace Checking.Env

structure Sound (env : Env) : Prop where
  concrete : env.entities.Concrete
  scope : env.scope.Sound env.entities

/-- An environment that checking reaches from another one: it is sound, has all rows
of the other one, and is in the body of the same function. -/
structure Reaches (env env' : Env) : Prop where
  sound : env'.Sound
  kept : env.entities.Kept env'.entities
  function : env'.scope.function = env.scope.function

theorem Sound.reaches {env : Env} (h : env.Sound) : env.Reaches env :=
  ⟨h, .refl _, rfl⟩

theorem Reaches.trans {env₁ env₂ env₃ : Env} (h : env₁.Reaches env₂) (g : env₂.Reaches env₃) :
    env₁.Reaches env₃ :=
  ⟨g.sound, h.kept.trans g.kept, g.function.trans h.function⟩

theorem Sound.within {env : Env} (h : env.Sound) {s : Scope} (hs : s.Sound env.entities) :
    (env.within s).Sound := ⟨h.concrete, hs⟩

/-- A sound scope is sound again behind a pair of braces. -/
theorem Sound.around {env last : Env} (h : env.Sound) (hl : last.Sound)
    (hk : env.entities.Kept last.entities) : (last.around env.scope).Sound :=
  ⟨hl.concrete, h.scope.mono hk.noShorter⟩

theorem Sound.reaches_around {env last : Env} (h : env.Sound) (hl : last.Sound)
    (hk : env.entities.Kept last.entities) : env.Reaches (last.around env.scope) :=
  ⟨h.around hl hk, hk, rfl⟩

/-- A new variable of a concrete type. -/
theorem Sound.addVariable {env : Env} (h : env.Sound) (name : String) (readOnly : Bool) (ty : Ty)
    (ht : ty.isConcrete = true) :
    env.Reaches (env.addVariable name readOnly ty).2 ∧
      (env.addVariable name readOnly ty).2.entities.HasVariable
        (env.addVariable name readOnly ty).1 ty := by
  have hk := env.entities.kept_addVariable ⟨name, readOnly, ty⟩
  refine ⟨⟨⟨h.concrete.addVariable ht, (h.scope.mono hk.noShorter).bind name ?_⟩, hk, rfl⟩,
    env.entities.hasVariable_addVariable _⟩
  simp [Binding.Sound, Entities.addVariable, Entities.nextVariable]

end Checking.Env

/-- **The environment at the start of every program is sound.** -/
theorem Checking.Env.sound_root : Env.Sound ⟨.root, .initial⟩ := by
  have hbound : ∀ p ∈ Scope.root.current.bindings, p.2.Sound .initial := by decide
  have hvars : ∀ row ∈ Entities.initial.vars, row.ty.isConcrete = true := by decide
  have hfuncs : ∀ row ∈ Entities.initial.funcs, row.signature.ty.isConcrete = true := by decide
  refine ⟨⟨fun h => hvars _ (Array.mem_of_getElem? h), fun h => hfuncs _ (Array.mem_of_getElem? h),
    fun h => ?_⟩, fun {name b} h => ?_, fun h => ?_⟩
  · exact absurd h (by simp [show Entities.initial.structs = #[] from rfl])
  · exact hbound (name, b) (Scope.mem_of_find?_root h)
  · exact absurd h (by simp [show Scope.root.function = none from rfl])

end TypedImp
