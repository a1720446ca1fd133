import TypedImp.Proofs.Listing.Kinds
import TypedImp.Proofs.Typing.Concrete

/-!
# Names in tables

A listing can be read again only if all names in the tables of a program are names.  Checking
puts no other text there than the names of a parse tree, and every struct that it writes into a
type has a row.  `Env.Named` says this of an environment; it holds at the start
(`Env.named_root`), and this file shows that every way in which checking changes an environment
keeps it.

Types that were written earlier stay as they are where tables grow, since structs keep their
rows and their forms (`Entities.KeepsForms`).
-/

namespace TypedImp

open Token Listing

/-! ### Names with an index -/

theorem Listing.toList_indexed (name : String) (i : Nat) :
    (indexed name i).toList = name.toList ++ '_' :: Nat.toDigits 10 i := by
  rw [indexed, String.toList_append, String.toList_append, List.append_assoc]
  show name.toList ++ ('_' :: (Nat.repr i).toList) = _
  rw [Nat.toList_repr]

/-- **A name with an index behind it is a name**, and no keyword, since none holds a `_`. -/
theorem Token.IsName.indexed {name : String} (h : IsName name) (index : Nat) :
    IsName (indexed name index) := by
  obtain ⟨c, tail, htext, hc, htail⟩ := h.word
  have hlist : (Listing.indexed name index).toList =
      c :: (tail ++ '_' :: Nat.toDigits 10 index) := by
    rw [Listing.toList_indexed, htext, List.cons_append]
  refine ⟨⟨c, _, hlist, hc, ?_⟩, ?_⟩
  · intro d hd
    rcases List.mem_append.mp hd with hd | hd
    · exact htail d hd
    · rcases List.mem_cons.mp hd with rfl | hd
      · rfl
      · exact isNamePart_of_isDigit (Decimal.isDigit_digitsOf hd)
  · have hnone : ∀ s ∈ Symbol.keywords, '_' ∉ s.spelling.toList := by decide
    rw [Symbol.ofWord?, List.find?_eq_none]
    intro s hs heq
    rw [beq_iff_eq] at heq
    refine hnone s hs ?_
    rw [heq, hlist]
    simp

/-! ### Structs that have a row -/

namespace Entities

def HasForm (E : Entities) (id : StructId) (isClass : Bool) : Prop :=
  id.index < E.structs.size ∧ (E.structAt id).isClass = isClass

def KeepsForms (e e' : Entities) : Prop :=
  ∀ id isClass, e.HasForm id isClass → e'.HasForm id isClass

theorem KeepsForms.refl (e : Entities) : e.KeepsForms e := fun _ _ h => h

theorem KeepsForms.trans {e₁ e₂ e₃ : Entities} (h : e₁.KeepsForms e₂) (g : e₂.KeepsForms e₃) :
    e₁.KeepsForms e₃ :=
  fun id isClass hid => g id isClass (h id isClass hid)

end Entities

mutual

def Ty.Known (E : Entities) : Ty → Prop
  | .array element => element.Known E
  | .struct id => id.index < E.structs.size
  | .function params result => Ty.KnownAll E params ∧ result.Known E
  | _ => True

def Ty.KnownAll (E : Entities) : List Ty → Prop
  | [] => True
  | ty :: tys => ty.Known E ∧ Ty.KnownAll E tys

end

theorem Ty.knownAll_iff {E : Entities} {tys : List Ty} :
    Ty.KnownAll E tys ↔ ∀ ty ∈ tys, ty.Known E := by
  induction tys with
  | nil => simp [KnownAll]
  | cons ty tys ih => simp [KnownAll, ih]

theorem Ty.known_mono {e e' : Entities} (h : e.KeepsForms e') :
    ∀ ty : Ty, ty.Known e → ty.Known e'
  | .number, _ | .string, _ | .bool, _ | .void, _ | .any, _ => trivial
  | .array element, hty => Ty.known_mono h element hty
  | .struct id, hty => (h id _ ⟨hty, rfl⟩).1
  | .function params result, hty => by
    refine ⟨Ty.knownAll_iff.mpr ?_, Ty.known_mono h result hty.2⟩
    intro ty hmem
    exact Ty.known_mono h ty (Ty.knownAll_iff.mp hty.1 ty hmem)

theorem Ty.Known.mono {e e' : Entities} (h : e.KeepsForms e') {ty : Ty} (hty : ty.Known e) :
    ty.Known e' :=
  Ty.known_mono h ty hty

mutual

/-- Where all structs that have a row have a name, so have those in a type. -/
theorem Entities.readableType_of_known {E : Entities}
    (h : ∀ id : StructId, id.index < E.structs.size → IsName (E.structAt id).name) (ty : Ty)
    (hty : ty.Known E) : E.ReadableType ty := by
  cases ty with
  | number | string | bool | void | any => trivial
  | array element =>
    have helement := Entities.readableType_of_known h element hty
    exact helement
  | struct id => exact h id hty
  | function params result =>
    exact ⟨Entities.readableTypes_of_known h params hty.1,
      Entities.readableType_of_known h result hty.2⟩
termination_by structural ty

theorem Entities.readableTypes_of_known {E : Entities}
    (h : ∀ id : StructId, id.index < E.structs.size → IsName (E.structAt id).name) (tys : List Ty)
    (htys : Ty.KnownAll E tys) : E.ReadableTypes tys := by
  cases tys with
  | nil => trivial
  | cons ty tys =>
    exact ⟨Entities.readableType_of_known h ty htys.1,
      Entities.readableTypes_of_known h tys htys.2⟩
termination_by structural tys

end

/-! ### Tables -/

namespace Entities

variable {E : Entities}

def KnownAnnotated (E : Entities) (name : String) (ty : Ty) : Prop := IsName name ∧ ty.Known E

theorem KnownAnnotated.mono {e e' : Entities} (h : e.KeepsForms e') {name : String} {ty : Ty}
    (ha : e.KnownAnnotated name ty) : e'.KnownAnnotated name ty :=
  ⟨ha.1, ha.2.mono h⟩

/-- **All names in the tables are names**, and all structs in their types have a row. -/
structure Named (E : Entities) : Prop where
  vars : ∀ {i : Nat} {row : Variable}, E.vars[i]? = some row → E.KnownAnnotated row.name row.ty
  funcs : ∀ {i : Nat} {row : Function}, E.funcs[i]? = some row →
    E.KnownAnnotated row.name row.signature.ty
  structs : ∀ {i : Nat} {row : Struct}, E.structs[i]? = some row → IsName row.name ∧
    ∀ field ∈ row.fields, E.KnownAnnotated field.name field.ty

section

variable {E' : Entities}

theorem Named.vars_mono (h : E.Named) (hk : E.KeepsForms E') {i : Nat} {row : Variable}
    (hr : E.vars[i]? = some row) : E'.KnownAnnotated row.name row.ty :=
  (h.vars hr).mono hk

theorem Named.funcs_mono (h : E.Named) (hk : E.KeepsForms E') {i : Nat} {row : Function}
    (hr : E.funcs[i]? = some row) : E'.KnownAnnotated row.name row.signature.ty :=
  (h.funcs hr).mono hk

theorem Named.structs_mono (h : E.Named) (hk : E.KeepsForms E') {i : Nat} {row : Struct}
    (hr : E.structs[i]? = some row) :
    IsName row.name ∧ ∀ field ∈ row.fields, E'.KnownAnnotated field.name field.ty :=
  ⟨(h.structs hr).1, fun field hf => ((h.structs hr).2 field hf).mono hk⟩

end

/-! ### What a row says -/

theorem Named.known_variableAt (h : E.Named) (id : VariableId) : (E.variableAt id).ty.Known E := by
  rw [variableAt]
  cases hr : E.vars[id.index]? with
  | none => trivial
  | some row => exact (h.vars hr).2

theorem Named.known_functionAt (h : E.Named) (id : FunctionId) :
    (E.functionAt id).signature.ty.Known E := by
  rw [functionAt]
  cases hr : E.funcs[id.index]? with
  | none => exact ⟨trivial, trivial⟩
  | some row => exact (h.funcs hr).2

theorem Named.known_fields (h : E.Named) (id : StructId) :
    ∀ field ∈ (E.structAt id).fields, field.ty.Known E := by
  rw [structAt]
  cases hr : E.structs[id.index]? with
  | none => exact List.forall_mem_nil _
  | some row => exact fun field hf => ((h.structs hr).2 field hf).2

theorem Named.known_constructor (h : E.Named) {id : StructId} (hid : id.index < E.structs.size) :
    (E.constructor id).ty.Known E := by
  refine ⟨Ty.knownAll_iff.mpr ?_, hid⟩
  intro ty hty
  obtain ⟨field, hf, rfl⟩ := List.mem_map.mp hty
  exact h.known_fields id field hf

/-! ### New rows -/

/-- Where the rows of structs stay, so do their forms. -/
theorem keepsForms_of_structs {e e' : Entities} (h : e'.structs = e.structs) : e.KeepsForms e' := by
  intro id isClass hid
  rw [HasForm, structAt] at hid ⊢
  rwa [h]

theorem keepsForms_addStruct (E : Entities) (s : Struct) : E.KeepsForms (E.addStruct s) := by
  intro id isClass hid
  have hrow := (E.kept_addStruct s).structs (Array.getElem?_eq_getElem hid.1)
  have hform := hid.2
  rw [structAt, Array.getElem?_eq_getElem hid.1] at hform
  refine ⟨(Array.getElem?_eq_some_iff.mp hrow).1, ?_⟩
  rw [structAt, hrow]
  exact hform

theorem hasForm_addStruct (E : Entities) (s : Struct) :
    (E.addStruct s).HasForm E.nextStruct s.isClass := by
  refine ⟨by simp [addStruct, nextStruct], ?_⟩
  rw [structAt, addStruct, nextStruct, Array.getElem?_push, if_pos rfl]
  rfl

theorem Named.addVariable (h : E.Named) {v : Variable} (hv : E.KnownAnnotated v.name v.ty) :
    (E.addVariable v).Named := by
  have hk : E.KeepsForms (E.addVariable v) := keepsForms_of_structs rfl
  exact ⟨forall_getElem?_push (h.vars_mono hk) (hv.mono hk), h.funcs_mono hk, h.structs_mono hk⟩

theorem Named.addFunction (h : E.Named) {f : Function}
    (hf : E.KnownAnnotated f.name f.signature.ty) : (E.addFunction f).Named := by
  have hk : E.KeepsForms (E.addFunction f) := keepsForms_of_structs rfl
  exact ⟨h.vars_mono hk, forall_getElem?_push (h.funcs_mono hk) (hf.mono hk), h.structs_mono hk⟩

/-- A struct without its fields. -/
theorem Named.addStruct (h : E.Named) {name : String} (hname : IsName name) (isClass : Bool) :
    (E.addStruct ⟨name, [], isClass⟩).Named := by
  have hk := E.keepsForms_addStruct ⟨name, [], isClass⟩
  exact ⟨h.vars_mono hk, h.funcs_mono hk,
    forall_getElem?_push (h.structs_mono hk) ⟨hname, List.forall_mem_nil _⟩⟩

/-! ### Completed rows -/

theorem keepsForms_setFields (E : Entities) (id : StructId) (fields : List Field) :
    E.KeepsForms (E.setFields id fields) := by
  intro id' isClass hid
  refine ⟨?_, ?_⟩
  · rw [setFields, Array.size_modify]
    exact hid.1
  · rw [← hid.2, structAt, structAt, setFields, Array.getElem?_modify,
      Array.getElem?_eq_getElem hid.1]
    split <;> rfl

theorem Named.setSignature (h : E.Named) (id : FunctionId) {signature : Signature}
    (hs : signature.ty.Known E) : (E.setSignature id signature).Named := by
  have hk : E.KeepsForms (E.setSignature id signature) := keepsForms_of_structs rfl
  refine ⟨h.vars_mono hk, fun hr => forall_getElem?_modify (h.funcs_mono hk) ?_ hr,
    h.structs_mono hk⟩
  intro _ hold
  exact ⟨hold.1, hs.mono hk⟩

theorem Named.setFields (h : E.Named) (id : StructId) {fields : List Field}
    (hf : ∀ field ∈ fields, E.KnownAnnotated field.name field.ty) :
    (E.setFields id fields).Named := by
  have hk := E.keepsForms_setFields id fields
  refine ⟨h.vars_mono hk, h.funcs_mono hk,
    fun hr => forall_getElem?_modify (h.structs_mono hk) ?_ hr⟩
  intro _ hold
  exact ⟨hold.1, fun field hmem => (hf field hmem).mono hk⟩

end Entities

/-! ### Scopes -/

def Binding.Known (E : Entities) : Binding → Prop
  | .struct id => id.index < E.structs.size
  | .type ty => ty.Known E
  | _ => True

def Scope.Known (E : Entities) (s : Scope) : Prop := ∀ name b, s.find? name = some b → b.Known E

theorem Binding.Known.mono {e e' : Entities} (h : e.KeepsForms e') {b : Binding}
    (hb : b.Known e) : b.Known e' := by
  cases b with
  | struct id => exact (h id _ ⟨hb, rfl⟩).1
  | type ty => exact Ty.Known.mono h hb
  | _ => trivial

def Binding.isPrimitive : Binding → Bool
  | .var _ | .func _ => true
  | .struct _ => false
  | .type ty => Ty.primitives.any fun p => p.2 == ty

theorem Binding.known_of_isPrimitive {E : Entities} {b : Binding} (h : b.isPrimitive = true) :
    b.Known E := by
  cases b with
  | var | func => trivial
  | struct id => cases h
  | type ty =>
    obtain ⟨p, hp, hty⟩ := List.any_eq_true.mp h
    have hprimitive : ∀ p ∈ Ty.primitives, p.2 ∈ [Ty.number, .string, .bool, .void] := by decide
    have hmem := hprimitive p hp
    rw [beq_iff_eq.mp hty] at hmem
    simp only [List.mem_cons, List.not_mem_nil, or_false] at hmem
    rcases hmem with rfl | rfl | rfl | rfl <;> trivial

namespace Scope

variable {E : Entities} {s : Scope}

theorem Known.mono {e e' : Entities} (h : e.KeepsForms e') (hs : s.Known e) : s.Known e' :=
  fun name b hb => (hs name b hb).mono h

theorem Known.enter (hs : s.Known E) (o : Overrides) : (s.enter o).Known E := by
  intro name b hb
  rw [find?_enter] at hb
  exact hs name b hb

theorem Known.bind (hs : s.Known E) (name : String) {b : Binding} (hb : b.Known E) :
    (s.bind name b).Known E := by
  intro x c hc
  rw [find?_bind] at hc
  by_cases hx : x = name
  · rw [if_pos hx] at hc
    rw [← Option.some.inj hc]
    exact hb
  · rw [if_neg hx] at hc
    exact hs x c hc

end Scope

/-! ### Environments -/

namespace Checking.Env

/-- **What checking keeps of the names** of an environment. -/
structure Named (env : Env) : Prop where
  tables : env.entities.Named
  scope : env.scope.Known env.entities

structure NamedBehind (env env' : Env) : Prop where
  named : env'.Named
  forms : env.entities.KeepsForms env'.entities

variable {env : Env}

theorem Named.behind (h : env.Named) : env.NamedBehind env := ⟨h, .refl _⟩

theorem NamedBehind.trans {env₁ env₂ env₃ : Env} (h : env₁.NamedBehind env₂)
    (g : env₂.NamedBehind env₃) : env₁.NamedBehind env₃ :=
  ⟨g.named, h.forms.trans g.forms⟩

theorem Named.within (h : env.Named) {s : Scope} (hs : s.Known env.entities) :
    (env.within s).Named :=
  ⟨h.tables, hs⟩

/-- Behind braces the scope is the one in front of them. -/
theorem Named.around {last : Env} (h : env.Named) (hl : last.Named)
    (hk : env.entities.KeepsForms last.entities) : env.NamedBehind (last.around env.scope) :=
  ⟨⟨hl.tables, h.scope.mono hk⟩, hk⟩

/-- A new variable. -/
theorem Named.addVariable (h : env.Named) {name : String} (hname : IsName name) (readOnly : Bool)
    {ty : Ty} (hty : ty.Known env.entities) :
    env.NamedBehind (env.addVariable name readOnly ty).2 := by
  have hk : env.entities.KeepsForms (env.entities.addVariable ⟨name, readOnly, ty⟩) :=
    Entities.keepsForms_of_structs rfl
  exact ⟨⟨h.tables.addVariable ⟨hname, hty⟩, (h.scope.mono hk).bind name trivial⟩, hk⟩

end Checking.Env

/-- **At the start** the names are those of the language. -/
theorem Checking.Env.named_root : Env.Named ⟨.root, .initial⟩ := by
  have hvars : ∀ row ∈ Entities.initial.vars, IsName row.name ∧ row.ty = .number := by decide
  have hfuncs : ∀ row ∈ Entities.initial.funcs, IsName row.name ∧
      (∀ ty ∈ row.signature.params, ty = .number ∨ ty = .any) ∧
        (row.signature.result = .number ∨ row.signature.result = .string) := by decide
  have hbound : ∀ p ∈ Scope.root.current.bindings, p.2.isPrimitive = true := by decide
  refine ⟨⟨?_, ?_, ?_⟩, ?_⟩
  · intro i row hr
    obtain ⟨hname, hty⟩ := hvars row (Array.mem_of_getElem? hr)
    rw [hty]
    exact ⟨hname, trivial⟩
  · intro i row hr
    obtain ⟨hname, hparams, hresult⟩ := hfuncs row (Array.mem_of_getElem? hr)
    refine ⟨hname, Ty.knownAll_iff.mpr fun ty hty => ?_, ?_⟩
    · rcases hparams ty hty with rfl | rfl <;> trivial
    · rcases hresult with h | h <;> rw [h] <;> trivial
  · intro i row hr
    exact absurd hr (by simp [show Entities.initial.structs = #[] from rfl])
  · intro name b hb
    exact Binding.known_of_isPrimitive (hbound (name, b) (Scope.mem_of_find?_root hb))

end TypedImp
