import TypedImp.Proofs.Checking.Invariant
import TypedImp.Proofs.Checking.Types
import TypedImp.Proofs.Simplify.Origin
import TypedImp.Proofs.Simplify.Types

/-!
# Where any type is wanted

`Ty.any` is written into the parameters of two standard functions and has no name in a program.
But these functions are values, and their types go wherever values go: into variables, arrays,
iterators and results.  `Ty.AnyConfined` says that `any` gets nowhere by this: at whatever depth
it occurs in a type, it is a parameter, and one of a function type that belongs to a standard
function.

* `Ty.Arises` is how types come about, with the types of the standard functions as a rule of
  their own.  Such a type is confined (**`Ty.Arises.confined`**), and what is taken out of it, the
  element of an array or the result of a function, arises as well.
* Every type in the tables of a program and in its expressions arises, which is an invariant of
  checking (`Checking.arises_invariant`); the literals that simplifying puts in place of
  expressions have types that arise anyway.
-/

namespace TypedImp

def Builtin.signature? (b : Builtin) : Option Signature :=
  match b.meaning with
  | .constant _ => none
  | .function signature => some signature

def Binding.type? : Binding → Option Ty
  | .type ty => some ty
  | _ => none

/-! ### Types within types -/

namespace Ty

mutual

def nested : Ty → List Ty
  | array element => .array element :: element.nested
  | function params result => .function params result :: (nestedAll params ++ result.nested)
  | number => [.number]
  | string => [.string]
  | bool => [.bool]
  | void => [.void]
  | any => [.any]
  | struct id => [.struct id]

def nestedAll : List Ty → List Ty
  | [] => []
  | t :: ts => t.nested ++ nestedAll ts

end

theorem mem_nestedAll {t : Ty} {ts : List Ty} :
    t ∈ nestedAll ts ↔ ∃ whole ∈ ts, t ∈ whole.nested := by
  induction ts with
  | nil => simp [nestedAll]
  | cons u ts ih => simp [nestedAll, ih]

/-- **Where `any` may stand in a type.**  It is not the type itself, and at no depth the element
of an array or the result of a function; and a function that has it for a parameter is a standard
one, with just these parameters and this result. -/
structure AnyConfined (t : Ty) : Prop where
  self : t ≠ .any
  element : .array .any ∉ t.nested
  result : ∀ params, .function params .any ∉ t.nested
  params : ∀ params result, .function params result ∈ t.nested → .any ∈ params →
    ∃ b ∈ Builtin.all, b.meaning = .function ⟨params, result⟩

/-- How a type comes about. -/
inductive Arises : Ty → Prop
  | number : Arises .number
  | string : Arises .string
  | bool : Arises .bool
  | void : Arises .void
  | struct (id : StructId) : Arises (.struct id)
  | array {element : Ty} (h : Arises element) : Arises (.array element)
  | function {params : List Ty} {result : Ty} (hparams : ∀ t ∈ params, Arises t)
      (hresult : Arises result) : Arises (.function params result)
  | builtin {b : Builtin} {signature : Signature} (hb : b ∈ Builtin.all)
      (hs : b.meaning = .function signature) : Arises signature.ty

/-! ### The types of the standard functions -/

/-- The types within the type of a standard function are that type itself and, for its parameters
and its result, those of numbers and texts and `any`, which is not its result. -/
theorem builtin_nested {b : Builtin} {signature : Signature} (hb : b ∈ Builtin.all)
    (hs : b.meaning = .function signature) :
    (∀ t ∈ signature.ty.nested, t = signature.ty ∨ t = .number ∨ t = .string ∨ t = .any) ∧
      (signature.result = .number ∨ signature.result = .string) := by
  have hall : ∀ b ∈ Builtin.all, ∀ s ∈ b.signature?,
      (∀ t ∈ s.ty.nested, t = s.ty ∨ t = .number ∨ t = .string ∨ t = .any) ∧
        (s.result = .number ∨ s.result = .string) := by decide
  refine hall b hb signature ?_
  rw [Builtin.signature?, hs]
  rfl

theorem confined_builtin {b : Builtin} {signature : Signature} (hb : b ∈ Builtin.all)
    (hs : b.meaning = .function signature) : signature.ty.AnyConfined := by
  obtain ⟨hnested, hresult⟩ := builtin_nested hb hs
  have hfunction : ∀ params result, .function params result ∈ signature.ty.nested →
      signature = ⟨params, result⟩ := by
    intro params result hmem
    rcases hnested _ hmem with h | h | h | h
    · rw [(function.inj h).1, (function.inj h).2]
    all_goals cases h
  refine ⟨?_, fun hmem => ?_, fun params hmem => ?_, fun params result hmem _ => ?_⟩
  · intro h
    cases h
  · rcases hnested _ hmem with h | h | h | h <;> cases h
  · rw [hfunction params .any hmem] at hresult
    rcases hresult with h | h <;> cases h
  · exact ⟨b, hb, hfunction params result hmem ▸ hs⟩

/-! ### What is taken out of a type -/

theorem Arises.of_array {element : Ty} (h : (Ty.array element).Arises) : element.Arises := by
  generalize hty : Ty.array element = ty at h
  cases h with
  | array h =>
    cases hty
    exact h
  | _ => cases hty

theorem Arises.of_function {params : List Ty} {result : Ty}
    (h : (Ty.function params result).Arises) : result.Arises := by
  generalize hty : Ty.function params result = ty at h
  cases h with
  | function _ h =>
    cases hty
    exact h
  | builtin hb hs =>
    cases hty
    rcases (builtin_nested hb hs).2 with h | h
    · exact h ▸ .number
    · exact h ▸ .string
  | _ => cases hty

/-! ### What arises is confined -/

/-- A type without other types within it. -/
theorem AnyConfined.of_leaf {t : Ty} (hnested : t.nested = [t]) (hself : t ≠ .any)
    (harray : ∀ element, Ty.array element ≠ t)
    (hfunction : ∀ params result, Ty.function params result ≠ t) : t.AnyConfined := by
  refine ⟨hself, ?_, fun params hmem => ?_, fun params result hmem _ => ?_⟩
  · rw [hnested, List.mem_singleton]
    exact harray _
  · rw [hnested, List.mem_singleton] at hmem
    exact absurd hmem (hfunction _ _)
  · rw [hnested, List.mem_singleton] at hmem
    exact absurd hmem (hfunction _ _)

theorem AnyConfined.array {t : Ty} (h : t.AnyConfined) : (Ty.array t).AnyConfined := by
  refine ⟨nofun, fun hmem => ?_, fun params hmem => ?_, fun params result hmem hany => ?_⟩
  · rcases List.mem_cons.mp hmem with heq | hmem
    · exact h.self (array.inj heq).symm
    · exact h.element hmem
  · rcases List.mem_cons.mp hmem with heq | hmem
    · cases heq
    · exact h.result params hmem
  · rcases List.mem_cons.mp hmem with heq | hmem
    · cases heq
    · exact h.params params result hmem hany

theorem AnyConfined.function {params : List Ty} {result : Ty}
    (hparams : ∀ t ∈ params, t.AnyConfined) (hresult : result.AnyConfined) :
    (Ty.function params result).AnyConfined := by
  -- What is within the type is the type itself or within a type that is confined.
  have hwithin : ∀ t ∈ (Ty.function params result).nested,
      t = .function params result ∨ ∃ whole : Ty, whole.AnyConfined ∧ t ∈ whole.nested := by
    intro t hmem
    rcases List.mem_cons.mp hmem with heq | hmem
    · exact .inl heq
    · rcases List.mem_append.mp hmem with hmem | hmem
      · obtain ⟨whole, hw, hmem⟩ := mem_nestedAll.mp hmem
        exact .inr ⟨whole, hparams whole hw, hmem⟩
      · exact .inr ⟨result, hresult, hmem⟩
  refine ⟨nofun, fun hmem => ?_, fun ps hmem => ?_, fun ps r hmem hany => ?_⟩
  · rcases hwithin _ hmem with heq | ⟨whole, hw, hmem⟩
    · cases heq
    · exact hw.element hmem
  · rcases hwithin _ hmem with heq | ⟨whole, hw, hmem⟩
    · exact absurd (function.inj heq).2.symm hresult.self
    · exact hw.result ps hmem
  · rcases hwithin _ hmem with heq | ⟨whole, hw, hmem⟩
    · rw [(function.inj heq).1] at hany
      exact absurd rfl (hparams _ hany).self
    · exact hw.params ps r hmem hany

/-- **In a type that arises `any` is confined to the parameters of standard functions.** -/
theorem Arises.confined {t : Ty} (h : t.Arises) : t.AnyConfined := by
  induction h with
  | number | string | bool | void | struct => exact .of_leaf rfl nofun nofun nofun
  | array _ ih => exact ih.array
  | function _ _ ihparams ihresult => exact .function ihparams ihresult
  | builtin hb hs => exact confined_builtin hb hs

end Ty

/-! ### Tables -/

namespace Entities

structure Arises (E : Entities) : Prop where
  vars : ∀ {i : Nat} {row : Variable}, E.vars[i]? = some row → row.ty.Arises
  funcs : ∀ {i : Nat} {row : Function}, E.funcs[i]? = some row → row.signature.ty.Arises
  structs : ∀ {i : Nat} {row : Struct}, E.structs[i]? = some row →
    ∀ field ∈ row.fields, field.ty.Arises

variable {E : Entities}

theorem Arises.variableAt (h : E.Arises) (id : VariableId) : (E.variableAt id).ty.Arises := by
  rw [Entities.variableAt]
  cases hr : E.vars[id.index]? with
  | none => exact .number
  | some row => exact h.vars hr

theorem Arises.functionAt (h : E.Arises) (id : FunctionId) :
    (E.functionAt id).signature.ty.Arises := by
  rw [Entities.functionAt]
  cases hr : E.funcs[id.index]? with
  | none => exact .function (List.forall_mem_nil _) .number
  | some row => exact h.funcs hr

theorem Arises.structAt (h : E.Arises) (id : StructId) :
    ∀ field ∈ (E.structAt id).fields, field.ty.Arises := by
  rw [Entities.structAt]
  cases hr : E.structs[id.index]? with
  | none => exact List.forall_mem_nil _
  | some row => exact h.structs hr

theorem Arises.constructor (h : E.Arises) (id : StructId) : (E.constructor id).ty.Arises := by
  refine .function (fun t ht => ?_) (.struct id)
  obtain ⟨field, hf, rfl⟩ := List.mem_map.mp ht
  exact h.structAt id field hf

theorem Arises.addVariable (h : E.Arises) {v : Variable} (hv : v.ty.Arises) :
    (E.addVariable v).Arises :=
  ⟨forall_getElem?_push h.vars hv, h.funcs, h.structs⟩

theorem Arises.addFunction (h : E.Arises) {f : Function} (hf : f.signature.ty.Arises) :
    (E.addFunction f).Arises :=
  ⟨h.vars, forall_getElem?_push h.funcs hf, h.structs⟩

theorem Arises.addStruct (h : E.Arises) {s : Struct} (hs : ∀ field ∈ s.fields, field.ty.Arises) :
    (E.addStruct s).Arises :=
  ⟨h.vars, h.funcs, forall_getElem?_push h.structs hs⟩

theorem Arises.setSignature (h : E.Arises) (id : FunctionId) {signature : Signature}
    (hs : signature.ty.Arises) : (E.setSignature id signature).Arises :=
  ⟨h.vars, forall_getElem?_modify h.funcs fun _ _ => hs, h.structs⟩

theorem Arises.setFields (h : E.Arises) (id : StructId) {fields : List Field}
    (hf : ∀ field ∈ fields, field.ty.Arises) : (E.setFields id fields).Arises :=
  ⟨h.vars, h.funcs, forall_getElem?_modify h.structs fun _ _ => hf⟩

theorem arises_initial : initial.Arises := by
  have hvars : ∀ row ∈ initial.vars, row.ty = .number := by decide
  have hfuncs : ∀ row ∈ initial.funcs,
      ∃ b ∈ Builtin.all, b.meaning = .function row.signature := by decide
  refine ⟨fun hr => ?_, fun hr => ?_, fun hr => ?_⟩
  · rw [hvars _ (Array.mem_of_getElem? hr)]
    exact .number
  · obtain ⟨b, hb, hs⟩ := hfuncs _ (Array.mem_of_getElem? hr)
    exact .builtin hb hs
  · exact absurd hr (by simp [show initial.structs = #[] from rfl])

end Entities

/-! ### Checking -/

namespace Checking

structure Env.Arises (env : Env) : Prop where
  tables : env.entities.Arises
  scope : ∀ {name : String} {ty : Ty}, env.scope.find? name = some (.type ty) → ty.Arises

variable {env : Env}

/-- That a type arises is kept by all the ways in which checking makes types. -/
theorem Env.Arises.keeps (henv : env.Arises) : env.Keeps Ty.Arises where
  number := .number
  string := .string
  bool := .bool
  array := .array
  element := .of_array
  function := .function
  result := .of_function
  type := henv.scope
  var {_ id} _ := henv.tables.variableAt id
  func {_ id} _ := henv.tables.functionAt id
  struct {_ id} _ := henv.tables.constructor id
  field {id} _ := henv.tables.structAt id

/-- **All types within an expression that passes checking arise.** -/
theorem checkExpr_arises (henv : env.Arises) (tree : Tree.Expr) {e : Expr}
    (h : checkExpr env tree = .ok e) : e.AllTypes Ty.Arises :=
  checkExpr_keeps henv.keeps tree h

theorem Env.Offered.arises {ty : Ty} (h : Env.Offered Env.Arises ty) : ty.Arises := by
  obtain ⟨site, hsite, e, ⟨tree, he⟩, rfl⟩ := h
  exact (checkExpr_arises hsite tree he).ty

/-- No declaration gives a name to a type other than a struct. -/
theorem Env.Arises.bind (henv : env.Arises) {E : Entities} (hE : E.Arises) (name : String)
    {b : Binding} (hb : ∀ ty, b ≠ .type ty) : Env.Arises ⟨env.scope.bind name b, E⟩ := by
  refine ⟨hE, fun {x ty} hx => ?_⟩
  change (env.scope.bind name b).find? x = _ at hx
  rw [Scope.find?_bind] at hx
  split at hx
  · exact absurd (Option.some.inj hx) (hb ty)
  · exact henv.scope hx

theorem declareStruct_arises (henv : env.Arises) {env' : Env} {name : Tree.Name}
    {trees : List Tree.Annotated} {isClass : Bool} {span : Span} {s : Stmt}
    (h : declareStruct env name trees isClass span = .ok (s, env')) : env'.Arises := by
  obtain ⟨fields, _, _, hf, _, _, rfl⟩ := declareStruct_eq_ok h
  have hadd := henv.tables.addStruct (s := ⟨name.text, [], isClass⟩) (List.forall_mem_nil _)
  have hbound := henv.bind hadd name.text (b := .struct env.entities.nextStruct) nofun
  exact ⟨hadd.setFields _ (resolveFields_keeps hbound.keeps hf), hbound.scope⟩

/-- **That types arise is an invariant of checking.** -/
theorem arises_invariant : Env.Invariant Env.Arises where
  enter o henv := ⟨henv.tables, fun hx => henv.scope (by rwa [← Scope.find?_enter _ o])⟩
  around henv hlast _ := ⟨hlast.tables, henv.scope⟩
  addVariable {env ty} name readOnly henv hty :=
    henv.bind (henv.tables.addVariable (v := ⟨name, readOnly, ty⟩) hty.arises) name (b := .var _)
      nofun
  addFunction {env} name henv :=
    henv.bind (henv.tables.addFunction (f := ⟨name, ⟨[], .void⟩, false⟩)
      (.function (List.forall_mem_nil _) .void)) name (b := .func _) nofun
  setSignature {env signature} id henv hparams hresult := by
    have hsignature : signature.ty.Arises := by
      refine .function (fun t ht => (hparams t ht).arises) ?_
      rcases hresult with h | h
      · exact h ▸ .void
      · exact h.arises
    exact ⟨henv.tables.setSignature id hsignature, henv.scope⟩
  declareStruct henv h := declareStruct_arises henv h

theorem arises_root : Env.Arises ⟨.root, .initial⟩ := by
  have hbound : ∀ p ∈ Scope.root.current.bindings, ∀ ty ∈ p.2.type?,
      ty = .number ∨ ty = .string ∨ ty = .bool ∨ ty = .void := by decide
  refine ⟨Entities.arises_initial, fun {name ty} hx => ?_⟩
  rcases hbound (name, .type ty) (Scope.mem_of_find?_root hx) ty rfl with rfl | rfl | rfl | rfl
  · exact .number
  · exact .string
  · exact .bool
  · exact .void

end Checking

/-! ### Programs -/

def Entities.types (E : Entities) : List Ty :=
  E.vars.toList.map Variable.ty ++ E.funcs.toList.map (·.signature.ty) ++
    E.structs.toList.flatMap fun s => s.fields.map Field.ty

def Program.types (p : Program) : List Ty := p.exprs.map Expr.ty ++ p.entities.types

theorem Entities.Arises.types {E : Entities} (h : E.Arises) : ∀ t ∈ E.types, t.Arises := by
  intro t ht
  simp only [Entities.types, List.mem_append, List.mem_map, List.mem_flatMap, Array.mem_toList_iff]
    at ht
  rcases ht with (⟨row, hr, rfl⟩ | ⟨row, hr, rfl⟩) | ⟨row, hr, field, hf, rfl⟩
  · obtain ⟨i, hr⟩ := Array.mem_iff_getElem?.mp hr
    exact h.vars hr
  · obtain ⟨i, hr⟩ := Array.mem_iff_getElem?.mp hr
    exact h.funcs hr
  · obtain ⟨i, hr⟩ := Array.mem_iff_getElem?.mp hr
    exact h.structs hr field hf

/-- Types arise throughout a program if they do in its tables and in its expressions. -/
theorem Program.types_arise {p : Program} (htables : p.entities.Arises)
    (hexprs : ∀ s ∈ p.stmts, ∀ e ∈ s.exprs, e.AllTypes Ty.Arises) : ∀ t ∈ p.types, t.Arises := by
  intro t ht
  rcases List.mem_append.mp ht with ht | ht
  · obtain ⟨e, he, rfl⟩ := List.mem_map.mp ht
    obtain ⟨s, hs, whole, hw, he⟩ := Program.mem_exprs_iff.mp he
    exact hexprs s hs whole hw e he
  · exact htables.types t ht

/-- **`any` never gets out of the parameters of the standard functions.**  No type in a checked
program is `any`, be it of an expression, a variable, a function or a field; and within these
types, at any depth, it is neither the element of an array nor the result of a function, and a
parameter only in the type of a standard function.  All this is true of the simplified program as
well. -/
theorem Program.any_confined {tree : List Tree.Stmt} {p : Program} (h : analyze tree = .ok p) :
    (∀ t ∈ p.types, t.AnyConfined) ∧ ∀ t ∈ p.simplify.value.types, t.AnyConfined := by
  obtain ⟨⟨_, htables, -⟩, hsited⟩ := Checking.arises_invariant.of_analyze Checking.arises_root h
  have hexprs : ∀ s ∈ p.stmts, ∀ e ∈ s.exprs, e.AllTypes Ty.Arises := by
    intro s hs e he
    obtain ⟨site, hsite, tree, he⟩ := hsited s hs e he
    exact Checking.checkExpr_arises hsite tree he
  refine ⟨fun t ht => (types_arise htables hexprs t ht).confined, fun t ht => ?_⟩
  refine (types_arise (p := p.simplify.value) htables (fun s' hs' e' he' => ?_) t ht).confined
  obtain ⟨s, hs, hb⟩ := p.exists_becomes hs'
  obtain ⟨e, he, rfl⟩ := hb.of_expr he'
  exact (hexprs s hs e he).simplify .number .bool

/-- `let fs = [length, length]; for f in fs { if true { print f(fs); } }`, with all spans left
blank. -/
def measuredTree : List Tree.Stmt :=
  let blank : Span := ⟨.start, 0⟩
  let name (text : String) : Tree.Name := ⟨text, blank⟩
  let use (text : String) : Tree.Expr := .name (name text)
  [.declareVariable (name "fs") false none (some (.array [use "length", use "length"] blank)) blank,
    .collectionLoop (name "f") (use "fs")
      ⟨[.ifThen (.bool true blank)
        ⟨[.print (.call (use "f") [use "fs"] blank) blank], blank⟩ blank], blank⟩ blank]

def measuredProgram : Program :=
  let ty : Ty := .function [.any] .number
  let fs : Expr := .var ⟨1⟩ (.array ty)
  { statements :=
      [.declareVariable ⟨1⟩ (some (.array [.func ⟨6⟩ ty, .func ⟨6⟩ ty] (.array ty))),
        .collectionLoop ⟨2⟩ fs
          [.ifThen (.bool true .bool) [.print (.call (.var ⟨2⟩ ty) [fs] .number)]]]
    entities :=
      (Entities.initial.addVariable ⟨"fs", false, .array ty⟩).addVariable ⟨"f", true, ty⟩ }

/-- The type of a standard function becomes that of the elements of an array and of an iterator,
and the array is passed to the function. -/
theorem Program.any_confined_measured : analyze measuredTree = .ok measuredProgram ∧
    .array (.function [.any] .number) ∈ measuredProgram.types ∧
      (∀ t ∈ measuredProgram.types, t.AnyConfined) ∧
      ∀ t ∈ measuredProgram.simplify.value.types, t.AnyConfined := by
  have hanalyze : analyze measuredTree = .ok measuredProgram := rfl
  obtain ⟨hconfined, hsimplified⟩ := any_confined hanalyze
  exact ⟨hanalyze, by decide, hconfined, hsimplified⟩

end TypedImp
