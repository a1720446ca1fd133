import TypedImp.Proofs.Checking.Invariant
import TypedImp.Proofs.Listing.Spelled
import TypedImp.Proofs.Tables.Containment

/-!
# Structs within structs

A struct is checked when it is declared, against the tables as they are then.  All the same, no
struct of a program holds itself, be it through structs that are declared later, within other
blocks or by the same name (`Program.structs_acyclic`).

The reason is an order: the type of a field is looked up in the scope, so a struct that it names
has a row already, and only the new row itself is not in front of it.  That one is excluded by
the check, of which no more is needed than that a part is found (`Entities.contains_of_transGen`).
So each row holds only rows in front of it, `Struct.StandsAt`, and this is an invariant of
checking together with what the scope knows (`Checking.layered_invariant`).
-/

namespace TypedImp

namespace Entities

variable {E : Entities}

/-- Structs keep their rows and their forms, whatever is added and completed. -/
theorem Steps.keepsForms {S : Stmt → Prop} {E E' : Entities} (h : Steps S E E') :
    E.KeepsForms E' := by
  refine h.induction (.refl E) fun e e' _ hstep hforms => hforms.trans ?_
  cases hstep with
  | addVariable | addFunction | setSignature => exact keepsForms_of_structs rfl
  | addStruct s => exact e.keepsForms_addStruct s
  | setFields id fields => exact e.keepsForms_setFields id fields

end Entities

/-! ### Rows in front of each other -/

/-- A struct that holds only structs whose rows are in front of the given one, in fields of
different names. -/
structure Struct.StandsAt (s : Struct) (i : Nat) : Prop where
  parts : ∀ field ∈ s.fields, ∀ part, field.ty = .struct part → part.index < i
  distinct : (s.fields.map Field.name).Nodup

namespace Entities

/-- **Each struct holds only structs in front of it.** -/
structure Layered (E : Entities) : Prop where
  row : ∀ {i : Nat} {row : Struct}, E.structs[i]? = some row → row.StandsAt i

variable {E : Entities}

theorem layered_initial : initial.Layered :=
  ⟨fun h => absurd h (by simp [show initial.structs = #[] from rfl])⟩

theorem Layered.structAt (h : E.Layered) (id : StructId) : (E.structAt id).StandsAt id.index := by
  rw [Entities.structAt]
  cases hr : E.structs[id.index]? with
  | none => exact ⟨List.forall_mem_nil _, List.nodup_nil⟩
  | some row => exact h.row hr

theorem Layered.index_lt (h : E.Layered) {outer inner : StructId} (hheld : E.Holds outer inner) :
    inner.index < outer.index := by
  obtain ⟨field, hf, hty⟩ := hheld
  exact (h.structAt outer).parts field hf inner hty

/-- Through any number of structs, too. -/
theorem Layered.index_lt_of_transGen (h : E.Layered) {outer inner : StructId}
    (hheld : Relation.TransGen E.Holds outer inner) : inner.index < outer.index := by
  induction hheld with
  | single hheld => exact h.index_lt hheld
  | tail _ hheld ih => exact Nat.lt_trans (h.index_lt hheld) ih

theorem Layered.field?_eq_some_iff (h : E.Layered) {id : StructId} {name : String}
    {field : Field} : E.field? id name = some field ↔
      field ∈ (E.structAt id).fields ∧ field.name = name := by
  have hdistinct := (h.structAt id).distinct
  rw [field?]
  constructor
  · intro hf
    exact ⟨List.mem_of_find?_eq_some hf, by simpa using List.find?_some hf⟩
  · rintro ⟨hmem, rfl⟩
    cases hf : (E.structAt id).fields.find? (·.name == field.name) with
    | none => exact absurd (List.find?_eq_none.mp hf field hmem) (by simp)
    | some found =>
      have hname : found.name = field.name := by simpa using List.find?_some hf
      rw [List.inj_on_of_nodup_map hdistinct (List.mem_of_find?_eq_some hf) hmem hname]

/-- A struct is declared behind those that it holds. -/
theorem Layered.declare (h : E.Layered) (s : Struct) {fields : List Field}
    (hf : Struct.StandsAt { s with fields } E.structs.size) :
    ((E.addStruct s).setFields E.nextStruct fields).Layered := by
  refine ⟨fun {i row} hr => ?_⟩
  rw [setFields, addStruct, nextStruct, Array.getElem?_modify, Array.getElem?_push] at hr
  by_cases hi : i = E.structs.size
  · subst hi
    rw [if_pos rfl, if_pos rfl] at hr
    rw [← Option.some.inj hr]
    exact hf
  · rw [if_neg (Ne.symm hi), if_neg hi] at hr
    exact h.row hr

end Entities

/-! ### Checking -/

namespace Checking

open Entities

theorem resolveFields_known {E : Entities} {s : Scope} (hs : s.Known E) {seen : List String}
    {trees : List Tree.Annotated} {fields : List Field}
    (h : resolveFields s seen trees = .ok fields) : ∀ field ∈ fields, field.ty.Known E := by
  intro field hf
  obtain ⟨_, tree, _, _, hty⟩ := (resolveFields_eq_ok h).2 field hf
  exact resolveType_known hs tree.type hty

/-- What a scope knows has a row, and each struct holds only structs in front of it. -/
structure Env.Layered (env : Env) : Prop where
  scope : env.scope.Known env.entities
  tables : env.entities.Layered

/-- Changes of the other tables do not matter. -/
theorem Env.Layered.other {env : Env} (henv : env.Layered) {E : Entities}
    (h : E.structs = env.entities.structs) : Env.Layered ⟨env.scope, E⟩ :=
  ⟨henv.scope.mono (keepsForms_of_structs h), ⟨fun hr => henv.tables.row (h ▸ hr)⟩⟩

theorem Env.Layered.bind {env : Env} (henv : env.Layered) {E : Entities}
    (h : E.structs = env.entities.structs) (name : String) {b : Binding} (hb : b.Known E) :
    Env.Layered ⟨env.scope.bind name b, E⟩ :=
  ⟨(henv.other h).scope.bind name hb, (henv.other h).tables⟩

theorem declareStruct_layered {env env' : Env} (henv : env.Layered) {name : Tree.Name}
    {trees : List Tree.Annotated} {isClass : Bool} {span : Span} {s : Stmt}
    (h : declareStruct env name trees isClass span = .ok (s, env')) : env'.Layered := by
  obtain ⟨fields, _, _, hf, hself, _, rfl⟩ := declareStruct_eq_ok h
  have hadd := env.entities.keepsForms_addStruct ⟨name.text, [], isClass⟩
  have hform := env.entities.hasForm_addStruct ⟨name.text, [], isClass⟩
  have hscope := (henv.scope.mono hadd).bind name.text (b := .struct env.entities.nextStruct)
    hform.1
  refine ⟨hscope.mono (keepsForms_setFields _ _ _), ?_⟩
  refine henv.tables.declare _ ⟨fun field hmem part hty => ?_, (resolveFields_eq_ok hf).1⟩
  have hknown := resolveFields_known hscope hf field hmem
  rw [hty] at hknown
  -- A struct that the scope knows has a row, and the last one is that of this struct itself.
  have hle : part.index ≤ env.entities.structs.size :=
    Nat.le_of_lt_succ (by simpa [Ty.Known, Env.addStruct, addStruct] using hknown)
  refine Nat.lt_of_le_of_ne hle fun hself' => ?_
  have hpart : part = env.entities.nextStruct := congrArg StructId.mk hself'
  have hrow := hasStruct_setFields hform.1 fields
  have hholds : Entities.Holds _ _ part := ⟨field, by rwa [hrow.structAt_fields], hty⟩
  rw [hpart] at hholds
  exact absurd ((contains_of_transGen (.single hholds)).symm.trans hself) (by simp)

/-- **The order of structs is an invariant of checking.** -/
theorem layered_invariant : Env.Invariant Env.Layered where
  enter o henv := ⟨henv.scope.enter o, henv.tables⟩
  around henv hlast hsteps := ⟨henv.scope.mono hsteps.keepsForms, hlast.tables⟩
  addVariable {env ty} name readOnly henv _ :=
    henv.bind (E := env.entities.addVariable ⟨name, readOnly, ty⟩) rfl name (b := .var _) trivial
  addFunction {env} name henv :=
    henv.bind (E := env.entities.addFunction ⟨name, _, _⟩) rfl name (b := .func _) trivial
  setSignature _ henv _ _ := henv.other rfl
  declareStruct henv h := declareStruct_layered henv h

end Checking

/-- **No struct holds itself.**  In the tables of a checked program, the struct that is the type
of a field has its row in front of the one that has the field, so no way leads from a struct over
the types of its fields back to it.  The fields of a struct have different names: to look one up
by its name finds the only one. -/
theorem Program.structs_acyclic {tree : List Tree.Stmt} {p : Program}
    (h : analyze tree = .ok p) :
    (∀ outer inner, p.entities.Holds outer inner → inner.index < outer.index) ∧
    (∀ id, ¬ Relation.TransGen p.entities.Holds id id) ∧
    ∀ id, ((p.entities.structAt id).fields.map Field.name).Nodup ∧
      ∀ name field, p.entities.field? id name = some field ↔
        field ∈ (p.entities.structAt id).fields ∧ field.name = name := by
  have hroot : Checking.Env.Layered ⟨.root, .initial⟩ :=
    ⟨Checking.Env.named_root.scope, Entities.layered_initial⟩
  obtain ⟨⟨_, -, hlayered⟩, -⟩ := Checking.layered_invariant.of_analyze hroot h
  refine ⟨fun outer inner => hlayered.index_lt, fun id hcycle => ?_, fun id => ?_⟩
  · exact Nat.lt_irrefl _ (hlayered.index_lt_of_transGen hcycle)
  · exact ⟨(hlayered.structAt id).distinct, fun name field => hlayered.field?_eq_some_iff⟩

/-- `struct A { n: number } if true { struct B { a: A, bs: [B] } struct A { b: B, a: boolean } }`,
with all spans left blank: the fields of the last struct, which has the name of the first one,
lead to that one. -/
def shadowedTree : List Tree.Stmt :=
  let blank : Span := ⟨.start, 0⟩
  let name (text : String) : Tree.Name := ⟨text, blank⟩
  let field (text type : String) : Tree.Annotated := ⟨name text, .named (name type)⟩
  let define (text : String) (fields : List Tree.Annotated) : Tree.Stmt :=
    .declareStruct (name text) fields false blank
  [define "A" [field "n" "number"],
    .ifThen (.bool true blank)
      ⟨[define "B" [field "a" "A", ⟨name "bs", .array (.named (name "B")) blank⟩],
        define "A" [field "b" "B", field "a" "boolean"]], blank⟩ blank]

def shadowedProgram : Program :=
  { statements := [.declareStruct ⟨0⟩,
      .ifThen (.bool true .bool) [.declareStruct ⟨1⟩, .declareStruct ⟨2⟩]]
    entities := { Entities.initial with
      structs := #[⟨"A", [⟨"n", .number⟩], false⟩,
        ⟨"B", [⟨"a", .struct ⟨0⟩⟩, ⟨"bs", .array (.struct ⟨1⟩)⟩], false⟩,
        ⟨"A", [⟨"b", .struct ⟨1⟩⟩, ⟨"a", .bool⟩], false⟩] } }

theorem Program.structs_acyclic_shadowed : analyze shadowedTree = .ok shadowedProgram ∧
    shadowedProgram.entities.Holds ⟨2⟩ ⟨1⟩ ∧ shadowedProgram.entities.Holds ⟨1⟩ ⟨0⟩ ∧
      (∀ id, ¬ Relation.TransGen shadowedProgram.entities.Holds id id) ∧
      shadowedProgram.entities.field? ⟨2⟩ "a" = some ⟨"a", .bool⟩ := by
  have hanalyze : analyze shadowedTree = .ok shadowedProgram := rfl
  obtain ⟨-, hacyclic, hfields⟩ := structs_acyclic hanalyze
  refine ⟨hanalyze, ?_, ?_, hacyclic, ((hfields ⟨2⟩).2 "a" ⟨"a", .bool⟩).mpr ⟨?_, rfl⟩⟩
  · exact ⟨⟨"b", .struct ⟨1⟩⟩, List.mem_cons_self, rfl⟩
  · exact ⟨⟨"a", .struct ⟨0⟩⟩, List.mem_cons_self, rfl⟩
  · exact List.mem_cons_of_mem _ List.mem_cons_self

end TypedImp
