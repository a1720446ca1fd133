import TypedImp.Proofs.Checking.Types
import TypedImp.Proofs.Scoping.Gains
import TypedImp.Proofs.Typing.Any

/-!
# Rows that are there

A run that looks for a row that is not there ends with it, and the total reading of the tables
answers with an empty row, so that a wrong index would go unnoticed.  Here it is said what it means
that there is none: `Entities.InRange`, `Scope.InRange`, `Expr.InRange` and `Stmt.InRange` say that
everything that is mentioned has a row, the structs at any depth of a type included.  Of a scope
this is said of all frames, and of a name that is bound again further in as well.

* Tables that grow lose nothing: what is in range stays so (`Scope.InRange.mono` and others).
* **`checkExpr_inRange`**: an expression that passes checking where all is in range is in range.
-/

namespace TypedImp

/-! ### Types -/

/-- A struct is known just as far as its row is there. -/
theorem Ty.known_iff {E : Entities} (ty : Ty) :
    ty.Known E ↔ ∀ id, .struct id ∈ ty.nested → E.HasRow (.struct id) := by
  cases ty with
  | number | string | bool | void | any => simp [Known, nested]
  | struct id => simp [Known, nested, Entities.HasRow]
  | array element =>
    rw [Known, Ty.known_iff element]
    simp [nested]
  | function params result =>
    rw [Known, knownAll_iff, Ty.known_iff result]
    have hparams : (∀ ty ∈ params, ty.Known E) ↔
        ∀ id, .struct id ∈ nestedAll params → E.HasRow (.struct id) := by
      simp only [mem_nestedAll]
      constructor
      · rintro h id ⟨ty, hty, hid⟩
        exact (Ty.known_iff ty).mp (h ty hty) id hid
      · intro h ty hty
        exact (Ty.known_iff ty).mpr fun id hid => h id ⟨ty, hty, hid⟩
    rw [hparams]
    simp only [nested, List.mem_cons, List.mem_append, reduceCtorEq, false_or]
    exact ⟨fun h id hid => hid.elim (h.1 id) (h.2 id),
      fun h => ⟨fun id hid => h id (.inl hid), fun id hid => h id (.inr hid)⟩⟩

theorem Entities.HasRow.mono {E E' : Entities} (h : E.NoShorter E') {x : EntityId}
    (hx : E.HasRow x) : E'.HasRow x := by
  cases x with
  | var => exact Nat.lt_of_lt_of_le hx h.vars
  | func => exact Nat.lt_of_lt_of_le hx h.funcs
  | struct => exact Nat.lt_of_lt_of_le hx h.structs

theorem Ty.Known.grow {E E' : Entities} (h : E.NoShorter E') {ty : Ty} (hty : ty.Known E) :
    ty.Known E' :=
  ty.known_iff.mpr fun id hid => (ty.known_iff.mp hty id hid).mono h

/-! ### Tables -/

namespace Entities

theorem NoShorter.refl (E : Entities) : E.NoShorter E :=
  ⟨Nat.le_refl _, Nat.le_refl _, Nat.le_refl _⟩

/-- **All structs in the tables have a row**: in the types of variables, in signatures and in the
types of fields. -/
structure InRange (E : Entities) : Prop where
  vars : ∀ {i : Nat} {row : Variable}, E.vars[i]? = some row → row.ty.Known E
  funcs : ∀ {i : Nat} {row : Function}, E.funcs[i]? = some row → row.signature.ty.Known E
  structs : ∀ {i : Nat} {row : Struct}, E.structs[i]? = some row →
    ∀ field ∈ row.fields, field.ty.Known E

variable {E E' : Entities}

theorem InRange.variableAt (h : E.InRange) (id : VariableId) : (E.variableAt id).ty.Known E := by
  rw [Entities.variableAt]
  cases hr : E.vars[id.index]? with
  | none => trivial
  | some row => exact h.vars hr

theorem InRange.functionAt (h : E.InRange) (id : FunctionId) :
    (E.functionAt id).signature.ty.Known E := by
  rw [Entities.functionAt]
  cases hr : E.funcs[id.index]? with
  | none => exact ⟨trivial, trivial⟩
  | some row => exact h.funcs hr

theorem InRange.structAt (h : E.InRange) (id : StructId) :
    ∀ field ∈ (E.structAt id).fields, field.ty.Known E := by
  rw [Entities.structAt]
  cases hr : E.structs[id.index]? with
  | none => exact List.forall_mem_nil _
  | some row => exact h.structs hr

theorem InRange.constructor (h : E.InRange) {id : StructId} (hid : E.HasRow (.struct id)) :
    (E.constructor id).ty.Known E := by
  refine ⟨Ty.knownAll_iff.mpr fun ty hty => ?_, hid⟩
  obtain ⟨field, hf, rfl⟩ := List.mem_map.mp hty
  exact h.structAt id field hf

/-- The rows of a table that grew are still in range. -/
theorem InRange.vars_grow (h : E.InRange) (hE : E.NoShorter E') {i : Nat} {row : Variable}
    (hr : E.vars[i]? = some row) : row.ty.Known E' :=
  (h.vars hr).grow hE

theorem InRange.funcs_grow (h : E.InRange) (hE : E.NoShorter E') {i : Nat} {row : Function}
    (hr : E.funcs[i]? = some row) : row.signature.ty.Known E' :=
  (h.funcs hr).grow hE

theorem InRange.structs_grow (h : E.InRange) (hE : E.NoShorter E') {i : Nat} {row : Struct}
    (hr : E.structs[i]? = some row) : ∀ field ∈ row.fields, field.ty.Known E' :=
  fun field hf => (h.structs hr field hf).grow hE

theorem InRange.addVariable (h : E.InRange) {v : Variable} (hv : v.ty.Known E) :
    (E.addVariable v).InRange := by
  have hE := (E.kept_addVariable v).noShorter
  exact ⟨forall_getElem?_push (h.vars_grow hE) (hv.grow hE), h.funcs_grow hE, h.structs_grow hE⟩

theorem InRange.addFunction (h : E.InRange) {f : Function} (hf : f.signature.ty.Known E) :
    (E.addFunction f).InRange := by
  have hE := (E.kept_addFunction f).noShorter
  exact ⟨h.vars_grow hE, forall_getElem?_push (h.funcs_grow hE) (hf.grow hE), h.structs_grow hE⟩

theorem InRange.addStruct (h : E.InRange) {s : Struct}
    (hs : ∀ field ∈ s.fields, field.ty.Known E) : (E.addStruct s).InRange := by
  have hE := (E.kept_addStruct s).noShorter
  exact ⟨h.vars_grow hE, h.funcs_grow hE, forall_getElem?_push (h.structs_grow hE)
    fun field hf => (hs field hf).grow hE⟩

theorem InRange.setSignature (h : E.InRange) (id : FunctionId) {signature : Signature}
    (hs : signature.ty.Known E) : (E.setSignature id signature).InRange := by
  have hE := E.noShorter_setSignature id signature
  exact ⟨h.vars_grow hE, forall_getElem?_modify (h.funcs_grow hE) fun _ _ => hs.grow hE,
    h.structs_grow hE⟩

theorem InRange.setFields (h : E.InRange) (id : StructId) {fields : List Field}
    (hf : ∀ field ∈ fields, field.ty.Known E) : (E.setFields id fields).InRange := by
  have hE := E.noShorter_setFields id fields
  exact ⟨h.vars_grow hE, h.funcs_grow hE, forall_getElem?_modify (h.structs_grow hE)
    fun _ _ field hmem => (hf field hmem).grow hE⟩

def rows (E : Entities) : List EntityId :=
  (List.range E.vars.size).map (fun i => .var ⟨i⟩) ++
    (List.range E.funcs.size).map (fun i => .func ⟨i⟩) ++
      (List.range E.structs.size).map fun i => .struct ⟨i⟩

theorem mem_rows {x : EntityId} : x ∈ E.rows ↔ E.HasRow x := by
  cases x with
  | var id | func id | struct id =>
    obtain ⟨i⟩ := id
    simp [rows, HasRow]

end Entities

/-! ### Scopes -/

def Binding.InRange (E : Entities) : Binding → Prop
  | .var id => E.HasRow (.var id)
  | .func id => E.HasRow (.func id)
  | .struct id => E.HasRow (.struct id)
  | .type ty => ty.Known E

structure Frame.InRange (E : Entities) (frame : Frame) : Prop where
  bound : ∀ p ∈ frame.bindings, p.2.InRange E
  function : ∀ id, frame.function = some id → E.HasRow (.func id)

/-- **All frames of a scope are in range.** -/
def Scope.InRange (E : Entities) (s : Scope) : Prop := ∀ frame ∈ s.frames, frame.InRange E

section

variable {E E' : Entities}

theorem Binding.InRange.mono (h : E.NoShorter E') {b : Binding} (hb : b.InRange E) :
    b.InRange E' := by
  cases b with
  | var id => exact Entities.HasRow.mono (x := .var id) h hb
  | func id => exact Entities.HasRow.mono (x := .func id) h hb
  | struct id => exact Entities.HasRow.mono (x := .struct id) h hb
  | type ty => exact Ty.Known.grow h hb

theorem Frame.InRange.mono (h : E.NoShorter E') {frame : Frame} (hf : frame.InRange E) :
    frame.InRange E' :=
  ⟨fun p hp => (hf.bound p hp).mono h, fun id hid => (hf.function id hid).mono h⟩

namespace Scope

variable {s : Scope}

/-- What a name stands for is bound in one of the frames. -/
theorem exists_of_find? {name : String} {b : Binding} (h : s.find? name = some b) :
    ∃ frame ∈ s.frames, (name, b) ∈ frame.bindings := by
  obtain ⟨frame, hframe, hlookup⟩ := List.exists_of_findSome?_eq_some h
  obtain ⟨front, rest, hbindings, -⟩ := List.lookup_eq_some_iff.mp hlookup
  exact ⟨frame, hframe, hbindings ▸ List.mem_append_right _ List.mem_cons_self⟩

theorem InRange.mono (h : E.NoShorter E') (hs : s.InRange E) : s.InRange E' :=
  fun frame hf => (hs frame hf).mono h

theorem InRange.find? (hs : s.InRange E) {name : String} {b : Binding}
    (hb : s.find? name = some b) : b.InRange E := by
  obtain ⟨frame, hf, hmem⟩ := exists_of_find? hb
  exact (hs frame hf).bound _ hmem

theorem InRange.function (hs : s.InRange E) {id : FunctionId} (hid : s.function = some id) :
    E.HasRow (.func id) :=
  (hs _ List.mem_cons_self).function id hid

theorem InRange.bind (hs : s.InRange E) (name : String) {b : Binding} (hb : b.InRange E) :
    (s.bind name b).InRange E := by
  obtain ⟨hcurrent, houter⟩ := List.forall_mem_cons.mp hs
  exact List.forall_mem_cons.mpr
    ⟨⟨List.forall_mem_cons.mpr ⟨hb, hcurrent.bound⟩, hcurrent.function⟩, houter⟩

theorem InRange.enter (hs : s.InRange E) {o : Overrides}
    (ho : ∀ id, o.function = some (some id) → E.HasRow (.func id)) : (s.enter o).InRange E := by
  refine List.forall_mem_cons.mpr ⟨⟨List.forall_mem_nil _, fun id hid => ?_⟩, hs⟩
  cases hfn : o.function with
  | none => exact hs.function (by simpa [Scope.enter, hfn] using hid)
  | some function => exact ho id (by simpa [Scope.enter, hfn] using hid)

theorem InRange.leave (hs : s.InRange E) {outer : Scope} (h : s.leave? = some outer) :
    outer.InRange E := by
  rw [InRange, frames_of_leave? h] at hs
  exact (List.forall_mem_cons.mp hs).2

end Scope

end

/-! ### Expressions and statements -/

structure Expr.Refers (E : Entities) (e : Expr) : Prop where
  row : ∀ x, e.entity? = some x → E.HasRow x
  known : e.ty.Known E

/-- **All within an expression is in range.** -/
def Expr.InRange (E : Entities) (e : Expr) : Prop := ∀ e' ∈ e.nested, e'.Refers E

/-- **All within a statement is in range.** -/
def Stmt.InRange (E : Entities) (s : Stmt) : Prop :=
  s.Throughout (fun s' => ∀ x ∈ s'.bound, E.HasRow x) (Expr.Refers E)

/-- **All within a program is in range.** -/
structure Program.InRange (p : Program) : Prop where
  tables : p.entities.InRange
  statements : ∀ s ∈ p.statements, s.InRange p.entities

section

variable {E E' : Entities}

theorem Expr.Refers.mono (h : E.NoShorter E') {e : Expr} (he : e.Refers E) : e.Refers E' :=
  ⟨fun x hx => (he.row x hx).mono h, he.known.grow h⟩

theorem Expr.InRange.mono (h : E.NoShorter E') {e : Expr} (he : e.InRange E) : e.InRange E' :=
  fun e' he' => (he e' he').mono h

theorem Expr.InRange.ty {e : Expr} (he : e.InRange E) : e.ty.Known E :=
  (he e e.mem_nested_self).known

theorem Expr.inRange_iff {e : Expr} :
    e.InRange E ↔ (∀ x ∈ e.uses, E.HasRow x) ∧ e.AllTypes (·.Known E) := by
  simp only [InRange, AllTypes, uses, List.mem_filterMap]
  constructor
  · intro h
    refine ⟨?_, fun e' he' => (h e' he').known⟩
    rintro x ⟨e', he', hx⟩
    exact (h e' he').row x hx
  · rintro ⟨huses, htypes⟩ e' he'
    exact ⟨fun x hx => huses x ⟨e', he', hx⟩, htypes e' he'⟩

theorem Stmt.InRange.mono (h : E.NoShorter E') {s : Stmt} (hs : s.InRange E) : s.InRange E' :=
  Throughout.mono hs (fun _ hbound x hx => (hbound x hx).mono h) fun _ he => he.mono h

end

namespace Checking

variable {env : Env}

/-! ### Environments -/

/-- **Everything that an environment knows of has a row.** -/
structure Env.InRange (env : Env) : Prop where
  tables : env.entities.InRange
  scope : env.scope.InRange env.entities

theorem Env.InRange.keeps (henv : env.InRange) : env.Keeps (·.Known env.entities) where
  number := trivial
  string := trivial
  bool := trivial
  array h := h
  element h := h
  function hparams hresult := ⟨Ty.knownAll_iff.mpr hparams, hresult⟩
  result h := h.2
  type h := henv.scope.find? h
  var _ := henv.tables.variableAt _
  func _ := henv.tables.functionAt _
  struct h := henv.tables.constructor (henv.scope.find? h)
  field _ := henv.tables.structAt _

theorem Env.InRange.shows (henv : env.InRange) : env.scope.Shows env.entities.rows := by
  intro name b x hb hx
  have hrange := henv.scope.find? hb
  cases b with
  | var | func | struct =>
    cases hx
    exact Entities.mem_rows.mpr hrange
  | type => cases hx

/-- **An expression that passes checking is in range.** -/
theorem checkExpr_inRange (henv : env.InRange) (tree : Tree.Expr) {e : Expr}
    (h : checkExpr env tree = .ok e) : e.InRange env.entities :=
  Expr.inRange_iff.mpr
    ⟨fun _ hx => Entities.mem_rows.mp (checkExpr_uses henv.shows tree h hx),
      checkExpr_keeps henv.keeps tree h⟩

theorem Env.Accepts.inRange {e : Expr} (he : env.Accepts e) (henv : env.InRange) :
    e.InRange env.entities := by
  obtain ⟨tree, he⟩ := he
  exact checkExpr_inRange henv tree he

theorem Env.inRange_root : Env.InRange ⟨.root, .initial⟩ := by
  have hbound : ∀ p ∈ Scope.root.current.bindings, p.2.Sound .initial ∧
      ∀ ty ∈ p.2.type?, ty ∈ [Ty.number, .string, .bool, .void] := by decide
  have htables := Env.named_root.tables
  refine ⟨⟨fun hr => (htables.vars hr).2, fun hr => (htables.funcs hr).2,
    fun hr field hf => ((htables.structs hr).2 field hf).2⟩, ?_⟩
  refine List.forall_mem_singleton.mpr ⟨?_, nofun⟩
  rintro ⟨name, b⟩ hp
  obtain ⟨hsound, htype⟩ := hbound (name, b) hp
  cases b with
  | var | func | struct => exact hsound
  | type ty =>
    have hty := htype ty rfl
    simp only [List.mem_cons, List.not_mem_nil, or_false] at hty
    rcases hty with rfl | rfl | rfl | rfl <;> trivial

end Checking

end TypedImp
