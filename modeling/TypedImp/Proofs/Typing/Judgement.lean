import Mathlib.Data.List.Forall2
import TypedImp.Proofs.Parts

/-!
# Typing rules

`Expr.Typed E e` says that the types written on `e` and on all expressions within
it fit together and fit the tables `E`: a variable has the type of its row, an
operator takes and gives what `BinaryOp.Joins` says, a call has the parameters and
the result of its callee.  `Stmt.Typed E fn s` says the same of a statement within
the body of the function `fn`, or of none.  Both are rules on a finished program
and do not speak of names, scopes or an order of declarations.

Tables grow.  `Entities.Kept e e'` says that every row of `e` is still there in
`e'`, and `Typed.mono` that a derivation stays valid then.
-/

namespace TypedImp

/-! ### Tables -/

namespace Entities

def HasVariable (E : Entities) (id : VariableId) (ty : Ty) : Prop :=
  ∃ row, E.vars[id.index]? = some row ∧ row.ty = ty

def HasFunction (E : Entities) (id : FunctionId) (signature : Signature) : Prop :=
  ∃ row, E.funcs[id.index]? = some row ∧ row.signature = signature

def HasStruct (E : Entities) (id : StructId) (fields : List Field) : Prop :=
  ∃ row, E.structs[id.index]? = some row ∧ row.fields = fields

structure Kept (e e' : Entities) : Prop where
  vars : ∀ {i : Nat} {row : Variable}, e.vars[i]? = some row → e'.vars[i]? = some row
  funcs : ∀ {i : Nat} {row : Function}, e.funcs[i]? = some row → e'.funcs[i]? = some row
  structs : ∀ {i : Nat} {row : Struct}, e.structs[i]? = some row → e'.structs[i]? = some row

theorem Kept.refl (e : Entities) : Kept e e := ⟨id, id, id⟩

theorem Kept.trans {e₁ e₂ e₃ : Entities} (h : Kept e₁ e₂) (g : Kept e₂ e₃) : Kept e₁ e₃ :=
  ⟨fun hr => g.vars (h.vars hr), fun hr => g.funcs (h.funcs hr), fun hr => g.structs (h.structs hr)⟩

theorem HasVariable.mono {e e' : Entities} (h : Kept e e') {id : VariableId} {ty : Ty}
    (hv : e.HasVariable id ty) : e'.HasVariable id ty := by
  obtain ⟨row, hr, ht⟩ := hv
  exact ⟨row, h.vars hr, ht⟩

theorem HasFunction.mono {e e' : Entities} (h : Kept e e') {id : FunctionId} {signature : Signature}
    (hf : e.HasFunction id signature) : e'.HasFunction id signature := by
  obtain ⟨row, hr, hs⟩ := hf
  exact ⟨row, h.funcs hr, hs⟩

theorem HasStruct.mono {e e' : Entities} (h : Kept e e') {id : StructId} {fields : List Field}
    (hs : e.HasStruct id fields) : e'.HasStruct id fields := by
  obtain ⟨row, hr, hf⟩ := hs
  exact ⟨row, h.structs hr, hf⟩

theorem HasVariable.unique {E : Entities} {id : VariableId} {t u : Ty} (ht : E.HasVariable id t)
    (hu : E.HasVariable id u) : t = u := by
  obtain ⟨row, hr, rfl⟩ := ht
  obtain ⟨row', hr', rfl⟩ := hu
  rw [Option.some.inj (hr.symm.trans hr')]

theorem HasStruct.structAt_fields {E : Entities} {id : StructId} {fields : List Field}
    (h : E.HasStruct id fields) : (E.structAt id).fields = fields := by
  obtain ⟨row, hr, rfl⟩ := h
  rw [structAt, hr, Option.getD_some]

/-- An index without a row has no fields, so a field that is found belongs to a row. -/
theorem hasStruct_of_field? {E : Entities} {id : StructId} {name : String} {field : Field}
    (h : E.field? id name = some field) : E.HasStruct id (E.structAt id).fields := by
  cases hr : E.structs[id.index]? with
  | some row => exact ⟨row, hr, by rw [structAt, hr, Option.getD_some]⟩
  | none =>
    rw [field?, structAt, hr, Option.getD_none] at h
    exact absurd h (by simp [default, instInhabitedStruct.default])

theorem field?_mono {e e' : Entities} (h : Kept e e') {id : StructId} {name : String}
    {field : Field} (hf : e.field? id name = some field) : e'.field? id name = some field := by
  have hs := (hasStruct_of_field? hf).mono h
  rw [field?] at hf ⊢
  rw [hs.structAt_fields]
  exact hf

theorem HasStruct.constructor_mono {e e' : Entities} (h : Kept e e') {id : StructId}
    {fields : List Field} (hs : e.HasStruct id fields) : e'.constructor id = e.constructor id := by
  rw [constructor, constructor, (hs.mono h).structAt_fields, hs.structAt_fields]

end Entities

/-! ### Expressions -/

/-- The types of two operands and of what an operator between them gives. -/
def BinaryOp.Joins (op : BinaryOp) (left right result : Ty) : Prop :=
  match op with
  | or | and => left = .bool ∧ right = .bool ∧ result = .bool
  | sub | mul | div | pow => left = .number ∧ right = .number ∧ result = .number
  | add => (left = .number ∨ left = .string) ∧ right = left ∧ result = left
  | lt | le | gt | ge => (left = .number ∨ left = .string) ∧ right = left ∧ result = .bool
  | eq | ne => right = left ∧ result = .bool

def Expr.Fits (arg : Expr) (param : Ty) : Prop := param = .any ∨ arg.ty = param

/-- **The typing rules of expressions**, relative to tables. -/
inductive Expr.Typed (E : Entities) : Expr → Prop
  | number {x : Float} : Typed E (.number x .number)
  | string {s : String} : Typed E (.string s .string)
  | bool {b : Bool} : Typed E (.bool b .bool)
  | var {id : VariableId} {ty : Ty} : E.HasVariable id ty → Typed E (.var id ty)
  | func {id : FunctionId} {signature : Signature} :
      E.HasFunction id signature → Typed E (.func id signature.ty)
  | struct {id : StructId} {fields : List Field} :
      E.HasStruct id fields → Typed E (.struct id (E.constructor id).ty)
  | binary {op : BinaryOp} {l r : Expr} {ty : Ty} :
      Typed E l → Typed E r → op.Joins l.ty r.ty ty → Typed E (.binary op l r ty)
  | neg {e : Expr} : Typed E e → e.ty = .number → Typed E (.unary .neg e .number)
  | not {e : Expr} : Typed E e → e.ty = .bool → Typed E (.unary .not e .bool)
  | array {es : List Expr} {ty : Ty} :
      (∀ e ∈ es, Typed E e) → (∀ e ∈ es, e.ty = ty) → Typed E (.array es (.array ty))
  | call {f : Expr} {args : List Expr} {signature : Signature} :
      Typed E f → (∀ e ∈ args, Typed E e) → f.ty = signature.ty →
      List.Forall₂ Fits args signature.params → Typed E (.call f args signature.result)
  | member {o : Expr} {id : StructId} {name : String} {field : Field} :
      Typed E o → o.ty = .struct id → E.field? id name = some field →
      Typed E (.member o name field.ty)
  | subscript {a i : Expr} {ty : Ty} :
      Typed E a → Typed E i → a.ty = .array ty → i.ty = .number → Typed E (.subscript a i ty)

theorem Expr.Typed.mono {e e' : Entities} (h : e.Kept e') {x : Expr} (hx : Typed e x) :
    Typed e' x := by
  induction hx with
  | number => exact .number
  | string => exact .string
  | bool => exact .bool
  | var hv => exact .var (hv.mono h)
  | func hf => exact .func (hf.mono h)
  | struct hs =>
    rw [← hs.constructor_mono h]
    exact .struct (hs.mono h)
  | binary _ _ hj hl hr => exact .binary hl hr hj
  | neg _ ht ih => exact .neg ih ht
  | not _ ht ih => exact .not ih ht
  | array _ ht ih => exact .array ih ht
  | call _ _ ht hp hf hargs => exact .call hf hargs ht hp
  | member _ ht hf ih => exact .member ih ht (Entities.field?_mono h hf)
  | subscript _ _ ha hi iha ihi => exact .subscript iha ihi ha hi

theorem Expr.Typed.of_part {E : Entities} {e part : Expr} (h : Typed E e) (hp : part ∈ e.parts) :
    Typed E part := by
  cases h with
  | number | string | bool | var | func | struct => simp [parts] at hp
  | binary hl hr =>
    simp only [parts, List.mem_cons, List.not_mem_nil, or_false] at hp
    rcases hp with rfl | rfl
    · exact hl
    · exact hr
  | neg he | not he =>
    simp only [parts, List.mem_singleton] at hp
    exact hp ▸ he
  | array hes => exact hes part hp
  | call hf hargs =>
    rcases List.mem_cons.mp hp with rfl | hp
    · exact hf
    · exact hargs part hp
  | member ho =>
    simp only [parts, List.mem_singleton] at hp
    exact hp ▸ ho
  | subscript ha hi =>
    simp only [parts, List.mem_cons, List.not_mem_nil, or_false] at hp
    rcases hp with rfl | rfl
    · exact ha
    · exact hi

theorem Expr.Typed.of_nested {E : Entities} {e e' : Expr} (h : Typed E e) (he : e' ∈ e.nested) :
    Typed E e' :=
  forall_nested (fun _ h _ hp => h.of_part hp) h e' he

/-! ### Statements -/

/-- **The typing rules of statements**, relative to tables and to the function whose
body it is. -/
inductive Stmt.Typed (E : Entities) : Option FunctionId → Stmt → Prop
  | declareVariable {fn : Option FunctionId} {id : VariableId} {e : Option Expr} {ty : Ty} :
      E.HasVariable id ty → (∀ x ∈ e, x.Typed E ∧ x.ty = ty) → Typed E fn (.declareVariable id e)
  | declareFunction {fn : Option FunctionId} {id : FunctionId} {params : List VariableId}
      {body : List Stmt} {signature : Signature} :
      E.HasFunction id signature → List.Forall₂ E.HasVariable params signature.params →
      (∀ s ∈ body, Typed E (some id) s) → Typed E fn (.declareFunction id params body)
  | declareStruct {fn : Option FunctionId} {id : StructId} {fields : List Field} :
      E.HasStruct id fields → Typed E fn (.declareStruct id)
  | declareClass {fn : Option FunctionId} {id : StructId} {fields : List Field} :
      E.HasStruct id fields → Typed E fn (.declareClass id)
  | ifThen {fn : Option FunctionId} {test : Expr} {c : List Stmt} :
      test.Typed E → test.ty = .bool → (∀ s ∈ c, Typed E fn s) → Typed E fn (.ifThen test c)
  | ifElse {fn : Option FunctionId} {test : Expr} {c a : List Stmt} :
      test.Typed E → test.ty = .bool → (∀ s ∈ c, Typed E fn s) → (∀ s ∈ a, Typed E fn s) →
      Typed E fn (.ifElse test c a)
  | ifElseIf {fn : Option FunctionId} {test : Expr} {c : List Stmt} {a : Stmt} :
      test.Typed E → test.ty = .bool → (∀ s ∈ c, Typed E fn s) → Typed E fn a →
      Typed E fn (.ifElseIf test c a)
  | whileLoop {fn : Option FunctionId} {test : Expr} {body : List Stmt} :
      test.Typed E → test.ty = .bool → (∀ s ∈ body, Typed E fn s) →
      Typed E fn (.whileLoop test body)
  | rangeLoop {fn : Option FunctionId} {id : VariableId} {low high : Expr} {op : RangeOp}
      {body : List Stmt} :
      low.Typed E → low.ty = .number → high.Typed E → high.ty = .number →
      E.HasVariable id .number → (∀ s ∈ body, Typed E fn s) →
      Typed E fn (.rangeLoop id low op high body)
  | collectionLoop {fn : Option FunctionId} {id : VariableId} {e : Expr} {body : List Stmt}
      {ty : Ty} :
      e.Typed E → e.ty = .array ty → E.HasVariable id ty → (∀ s ∈ body, Typed E fn s) →
      Typed E fn (.collectionLoop id e body)
  | ret {id : FunctionId} {signature : Signature} {e : Expr} :
      E.HasFunction id signature → signature.result ≠ .void → e.Typed E →
      e.ty = signature.result → Typed E (some id) (.ret (some e))
  | retVoid {id : FunctionId} {signature : Signature} :
      E.HasFunction id signature → signature.result = .void → Typed E (some id) (.ret none)
  | breakLoop {fn : Option FunctionId} : Typed E fn .breakLoop
  | continueLoop {fn : Option FunctionId} : Typed E fn .continueLoop
  | tryCatch {fn : Option FunctionId} {body handler : List Stmt} {error : Option VariableId} :
      (∀ s ∈ body, Typed E fn s) → (∀ id ∈ error, E.HasVariable id .string) →
      (∀ s ∈ handler, Typed E fn s) → Typed E fn (.tryCatch body error handler)
  | print {fn : Option FunctionId} {e : Expr} : e.Typed E → Typed E fn (.print e)
  | increment {fn : Option FunctionId} {e : Expr} :
      e.Typed E → e.ty = .number → e.isPlace → Typed E fn (.increment e)
  | decrement {fn : Option FunctionId} {e : Expr} :
      e.Typed E → e.ty = .number → e.isPlace → Typed E fn (.decrement e)
  | assign {fn : Option FunctionId} {t e : Expr} :
      t.Typed E → t.isPlace → e.Typed E → e.ty = t.ty → Typed E fn (.assign t e)
  | call {fn : Option FunctionId} {e : Expr} : e.Typed E → Typed E fn (.call e)

theorem Stmt.Typed.mono {e e' : Entities} (h : e.Kept e') {fn : Option FunctionId} {s : Stmt}
    (hs : Typed e fn s) : Typed e' fn s := by
  induction hs with
  | declareVariable hv he =>
    exact .declareVariable (hv.mono h) fun x hx => ⟨(he x hx).1.mono h, (he x hx).2⟩
  | declareFunction hf hp _ ih => exact .declareFunction (hf.mono h) (hp.imp fun _ _ => .mono h) ih
  | declareStruct hs => exact .declareStruct (hs.mono h)
  | declareClass hs => exact .declareClass (hs.mono h)
  | ifThen ht hb _ ih => exact .ifThen (ht.mono h) hb ih
  | ifElse ht hb _ _ ihc iha => exact .ifElse (ht.mono h) hb ihc iha
  | ifElseIf ht hb _ _ ihc iha => exact .ifElseIf (ht.mono h) hb ihc iha
  | whileLoop ht hb _ ih => exact .whileLoop (ht.mono h) hb ih
  | rangeLoop hl hln hh hhn hv _ ih =>
    exact .rangeLoop (hl.mono h) hln (hh.mono h) hhn (hv.mono h) ih
  | collectionLoop he ht hv _ ih => exact .collectionLoop (he.mono h) ht (hv.mono h) ih
  | ret hf hr he ht => exact .ret (hf.mono h) hr (he.mono h) ht
  | retVoid hf hr => exact .retVoid (hf.mono h) hr
  | breakLoop => exact .breakLoop
  | continueLoop => exact .continueLoop
  | tryCatch _ he _ ihb ihh => exact .tryCatch ihb (fun id hid => (he id hid).mono h) ihh
  | print he => exact .print (he.mono h)
  | increment he ht hp => exact .increment (he.mono h) ht hp
  | decrement he ht hp => exact .decrement (he.mono h) ht hp
  | assign ht hp he hty => exact .assign (ht.mono h) hp (he.mono h) hty
  | call he => exact .call (he.mono h)

theorem Stmt.Typed.of_exprs {E : Entities} {fn : Option FunctionId} {s : Stmt} (h : Typed E fn s)
    {e : Expr} (he : e ∈ s.exprs) : e.Typed E := by
  cases h with
  | declareVariable _ hx => exact (hx e (by simpa [exprs] using he)).1
  | rangeLoop hl _ hh =>
    simp only [exprs, List.mem_cons, List.not_mem_nil, or_false] at he
    rcases he with rfl | rfl
    · exact hl
    · exact hh
  | assign ht _ hx =>
    simp only [exprs, List.mem_cons, List.not_mem_nil, or_false] at he
    rcases he with rfl | rfl
    · exact ht
    · exact hx
  | ret _ _ hx =>
    simp only [exprs, Option.toList_some, List.mem_singleton] at he
    exact he ▸ hx
  | ifThen hx | ifElse hx | ifElseIf hx | whileLoop hx | collectionLoop hx | print hx
  | increment hx | decrement hx | call hx =>
    simp only [exprs, List.mem_singleton] at he
    exact he ▸ hx
  | _ => simp [exprs] at he

theorem Stmt.Typed.of_part {E : Entities} {fn : Option FunctionId} {s part : Stmt}
    (h : Typed E fn s) (hp : part ∈ s.parts) : ∃ fn', Typed E fn' part := by
  cases h with
  | declareFunction _ _ hb | ifThen _ _ hb | whileLoop _ _ hb | rangeLoop _ _ _ _ _ hb
  | collectionLoop _ _ _ hb => exact ⟨_, hb part hp⟩
  | ifElse _ _ hc ha | tryCatch hc _ ha =>
    rcases List.mem_append.mp hp with hp | hp
    · exact ⟨fn, hc part hp⟩
    · exact ⟨fn, ha part hp⟩
  | ifElseIf _ _ hc ha =>
    rcases List.mem_append.mp hp with hp | hp
    · exact ⟨fn, hc part hp⟩
    · rw [List.mem_singleton.mp hp]
      exact ⟨fn, ha⟩
  | _ => simp [parts] at hp

/-- Every statement within a typed one is typed, as part of the same body or of that
of another function. -/
theorem Stmt.Typed.of_nested {E : Entities} {fn : Option FunctionId} {s s' : Stmt}
    (h : Typed E fn s) (hs : s' ∈ s.nested) : ∃ fn', Typed E fn' s' :=
  forall_nested (P := fun s => ∃ fn, Typed E fn s) (fun _ ⟨_, h⟩ _ hp => h.of_part hp) ⟨fn, h⟩ s' hs

/-! ### Programs -/

/-- **A program is well typed** if its statements are, relative to its own tables and
outside all functions. -/
def Program.WellTyped (p : Program) : Prop := ∀ s ∈ p.statements, s.Typed p.entities none

theorem Program.WellTyped.stmt {p : Program} (h : p.WellTyped) {s : Stmt} (hs : s ∈ p.stmts) :
    ∃ fn, s.Typed p.entities fn := by
  obtain ⟨whole, hw, hs⟩ := Stmt.mem_nestedAll.mp hs
  exact (h whole hw).of_nested hs

theorem Program.WellTyped.expr {p : Program} (h : p.WellTyped) {e : Expr} (he : e ∈ p.exprs) :
    e.Typed p.entities := by
  obtain ⟨s, hs, whole, hw, he⟩ := Program.mem_exprs_iff.mp he
  obtain ⟨fn, ht⟩ := h.stmt hs
  exact (ht.of_exprs hw).of_nested he

end TypedImp
