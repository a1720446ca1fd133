import Mathlib.Logic.Relation
import TypedImp.Proofs.Checking.Course
import TypedImp.Proofs.Parts

/-!
# How the tables of a program come about

Checking changes the tables in five ways: it adds a variable, a function or a struct, and it
completes a function or a struct that it has added.  `Entities.Step` is one such change.  Two
things are known of it besides.  No function that is added is one of the language; and a
variable is either the iterator of a loop over a collection, or its type is not void.

**`Env.Leads.steps`**: what statements do to the tables on the course of checking is a row of
such steps.  So a property of tables that every step keeps holds of the tables of every program
(`Program.steps_of_analyze`), and needs no other induction over statements.
-/

namespace TypedImp

namespace Entities

/-- Whether a statement is a loop over a collection, with a given iterator. -/
def IsIterated (S : Stmt → Prop) (id : VariableId) : Prop :=
  ∃ collection body, S (.collectionLoop id collection body)

/-- **One change of the tables**, for one of the statements `S`. -/
inductive Step (S : Stmt → Prop) : Entities → Entities → Prop
  | addVariable {E : Entities} {v : Variable} (h : v.ty ≠ .void ∨ IsIterated S E.nextVariable) :
      Step S E (E.addVariable v)
  | addFunction {E : Entities} (name : String) (signature : Signature) :
      Step S E (E.addFunction ⟨name, signature, false⟩)
  | addStruct {E : Entities} (s : Struct) : Step S E (E.addStruct s)
  | setSignature {E : Entities} (id : FunctionId) (signature : Signature) :
      Step S E (E.setSignature id signature)
  | setFields {E : Entities} (id : StructId) (fields : List Field) :
      Step S E (E.setFields id fields)

def Steps (S : Stmt → Prop) : Entities → Entities → Prop := Relation.ReflTransGen (Step S)

variable {S S' : Stmt → Prop} {E E' E'' : Entities}

theorem Step.mono (h : Step S E E') (hS : ∀ s, S s → S' s) : Step S' E E' := by
  cases h with
  | addVariable h =>
    refine .addVariable (h.imp_right ?_)
    rintro ⟨collection, body, hloop⟩
    exact ⟨collection, body, hS _ hloop⟩
  | addFunction name signature => exact .addFunction name signature
  | addStruct s => exact .addStruct s
  | setSignature id signature => exact .setSignature id signature
  | setFields id fields => exact .setFields id fields

theorem Steps.mono (h : Steps S E E') (hS : ∀ s, S s → S' s) : Steps S' E E' :=
  Relation.ReflTransGen.mono (show Step S ≤ Step S' from fun _ _ hstep => hstep.mono hS) E E' h

theorem Steps.refl : Steps S E E := Relation.ReflTransGen.refl

theorem Steps.trans (h : Steps S E E') (g : Steps S E' E'') : Steps S E E'' :=
  Relation.ReflTransGen.trans h g

theorem Step.steps (h : Step S E E') : Steps S E E' := Relation.ReflTransGen.single h

/-- Changes for whatever statements. -/
theorem Steps.forget (h : Steps S E E') : Steps (fun _ => True) E E' := h.mono fun _ _ => trivial

theorem steps_addVariable (E : Entities) (v : Variable) :
    Steps (fun _ => True) E (E.addVariable v) :=
  (Step.addVariable (.inr ⟨default, [], trivial⟩)).steps

/-- Changes for the parts of a statement are changes for the statement. -/
theorem Steps.ofParts {s : Stmt} {ss : List Stmt} (h : Steps (· ∈ Stmt.nestedAll ss) E E')
    (hss : ∀ part ∈ ss, part ∈ s.parts) : Steps (· ∈ s.nested) E E' := by
  refine h.mono fun x hx => ?_
  obtain ⟨part, hp, hx⟩ := Stmt.mem_nestedAll.mp hx
  exact Stmt.mem_nested_of_part (hss part hp) hx

/-- **What every step keeps, all steps keep.** -/
theorem Steps.induction {P : Entities → Prop} (h : Steps S E E') (hE : P E)
    (step : ∀ e e', Steps S E e → Step S e e' → P e → P e') : P E' := by
  induction h with
  | refl => exact hE
  | tail hsteps hstep ih => exact step _ _ hsteps hstep ih

end Entities

namespace Checking

open Entities

variable {env env' : Env} {S : Stmt → Prop}

/-! ### Declarations -/

theorem declareVariable_steps {name : Tree.Name} {readOnly : Bool} {type : Option Tree.TypeExpr}
    {written : Option Tree.Expr} {span : Span} {s : Stmt}
    (h : declareVariable env name readOnly type written span = .ok (s, env')) :
    Steps S env.entities env'.entities := by
  obtain ⟨e, ty, _, _, _, hvoid, _, rfl⟩ := declareVariable_eq_ok h
  exact (Step.addVariable (.inl hvoid)).steps

theorem Env.PassesParams.steps {params : List Tree.Annotated} {ids : List VariableId}
    {tys : List Ty} (h : env.PassesParams params ids tys env') :
    Steps S env.entities env'.entities := by
  induction h with
  | nil => exact .refl
  | cons _ _ _ hvoid _ ih => exact (Step.addVariable (.inl hvoid)).steps.trans ih

theorem openFunction_steps {name : Tree.Name} {params : List Tree.Annotated}
    {result : Option Tree.TypeExpr} {f : OpenFunction}
    (h : openFunction env name params result = .ok f) :
    Steps S env.entities f.inner.entities := by
  obtain ⟨ty, ids, tys, inner, _, _, hparams, rfl⟩ := openFunction_eq_ok h
  have hadd : Step S env.entities (env.addFunction name.text).2.entities := .addFunction _ _
  exact (hadd.steps.trans hparams.steps).trans (Step.setSignature _ _).steps

theorem declareStruct_steps {name : Tree.Name} {fields : List Tree.Annotated} {isClass : Bool}
    {span : Span} {s : Stmt} (h : declareStruct env name fields isClass span = .ok (s, env')) :
    Steps S env.entities env'.entities := by
  obtain ⟨fields, _, _, _, _, _, rfl⟩ := declareStruct_eq_ok h
  exact (Step.addStruct _).steps.trans (Step.setFields _ _).steps

theorem declareError_steps {name : Option Tree.Name} {error : Option VariableId}
    (h : declareError env name = (error, env')) : Steps S env.entities env'.entities := by
  cases name with
  | none =>
    cases h
    exact .refl
  | some name =>
    cases h
    exact (Step.addVariable (.inl (by simp))).steps

/-! ### Statements -/

/-- **What statements do to the tables on the course of checking.** -/
theorem Env.Leads.steps {env last : Env} {ss : List Stmt} (h : env.Leads ss last) :
    Steps (· ∈ Stmt.nestedAll ss) env.entities last.entities := by
  -- What the first statement does, and its parts, is put in front of what the others do.
  have first {s : Stmt} {ss : List Stmt} {E E' E'' : Entities} (h : Steps (· ∈ s.nested) E E')
      (g : Steps (· ∈ Stmt.nestedAll ss) E' E'') : Steps (· ∈ Stmt.nestedAll (s :: ss)) E E'' :=
    (h.mono fun _ => List.mem_append_left _).trans (g.mono fun _ => List.mem_append_right _)
  induction h with
  | nil => exact .refl
  | plain _ _ _ ih => exact first .refl ih
  | declareVariable h _ ih => exact first (declareVariable_steps h) ih
  | declareStruct h _ ih => exact first (declareStruct_steps h) ih
  | declareFunction h _ _ ihbody ih =>
    exact first ((openFunction_steps h).trans (ihbody.ofParts fun _ h => h)) ih
  | ifThen _ _ _ ihc ih => exact first (ihc.ofParts fun _ h => h) ih
  | whileLoop _ _ _ ihbody ih => exact first (ihbody.ofParts fun _ h => h) ih
  | ifElse _ _ _ _ ihc iha ih | ifElseIf _ _ _ _ ihc iha ih =>
    exact first ((ihc.ofParts fun _ => List.mem_append_left _).trans
      (iha.ofParts fun _ => List.mem_append_right _)) ih
  | rangeLoop _ _ _ _ _ ihbody ih =>
    exact first ((Step.addVariable (.inl (by simp))).steps.trans (ihbody.ofParts fun _ h => h)) ih
  | @collectionLoop env _ _ _ e _ body _ _ _ _ _ ihbody ih =>
    have hloop : ∀ x ∈ body, x ∈ (Stmt.collectionLoop env.entities.nextVariable e body).parts :=
      fun _ h => h
    -- Nothing is asked of the type of this variable.
    exact first ((Step.addVariable (.inr ⟨e, body, List.mem_cons_self⟩)).steps.trans
      (ihbody.ofParts hloop)) ih
  | tryCatch _ herror _ _ ihbody ihhandler ih =>
    exact first ((ihbody.ofParts fun _ => List.mem_append_left _).trans
      ((declareError_steps herror).trans (ihhandler.ofParts fun _ => List.mem_append_right _))) ih

end Checking

/-- **The tables of a program** come about by such steps. -/
theorem Program.steps_of_analyze {tree : List Tree.Stmt} {p : Program}
    (h : analyze tree = .ok p) : Entities.Steps (· ∈ p.stmts) .initial p.entities := by
  obtain ⟨last, hleads, hlast⟩ := leads_of_analyze h
  rw [hlast]
  exact hleads.steps

end TypedImp
