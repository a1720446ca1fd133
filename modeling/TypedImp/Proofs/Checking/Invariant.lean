import TypedImp.Proofs.Tables.Steps

/-!
# Invariants of environments

What every change of an environment keeps is an invariant of checking, `Env.Invariant`.  The
changes are those that declarations consist of, and a new frame and the way back to the one in
front of it; only a struct is taken as a whole, for the sake of the rules on its fields.

**`Env.Invariant.keeps`**: an invariant that holds in front of statements holds behind them, and
wherever an expression within them is checked.

All that is said of the type of a new variable is that an expression has it (`Env.Offers`).
This is true of a type that is written just as of one that is inferred: what is written is the
type of an element of an empty array (`Env.offers_of_resolveType`).
-/

namespace TypedImp

namespace Checking

open Entities

namespace Env

/-! ### Types that expressions have -/

def Offers (env : Env) (ty : Ty) : Prop := ∃ e, env.Accepts e ∧ e.ty = ty

variable {env : Env}

theorem offers_number (env : Env) : env.Offers .number :=
  ⟨.number 0 .number, ⟨.number 0 ⟨.start, 0⟩, rfl⟩, rfl⟩

theorem offers_string (env : Env) : env.Offers .string :=
  ⟨.string "" .string, ⟨.string "" ⟨.start, 0⟩, rfl⟩, rfl⟩

/-- The type of the elements of an array is that of its first one. -/
theorem Accepts.offers_element {e : Expr} (he : env.Accepts e) {element : Ty}
    (hty : e.ty = .array element) : env.Offers element := by
  obtain ⟨tree, he⟩ := he
  have helement (span : Span) : elementOf e span = .ok element := by
    rw [elementOf, hty]
    rfl
  refine ⟨.subscript e (.number 0 .number) element,
    ⟨.subscript tree (.number 0 ⟨.start, 0⟩) ⟨.start, 0⟩, ?_⟩, rfl⟩
  rw [checkExpr, he]
  show (elementOf e _ >>= _) = _
  rw [helement]
  rfl

theorem offers_of_resolveType {type : Tree.TypeExpr} {ty : Ty}
    (h : resolveType env.scope type = .ok ty) : env.Offers ty := by
  have hempty : env.Accepts (.array [] (.array ty)) := by
    refine ⟨.emptyArray type ⟨.start, 0⟩, ?_⟩
    rw [checkExpr, h]
    rfl
  exact hempty.offers_element rfl

/-! ### Invariants -/

def Offered (P : Env → Prop) (ty : Ty) : Prop := ∃ site : Env, P site ∧ site.Offers ty

/-- **What every change of an environment keeps.** -/
structure Invariant (P : Env → Prop) : Prop where
  enter : ∀ {env : Env} (o : Overrides), P env → P (env.within (env.scope.enter o))
  around : ∀ {env last : Env}, P env → P last →
    Steps (fun _ => True) env.entities last.entities → P (last.around env.scope)
  addVariable : ∀ {env : Env} {ty : Ty} (name : String) (readOnly : Bool), P env → Offered P ty →
    P (env.addVariable name readOnly ty).2
  addFunction : ∀ {env : Env} (name : String), P env → P (env.addFunction name).2
  setSignature : ∀ {env : Env} {signature : Signature} (id : FunctionId), P env →
    (∀ ty ∈ signature.params, Offered P ty) →
    (signature.result = .void ∨ Offered P signature.result) →
    P ⟨env.scope, env.entities.setSignature id signature⟩
  declareStruct : ∀ {env env' : Env} {name : Tree.Name} {fields : List Tree.Annotated}
    {isClass : Bool} {span : Span} {s : Stmt}, P env →
    declareStruct env name fields isClass span = .ok (s, env') → P env'

/-- All expressions within statements pass checking, each at a place with the property. -/
def Sited (P : Env → Prop) (ss : List Stmt) : Prop :=
  ∀ s ∈ Stmt.nestedAll ss, ∀ e ∈ s.exprs, ∃ site, P site ∧ site.Accepts e

variable {P : Env → Prop}

theorem Sited.nil : Sited P [] := List.forall_mem_nil _

theorem Sited.append {ss ts : List Stmt} (hs : Sited P ss) (ht : Sited P ts) :
    Sited P (ss ++ ts) := by
  intro s hmem
  rw [Stmt.nestedAll_eq_flatMap, List.flatMap_append, ← Stmt.nestedAll_eq_flatMap,
    ← Stmt.nestedAll_eq_flatMap] at hmem
  rcases List.mem_append.mp hmem with hmem | hmem
  · exact hs s hmem
  · exact ht s hmem

/-- The expressions of a statement, those of its parts, and those of the statements behind it. -/
theorem Sited.cons {s : Stmt} {ss : List Stmt} (henv : P env) (he : ∀ e ∈ s.exprs, env.Accepts e)
    (hparts : Sited P s.parts) (hss : Sited P ss) : Sited P (s :: ss) := by
  intro x hx e hmem
  rcases List.mem_append.mp hx with hx | hx
  · rcases Stmt.mem_nested_iff.mp hx with rfl | ⟨part, hp, hx⟩
    · exact ⟨env, henv, he e hmem⟩
    · exact hparts x (Stmt.mem_nestedAll.mpr ⟨part, hp, hx⟩) e hmem
  · exact hss x hx e hmem

end Env

/-! ### Declarations -/

section Declarations

open Env

variable {env env' : Env} {P : Env → Prop}

theorem declareVariable_offers {name : Tree.Name} {readOnly : Bool} {type : Option Tree.TypeExpr}
    {written : Option Tree.Expr} {span : Span} {s : Stmt}
    (h : declareVariable env name readOnly type written span = .ok (s, env')) :
    (∃ ty, env.Offers ty ∧ env' = (env.addVariable name.text readOnly ty).2) ∧
      s.parts = [] ∧ ∀ e ∈ s.exprs, env.Accepts e := by
  obtain ⟨e, ty, _, he, hty, _, rfl, rfl⟩ := declareVariable_eq_ok h
  obtain ⟨hsome, haccepts⟩ := checkOption_eq_ok he
  replace haccepts : ∀ x ∈ e, env.Accepts x := fun x hx => by
    obtain ⟨tree, _, htree⟩ := haccepts x hx
    exact ⟨tree, htree⟩
  refine ⟨⟨ty, ?_, rfl⟩, rfl, fun x hx => haccepts x (Option.mem_toList.mp hx)⟩
  rcases variableTy_eq_ok hsome hty with ⟨type, _, ht, _⟩ | ⟨x, hx, rfl⟩
  · exact offers_of_resolveType ht
  · exact ⟨x, haccepts x hx, rfl⟩

theorem declareStruct_leaf {name : Tree.Name} {fields : List Tree.Annotated} {isClass : Bool}
    {span : Span} {s : Stmt} (h : declareStruct env name fields isClass span = .ok (s, env')) :
    s.parts = [] ∧ s.exprs = [] := by
  obtain ⟨rows, _, _, _, _, rfl, _⟩ := declareStruct_eq_ok h
  cases isClass <;> exact ⟨rfl, rfl⟩

namespace Env.Invariant

variable (hP : Invariant P)

include hP

theorem passesParams {params : List Tree.Annotated} {ids : List VariableId} {tys : List Ty}
    (h : env.PassesParams params ids tys env') (henv : P env) :
    P env' ∧ ∀ ty ∈ tys, Offered P ty := by
  induction h with
  | nil => exact ⟨henv, List.forall_mem_nil _⟩
  | @cons env _ param _ ty _ _ _ hty _ _ ih =>
    have hoffered : Offered P ty := ⟨env, henv, offers_of_resolveType hty⟩
    obtain ⟨hlast, htys⟩ := ih (hP.addVariable param.name.text false henv hoffered)
    exact ⟨hlast, List.forall_mem_cons.mpr ⟨hoffered, htys⟩⟩

/-- The scope behind a function is the one in which its parameters were looked at. -/
theorem openFunction (henv : P env) {name : Tree.Name} {params : List Tree.Annotated}
    {result : Option Tree.TypeExpr} {f : OpenFunction}
    (h : openFunction env name params result = .ok f) :
    P f.inner ∧ ∃ start : Env, P start ∧ start.scope = f.outer ∧
      Steps (fun _ => True) start.entities f.inner.entities := by
  obtain ⟨ty, ids, tys, inner, _, hty, hparams, rfl⟩ := openFunction_eq_ok h
  have hstart := hP.addFunction name.text henv
  obtain ⟨hinner, htys⟩ := hP.passesParams hparams (hP.enter _ hstart)
  have hresult : ty = .void ∨ Offered P ty := by
    cases result with
    | none =>
      cases hty
      exact .inl rfl
    | some type => exact .inr ⟨_, hstart, offers_of_resolveType hty⟩
  exact ⟨hP.setSignature _ hinner htys hresult, _, hstart, rfl,
    hparams.steps.trans (Step.setSignature _ _).steps⟩

theorem declareError (henv : P env) {name : Option Tree.Name} {error : Option VariableId}
    (h : declareError env name = (error, env')) : P env' := by
  cases name with
  | none =>
    cases h
    exact henv
  | some name =>
    cases h
    exact hP.addVariable name.text true henv ⟨env, henv, env.offers_string⟩

end Env.Invariant

end Declarations

/-! ### Statements -/

/-- **An invariant holds behind statements, and wherever an expression within them is checked**,
if it holds in front of them. -/
theorem Env.Invariant.keeps {P : Env → Prop} (hP : Invariant P) {env last : Env} {ss : List Stmt}
    (h : env.Leads ss last) (henv : P env) : P last ∧ Sited P ss := by
  induction h with
  | nil => exact ⟨henv, .nil⟩
  | @plain _ _ s _ hs he _ ih =>
    have hparts : s.parts = [] := by
      cases s with
      | ret | breakLoop | continueLoop | print | increment | decrement | assign | call => rfl
      | _ => cases hs
    obtain ⟨hlast, hrest⟩ := ih henv
    exact ⟨hlast, .cons henv he (hparts ▸ .nil) hrest⟩
  | declareVariable h _ ih =>
    obtain ⟨⟨ty, hty, rfl⟩, hparts, he⟩ := declareVariable_offers h
    obtain ⟨hlast, hrest⟩ := ih (hP.addVariable _ _ henv ⟨_, henv, hty⟩)
    exact ⟨hlast, .cons henv he (hparts ▸ .nil) hrest⟩
  | declareStruct h _ ih =>
    obtain ⟨hparts, hexprs⟩ := declareStruct_leaf h
    obtain ⟨hlast, hrest⟩ := ih (hP.declareStruct henv h)
    exact ⟨hlast, .cons henv (hexprs ▸ List.forall_mem_nil _) (hparts ▸ .nil) hrest⟩
  | declareFunction h hbody _ ihbody ih =>
    obtain ⟨hopen, start, hstart, hscope, hsteps⟩ := hP.openFunction henv h
    obtain ⟨hinner, hsited⟩ := ihbody hopen
    have hbehind := hP.around hstart hinner (hsteps.trans hbody.steps.forget)
    rw [hscope] at hbehind
    obtain ⟨hlast, hrest⟩ := ih hbehind
    exact ⟨hlast, .cons henv (List.forall_mem_nil _) hsited hrest⟩
  | ifThen ht hc _ ihc ih | whileLoop ht hc _ ihc ih =>
    obtain ⟨hinner, hsited⟩ := ihc (hP.enter _ henv)
    obtain ⟨hlast, hrest⟩ := ih (hP.around henv hinner hc.steps.forget)
    exact ⟨hlast, .cons henv (List.forall_mem_singleton.mpr ht) hsited hrest⟩
  | ifElse ht hc ha _ ihc iha ih =>
    obtain ⟨hmid, hcs⟩ := ihc (hP.enter _ henv)
    obtain ⟨hinner, has⟩ := iha (hP.enter _ (hP.around henv hmid hc.steps.forget))
    have hsteps := hc.steps.forget.trans ha.steps.forget
    obtain ⟨hlast, hrest⟩ := ih (hP.around henv hinner hsteps)
    exact ⟨hlast, .cons henv (List.forall_mem_singleton.mpr ht) (hcs.append has) hrest⟩
  | ifElseIf ht hc _ _ ihc iha ih =>
    obtain ⟨hmid, hcs⟩ := ihc (hP.enter _ henv)
    obtain ⟨hnext, has⟩ := iha (hP.around henv hmid hc.steps.forget)
    obtain ⟨hlast, hrest⟩ := ih hnext
    exact ⟨hlast, .cons henv (List.forall_mem_singleton.mpr ht) (hcs.append has) hrest⟩
  | @rangeLoop env _ _ name _ _ _ _ _ hl hh hbody _ ihbody ih =>
    have hoffered : Offered P .number := ⟨env, henv, env.offers_number⟩
    obtain ⟨hinner, hsited⟩ := ihbody (hP.addVariable name true (hP.enter _ henv) hoffered)
    have hsteps := (env.entities.steps_addVariable _).trans hbody.steps.forget
    obtain ⟨hlast, hrest⟩ := ih (hP.around henv hinner hsteps)
    have hbounds := List.forall_mem_cons.mpr ⟨hl, List.forall_mem_singleton.mpr hh⟩
    exact ⟨hlast, .cons henv hbounds hsited hrest⟩
  | @collectionLoop env _ _ name _ element _ _ he hty hbody _ ihbody ih =>
    have hoffered : Offered P element := ⟨env, henv, he.offers_element hty⟩
    obtain ⟨hinner, hsited⟩ := ihbody (hP.addVariable name true (hP.enter _ henv) hoffered)
    have hsteps := (env.entities.steps_addVariable _).trans hbody.steps.forget
    obtain ⟨hlast, hrest⟩ := ih (hP.around henv hinner hsteps)
    exact ⟨hlast, .cons henv (List.forall_mem_singleton.mpr he) hsited hrest⟩
  | tryCatch hbody herror hhandler _ ihbody ihhandler ih =>
    obtain ⟨hmid, hbs⟩ := ihbody (hP.enter _ henv)
    have hstart := hP.declareError (hP.enter _ (hP.around henv hmid hbody.steps.forget)) herror
    obtain ⟨hinner, hhs⟩ := ihhandler hstart
    have hcaught := (declareError_steps herror).trans hhandler.steps.forget
    obtain ⟨hlast, hrest⟩ := ih (hP.around henv hinner (hbody.steps.forget.trans hcaught))
    exact ⟨hlast, .cons henv (List.forall_mem_nil _) (hbs.append hhs) hrest⟩

end Checking

/-- An invariant that holds at the start holds of the tables of every program, and wherever an
expression of it is checked. -/
theorem Checking.Env.Invariant.of_analyze {P : Checking.Env → Prop} (hP : Invariant P)
    (hroot : P ⟨.root, .initial⟩) {tree : List Tree.Stmt} {p : Program}
    (h : analyze tree = .ok p) : (∃ scope, P ⟨scope, p.entities⟩) ∧ Sited P p.statements := by
  obtain ⟨last, hleads, hlast⟩ := leads_of_analyze h
  obtain ⟨hend, hsited⟩ := hP.keeps hleads hroot
  rw [hlast]
  exact ⟨⟨last.scope, hend⟩, hsited⟩

end TypedImp
