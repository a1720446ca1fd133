import Mathlib
import TypedImp.Proofs.Grammar.Built
import TypedImp.Proofs.Scoping.Simplify
import TypedImp.Proofs.Typing.Soundness

/-!
# Checked programs are scoped

Checking looks names up in a stack of frames, and the rules of `Stmt.Scoped` look ids
up in one list.  `Scope.Shows V s` ties the two: whatever a name stands for in the
scope `s` is among `V`.  A new frame shows what the frames around it show, and a name
that is bound shows one id more.

`checkStmt_scoped` is one step: a statement that is checked in a scope that shows `V`
is scoped with `V`, and behind it `V` and what it declares is shown.  Behind braces
the scope is the one in front of them, so what is declared within them plays no part.
-/

namespace TypedImp

def Binding.entity? : Binding → Option EntityId
  | .var id => some (.var id)
  | .func id => some (.func id)
  | .struct id => some (.struct id)
  | .type _ => none

namespace Scope

def Shows (V : List EntityId) (s : Scope) : Prop :=
  ∀ name b i, s.find? name = some b → b.entity? = some i → i ∈ V

variable {V W : List EntityId} {s : Scope}

theorem Shows.mono (h : s.Shows V) (hVW : V ⊆ W) : s.Shows W :=
  fun name b i hb hi => hVW (h name b i hb hi)

theorem Shows.enter (h : s.Shows V) (o : Overrides) : (s.enter o).Shows V := by
  intro name b i hb hi
  rw [find?_enter] at hb
  exact h name b i hb hi

/-- A name that is bound shows what it stands for, and the other names what they did. -/
theorem Shows.bind (h : s.Shows V) (name : String) {b : Binding} {i : EntityId}
    (hb : b.entity? = some i) : (s.bind name b).Shows (i :: V) := by
  intro x c j hc hj
  rw [find?_bind] at hc
  by_cases hx : x = name
  · rw [if_pos hx] at hc
    rw [Option.some.inj hc, hj] at hb
    rw [Option.some.inj hb]
    exact List.mem_cons_self
  · rw [if_neg hx] at hc
    exact List.mem_cons_of_mem _ (h x c j hc hj)

/-- **At the start all names stand for what comes with the language.** -/
theorem shows_root : Scope.root.Shows EntityId.builtins := by
  have hbound : ∀ p ∈ Scope.root.current.bindings, ∀ i ∈ p.2.entity?, i ∈ EntityId.builtins := by
    decide
  intro name b i hb hi
  exact hbound (name, b) (mem_of_find?_root hb) i hi

end Scope

namespace Checking

variable {V : List EntityId} {env : Env}

/-! ### Expressions -/

/-- **An expression that passes checking uses only what is shown.** -/
theorem checkExpr_uses (hV : env.scope.Shows V) (tree : Tree.Expr) {e : Expr}
    (h : checkExpr env tree = .ok e) : e.uses ⊆ V := by
  replace h := passes_of_checkExpr tree h
  induction h with
  | number | string | bool | emptyArray => exact List.nil_subset V
  | var h | func h | struct h =>
    rw [Expr.uses_subset_iff]
    exact ⟨fun i hi => hV _ _ i h hi, List.forall_mem_nil _⟩
  | binary _ _ _ ihl ihr =>
    rw [Expr.uses_subset_iff]
    exact ⟨nofun, List.forall_mem_cons.mpr ⟨ihl, List.forall_mem_singleton.mpr ihr⟩⟩
  | neg _ _ ih | not _ _ ih | member _ _ _ ih =>
    rw [Expr.uses_subset_iff]
    exact ⟨nofun, List.forall_mem_singleton.mpr ih⟩
  | array hlen _ _ _ ih =>
    rw [Expr.uses_subset_iff]
    exact ⟨nofun, forall_mem_of_zip hlen ih⟩
  | call _ _ hlen _ _ ihf ihes =>
    rw [Expr.uses_subset_iff]
    exact ⟨nofun, List.forall_mem_cons.mpr ⟨ihf, forall_mem_of_zip hlen ihes⟩⟩
  | subscript _ _ _ _ iha ihi =>
    rw [Expr.uses_subset_iff]
    exact ⟨nofun, List.forall_mem_cons.mpr ⟨iha, List.forall_mem_singleton.mpr ihi⟩⟩

/-! ### Declarations -/

theorem declareVariable_scoped (hV : env.scope.Shows V) {name : Tree.Name} {readOnly : Bool}
    {type : Option Tree.TypeExpr} {written : Option Tree.Expr} {span : Span} {s : Stmt} {env' : Env}
    (h : declareVariable env name readOnly type written span = .ok (s, env')) :
    s.Scoped V ∧ env'.scope.Shows (s.declared ++ V) := by
  obtain ⟨e, ty, _, he, _, _, rfl, rfl⟩ := declareVariable_eq_ok h
  refine ⟨fun x hx => ?_, hV.bind name.text rfl⟩
  obtain ⟨tree, _, htree⟩ := (checkOption_eq_ok he).2 x hx
  exact checkExpr_uses hV tree htree

/-- The parameters are bound one after the other, so the last one is in front. -/
theorem Env.PassesParams.shows {params : List Tree.Annotated} {ids : List VariableId}
    {tys : List Ty} {env' : Env} (h : env.PassesParams params ids tys env')
    (hV : env.scope.Shows V) : env'.scope.Shows (ids.map .var ++ V) := by
  induction h generalizing V with
  | nil => exact hV
  | cons param _ _ _ _ ih =>
    refine (ih (hV.bind param.name.text rfl)).mono ?_
    rw [List.map_cons, List.cons_append]
    exact List.append_subset.mpr ⟨List.subset_cons_of_subset _ (List.subset_append_left _ _),
      List.cons_subset_cons _ (List.subset_append_right _ _)⟩

theorem openFunction_shows (hV : env.scope.Shows V) {name : Tree.Name}
    {params : List Tree.Annotated} {result : Option Tree.TypeExpr} {f : OpenFunction}
    (h : openFunction env name params result = .ok f) :
    f.inner.scope.Shows (f.params.map .var ++ .func f.id :: V) ∧
      f.outer.Shows (.func f.id :: V) := by
  obtain ⟨ty, ids, tys, inner, _, _, hparams, rfl⟩ := openFunction_eq_ok h
  have hbound : (env.addFunction name.text).2.scope.Shows (.func env.entities.nextFunction :: V) :=
    hV.bind name.text rfl
  exact ⟨hparams.shows (hbound.enter _), hbound⟩

theorem declareStruct_scoped (hV : env.scope.Shows V) {name : Tree.Name}
    {fields : List Tree.Annotated} {isClass : Bool} {span : Span} {s : Stmt} {env' : Env}
    (h : declareStruct env name fields isClass span = .ok (s, env')) :
    s.Scoped V ∧ env'.scope.Shows (s.declared ++ V) := by
  obtain ⟨rows, _, _, _, _, rfl, rfl⟩ := declareStruct_eq_ok h
  have hbound := hV.bind name.text (b := .struct env.entities.nextStruct) rfl
  cases isClass with
  | false => exact ⟨trivial, hbound⟩
  | true => exact ⟨trivial, hbound⟩

theorem declareError_shows (hV : env.scope.Shows V) (name : Option Tree.Name)
    {error : Option VariableId} {env' : Env} (h : declareError env name = (error, env')) :
    env'.scope.Shows (error.toList.map .var ++ V) := by
  cases name with
  | none => cases h; exact hV
  | some name => cases h; exact hV.bind name.text rfl

/-! ### Statements -/

/-- A conditional is checked to a conditional. -/
theorem isConditional_of_checkStmt {env env' : Env} {tree : Tree.Stmt}
    (ht : tree.isConditional = true) {s : Stmt} (h : checkStmt env tree = .ok (s, env')) :
    s.isConditional = true := by
  cases passesStmt_of_checkStmt h with
  | ifThen | ifElse | ifElseIf => rfl
  | _ => cases ht

variable {Q : Token.Kind → Prop}

mutual

/-- **A statement that passes checking is scoped**, and behind it what it declares is
shown. -/
theorem checkStmt_scoped {V : List EntityId} {env env' : Env} (hV : env.scope.Shows V)
    (tree : Tree.Stmt) (ht : tree.Built Q) {s : Stmt} (h : checkStmt env tree = .ok (s, env')) :
    s.Scoped V ∧ env'.scope.Shows (s.declared ++ V) := by
  have hblock : ∀ (inner : Env) (o : Overrides), (inner.around (env.scope.enter o)).scope.Shows V :=
    fun _ o => hV.enter o
  cases passesStmt_of_checkStmt h with
  | declareVariable h => exact declareVariable_scoped hV h
  | declareStruct h => exact declareStruct_scoped hV h
  | declareFunction hf hbody =>
    obtain ⟨hin, hout⟩ := openFunction_shows hV hf
    exact ⟨checkStmts_scoped hin _ ht.2.2.2 hbody, hout⟩
  | ifThen htest _ hc =>
    exact ⟨⟨checkExpr_uses hV _ htest, checkStmts_scoped (hblock env {}) _ ht.2 hc⟩, hV⟩
  | ifElse htest _ hc ha =>
    have hcs := checkStmts_scoped (hblock env {}) _ ht.2.1 hc
    have has := checkStmts_scoped (hblock _ {}) _ ht.2.2 ha
    exact ⟨⟨checkExpr_uses hV _ htest, hcs, has⟩, hV⟩
  | ifElseIf htest _ hc ha =>
    have hcs := checkStmts_scoped (hblock env {}) _ ht.2.1 hc
    have hmid : ∀ inner : Env, (inner.around env.scope).scope.Shows V := fun _ => hV
    obtain ⟨has, hlast⟩ := checkStmt_scoped (hmid _) _ ht.2.2.2 ha
    -- The scope behind the alternate is that in front of it, since a conditional declares nothing.
    rw [Stmt.declared_of_isConditional (isConditional_of_checkStmt ht.2.2.1 ha)] at hlast
    exact ⟨⟨checkExpr_uses hV _ htest, hcs, has⟩, hlast⟩
  | whileLoop htest _ hbody =>
    have hbs := checkStmts_scoped (hblock env { inLoop := some true }) _ ht.2 hbody
    exact ⟨⟨checkExpr_uses hV _ htest, hbs⟩, hV⟩
  | rangeLoop iterator hl _ hu _ hbody =>
    have hbs := checkStmts_scoped ((hV.enter _).bind iterator.text rfl) _ ht.2.2.2 hbody
    exact ⟨⟨checkExpr_uses hV _ hl, checkExpr_uses hV _ hu, hbs⟩, hV⟩
  | collectionLoop iterator he _ hbody =>
    have hbs := checkStmts_scoped ((hV.enter _).bind iterator.text rfl) _ ht.2.2 hbody
    exact ⟨⟨checkExpr_uses hV _ he, hbs⟩, hV⟩
  | retValue _ _ he =>
    refine ⟨fun x hx => ?_, hV⟩
    rw [← Option.some.inj hx]
    exact checkExpr_uses hV _ he
  | retNothing => exact ⟨nofun, hV⟩
  | breakLoop | continueLoop => exact ⟨trivial, hV⟩
  | tryCatch name hbody hhandler =>
    have hbs := checkStmts_scoped (hblock env {}) _ ht.1 hbody
    have hhs := checkStmts_scoped (declareError_shows (hblock _ {}) name rfl) _ ht.2.2 hhandler
    exact ⟨⟨hbs, hhs⟩, hV⟩
  | print he | call he => exact ⟨checkExpr_uses hV _ he, hV⟩
  | increment htarget | decrement htarget =>
    exact ⟨checkExpr_uses hV _ (checkTarget_eq_ok htarget).1, hV⟩
  | assign htarget he =>
    exact ⟨⟨checkExpr_uses hV _ (checkTarget_eq_ok htarget).1, checkExpr_uses hV _ he⟩, hV⟩
termination_by structural tree

theorem checkStmts_scoped {V : List EntityId} {env env' : Env} (hV : env.scope.Shows V)
    (trees : List Tree.Stmt) (ht : Tree.Stmt.BuiltAll Q trees) {ss : List Stmt}
    (h : checkStmts env trees = .ok (ss, env')) : Stmt.ScopedAll V ss := by
  cases trees with
  | nil => cases h; trivial
  | cons tree trees =>
    obtain ⟨s, mid, others, hs, hothers, rfl⟩ := checkStmts_cons_eq_ok h
    obtain ⟨hsc, hmid⟩ := checkStmt_scoped hV tree ht.1 hs
    exact ⟨hsc, checkStmts_scoped hmid trees ht.2 hothers⟩
termination_by structural trees

end

end Checking

theorem exists_of_compile {source : String} {simplify : Bool} {p : Program}
    (h : compile source simplify = .ok p) : ∃ tree q, parse source = .ok tree ∧
      analyze tree = .ok q ∧ p = if simplify then q.simplify.value else q := by
  rw [compile] at h
  cases htree : parse source with
  | error d => rw [htree] at h; cases h
  | ok tree =>
    rw [htree] at h
    cases hq : analyze tree with
    | error d => simp [hq, bind, Except.bind] at h
    | ok q =>
      simp only [hq, bind, Except.bind, pure, Except.pure, Except.ok.injEq] at h
      exact ⟨tree, q, rfl, hq, h.symm⟩

theorem compile_eq_ok {source : String} {p : Program} (h : compile source false = .ok p) :
    ∃ tree, parse source = .ok tree ∧ analyze tree = .ok p := by
  obtain ⟨tree, q, hparse, hanalyze, rfl⟩ := exists_of_compile h
  exact ⟨tree, hparse, hanalyze⟩

/-- Checking leads from what the grammar builds to a scoped program. -/
theorem Program.scoped_of_analyze {Q : Token.Kind → Prop} {tree : List Tree.Stmt} {p : Program}
    (ht : ∀ s ∈ tree, s.Built Q) (h : analyze tree = .ok p) : p.Scoped := by
  obtain ⟨last, hss, _⟩ := analyze_eq_ok h
  have hroot : (Checking.Env.mk .root .initial).scope.Shows EntityId.builtins := Scope.shows_root
  exact Checking.checkStmts_scoped hroot tree (Tree.Stmt.builtAll_iff.mpr ht) hss

theorem Program.Scoped.simplify {p : Program} (h : p.Scoped) : p.simplify.value.Scoped :=
  Stmt.ScopedAll.simplify p.statements h

theorem Program.bound_simplify (p : Program) : p.simplify.value.bound.Sublist p.bound :=
  Stmt.boundAll_simplifyAll p.statements

/-- **Every use is in scope, before and after simplifying.**  In every program that is
read from a source, and in every checked program whose parse tree has the forms that the
grammar builds, each variable, function and struct that an expression names is visible
there.  Simplifying keeps this of any program, and binds no id twice that was bound
once. -/
theorem Program.uses_in_scope :
    (∀ (source : String) (p : Program), compile source false = .ok p → p.Scoped) ∧
    (∀ (tree : List Tree.Stmt) (p : Program), (∀ s ∈ tree, s.Built fun _ => True) →
      analyze tree = .ok p → p.Scoped) ∧
    (∀ p : Program, p.Scoped → p.simplify.value.Scoped) ∧
    ∀ p : Program, p.bound.Nodup → p.simplify.value.bound.Nodup := by
  refine ⟨fun source p h => ?_, fun tree p => scoped_of_analyze, fun p => Scoped.simplify,
    fun p h => h.sublist p.bound_simplify⟩
  obtain ⟨tree, htree, hp⟩ := compile_eq_ok h
  exact scoped_of_analyze (parse_built htree) hp

/-- What is declared between the braces comes to stand outside them when this is
simplified. -/
def hoistedSource : String :=
  "if true \x7b let y = π; print y; \x7d"

def hoistedProgram : Program :=
  { statements :=
      [.ifThen (.bool true .bool)
        [.declareVariable ⟨1⟩ (some (.var ⟨0⟩ .number)), .print (.var ⟨1⟩ .number)]]
    entities := Entities.initial.addVariable ⟨"y", false, .number⟩ }

theorem Program.uses_in_scope_hoisted :
    compile hoistedSource false = .ok hoistedProgram ∧ hoistedProgram.Scoped ∧
      hoistedProgram.simplify.value.Scoped ∧ hoistedProgram.simplify.value.bound.Nodup ∧
      analyze sampleTree = .ok sampleProgram ∧ sampleProgram.Scoped := by
  have hcompile : compile hoistedSource false = .ok hoistedProgram := by cbv
  have hhoisted := uses_in_scope.1 hoistedSource hoistedProgram hcompile
  have hbuilt : ∀ s ∈ sampleTree, s.Built fun _ => True := by
    simp [sampleTree, Tree.Stmt.Built, Tree.Stmt.BuiltAll, Tree.Stmt.isConditional,
      Tree.Expr.Built, Tree.Expr.BuiltAll, Tree.TypeExpr.Built, Tree.Annotated.Built]
  have hsample : analyze sampleTree = .ok sampleProgram := rfl
  exact ⟨hcompile, hhoisted, uses_in_scope.2.2.1 hoistedProgram hhoisted,
    uses_in_scope.2.2.2 hoistedProgram (by decide), hsample,
    uses_in_scope.2.1 sampleTree sampleProgram hbuilt hsample⟩

end TypedImp
