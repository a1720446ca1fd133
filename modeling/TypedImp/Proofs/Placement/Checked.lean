import TypedImp.Proofs.Placement.Rules
import TypedImp.Proofs.Scoping.Checked

/-!
# Statements are where they may be

`compile_placed`: in every program that is made of a source, simplified or not, each jump is in
a loop of its own function, each `return` in the body of a function, no struct or class in one,
and no constant is written to.

Checking asks for it where a statement stands.  It knows what is around by the innermost frame
of its scope, so `checkStmt_placed` goes along with the frames: a statement leaves the context of
its scope as it was (`checkStmt_context`), and a block, a loop and a function enter the one that
`Stmt.inner` says.
-/

namespace TypedImp

namespace Checking

/-- What the innermost frame says of the statements around. -/
def Env.context (env : Env) : Context := ⟨env.scope.inLoop, env.scope.function.isSome⟩

/-! ### Targets -/

theorem writable_of_checkTarget {env : Env} (henv : env.Sound) {tree : Tree.Expr} {e : Expr}
    (h : checkTarget env tree = .ok e) : e.Writable env.entities := by
  obtain ⟨he, hplace, hvar⟩ := checkTarget_eq_ok h
  have htyped := (checkExpr_typed henv tree he).1
  refine ⟨hplace, fun id hid => ?_⟩
  cases htyped with
  | var hv =>
    cases hid
    obtain ⟨row, hrow, _⟩ := hv
    have hro := hvar _ _ rfl
    rw [Entities.variableAt, hrow, Option.getD_some] at hro
    exact ⟨row, hrow, hro⟩
  | _ => cases hid

/-! ### The scope behind a statement -/

theorem Env.PassesParams.context {env env' : Env} {params : List Tree.Annotated}
    {ids : List VariableId} {tys : List Ty} (h : env.PassesParams params ids tys env') :
    env'.context = env.context := by
  induction h with
  | nil => rfl
  | cons _ _ _ _ _ ih => exact ih.trans rfl

/-- The body of a function is checked in a context of its own. -/
theorem openFunction_context {env : Env} {name : Tree.Name} {params : List Tree.Annotated}
    {result : Option Tree.TypeExpr} {f : OpenFunction}
    (h : openFunction env name params result = .ok f) (E : Entities) :
    f.inner.context = ⟨false, true⟩ ∧ Env.context ⟨f.outer, E⟩ = env.context := by
  obtain ⟨ty, ids, tys, inner, _, _, hparams, rfl⟩ := openFunction_eq_ok h
  exact ⟨hparams.context, rfl⟩

/-- **A statement leaves the context as it was**, whatever it declares. -/
theorem checkStmt_context {env env' : Env} (tree : Tree.Stmt) {s : Stmt}
    (h : checkStmt env tree = .ok (s, env')) : env'.context = env.context := by
  cases passesStmt_of_checkStmt h with
  | declareVariable h =>
    obtain ⟨e, ty, _, _, _, _, _, rfl⟩ := declareVariable_eq_ok h
    rfl
  | declareStruct h =>
    obtain ⟨fields, _, _, _, _, _, rfl⟩ := declareStruct_eq_ok h
    rfl
  | declareFunction hf => exact (openFunction_context hf _).2
  | ifElseIf _ _ _ ha => exact (checkStmt_context _ ha).trans rfl
  | _ => rfl
termination_by tree

/-! ### Statements -/

theorem declareStruct_placed {env env' : Env} {name : Tree.Name} {fields : List Tree.Annotated}
    {isClass : Bool} {span : Span} {s : Stmt}
    (h : declareStruct env name fields isClass span = .ok (s, env')) :
    s.Placed env'.entities env.context := by
  obtain ⟨rows, hfn, _, _, _, rfl, rfl⟩ := declareStruct_eq_ok h
  have hout : env.context.inFunction = false := by simp [Env.context, hfn]
  cases isClass with
  | false => exact .leaf (Stmt.allowed_of_struct hout rfl rfl rfl) rfl
  | true => exact .leaf (Stmt.allowed_of_struct hout rfl rfl rfl) rfl

theorem Env.inFunction_context {env : Env} {id : FunctionId} (h : env.scope.function = some id) :
    env.context.inFunction = true := by simp [context, h]

mutual

/-- **A statement that passes checking is where it may be**, and so is all that is within it. -/
theorem checkStmt_placed {env env' : Env} (henv : env.Sound) (tree : Tree.Stmt) {s : Stmt}
    (h : checkStmt env tree = .ok (s, env')) : s.Placed env'.entities env.context := by
  cases passesStmt_of_checkStmt h with
  | declareVariable h =>
    obtain ⟨e, ty, _, _, _, _, rfl, rfl⟩ := declareVariable_eq_ok h
    exact .leaf (Stmt.allowed_of_free rfl rfl rfl rfl) rfl
  | declareStruct h => exact declareStruct_placed h
  | @declareFunction _ _ _ _ _ _ _ _ last hf hbody =>
    have hparts := checkStmts_placed (openFunction_typed henv hf).1 _ hbody
    rw [(openFunction_context hf last.entities).1] at hparts
    exact .node (Stmt.allowed_of_free rfl rfl rfl rfl) hparts
  | ifThen _ _ hc =>
    have hparts := checkStmts_placed (henv.within henv.scope.enterBlock) _ hc
    exact .node (Stmt.allowed_of_free rfl rfl rfl rfl) hparts
  | ifElse _ _ hc ha =>
    have henter := henv.within henv.scope.enterBlock
    have hr := (checkStmts_typed henter _ hc).1
    have hmid := henv.around hr.sound hr.kept
    have hmidenter := hmid.within hmid.scope.enterBlock
    have hk := (checkStmts_typed hmidenter _ ha).1.kept
    refine .node (Stmt.allowed_of_free rfl rfl rfl rfl) fun part hp => ?_
    rcases List.mem_append.mp hp with hp | hp
    · exact (checkStmts_placed henter _ hc part hp).mono hk
    · exact checkStmts_placed hmidenter _ ha part hp
  | ifElseIf _ _ hc ha =>
    have henter := henv.within henv.scope.enterBlock
    have hr := (checkStmts_typed henter _ hc).1
    have hmid := henv.around hr.sound hr.kept
    have hk := (checkStmt_typed hmid _ ha).1.kept
    refine .node (Stmt.allowed_of_free rfl rfl rfl rfl) fun part hp => ?_
    rcases List.mem_append.mp hp with hp | hp
    · exact (checkStmts_placed henter _ hc part hp).mono hk
    · rw [List.mem_singleton.mp hp]
      exact checkStmt_placed hmid _ ha
  | whileLoop _ _ hbody =>
    have hparts := checkStmts_placed (henv.within henv.scope.enterLoop) _ hbody
    exact .node (Stmt.allowed_of_free rfl rfl rfl rfl) hparts
  | rangeLoop iterator _ _ _ _ hbody =>
    have hadd := (henv.within henv.scope.enterLoop).addVariable iterator.text true .number rfl
    have hparts := checkStmts_placed hadd.1.sound _ hbody
    exact .node (Stmt.allowed_of_free rfl rfl rfl rfl) hparts
  | collectionLoop iterator he hty hbody =>
    have hec := (checkExpr_typed henv _ he).2
    rw [hty, Ty.isConcrete_array] at hec
    have hadd := (henv.within henv.scope.enterLoop).addVariable iterator.text true _ hec
    have hparts := checkStmts_placed hadd.1.sound _ hbody
    exact .node (Stmt.allowed_of_free rfl rfl rfl rfl) hparts
  | retValue hfn | retNothing hfn =>
    exact .leaf (Stmt.allowed_of_return (Env.inFunction_context hfn) rfl rfl rfl) rfl
  | breakLoop hloop | continueLoop hloop =>
    exact .leaf (Stmt.allowed_of_jump hloop rfl rfl rfl) rfl
  | tryCatch name hbody hhandler =>
    have henter := henv.within henv.scope.enterBlock
    have hr := (checkStmts_typed henter _ hbody).1
    have hmid := henv.around hr.sound hr.kept
    have herror := (declareError_typed (hmid.within hmid.scope.enterBlock) name rfl).1
    have hk := herror.kept.trans (checkStmts_typed herror.sound _ hhandler).1.kept
    refine .node (Stmt.allowed_of_free rfl rfl rfl rfl) fun part hp => ?_
    rcases List.mem_append.mp hp with hp | hp
    · exact (checkStmts_placed henter _ hbody part hp).mono hk
    · have hpart := checkStmts_placed herror.sound _ hhandler part hp
      cases name with
      | none => exact hpart
      | some name => exact hpart
  | print | call => exact .leaf (Stmt.allowed_of_free rfl rfl rfl rfl) rfl
  | increment htarget | decrement htarget | assign htarget =>
    exact .leaf (Stmt.allowed_of_target rfl rfl rfl rfl (writable_of_checkTarget henv htarget)) rfl
termination_by structural tree

theorem checkStmts_placed {env env' : Env} (henv : env.Sound) (trees : List Tree.Stmt)
    {ss : List Stmt} (h : checkStmts env trees = .ok (ss, env')) :
    ∀ s ∈ ss, s.Placed env'.entities env.context := by
  cases trees with
  | nil =>
    cases h
    exact List.forall_mem_nil _
  | cons tree trees =>
    obtain ⟨s, mid, others, hs, hothers, rfl⟩ := checkStmts_cons_eq_ok h
    have hmid := (checkStmt_typed henv tree hs).1
    have hk := (checkStmts_typed hmid.sound trees hothers).1.kept
    have hplaced := checkStmts_placed hmid.sound trees hothers
    rw [checkStmt_context tree hs] at hplaced
    exact List.forall_mem_cons.mpr ⟨(checkStmt_placed henv tree hs).mono hk, hplaced⟩
termination_by structural trees

end

end Checking

namespace Program

theorem placed_of_analyze {tree : List Tree.Stmt} {p : Program} (h : analyze tree = .ok p) :
    p.Placed := by
  obtain ⟨last, hss, he⟩ := analyze_eq_ok h
  rw [Placed, he]
  exact Checking.checkStmts_placed Checking.Env.sound_root tree hss

/-- The statements of a program are where they may be, as their surroundings show.  What is
around a statement is listed from the inside to the outside. -/
structure WellPlaced (p : Program) : Prop where
  jump : ∀ {around : List Stmt} {s : Stmt}, p.Occurs around s → s.isJump = true →
    ∃ front loop back, around = front ++ loop :: back ∧ loop.isLoop = true ∧
      ∀ x ∈ front, x.isFunction = false
  ret : ∀ {around : List Stmt} {s : Stmt}, p.Occurs around s → s.isReturn = true →
    ∃ x ∈ around, x.isFunction = true
  struct : ∀ {around : List Stmt} {s : Stmt}, p.Occurs around s → s.isStruct = true →
    ∀ x ∈ around, x.isFunction = false
  write : ∀ {around : List Stmt} {s : Stmt}, p.Occurs around s → ∀ t id, s.target? = some t →
    t.var? = some id → ∃ row, p.entities.vars[id.index]? = some row ∧ row.readOnly = false

theorem Placed.wellPlaced {p : Program} (hp : p.Placed) : p.WellPlaced where
  jump h hs := Context.exists_loop_of_inLoop ((hp.of_occurs h).here.jump hs)
  ret h hs := Context.exists_function_of_inFunction ((hp.of_occurs h).here.ret hs)
  struct h hs := Context.not_function_of_inFunction ((hp.of_occurs h).here.struct hs)
  write h t id ht hid := ((hp.of_occurs h).here.write t ht).row id hid

end Program

/-- **Jumps, writes and structs are where they may be**, in every program that is made of a
source, whether it is simplified or not. -/
theorem compile_wellPlaced {source : String} {simplify : Bool} {p : Program}
    (h : compile source simplify = .ok p) : p.WellPlaced := by
  obtain ⟨tree, q, _, hanalyze, rfl⟩ := exists_of_compile h
  have hq := Program.placed_of_analyze hanalyze
  cases simplify with
  | true => exact hq.simplify.wellPlaced
  | false => exact hq.wellPlaced

/-- A function with a loop, in which there is a conditional that simplifying lays open, and a
class outside of it. -/
def placedSource : String :=
  "let x = true; class C \x7b \x7d fn f(): boolean \x7b while x \x7b x = !x; " ++
    "if true \x7b break; \x7d \x7d return x; \x7d"

def placedProgram : Program :=
  let x : Expr := .var ⟨1⟩ .bool
  { statements :=
      [.declareVariable ⟨1⟩ (some (.bool true .bool)), .declareClass ⟨0⟩,
        .declareFunction ⟨8⟩ []
          [.whileLoop x [.assign x (.unary .not x .bool), .breakLoop], .ret (some x)]]
    entities := ((Entities.initial.addVariable ⟨"x", false, .bool⟩).addStruct
      ⟨"C", [], true⟩).addFunction ⟨"f", ⟨[], .bool⟩, false⟩ }

theorem compile_placedSource : compile placedSource true = .ok placedProgram := by
  cbv

theorem compile_wellPlaced_loop :
    compile placedSource true = .ok placedProgram ∧ placedProgram.WellPlaced :=
  ⟨compile_placedSource, compile_wellPlaced compile_placedSource⟩

end TypedImp
