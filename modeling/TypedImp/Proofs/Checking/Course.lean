import TypedImp.Proofs.Typing.Soundness

/-!
# The course of checking

`Env.Leads env ss last` says how checking gets from an environment through a list of statements
`ss` to the environment behind them.  It has one rule for each way in which a statement changes
the scope or the tables; the statements that change neither share one (`Stmt.isPlain`).  The tree
that is checked plays no part in it, and of the expressions only that they pass checking where
they stand.

* **`leads_of_checkStmts`**: whatever checking makes of a list of trees comes about in this way.
  So an induction on `Env.Leads` is one on the course of checking, and its premises are the
  declarations and not the steps that they consist of.
* `Leads.reaches`: what is behind a sound environment is sound, and all rows are kept.
-/

namespace TypedImp

/-- Whether a statement declares nothing and has no statements within it. -/
def Stmt.isPlain : Stmt → Bool
  | ret _ | breakLoop | continueLoop | print _ | increment _ | decrement _ | assign .. | call _ =>
    true
  | _ => false

namespace Checking

def Env.Accepts (env : Env) (e : Expr) : Prop := ∃ tree, checkExpr env tree = .ok e

/-- **The course of checking**, from an environment through statements to the one behind them. -/
inductive Env.Leads : Env → List Stmt → Env → Prop
  | nil {env : Env} : Leads env [] env
  | plain {env last : Env} {s : Stmt} {ss : List Stmt} (hs : s.isPlain = true)
      (he : ∀ e ∈ s.exprs, env.Accepts e) (rest : Leads env ss last) : Leads env (s :: ss) last
  | declareVariable {env mid last : Env} {name : Tree.Name} {readOnly : Bool}
      {type : Option Tree.TypeExpr} {written : Option Tree.Expr} {span : Span} {s : Stmt}
      {ss : List Stmt} (h : declareVariable env name readOnly type written span = .ok (s, mid))
      (rest : Leads mid ss last) : Leads env (s :: ss) last
  | declareFunction {env inner last : Env} {name : Tree.Name} {params : List Tree.Annotated}
      {result : Option Tree.TypeExpr} {f : OpenFunction} {body ss : List Stmt}
      (h : openFunction env name params result = .ok f) (hbody : Leads f.inner body inner)
      (rest : Leads (inner.around f.outer) ss last) :
      Leads env (.declareFunction f.id f.params body :: ss) last
  | declareStruct {env mid last : Env} {name : Tree.Name} {fields : List Tree.Annotated}
      {isClass : Bool} {span : Span} {s : Stmt} {ss : List Stmt}
      (h : declareStruct env name fields isClass span = .ok (s, mid)) (rest : Leads mid ss last) :
      Leads env (s :: ss) last
  | ifThen {env inner last : Env} {test : Expr} {c ss : List Stmt} (ht : env.Accepts test)
      (hc : Leads (env.within env.scope.enterBlock) c inner)
      (rest : Leads (inner.around env.scope) ss last) : Leads env (.ifThen test c :: ss) last
  | ifElse {env mid inner last : Env} {test : Expr} {c a ss : List Stmt} (ht : env.Accepts test)
      (hc : Leads (env.within env.scope.enterBlock) c mid)
      (ha : Leads (mid.around env.scope.enterBlock) a inner)
      (rest : Leads (inner.around env.scope) ss last) : Leads env (.ifElse test c a :: ss) last
  | ifElseIf {env mid next last : Env} {test : Expr} {c : List Stmt} {a : Stmt} {ss : List Stmt}
      (ht : env.Accepts test) (hc : Leads (env.within env.scope.enterBlock) c mid)
      (ha : Leads (mid.around env.scope) [a] next) (rest : Leads next ss last) :
      Leads env (.ifElseIf test c a :: ss) last
  | whileLoop {env inner last : Env} {test : Expr} {body ss : List Stmt} (ht : env.Accepts test)
      (hbody : Leads (env.within env.scope.enterLoop) body inner)
      (rest : Leads (inner.around env.scope) ss last) : Leads env (.whileLoop test body :: ss) last
  | rangeLoop {env inner last : Env} (name : String) {low high : Expr} {op : RangeOp}
      {body ss : List Stmt} (hl : env.Accepts low) (hh : env.Accepts high)
      (hbody : Leads ((env.within env.scope.enterLoop).addVariable name true .number).2 body inner)
      (rest : Leads (inner.around env.scope) ss last) :
      Leads env (.rangeLoop env.entities.nextVariable low op high body :: ss) last
  | collectionLoop {env inner last : Env} (name : String) {e : Expr} {element : Ty}
      {body ss : List Stmt} (he : env.Accepts e) (hty : e.ty = .array element)
      (hbody : Leads ((env.within env.scope.enterLoop).addVariable name true element).2 body inner)
      (rest : Leads (inner.around env.scope) ss last) :
      Leads env (.collectionLoop env.entities.nextVariable e body :: ss) last
  | tryCatch {env mid start inner last : Env} {name : Option Tree.Name}
      {error : Option VariableId} {body handler ss : List Stmt}
      (hbody : Leads (env.within env.scope.enterBlock) body mid)
      (herror : declareError (mid.around env.scope.enterBlock) name = (error, start))
      (hhandler : Leads start handler inner) (rest : Leads (inner.around env.scope) ss last) :
      Leads env (.tryCatch body error handler :: ss) last

namespace Env.Leads

/-! ### Whatever is checked -/

mutual

/-- **One statement**, with what is behind it. -/
theorem of_checkStmt {env mid last : Env} (tree : Tree.Stmt) {s : Stmt} {ss : List Stmt}
    (h : checkStmt env tree = .ok (s, mid)) (rest : mid.Leads ss last) :
    env.Leads (s :: ss) last := by
  cases passesStmt_of_checkStmt h with
  | declareVariable h => exact .declareVariable h rest
  | declareStruct h => exact .declareStruct h rest
  | declareFunction hf hbody => exact .declareFunction hf (of_checkStmts _ hbody) rest
  | ifThen htest _ hc => exact .ifThen ⟨_, htest⟩ (of_checkStmts _ hc) rest
  | ifElse htest _ hc ha =>
    exact .ifElse ⟨_, htest⟩ (of_checkStmts _ hc) (of_checkStmts _ ha) rest
  | ifElseIf htest _ hc ha =>
    exact .ifElseIf ⟨_, htest⟩ (of_checkStmts _ hc) (of_checkStmt _ ha .nil) rest
  | whileLoop htest _ hbody => exact .whileLoop ⟨_, htest⟩ (of_checkStmts _ hbody) rest
  | rangeLoop iterator hl _ hu _ hbody =>
    exact .rangeLoop iterator.text ⟨_, hl⟩ ⟨_, hu⟩ (of_checkStmts _ hbody) rest
  | collectionLoop iterator he hty hbody =>
    exact .collectionLoop iterator.text ⟨_, he⟩ hty (of_checkStmts _ hbody) rest
  | tryCatch _ hbody hhandler =>
    exact .tryCatch (of_checkStmts _ hbody) rfl (of_checkStmts _ hhandler) rest
  | retNothing | breakLoop | continueLoop => exact .plain rfl (List.forall_mem_nil _) rest
  | retValue _ _ he | print he | call he =>
    exact .plain rfl (List.forall_mem_singleton.mpr ⟨_, he⟩) rest
  | increment ht | decrement ht =>
    exact .plain rfl (List.forall_mem_singleton.mpr ⟨_, (checkTarget_eq_ok ht).1⟩) rest
  | assign ht he =>
    exact .plain rfl (List.forall_mem_cons.mpr ⟨⟨_, (checkTarget_eq_ok ht).1⟩,
      List.forall_mem_singleton.mpr ⟨_, he⟩⟩) rest
termination_by structural tree

/-- **Checking a list of statements takes this course.** -/
theorem of_checkStmts {env last : Env} (trees : List Tree.Stmt) {ss : List Stmt}
    (h : checkStmts env trees = .ok (ss, last)) : env.Leads ss last := by
  cases trees with
  | nil =>
    cases h
    exact .nil
  | cons tree trees =>
    obtain ⟨s, mid, others, hs, hothers, rfl⟩ := checkStmts_cons_eq_ok h
    exact of_checkStmt tree hs (of_checkStmts trees hothers)
termination_by structural trees

end

/-! ### Environments -/

/-- **What is behind a sound environment is sound**, and all rows are kept. -/
theorem reaches {env last : Env} {ss : List Stmt} (h : env.Leads ss last) (henv : env.Sound) :
    env.Reaches last := by
  induction h with
  | nil => exact henv.reaches
  | plain _ _ _ ih => exact ih henv
  | declareVariable h _ ih =>
    have hr := (declareVariable_typed henv h).1
    exact hr.trans (ih hr.sound)
  | declareStruct h _ ih =>
    have hr := (declareStruct_typed henv h).1
    exact hr.trans (ih hr.sound)
  | @declareFunction env inner _ _ _ _ f _ _ h _ _ ihbody ih =>
    obtain ⟨hin, hk, _, hout, hfn, _⟩ := openFunction_typed henv h
    have hbody := ihbody hin
    have hr : env.Reaches (inner.around f.outer) :=
      ⟨⟨hbody.sound.concrete, hout.mono hbody.kept.noShorter⟩, hk.trans hbody.kept, hfn⟩
    exact hr.trans (ih hr.sound)
  | ifThen _ _ _ ihc ih =>
    have hc := ihc (henv.within henv.scope.enterBlock)
    have hr := henv.reaches_around hc.sound hc.kept
    exact hr.trans (ih hr.sound)
  | whileLoop _ _ _ ihbody ih =>
    have hbody := ihbody (henv.within henv.scope.enterLoop)
    have hr := henv.reaches_around hbody.sound hbody.kept
    exact hr.trans (ih hr.sound)
  | ifElse _ _ _ _ ihc iha ih =>
    have hc := ihc (henv.within henv.scope.enterBlock)
    have hmid := henv.around hc.sound hc.kept
    have ha := iha (hmid.within hmid.scope.enterBlock)
    have hr := henv.reaches_around ha.sound (hc.kept.trans ha.kept)
    exact hr.trans (ih hr.sound)
  | ifElseIf _ _ _ _ ihc iha ih =>
    have hc := ihc (henv.within henv.scope.enterBlock)
    have hmid := henv.reaches_around hc.sound hc.kept
    have hr := hmid.trans (iha hmid.sound)
    exact hr.trans (ih hr.sound)
  | rangeLoop name _ _ _ _ ihbody ih =>
    have hadd := ((henv.within henv.scope.enterLoop).addVariable name true .number rfl).1
    have hbody := hadd.trans (ihbody hadd.sound)
    have hr := henv.reaches_around hbody.sound hbody.kept
    exact hr.trans (ih hr.sound)
  | collectionLoop name he hty _ _ ihbody ih =>
    obtain ⟨tree, he⟩ := he
    have hconcrete := (checkExpr_typed henv tree he).2
    rw [hty, Ty.isConcrete_array] at hconcrete
    have hadd := ((henv.within henv.scope.enterLoop).addVariable name true _ hconcrete).1
    have hbody := hadd.trans (ihbody hadd.sound)
    have hr := henv.reaches_around hbody.sound hbody.kept
    exact hr.trans (ih hr.sound)
  | tryCatch _ herror _ _ ihbody ihhandler ih =>
    have hbody := ihbody (henv.within henv.scope.enterBlock)
    have hmid := henv.around hbody.sound hbody.kept
    have hstart := (declareError_typed (hmid.within hmid.scope.enterBlock) _ herror).1
    have hhandler := hstart.trans (ihhandler hstart.sound)
    have hr := henv.reaches_around hhandler.sound (hbody.kept.trans hhandler.kept)
    exact hr.trans (ih hr.sound)

end Env.Leads

end Checking

/-- The course of checking a program. -/
theorem leads_of_analyze {tree : List Tree.Stmt} {p : Program} (h : analyze tree = .ok p) :
    ∃ last, Checking.Env.Leads ⟨.root, .initial⟩ p.statements last ∧
      p.entities = last.entities := by
  obtain ⟨last, hcheck, hlast⟩ := analyze_eq_ok h
  exact ⟨last, .of_checkStmts tree hcheck, hlast⟩

end TypedImp
