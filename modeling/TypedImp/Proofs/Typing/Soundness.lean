import TypedImp.Compile
import TypedImp.Proofs.Typing.Checked

/-!
# Checked programs are well typed

`checkStmt_typed`: in a sound environment, a statement that passes checking is typed
relative to the tables *behind* it, and the environment behind it is sound, has all
earlier rows unchanged, and is in the same function.  Since rows are kept, a
derivation relative to the tables behind one statement is one relative to the tables
at the end (`Stmt.Typed.mono`), which gives `wellTyped_of_analyze`.

Two declarations put a row into a table before it is complete.  No expression is
checked between the new row and its completion, so the row that is completed is none
of those that an earlier derivation speaks of (`Kept.setSignature`, `Kept.setFields`).
-/

namespace TypedImp.Checking

/-! ### Variables -/

theorem checkOption_typed {env : Env} (henv : env.Sound) {written : Option Tree.Expr}
    {e : Option Expr} (h : checkOption env written = .ok e) :
    ∀ x ∈ e, x.Typed env.entities ∧ x.ty.isConcrete = true := by
  intro x hx
  obtain ⟨tree, _, htree⟩ := (checkOption_eq_ok h).2 x hx
  exact checkExpr_typed henv tree htree

/-- **The type of a variable is that of its initial value**, whether it is written or
not. -/
theorem variableTy_typed {env : Env} (henv : env.Sound) {name : Tree.Name}
    {type : Option Tree.TypeExpr} {written : Option Tree.Expr} {e : Option Expr}
    (he : checkOption env written = .ok e) {ty : Ty}
    (h : variableTy env name type written e = .ok ty) :
    ty.isConcrete = true ∧ ∀ x ∈ e, x.ty = ty := by
  rcases variableTy_eq_ok (checkOption_eq_ok he).1 h with ⟨type, _, ht, hfits⟩ | ⟨x, rfl, rfl⟩
  · have hc := resolveType_concrete henv.scope type ht
    exact ⟨hc, fun x hx => (hfits x hx).ty_eq hc⟩
  · refine ⟨(checkOption_typed henv he x rfl).2, fun y hy => ?_⟩
    rw [← Option.some.inj hy]

theorem declareVariable_typed {env env' : Env} (henv : env.Sound) {name : Tree.Name}
    {readOnly : Bool} {type : Option Tree.TypeExpr} {written : Option Tree.Expr} {span : Span}
    {s : Stmt} (h : declareVariable env name readOnly type written span = .ok (s, env')) :
    env.Reaches env' ∧ s.Typed env'.entities env.scope.function := by
  obtain ⟨e, ty, _, he, ht, _, rfl, rfl⟩ := declareVariable_eq_ok h
  obtain ⟨hc, hty⟩ := variableTy_typed henv he ht
  obtain ⟨hr, hv⟩ := henv.addVariable name.text readOnly _ hc
  refine ⟨hr, .declareVariable hv fun x hx => ⟨?_, hty x hx⟩⟩
  exact (checkOption_typed henv he x hx).1.mono hr.kept

theorem Env.PassesParams.typed {env env' : Env} {params : List Tree.Annotated}
    {ids : List VariableId} {tys : List Ty} (h : env.PassesParams params ids tys env')
    (henv : env.Sound) :
    env.Reaches env' ∧ (∀ t ∈ tys, t.isConcrete = true) ∧
      List.Forall₂ env'.entities.HasVariable ids tys := by
  induction h with
  | nil => exact ⟨henv.reaches, List.forall_mem_nil _, .nil⟩
  | cons param _ hty _ _ ih =>
    have hc := resolveType_concrete henv.scope param.type hty
    obtain ⟨hr, hv⟩ := henv.addVariable param.name.text false _ hc
    obtain ⟨hr', hcs, hvs⟩ := ih hr.sound
    exact ⟨hr.trans hr', List.forall_mem_cons.mpr ⟨hc, hcs⟩, .cons (hv.mono hr'.kept) hvs⟩

theorem declareError_typed {env env' : Env} (henv : env.Sound) (name : Option Tree.Name)
    {error : Option VariableId} (h : declareError env name = (error, env')) :
    env.Reaches env' ∧ ∀ id ∈ error, env'.entities.HasVariable id .string := by
  cases name with
  | none => cases h; exact ⟨henv.reaches, by simp⟩
  | some name =>
    cases h
    obtain ⟨hr, hv⟩ := henv.addVariable name.text true .string rfl
    refine ⟨hr, fun id hid => ?_⟩
    rw [← Option.some.inj hid]
    exact hv

/-! ### Functions -/

theorem resultType_concrete {E : Entities} {s : Scope} (hs : s.Sound E)
    {type : Option Tree.TypeExpr} {ty : Ty} (h : resultType s type = .ok ty) :
    ty.isConcrete = true := by
  cases type with
  | none => cases h; rfl
  | some type => exact resolveType_concrete hs type h

/-- A function without its signature. -/
theorem sound_addFunction {env : Env} (henv : env.Sound) (name : String) :
    (env.addFunction name).2.Sound ∧ env.entities.Kept (env.addFunction name).2.entities ∧
      env.entities.nextFunction.index < (env.addFunction name).2.entities.funcs.size := by
  have hk := env.entities.kept_addFunction ⟨name, ⟨[], .void⟩, false⟩
  have hid : env.entities.nextFunction.index <
      (env.entities.addFunction ⟨name, ⟨[], .void⟩, false⟩).funcs.size := by
    simp [Entities.addFunction, Entities.nextFunction]
  exact ⟨⟨henv.concrete.addFunction rfl, (henv.scope.mono hk.noShorter).bind _ hid⟩, hk, hid⟩

/-- **A function declared up to its body**: it has the signature of its parameters, all
earlier rows are kept, and both scopes are sound. -/
theorem openFunction_typed {env : Env} (henv : env.Sound) {name : Tree.Name}
    {params : List Tree.Annotated} {result : Option Tree.TypeExpr} {f : OpenFunction}
    (h : openFunction env name params result = .ok f) :
    f.inner.Sound ∧ env.entities.Kept f.inner.entities ∧
      f.inner.scope.function = some f.id ∧ f.outer.Sound f.inner.entities ∧
      f.outer.function = env.scope.function ∧
      ∃ signature, f.inner.entities.HasFunction f.id signature ∧
        List.Forall₂ f.inner.entities.HasVariable f.params signature.params := by
  obtain ⟨ty, ids, tys, inner, _, ht, hparams, rfl⟩ := openFunction_eq_ok h
  obtain ⟨hopen, hk, hid⟩ := sound_addFunction henv name.text
  have hty := resultType_concrete hopen.scope ht
  obtain ⟨hr, hcs, hvs⟩ := hparams.typed (hopen.within (hopen.scope.enterFunction hid))
  have hsize := hr.kept.noShorter.funcs
  have hns := inner.entities.noShorter_setSignature env.entities.nextFunction ⟨tys, ty⟩
  have hc : (Signature.ty ⟨tys, ty⟩).isConcrete = true :=
    Ty.isConcrete_function.mpr ⟨fun t ht => .inr (hcs t ht), hty⟩
  refine ⟨⟨hr.sound.concrete.setSignature _ hc, hr.sound.scope.mono hns⟩,
    (hk.trans hr.kept).setSignature (Nat.le_refl _) _, hr.function,
    hopen.scope.mono (hr.kept.noShorter.trans hns), rfl, ⟨tys, ty⟩, ?_, hvs⟩
  exact Entities.hasFunction_setSignature (Nat.lt_of_lt_of_le hid hsize) _

/-! ### Structs -/

theorem resolveFields_concrete {E : Entities} {s : Scope} (hs : s.Sound E) {seen : List String}
    {trees : List Tree.Annotated} {fields : List Field}
    (h : resolveFields s seen trees = .ok fields) :
    ∀ field ∈ fields, field.ty.isConcrete = true := by
  intro field hf
  obtain ⟨_, tree, _, _, hty⟩ := (resolveFields_eq_ok h).2 field hf
  exact resolveType_concrete hs tree.type hty

theorem declareStruct_typed {env env' : Env} (henv : env.Sound) {name : Tree.Name}
    {trees : List Tree.Annotated} {isClass : Bool} {span : Span} {s : Stmt}
    (h : declareStruct env name trees isClass span = .ok (s, env')) :
    env.Reaches env' ∧ s.Typed env'.entities env.scope.function := by
  obtain ⟨fields, _, _, hf, _, rfl, rfl⟩ := declareStruct_eq_ok h
  have hk := env.entities.kept_addStruct ⟨name.text, [], isClass⟩
  have hid : env.entities.nextStruct.index <
      (env.entities.addStruct ⟨name.text, [], isClass⟩).structs.size := by
    simp [Entities.addStruct, Entities.nextStruct]
  have hs := (henv.scope.mono hk.noShorter).bind name.text
    (b := .struct env.entities.nextStruct) hid
  have hfields := resolveFields_concrete hs hf
  have hns := (env.entities.addStruct ⟨name.text, [], isClass⟩).noShorter_setFields
    env.entities.nextStruct fields
  have hrow := Entities.hasStruct_setFields hid fields
  refine ⟨⟨⟨(henv.concrete.addStruct (by simp)).setFields _ hfields, hs.mono hns⟩,
    hk.setFields (Nat.le_refl _) _, rfl⟩, ?_⟩
  cases isClass with
  | false => exact .declareStruct hrow
  | true => exact .declareClass hrow

/-! ### Statements -/

/-- The function around is typed, so what it returns is of a concrete type. -/
theorem Env.Sound.result {env : Env} (henv : env.Sound) {id : FunctionId}
    (hfn : env.scope.function = some id) :
    env.entities.HasFunction id (env.entities.functionAt id).signature ∧
      (env.entities.functionAt id).signature.result.isConcrete = true := by
  have hf := Entities.hasFunction_functionAt (henv.scope.function hfn)
  have hc := henv.concrete.function hf
  rw [Signature.ty, Ty.isConcrete_function] at hc
  exact ⟨hf, hc.2⟩

mutual

/-- **A statement that passes checking is typed** relative to the tables behind it. -/
theorem checkStmt_typed {env env' : Env} (henv : env.Sound) (tree : Tree.Stmt) {s : Stmt}
    (h : checkStmt env tree = .ok (s, env')) :
    env.Reaches env' ∧ s.Typed env'.entities env.scope.function := by
  cases passesStmt_of_checkStmt h with
  | declareVariable h => exact declareVariable_typed henv h
  | declareStruct h => exact declareStruct_typed henv h
  | declareFunction hf hbody =>
    obtain ⟨hin, hk, hfn, hout, hofn, signature, hsig, hvs⟩ := openFunction_typed henv hf
    obtain ⟨hr, hbt⟩ := checkStmts_typed hin _ hbody
    rw [hfn] at hbt
    exact ⟨⟨⟨hr.sound.concrete, hout.mono hr.kept.noShorter⟩, hk.trans hr.kept, hofn⟩,
      .declareFunction (hsig.mono hr.kept) (hvs.imp fun _ _ => .mono hr.kept) hbt⟩
  | ifThen htest hty hc =>
    have htt := (checkExpr_typed henv _ htest).1
    obtain ⟨hr, hct⟩ := checkStmts_typed (henv.within henv.scope.enterBlock) _ hc
    exact ⟨henv.reaches_around hr.sound hr.kept, .ifThen (htt.mono hr.kept) hty hct⟩
  | ifElse htest hty hc ha =>
    have htt := (checkExpr_typed henv _ htest).1
    obtain ⟨hr, hct⟩ := checkStmts_typed (henv.within henv.scope.enterBlock) _ hc
    have hmid := henv.around hr.sound hr.kept
    obtain ⟨hr', hat⟩ := checkStmts_typed (hmid.within hmid.scope.enterBlock) _ ha
    have hk := hr.kept.trans hr'.kept
    exact ⟨henv.reaches_around hr'.sound hk,
      .ifElse (htt.mono hk) hty (fun s hs => (hct s hs).mono hr'.kept) hat⟩
  | ifElseIf htest hty hc ha =>
    have htt := (checkExpr_typed henv _ htest).1
    obtain ⟨hr, hct⟩ := checkStmts_typed (henv.within henv.scope.enterBlock) _ hc
    obtain ⟨hr', hat⟩ := checkStmt_typed (henv.around hr.sound hr.kept) _ ha
    have hk := hr.kept.trans hr'.kept
    exact ⟨⟨hr'.sound, hk, hr'.function⟩,
      .ifElseIf (htt.mono hk) hty (fun s hs => (hct s hs).mono hr'.kept) hat⟩
  | whileLoop htest hty hbody =>
    have htt := (checkExpr_typed henv _ htest).1
    obtain ⟨hr, hbt⟩ := checkStmts_typed (henv.within henv.scope.enterLoop) _ hbody
    exact ⟨henv.reaches_around hr.sound hr.kept, .whileLoop (htt.mono hr.kept) hty hbt⟩
  | rangeLoop iterator hl hlty hu huty hbody =>
    have hlt := (checkExpr_typed henv _ hl).1
    have hut := (checkExpr_typed henv _ hu).1
    obtain ⟨hadd, hv⟩ := (henv.within henv.scope.enterLoop).addVariable iterator.text true
      .number rfl
    obtain ⟨hr, hbt⟩ := checkStmts_typed hadd.sound _ hbody
    have hk := hadd.kept.trans hr.kept
    exact ⟨henv.reaches_around hr.sound hk,
      .rangeLoop (hlt.mono hk) hlty (hut.mono hk) huty (hv.mono hr.kept) hbt⟩
  | collectionLoop iterator he hty hbody =>
    obtain ⟨het, hec⟩ := checkExpr_typed henv _ he
    rw [hty, Ty.isConcrete_array] at hec
    obtain ⟨hadd, hv⟩ := (henv.within henv.scope.enterLoop).addVariable iterator.text true _ hec
    obtain ⟨hr, hbt⟩ := checkStmts_typed hadd.sound _ hbody
    have hk := hadd.kept.trans hr.kept
    exact ⟨henv.reaches_around hr.sound hk,
      .collectionLoop (het.mono hk) hty (hv.mono hr.kept) hbt⟩
  | retValue hfn hresult he hfits =>
    obtain ⟨hf, hc⟩ := henv.result hfn
    rw [hfn]
    exact ⟨henv.reaches, .ret hf hresult (checkExpr_typed henv _ he).1 (hfits.ty_eq hc)⟩
  | retNothing hfn hresult =>
    rw [hfn]
    exact ⟨henv.reaches, .retVoid (henv.result hfn).1 hresult⟩
  | breakLoop => exact ⟨henv.reaches, .breakLoop⟩
  | continueLoop => exact ⟨henv.reaches, .continueLoop⟩
  | tryCatch name hbody hhandler =>
    obtain ⟨hr, hbt⟩ := checkStmts_typed (henv.within henv.scope.enterBlock) _ hbody
    have hmid := henv.around hr.sound hr.kept
    obtain ⟨herr, hv⟩ := declareError_typed (hmid.within hmid.scope.enterBlock) name rfl
    obtain ⟨hr', hht⟩ := checkStmts_typed herr.sound _ hhandler
    rw [herr.function] at hht
    have hk := herr.kept.trans hr'.kept
    exact ⟨henv.reaches_around hr'.sound (hr.kept.trans hk),
      .tryCatch (fun s hs => (hbt s hs).mono hk) (fun id hid => (hv id hid).mono hr'.kept) hht⟩
  | print he => exact ⟨henv.reaches, .print (checkExpr_typed henv _ he).1⟩
  | increment ht hty =>
    obtain ⟨ht, hplace, _⟩ := checkTarget_eq_ok ht
    exact ⟨henv.reaches, .increment (checkExpr_typed henv _ ht).1 hty hplace⟩
  | decrement ht hty =>
    obtain ⟨ht, hplace, _⟩ := checkTarget_eq_ok ht
    exact ⟨henv.reaches, .decrement (checkExpr_typed henv _ ht).1 hty hplace⟩
  | assign ht he hfits =>
    obtain ⟨ht, hplace, _⟩ := checkTarget_eq_ok ht
    obtain ⟨htt, htc⟩ := checkExpr_typed henv _ ht
    exact ⟨henv.reaches, .assign htt hplace (checkExpr_typed henv _ he).1 (hfits.ty_eq htc)⟩
  | call he => exact ⟨henv.reaches, .call (checkExpr_typed henv _ he).1⟩
termination_by structural tree

theorem checkStmts_typed {env env' : Env} (henv : env.Sound) (trees : List Tree.Stmt)
    {ss : List Stmt} (h : checkStmts env trees = .ok (ss, env')) :
    env.Reaches env' ∧ ∀ s ∈ ss, s.Typed env'.entities env.scope.function := by
  cases trees with
  | nil => cases h; exact ⟨henv.reaches, by simp⟩
  | cons tree trees =>
    obtain ⟨s, mid, others, hs, hothers, rfl⟩ := checkStmts_cons_eq_ok h
    obtain ⟨hr, hst⟩ := checkStmt_typed henv tree hs
    obtain ⟨hr', hot⟩ := checkStmts_typed hr.sound trees hothers
    rw [hr.function] at hot
    exact ⟨hr.trans hr', List.forall_mem_cons.mpr ⟨hst.mono hr'.kept, hot⟩⟩
termination_by structural trees

end

end TypedImp.Checking

namespace TypedImp

theorem analyze_eq_ok {tree : List Tree.Stmt} {p : Program} (h : analyze tree = .ok p) :
    ∃ last, Checking.checkStmts ⟨.root, .initial⟩ tree = .ok (p.statements, last) ∧
      p.entities = last.entities := by
  rw [analyze] at h
  cases ht : Program.ofTree tree with
  | error fault => rw [ht] at h; cases h
  | ok q =>
    rw [ht] at h
    cases h
    obtain ⟨⟨ss, last⟩, hss, hp⟩ := bind_eq_ok ht
    cases hp
    exact ⟨last, hss, rfl⟩

theorem Program.wellTyped_of_analyze {tree : List Tree.Stmt} {p : Program}
    (h : analyze tree = .ok p) : p.WellTyped := by
  obtain ⟨last, hss, he⟩ := analyze_eq_ok h
  rw [WellTyped, he]
  exact (Checking.checkStmts_typed Checking.Env.sound_root tree hss).2

/-- **Checking is sound**: relative to its own tables, as they are at the end, a program
that passes is well typed, and so is each statement and each expression of it at any
depth. -/
theorem analyze_sound {tree : List Tree.Stmt} {p : Program} (h : analyze tree = .ok p) :
    p.WellTyped ∧ (∀ s ∈ p.stmts, ∃ fn, s.Typed p.entities fn) ∧
      ∀ e ∈ p.exprs, e.Typed p.entities := by
  have hp := Program.wellTyped_of_analyze h
  exact ⟨hp, fun _ hs => hp.stmt hs, fun _ he => hp.expr he⟩

/-- `struct P { next: [P] } fn f(p: P): P { if 1 < 2 { return f(p); } return p; } let n = 0;
if n == 0 { print n; } else if false { n = n; }`, with all spans left blank. -/
def sampleTree : List Tree.Stmt :=
  let blank : Span := ⟨.start, 0⟩
  let name (text : String) : Tree.Name := ⟨text, blank⟩
  let use (text : String) : Tree.Expr := .name (name text)
  let number (value : Float) : Tree.Expr := .number value blank
  [.declareStruct (name "P") [⟨name "next", .array (.named (name "P")) blank⟩] false blank,
    .declareFunction (name "f") [⟨name "p", .named (name "P")⟩] (some (.named (name "P")))
      ⟨[.ifThen (.binary .lt (number 1) (number 2) blank)
          ⟨[.ret (some (.call (use "f") [use "p"] blank)) blank], blank⟩ blank,
        .ret (some (use "p")) blank], blank⟩ blank,
    .declareVariable (name "n") false none (some (number 0)) blank,
    .ifElseIf (.binary .eq (use "n") (number 0) blank) ⟨[.print (use "n") blank], blank⟩
      (.ifThen (.bool false blank) ⟨[.assign (use "n") (use "n") blank], blank⟩ blank) blank]

def sampleProgram : Program :=
  let P : Ty := .struct ⟨0⟩
  let f : Signature := ⟨[P], P⟩
  let n : Expr := .var ⟨2⟩ .number
  { statements :=
      [.declareStruct ⟨0⟩,
        .declareFunction ⟨8⟩ [⟨1⟩]
          [.ifThen (.binary .lt (.number 1 .number) (.number 2 .number) .bool)
            [.ret (some (.call (.func ⟨8⟩ f.ty) [.var ⟨1⟩ P] P))],
          .ret (some (.var ⟨1⟩ P))],
        .declareVariable ⟨2⟩ (some (.number 0 .number)),
        .ifElseIf (.binary .eq n (.number 0 .number) .bool) [.print n]
          (.ifThen (.bool false .bool) [.assign n n])]
    entities :=
      (((Entities.initial.addStruct ⟨"P", [⟨"next", .array P⟩], false⟩).addFunction
        ⟨"f", f, false⟩).addVariable ⟨"p", false, P⟩).addVariable ⟨"n", false, .number⟩ }

/-- The call of `f` within `f` has the type of its completed row. -/
theorem analyze_sound_sample : analyze sampleTree = .ok sampleProgram ∧
    sampleProgram.WellTyped ∧ (∀ s ∈ sampleProgram.stmts, ∃ fn, s.Typed sampleProgram.entities fn) ∧
      ∀ e ∈ sampleProgram.exprs, e.Typed sampleProgram.entities :=
  ⟨rfl, analyze_sound (show analyze sampleTree = .ok sampleProgram from rfl)⟩

end TypedImp
