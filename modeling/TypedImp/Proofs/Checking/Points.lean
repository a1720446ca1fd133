import Mathlib.Data.List.Chain
import TypedImp.Proofs.Tables.Range

/-!
# The points that checking goes through

Checking changes its environment many times on the way through one statement, and if a rule is
broken it never comes to an environment behind it.  `Env.stmtPoints` lists the environments that it
goes through, in their order, up to the first broken rule: behind every name that is bound, every
row that is added or completed, and every frame that is opened or left.

`Env.Move` is one such change, with the conditions under which checking makes it.  A name is bound
only in a frame that does not have it, a frame is left only for the one around it, and what is
written into a row mentions only rows that are there.

* **`points_moves`**: from each point to the next one is a single move, whether or not the
  statements pass checking in the end, so what a move keeps holds at every point.
* `Env.Follows.last`: behind statements that pass checking is the last of their points.
-/

namespace TypedImp.Checking

open Entities

/-! ### Points -/

/-- The points behind a check, of which there are none if it fails. -/
def onward {α : Type} (r : Result α) (points : α → List Env) : List Env :=
  match r with
  | .ok a => points a
  | .error _ => []

namespace Env

def paramPoints (env : Env) : List Tree.Annotated → List Env
  | [] => []
  | param :: params =>
    onward (env.requireNew param.name) fun _ =>
    onward (resolveType env.scope param.type) fun ty =>
    onward (requireNotVoid ty param.span) fun _ =>
      let next := (env.addVariable param.name.text false ty).2
      next :: paramPoints next params

def openPoints (env : Env) (name : Tree.Name) (params : List Tree.Annotated)
    (result : Option Tree.TypeExpr) : List Env :=
  onward (env.requireNew name) fun _ =>
    let (id, declared) := env.addFunction name.text
    declared :: onward (resultType declared.scope result) fun ty =>
      let inside := declared.within (declared.scope.enterFunction id)
      inside :: (paramPoints inside params ++
        onward (declareParams inside params) fun (_, tys, inner) =>
          [⟨inner.scope, inner.entities.setSignature id ⟨tys, ty⟩⟩])

def structPoints (env : Env) (name : Tree.Name) (fields : List Tree.Annotated) (isClass : Bool)
    (span : Span) : List Env :=
  onward (require env.scope.function.isNone .structInFunction span) fun _ =>
  onward (env.requireNew name) fun _ =>
    let (id, declared) := env.addStruct name.text isClass
    declared :: onward (resolveFields declared.scope [] fields) fun rows =>
      [⟨declared.scope, declared.entities.setFields id rows⟩]

def errorPoints (env : Env) : Option Tree.Name → List Env
  | none => []
  | some name => [(declareError env (some name)).2]

/-- The points between braces and the one behind them, where the scope is `outer` again. -/
def bracePoints (outer : Scope) (points : List Env) (r : Result (List Stmt × Env))
    (next : Env → List Env) : List Env :=
  points ++ onward r fun (_, last) => last.around outer :: next (last.around outer)

mutual

/-- **The points on the way through a statement.** -/
def stmtPoints (env : Env) : Tree.Stmt → List Env
  | .declareVariable name readOnly type written span =>
    onward (declareVariable env name readOnly type written span) fun (_, next) => [next]
  | .declareFunction name params result ⟨body, _⟩ _ =>
    openPoints env name params result ++ onward (openFunction env name params result) fun f =>
      bracePoints f.outer (stmtsPoints f.inner body) (checkStmts f.inner body) fun _ => []
  | .declareStruct name fields isClass span => structPoints env name fields isClass span
  | .ifThen test ⟨consequent, _⟩ _ =>
    onward (checkCondition env test) fun _ =>
      let inside := env.within env.scope.enterBlock
      inside :: bracePoints env.scope (stmtsPoints inside consequent) (checkStmts inside consequent)
        fun _ => []
  | .ifElse test ⟨consequent, _⟩ ⟨alternate, _⟩ _ =>
    onward (checkCondition env test) fun _ =>
      let inside := env.within env.scope.enterBlock
      inside :: bracePoints env.scope (stmtsPoints inside consequent) (checkStmts inside consequent)
        fun mid =>
          let inside := mid.within mid.scope.enterBlock
          inside :: bracePoints env.scope (stmtsPoints inside alternate)
            (checkStmts inside alternate) fun _ => []
  | .ifElseIf test ⟨consequent, _⟩ alternate _ =>
    onward (checkCondition env test) fun _ =>
      let inside := env.within env.scope.enterBlock
      inside :: bracePoints env.scope (stmtsPoints inside consequent) (checkStmts inside consequent)
        fun mid => stmtPoints mid alternate
  | .whileLoop test ⟨body, _⟩ _ =>
    onward (checkCondition env test) fun _ =>
      let inside := env.within env.scope.enterLoop
      inside :: bracePoints env.scope (stmtsPoints inside body) (checkStmts inside body) fun _ => []
  | .rangeLoop iterator low _ high ⟨body, _⟩ _ =>
    onward (checkNumber env low) fun _ =>
    onward (checkNumber env high) fun _ =>
      let inside := env.within env.scope.enterLoop
      let inner := (inside.addVariable iterator.text true .number).2
      inside :: inner ::
        bracePoints env.scope (stmtsPoints inner body) (checkStmts inner body) fun _ => []
  | .collectionLoop iterator tree ⟨body, _⟩ _ =>
    onward (checkExpr env tree) fun collection =>
    onward (elementOf collection tree.span) fun element =>
      let inside := env.within env.scope.enterLoop
      let inner := (inside.addVariable iterator.text true element).2
      inside :: inner ::
        bracePoints env.scope (stmtsPoints inner body) (checkStmts inner body) fun _ => []
  | .tryCatch ⟨body, _⟩ error ⟨handler, _⟩ _ =>
    let inside := env.within env.scope.enterBlock
    inside :: bracePoints env.scope (stmtsPoints inside body) (checkStmts inside body) fun mid =>
      let inside := mid.within mid.scope.enterBlock
      let inner := (declareError inside error).2
      inside :: (errorPoints inside error ++
        bracePoints env.scope (stmtsPoints inner handler) (checkStmts inner handler) fun _ => [])
  | .ret .. | .breakLoop _ | .continueLoop _ | .print .. | .increment .. | .decrement ..
  | .assign .. | .call .. => []

/-- **The points on the way through statements.** -/
def stmtsPoints (env : Env) : List Tree.Stmt → List Env
  | [] => []
  | stmt :: stmts =>
    stmtPoints env stmt ++ onward (checkStmt env stmt) fun (_, next) => stmtsPoints next stmts

end

def points (trees : List Tree.Stmt) : List Env :=
  ⟨.root, .initial⟩ :: stmtsPoints ⟨.root, .initial⟩ trees

/-! ### Moves -/

/-- **One change of an environment**, as checking makes it. -/
inductive Move : Env → Env → Prop
  | enter {env : Env} (o : Overrides)
      (h : ∀ id, o.function = some (some id) → env.entities.HasRow (.func id)) :
      Move env (env.within (env.scope.enter o))
  | leave {env : Env} {outer : Scope} (h : env.scope.leave? = some outer) :
      Move env (env.around outer)
  | addVariable {env : Env} {name : String} {readOnly : Bool} {ty : Ty}
      (hnew : env.scope.declares name = false) (hty : ty.Known env.entities) :
      Move env (env.addVariable name readOnly ty).2
  | addFunction {env : Env} {name : String} (hnew : env.scope.declares name = false) :
      Move env (env.addFunction name).2
  | addStruct {env : Env} {name : String} {isClass : Bool}
      (hnew : env.scope.declares name = false) : Move env (env.addStruct name isClass).2
  | setSignature {env : Env} {id : FunctionId} {signature : Signature}
      (hid : env.entities.HasRow (.func id)) (hs : signature.ty.Known env.entities) :
      Move env ⟨env.scope, env.entities.setSignature id signature⟩
  | setFields {env : Env} {id : StructId} {fields : List Field}
      (hid : env.entities.HasRow (.struct id))
      (hf : ∀ field ∈ fields, field.ty.Known env.entities) :
      Move env ⟨env.scope, env.entities.setFields id fields⟩

variable {env next : Env}

/-- No move takes away a row. -/
theorem Move.noShorter (h : env.Move next) : env.entities.NoShorter next.entities := by
  cases h with
  | enter | leave => exact .refl _
  | addVariable => exact (env.entities.kept_addVariable _).noShorter
  | addFunction => exact (env.entities.kept_addFunction _).noShorter
  | addStruct => exact (env.entities.kept_addStruct _).noShorter
  | setSignature => exact env.entities.noShorter_setSignature _ _
  | setFields => exact env.entities.noShorter_setFields _ _

/-- **A move keeps everything in range.** -/
theorem InRange.move (henv : env.InRange) (h : env.Move next) : next.InRange := by
  have hscope := henv.scope.mono h.noShorter
  cases h with
  | enter o ho => exact ⟨henv.tables, henv.scope.enter ho⟩
  | leave hleave => exact ⟨henv.tables, henv.scope.leave hleave⟩
  | @addVariable name readOnly ty hnew hty =>
    have hrow := (env.entities.addVariable_row ⟨name, readOnly, ty⟩).1
    exact ⟨henv.tables.addVariable hty, hscope.bind name (b := .var _) hrow⟩
  | @addFunction name hnew =>
    have hrow := (env.entities.addFunction_row ⟨name, ⟨[], .void⟩, false⟩).1
    exact ⟨henv.tables.addFunction ⟨trivial, trivial⟩, hscope.bind name (b := .func _) hrow⟩
  | @addStruct name isClass hnew =>
    have hrow := (env.entities.addStruct_row ⟨name, [], isClass⟩).1
    exact ⟨henv.tables.addStruct (List.forall_mem_nil _),
      hscope.bind name (b := .struct _) hrow⟩
  | setSignature _ hs => exact ⟨henv.tables.setSignature _ hs, hscope⟩
  | setFields _ hf => exact ⟨henv.tables.setFields _ hf, hscope⟩

/-! ### Ways -/

inductive Path : Env → List Env → Env → Prop
  | nil {env : Env} : Path env [] env
  | cons {env next last : Env} {points : List Env} (h : env.Move next)
      (rest : Path next points last) : Path env (next :: points) last

namespace Path

variable {last last' : Env} {points points' : List Env}

theorem append (h : env.Path points last) (g : last.Path points' last') :
    env.Path (points ++ points') last' := by
  induction h with
  | nil => exact g
  | cons hmove _ ih => exact .cons hmove (ih g)

theorem chain (h : env.Path points last) : List.IsChain Move (env :: points) := by
  induction h with
  | nil => exact List.isChain_singleton _
  | cons hmove _ ih => exact List.isChain_cons_cons.mpr ⟨hmove, ih⟩

theorem noShorter (h : env.Path points last) : env.entities.NoShorter last.entities := by
  induction h with
  | nil => exact .refl _
  | cons hmove _ ih => exact hmove.noShorter.trans ih

theorem getLast? (h : env.Path points last) : (env :: points).getLast? = some last := by
  induction h with
  | nil => rfl
  | cons _ _ ih => rw [List.getLast?_cons_cons, ih]

/-- **What every move keeps holds at all points.** -/
theorem induction {P : Env → Prop} (step : ∀ {a b : Env}, P a → a.Move b → P b)
    (h : env.Path points last) (henv : P env) : (∀ site ∈ env :: points, P site) ∧ P last := by
  induction h with
  | nil => exact ⟨List.forall_mem_singleton.mpr henv, henv⟩
  | cons hmove _ ih =>
    obtain ⟨hsites, hlast⟩ := ih (step henv hmove)
    exact ⟨List.forall_mem_cons.mpr ⟨henv, hsites⟩, hlast⟩

/-- No table becomes shorter on the way. -/
theorem pairwise (h : env.Path points last) :
    (env :: points).Pairwise fun earlier later => earlier.entities.NoShorter later.entities := by
  induction h with
  | nil => exact List.pairwise_singleton _ _
  | @cons env next last points hmove rest ih =>
    refine List.pairwise_cons.mpr ⟨fun site hsite => ?_, ih⟩
    -- No table is shorter than behind the first move, which is an invariant of the others.
    have hkeeps := (rest.induction (P := fun site => env.entities.NoShorter site.entities)
      (fun hsite hstep => hsite.trans hstep.noShorter) hmove.noShorter).1
    exact hkeeps site hsite

end Path

/-- **A way from an environment**: its points are moves apart, and if it ends well, it ends at what
is behind it. -/
structure Follows {α : Type} (env : Env) (points : List Env) (r : Result α) (behind : α → Env) :
    Prop where
  path : ∃ last, env.Path points last
  last : ∀ a, r = .ok a → env.Path points (behind a)

namespace Follows

variable {α β : Type} {points : List Env} {r : Result α} {behind : α → Env} {f : α → Result β}
  {behind' : β → Env}

theorem nil (h : ∀ a, r = .ok a → behind a = env) : env.Follows [] r behind := by
  refine ⟨⟨env, .nil⟩, fun a ha => ?_⟩
  rw [h a ha]
  exact .nil

theorem move (hmove : env.Move next) (h : next.Follows points r behind) :
    env.Follows (next :: points) r behind := by
  obtain ⟨last, hpath⟩ := h.path
  exact ⟨⟨last, .cons hmove hpath⟩, fun a ha => .cons hmove (h.last a ha)⟩

theorem inRange (h : env.Follows points r behind) (henv : env.InRange) {a : α} (ha : r = .ok a) :
    (behind a).InRange :=
  ((h.last a ha).induction InRange.move henv).2

/-- A check that makes no move. -/
theorem check {next : α → List Env} (h : ∀ a, r = .ok a → env.Follows (next a) (f a) behind') :
    env.Follows (onward r next) (r >>= f) behind' := by
  cases r with
  | error fault => exact nil nofun
  | ok a => exact h a rfl

/-- One way behind another. -/
theorem append {next : α → List Env} (h : env.Follows points r behind)
    (g : ∀ a, r = .ok a → (behind a).Follows (next a) (f a) behind') :
    env.Follows (points ++ onward r next) (r >>= f) behind' := by
  cases r with
  | error fault =>
    rw [onward, List.append_nil]
    exact ⟨h.path, nofun⟩
  | ok a =>
    have hpath := h.last a rfl
    obtain ⟨last, hrest⟩ := (g a rfl).path
    exact ⟨⟨last, hpath.append hrest⟩, fun b hb => hpath.append ((g a rfl).last b hb)⟩

/-- A way with moves in front of it. -/
theorem after {last : Env} {front : List Env} (hpath : env.Path front last)
    (h : last.Follows points r behind) : env.Follows (front ++ points) r behind := by
  obtain ⟨_, hrest⟩ := h.path
  exact ⟨⟨_, hpath.append hrest⟩, fun a ha => hpath.append (h.last a ha)⟩

/-- What is put together in the end makes no move. -/
theorem finish (h : env.Follows points r behind)
    (g : ∀ a b, r = .ok a → f a = .ok b → behind' b = behind a) :
    env.Follows points (r >>= f) behind' := by
  refine ⟨h.path, fun b hb => ?_⟩
  obtain ⟨a, ha, hb⟩ := bind_eq_ok hb
  rw [g a b ha hb]
  exact h.last a ha

end Follows

namespace InRange

/-! ### Declarations -/

theorem declareVariable (henv : env.InRange) (name : Tree.Name) (readOnly : Bool)
    (type : Option Tree.TypeExpr) (written : Option Tree.Expr) (span : Span) :
    env.Follows
      (onward (declareVariable env name readOnly type written span) fun (_, next) => [next])
      (declareVariable env name readOnly type written span) Prod.snd := by
  cases h : Checking.declareVariable env name readOnly type written span with
  | error fault => exact .nil nofun
  | ok found =>
    obtain ⟨s, next⟩ := found
    obtain ⟨_, hgains⟩ := declareVariable_turns h
    obtain ⟨⟨ty, ⟨e, he, rfl⟩, rfl⟩, -⟩ := declareVariable_offers h
    refine .move (.addVariable hgains.new (he.inRange henv).ty) (.nil fun a ha => ?_)
    cases ha
    rfl

theorem declareParams (henv : env.InRange) (params : List Tree.Annotated) :
    env.Follows (env.paramPoints params) (declareParams env params) fun found => found.2.2 := by
  induction params generalizing env with
  | nil =>
    refine .nil fun a ha => ?_
    cases ha
    rfl
  | cons param params ih =>
    refine .check fun _ hnew => .check fun ty hty => .check fun _ _ => ?_
    have hmove : env.Move (env.addVariable param.name.text false ty).2 :=
      .addVariable (requireNew_eq_ok hnew) (resolveType_keeps henv.keeps param.type hty)
    refine .move hmove ((ih (henv.move hmove)).finish fun a b _ hb => ?_)
    cases hb
    rfl

/-- All types of parameters are known behind them. -/
theorem declareParams_known (henv : env.InRange) {params : List Tree.Annotated}
    {ids : List VariableId} {tys : List Ty} (h : env.PassesParams params ids tys next) :
    env.entities.NoShorter next.entities ∧ ∀ ty ∈ tys, ty.Known next.entities := by
  induction h with
  | nil => exact ⟨.refl _, List.forall_mem_nil _⟩
  | @cons env _ param _ ty _ _ hnew hty _ _ ih =>
    have hknown : ty.Known env.entities := resolveType_keeps henv.keeps param.type hty
    have hmove : env.Move (env.addVariable param.name.text false ty).2 := .addVariable hnew hknown
    obtain ⟨hlater, htys⟩ := ih (henv.move hmove)
    have hnoShorter := hmove.noShorter.trans hlater
    exact ⟨hnoShorter, List.forall_mem_cons.mpr ⟨hknown.grow hnoShorter, htys⟩⟩

theorem resultType (henv : env.InRange) {result : Option Tree.TypeExpr} {ty : Ty}
    (h : resultType env.scope result = .ok ty) : ty.Known env.entities := by
  cases result with
  | none =>
    cases h
    trivial
  | some type => exact resolveType_keeps henv.keeps type h

/-- The frame of a function, whose row is there before its parameters are. -/
theorem enterFunction (henv : env.InRange) {name : String}
    (hnew : env.scope.declares name = false) :
    let declared := (env.addFunction name).2
    let inside := declared.within (declared.scope.enterFunction env.entities.nextFunction)
    declared.Move inside ∧ inside.InRange ∧
      inside.entities.HasRow (.func env.entities.nextFunction) := by
  intro declared inside
  have hrow := (env.entities.addFunction_row ⟨name, ⟨[], .void⟩, false⟩).1
  have henter : declared.Move inside :=
    .enter { inLoop := some false, function := some (some env.entities.nextFunction) }
      fun id hid => by
        rw [← Option.some.inj (Option.some.inj hid)]
        exact hrow
  exact ⟨henter, (henv.move (.addFunction hnew)).move henter, hrow⟩

theorem openFunction (henv : env.InRange) (name : Tree.Name) (params : List Tree.Annotated)
    (result : Option Tree.TypeExpr) :
    env.Follows (env.openPoints name params result) (openFunction env name params result)
      OpenFunction.inner := by
  refine .check fun _ hnew => ?_
  have hadd : env.Move (env.addFunction name.text).2 := .addFunction (requireNew_eq_ok hnew)
  obtain ⟨henter, hinside, hrow⟩ := henv.enterFunction (requireNew_eq_ok hnew)
  refine .move hadd (.check fun ty hty => ?_)
  refine .move henter ((hinside.declareParams params).append fun a ha => ?_)
  obtain ⟨ids, tys, inner⟩ := a
  obtain ⟨hlater, hparams⟩ := hinside.declareParams_known (passesParams_of_declareParams ha)
  have hsignature : (Signature.ty ⟨tys, ty⟩).Known inner.entities :=
    ⟨Ty.knownAll_iff.mpr hparams, ((henv.move hadd).resultType hty).grow hlater⟩
  refine .move (.setSignature (hrow.mono hlater) hsignature) (.nil fun f hf => ?_)
  obtain ⟨E, hset, hf⟩ := look_bind_eq_ok hf
  cases hf
  rw [← Entities.setSignature_of_try hset]

theorem declareStruct (henv : env.InRange) (name : Tree.Name) (fields : List Tree.Annotated)
    (isClass : Bool) (span : Span) :
    env.Follows (env.structPoints name fields isClass span)
      (declareStruct env name fields isClass span) Prod.snd := by
  refine .check fun _ _ => .check fun _ hnew => ?_
  have hadd : env.Move (env.addStruct name.text isClass).2 := .addStruct (requireNew_eq_ok hnew)
  have hdeclared := henv.move hadd
  have hrow := (env.entities.addStruct_row ⟨name.text, [], isClass⟩).1
  refine .move hadd (.check fun rows hrows => ?_)
  refine .move (.setFields hrow (resolveFields_keeps hdeclared.keeps hrows))
    (.nil fun found h => ?_)
  obtain ⟨E, hset, h⟩ := look_bind_eq_ok h
  -- That the struct must not hold itself is the last rule, and makes no move.
  obtain ⟨circular, _, h⟩ := look_bind_eq_ok h
  obtain ⟨_, h⟩ := require_bind_eq_ok h
  cases h
  rw [← Entities.setFields_of_try hset]

/-- The variable of a caught error stands in a frame of its own. -/
theorem declareError (inside : Env) (hnew : ∀ name, inside.scope.declares name = false)
    (error : Option Tree.Name) :
    inside.Path (inside.errorPoints error) (declareError inside error).2 ∧
      (Checking.declareError inside error).2.scope.outer = inside.scope.outer := by
  cases error with
  | none => exact ⟨.nil, rfl⟩
  | some name => exact ⟨.cons (.addVariable (hnew name.text) trivial) .nil, rfl⟩

/-! ### Statements -/

/-- Behind braces the frame of what stands between them is left. -/
theorem braces {α : Type} {inside : Env} (henv : inside.InRange) {outer : Scope}
    (houter : inside.scope.outer = outer.frames) {points : List Env} {trees : List Tree.Stmt}
    (h : inside.Follows points (checkStmts inside trees) Prod.snd) {next : Env → List Env}
    {f : List Stmt × Env → Result α} {behind : α → Env}
    (g : ∀ (ss : List Stmt) (last : Env), (last.around outer).InRange →
      (last.around outer).Follows (next (last.around outer)) (f (ss, last)) behind) :
    inside.Follows (bracePoints outer points (checkStmts inside trees) next)
      (checkStmts inside trees >>= f) behind := by
  refine h.append fun found hfound => ?_
  obtain ⟨ss, last⟩ := found
  have hlast := h.inRange henv hfound
  have hmove : Move last (last.around outer) := by
    refine .leave ?_
    rw [Scope.leave?, checkStmts_outer hfound, houter]
    rfl
  exact .move hmove (g ss last (hlast.move hmove))

/-- A statement that ends with its braces. -/
theorem closing {inside : Env} (henv : inside.InRange) {outer : Scope}
    (houter : inside.scope.outer = outer.frames) {points : List Env} {trees : List Tree.Stmt}
    (h : inside.Follows points (checkStmts inside trees) Prod.snd)
    {make : List Stmt → Stmt} :
    inside.Follows (bracePoints outer points (checkStmts inside trees) fun _ => [])
      (checkStmts inside trees >>= fun x => pure (make x.1, x.2.around outer)) Prod.snd := by
  refine henv.braces houter h fun ss last _ => .nil fun a ha => ?_
  cases ha
  rfl

/-- A new frame without a function of its own. -/
theorem enter (henv : env.InRange) {o : Overrides} (ho : o.function = none) :
    env.Move (env.within (env.scope.enter o)) ∧ (env.within (env.scope.enter o)).InRange := by
  have hmove : env.Move (env.within (env.scope.enter o)) :=
    .enter o fun id hid => absurd hid (by rw [ho]; nofun)
  exact ⟨hmove, henv.move hmove⟩

/-- The frame of a loop with its iterator. -/
theorem iterator (henv : env.InRange) (name : String) (ty : Ty) (hty : ty.Known env.entities) :
    Move (env.within env.scope.enterLoop)
        ((env.within env.scope.enterLoop).addVariable name true ty).2 ∧
      ((env.within env.scope.enterLoop).addVariable name true ty).2.InRange := by
  have hinside := (henv.enter (o := { inLoop := some true }) rfl).2
  have hmove : Move (env.within env.scope.enterLoop)
      ((env.within env.scope.enterLoop).addVariable name true ty).2 :=
    .addVariable rfl hty
  exact ⟨hmove, hinside.move hmove⟩

mutual

/-- **From each point of a statement to the next one is a single move**, and if the statement
passes checking, the last point is what is behind it. -/
theorem stmt {env : Env} (henv : env.InRange) (tree : Tree.Stmt) :
    env.Follows (env.stmtPoints tree) (checkStmt env tree) Prod.snd := by
  cases tree with
  | declareVariable => exact henv.declareVariable _ _ _ _ _
  | declareStruct => exact henv.declareStruct _ _ _ _
  | declareFunction name params result body =>
    obtain ⟨body, _⟩ := body
    have hopen := henv.openFunction name params result
    refine hopen.append fun f hf => ?_
    have hinner := hopen.inRange henv hf
    exact hinner.closing (openFunction_outer hf) (hinner.stmts body)
  | ifThen test c =>
    obtain ⟨c, _⟩ := c
    obtain ⟨hmove, hinside⟩ := henv.enter (o := {}) rfl
    exact .check fun _ _ => .move hmove (hinside.closing rfl (hinside.stmts c))
  | whileLoop test body =>
    obtain ⟨body, _⟩ := body
    obtain ⟨hmove, hinside⟩ := henv.enter (o := { inLoop := some true }) rfl
    exact .check fun _ _ => .move hmove (hinside.closing rfl (hinside.stmts body))
  | ifElse test c a =>
    obtain ⟨c, _⟩ := c
    obtain ⟨a, _⟩ := a
    obtain ⟨hmove, hinside⟩ := henv.enter (o := {}) rfl
    refine .check fun _ _ => .move hmove ?_
    refine hinside.braces rfl (hinside.stmts c) fun ss last hmid => ?_
    obtain ⟨hmove, hinside⟩ := hmid.enter (o := {}) rfl
    exact .move hmove (hinside.closing rfl (hinside.stmts a))
  | ifElseIf test c a =>
    obtain ⟨c, _⟩ := c
    obtain ⟨hmove, hinside⟩ := henv.enter (o := {}) rfl
    refine .check fun _ _ => .move hmove ?_
    refine hinside.braces rfl (hinside.stmts c) fun ss last hmid => ?_
    refine (hmid.stmt a).finish fun found _ _ h => ?_
    cases h
    rfl
  | rangeLoop iterator low op high body =>
    obtain ⟨body, _⟩ := body
    obtain ⟨hmove, hinside⟩ := henv.enter (o := { inLoop := some true }) rfl
    obtain ⟨hadd, hinner⟩ := henv.iterator iterator.text .number trivial
    exact .check fun _ _ => .check fun _ _ =>
      .move hmove (.move hadd (hinner.closing rfl (hinner.stmts body)))
  | collectionLoop iterator tree body =>
    obtain ⟨body, _⟩ := body
    obtain ⟨hmove, hinside⟩ := henv.enter (o := { inLoop := some true }) rfl
    refine .check fun collection he => .check fun element hty => ?_
    have hknown := (checkExpr_inRange henv tree he).ty
    rw [elementOf_eq_ok hty] at hknown
    obtain ⟨hadd, hinner⟩ := henv.iterator iterator.text element hknown
    exact .move hmove (.move hadd (hinner.closing rfl (hinner.stmts body)))
  | tryCatch body error handler =>
    obtain ⟨body, _⟩ := body
    obtain ⟨handler, _⟩ := handler
    obtain ⟨hmove, hinside⟩ := henv.enter (o := {}) rfl
    refine .move hmove (hinside.braces rfl (hinside.stmts body) fun ss last hmid => ?_)
    obtain ⟨hmove, hinside⟩ := hmid.enter (o := {}) rfl
    obtain ⟨hpath, houter⟩ := declareError (last.around env.scope.enterBlock) (fun _ => rfl) error
    have hinner := (hpath.induction InRange.move hinside).2
    exact .move hmove (.after hpath (hinner.closing houter (hinner.stmts handler)))
  | ret | breakLoop | continueLoop | print | increment | decrement | assign | call =>
    refine .nil fun found h => ?_
    obtain ⟨s, next⟩ := found
    cases passesStmt_of_checkStmt h <;> rfl
termination_by structural tree

theorem stmts {env : Env} (henv : env.InRange) (trees : List Tree.Stmt) :
    env.Follows (env.stmtsPoints trees) (checkStmts env trees) Prod.snd := by
  cases trees with
  | nil =>
    refine .nil fun _ h => ?_
    cases h
    rfl
  | cons tree trees =>
    refine (henv.stmt tree).append fun found h => ?_
    have hnext := (henv.stmt tree).inRange henv h
    refine (hnext.stmts trees).finish fun _ _ _ h => ?_
    cases h
    rfl
termination_by structural trees

end

end InRange

/-! ### Whole programs -/

/-- **From each point of a program to the next one is a single move.** -/
theorem points_moves (trees : List Tree.Stmt) : List.IsChain Move (points trees) := by
  obtain ⟨last, hpath⟩ := (inRange_root.stmts trees).path
  exact hpath.chain

/-- **At every point all is in range.** -/
theorem points_inRange (trees : List Tree.Stmt) : ∀ site ∈ points trees, site.InRange := by
  obtain ⟨last, hpath⟩ := (inRange_root.stmts trees).path
  exact (hpath.induction InRange.move inRange_root).1

/-- The last point of a program that passes checking is the environment behind it. -/
theorem points_last {trees : List Tree.Stmt} {ss : List Stmt} {last : Env}
    (h : checkStmts ⟨.root, .initial⟩ trees = .ok (ss, last)) :
    (points trees).getLast? = some last :=
  ((inRange_root.stmts trees).last _ h).getLast?

/-- No table becomes shorter from a point to a later one. -/
theorem points_noShorter (trees : List Tree.Stmt) :
    (points trees).Pairwise fun earlier later => earlier.entities.NoShorter later.entities := by
  obtain ⟨last, hpath⟩ := (inRange_root.stmts trees).path
  exact hpath.pairwise

end Env

end TypedImp.Checking
