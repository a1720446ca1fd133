import TypedImp.Proofs.Grammar.Built
import TypedImp.Proofs.Scoping.Distinct

/-!
# What a statement does to its scope

A declaration adds one name to the frame that it stands in, a name that the frame did not have.
All other names of the frame stay as they are, and so do the frames around it and what the frame
says of loops and functions; `Scope.Gains` is this change.  A statement that is no declaration
leaves the scope as it is.

**`checkStmt_turns`**: every statement that passes checking does one or the other, whatever is
declared within it.  The statement behind an `else` without braces would be checked in the same
frame, but the grammar puts only another `if` there, which is no declaration
(`Tree.Stmt.Built.binds?_eq`).
-/

namespace TypedImp

/-! ### Declarations -/

namespace Tree.Stmt

def name? : Stmt → Option String
  | declareVariable name .. | declareFunction name .. | declareStruct name .. => some name.text
  | _ => none

/-- The name that a statement adds to the frame in which it stands. -/
def binds? : Stmt → Option String
  | ifElseIf _ _ alternate _ => alternate.binds?
  | s => s.name?

theorem binds?_of_isConditional {Q : Token.Kind → Prop} (s : Stmt) (hs : s.Built Q)
    (h : s.isConditional = true) : s.binds? = none := by
  cases s with
  | ifThen | ifElse => rfl
  | ifElseIf test c a =>
    obtain ⟨c, _⟩ := c
    exact binds?_of_isConditional a hs.2.2.2 hs.2.2.1
  | _ => cases h
termination_by structural s

/-- **In a tree that the grammar builds only a declaration adds its name.** -/
theorem Built.binds?_eq {Q : Token.Kind → Prop} {s : Stmt} (h : s.Built Q) :
    s.binds? = s.name? := by
  cases s with
  | ifElseIf test c a => exact binds?_of_isConditional _ h rfl
  | _ => rfl

end Tree.Stmt

/-! ### Scopes -/

namespace Scope

def frames (s : Scope) : List Frame := s.current :: s.outer

theorem frames_of_leave? {s outer : Scope} (h : s.leave? = some outer) :
    s.frames = s.current :: outer.frames := by
  cases ho : s.outer with
  | nil => simp [leave?, ho] at h
  | cons front others =>
    simp only [leave?, ho, Option.some.injEq] at h
    rw [← h, frames, frames, ho]

/-- **A scope has gained a name**, and nothing else has changed. -/
structure Gains (s : Scope) (name : String) (b : Binding) (s' : Scope) : Prop where
  new : s.declares name = false
  bindings : s'.current.bindings = (name, b) :: s.current.bindings
  found : s'.find? name = some b
  others : ∀ x, x ≠ name → s'.find? x = s.find? x
  inLoop : s'.inLoop = s.inLoop
  function : s'.function = s.function
  outer : s'.outer = s.outer

/-- What becomes of a scope behind a statement that adds a name, or that adds none. -/
def Turns (s : Scope) (name? : Option String) (s' : Scope) : Prop :=
  match name? with
  | some name => ∃ b, s.Gains name b s'
  | none => s' = s

variable {s s' : Scope} {name : String}

theorem gains_bind (h : s.declares name = false) (b : Binding) :
    s.Gains name b (s.bind name b) where
  new := h
  bindings := rfl
  found := by rw [find?_bind, if_pos rfl]
  others x hx := by rw [find?_bind, if_neg hx]
  inLoop := rfl
  function := rfl
  outer := rfl

theorem Turns.outer {name? : Option String} (h : s.Turns name? s') : s'.outer = s.outer := by
  cases name? with
  | none => exact congrArg Scope.outer h
  | some name =>
    obtain ⟨b, hgains⟩ := h
    exact hgains.outer

end Scope

/-! ### Statements -/

namespace Checking

variable {env env' : Env}

theorem declareVariable_turns {name : Tree.Name} {readOnly : Bool} {type : Option Tree.TypeExpr}
    {written : Option Tree.Expr} {span : Span} {s : Stmt}
    (h : declareVariable env name readOnly type written span = .ok (s, env')) :
    env.scope.Turns (some name.text) env'.scope := by
  obtain ⟨e, ty, hnew, _, _, _, _, rfl⟩ := declareVariable_eq_ok h
  exact ⟨_, Scope.gains_bind hnew _⟩

theorem declareStruct_turns {name : Tree.Name} {fields : List Tree.Annotated} {isClass : Bool}
    {span : Span} {s : Stmt} (h : declareStruct env name fields isClass span = .ok (s, env')) :
    env.scope.Turns (some name.text) env'.scope := by
  obtain ⟨rows, _, hnew, _, _, _, rfl⟩ := declareStruct_eq_ok h
  exact ⟨_, Scope.gains_bind hnew _⟩

theorem openFunction_turns {name : Tree.Name} {params : List Tree.Annotated}
    {result : Option Tree.TypeExpr} {f : OpenFunction}
    (h : openFunction env name params result = .ok f) :
    env.scope.Turns (some name.text) f.outer := by
  obtain ⟨ty, ids, tys, inner, hnew, _, _, rfl⟩ := openFunction_eq_ok h
  exact ⟨_, Scope.gains_bind hnew _⟩

/-- Parameters are bound in one frame. -/
theorem Env.PassesParams.outer {params : List Tree.Annotated} {ids : List VariableId}
    {tys : List Ty} (h : env.PassesParams params ids tys env') :
    env'.scope.outer = env.scope.outer := by
  induction h with
  | nil => rfl
  | cons _ _ _ _ _ ih => exact ih.trans rfl

/-- It is the frame of the body, and the frames around it are those behind the declaration. -/
theorem openFunction_outer {name : Tree.Name} {params : List Tree.Annotated}
    {result : Option Tree.TypeExpr} {f : OpenFunction}
    (h : openFunction env name params result = .ok f) :
    f.inner.scope.outer = f.outer.frames := by
  obtain ⟨ty, ids, tys, inner, _, _, hparams, rfl⟩ := openFunction_eq_ok h
  exact hparams.outer

/-- **A statement adds its name to the scope if it is a declaration, and nothing otherwise.**  All
frames that are opened for what stands within it are gone behind it. -/
theorem checkStmt_turns (tree : Tree.Stmt) {env next : Env} {s : Stmt}
    (h : checkStmt env tree = .ok (s, next)) : env.scope.Turns tree.binds? next.scope := by
  cases passesStmt_of_checkStmt h with
  | declareVariable h => exact declareVariable_turns h
  | declareStruct h => exact declareStruct_turns h
  | declareFunction hf => exact openFunction_turns hf
  | ifElseIf _ _ _ ha =>
    -- The alternate stands in the frame of the whole.
    have hturns := checkStmt_turns _ ha
    exact hturns
  | _ => exact rfl
termination_by tree

/-- Statements stand in one frame, whatever is within them. -/
theorem checkStmts_outer {trees : List Tree.Stmt} {env last : Env} {ss : List Stmt}
    (h : checkStmts env trees = .ok (ss, last)) : last.scope.outer = env.scope.outer := by
  induction trees generalizing env ss with
  | nil =>
    cases h
    rfl
  | cons tree trees ih =>
    obtain ⟨s, mid, others, hs, hothers, rfl⟩ := checkStmts_cons_eq_ok h
    exact (ih hothers).trans (checkStmt_turns tree hs).outer

end Checking

end TypedImp
