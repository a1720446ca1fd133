import TypedImp.Checking.Expr

/-!
# Checking statements

A statement may declare something, so checking one yields an environment for the
statements behind it.  Statements within braces are checked in a frame of their
own, and what they declare is visible only there: `Env.around` keeps the rows
that were added to the tables and goes back to the scope in front of the brace.

A function or struct is bound before its own declaration is looked at, so that it
can mention itself; its row is completed as soon as the parameters or fields are
known, before the body of a function is checked.

The rules are looked at in a fixed order, the one in which they are written here,
and the first broken one is reported.
-/

namespace TypedImp.Checking

namespace Env

/-- The environment behind a pair of braces: the tables from within, the scope
from outside. -/
def around (inner : Env) (scope : Scope) : Env := ⟨scope, inner.entities⟩

/-- The same tables in another scope. -/
def within (env : Env) (scope : Scope) : Env := ⟨scope, env.entities⟩

/-- A new variable, bound in the current frame. -/
def addVariable (env : Env) (name : String) (readOnly : Bool) (ty : Ty) : VariableId × Env :=
  let id := env.entities.nextVariable
  (id, ⟨env.scope.bind name (.var id), env.entities.addVariable ⟨name, readOnly, ty⟩⟩)

/-- A new function without its signature, bound in the current frame. -/
def addFunction (env : Env) (name : String) : FunctionId × Env :=
  let id := env.entities.nextFunction
  (id, ⟨env.scope.bind name (.func id), env.entities.addFunction ⟨name, ⟨[], .void⟩, false⟩⟩)

/-- A new struct without its fields, bound in the current frame. -/
def addStruct (env : Env) (name : String) (isClass : Bool) : StructId × Env :=
  let id := env.entities.nextStruct
  (id, ⟨env.scope.bind name (.struct id), env.entities.addStruct ⟨name, [], isClass⟩⟩)

/-- A name is declared at most once in a frame. -/
def requireNew (env : Env) (name : Tree.Name) : Result Unit :=
  require (!env.scope.declares name.text) (.alreadyDeclared name.text) name.span

end Env

def requireNotVoid (ty : Ty) (span : Span) : Result Unit :=
  require (!ty.isVoid) .voidVariable span

/-! ### Declarations -/

def checkOption (env : Env) : Option Tree.Expr → Result (Option Expr)
  | none => pure none
  | some e => do
    let checked ← checkExpr env e
    pure (some checked)

/-- The type of a new variable: the one written, which its initial value must
fit, or else that of its initial value. -/
def variableTy (env : Env) (name : Tree.Name) (type : Option Tree.TypeExpr)
    (written : Option Tree.Expr) (initializer : Option Expr) : Result Ty :=
  match type, initializer with
  | some type, initializer => do
    let ty ← resolveType env.scope type
    match initializer, written with
    | some value, some tree => requireAssignable env.entities value ty tree.span
    | _, _ => pure ()
    pure ty
  | none, some value => pure value.ty
  | none, none => refuse (.noTypeFor name.text) name.span

/-- A variable is not visible in its own initial value. -/
def declareVariable (env : Env) (name : Tree.Name) (readOnly : Bool)
    (type : Option Tree.TypeExpr) (written : Option Tree.Expr) (span : Span) :
    Result (Stmt × Env) := do
  require (!readOnly || written.isSome) .constantWithoutValue span
  env.requireNew name
  let initializer ← checkOption env written
  let ty ← variableTy env name type written initializer
  requireNotVoid ty span
  let (id, env) := env.addVariable name.text readOnly ty
  pure (.declareVariable id initializer, env)

/-- The variables of parameters, their types, and the environment behind them. -/
def declareParams (env : Env) : List Tree.Annotated → Result (List VariableId × List Ty × Env)
  | [] => pure ([], [], env)
  | param :: params => do
    env.requireNew param.name
    let ty ← resolveType env.scope param.type
    requireNotVoid ty param.span
    let (id, env) := env.addVariable param.name.text false ty
    let (ids, tys, env) ← declareParams env params
    pure (id :: ids, ty :: tys, env)

/-- A function declared up to its body. -/
structure OpenFunction where
  id : FunctionId
  params : List VariableId
  /-- Where the body is checked. -/
  inner : Env
  /-- The scope behind the declaration. -/
  outer : Scope

def resultType (scope : Scope) : Option Tree.TypeExpr → Result Ty
  | none => pure .void
  | some type => resolveType scope type

def openFunction (env : Env) (name : Tree.Name) (params : List Tree.Annotated)
    (result : Option Tree.TypeExpr) : Result OpenFunction := do
  env.requireNew name
  let (id, env) := env.addFunction name.text
  let result ← resultType env.scope result
  let (ids, tys, inner) ← declareParams (env.within (env.scope.enterFunction id)) params
  let entities ← look (inner.entities.trySetSignature id ⟨tys, result⟩) name.span
  pure ⟨id, ids, ⟨inner.scope, entities⟩, env.scope⟩

/-- The fields of a struct, whose names must differ from each other and from those seen. -/
def resolveFields (scope : Scope) (seen : List String) :
    List Tree.Annotated → Result (List Field)
  | [] => pure []
  | field :: fields => do
    require (!seen.contains field.name.text) .repeatedField field.name.span
    let ty ← resolveType scope field.type
    let others ← resolveFields scope (field.name.text :: seen) fields
    pure (⟨field.name.text, ty⟩ :: others)

def declareStruct (env : Env) (name : Tree.Name) (fields : List Tree.Annotated)
    (isClass : Bool) (span : Span) : Result (Stmt × Env) := do
  require env.scope.function.isNone .structInFunction span
  env.requireNew name
  let (id, env) := env.addStruct name.text isClass
  let fields ← resolveFields env.scope [] fields
  let entities ← look (env.entities.trySetFields id fields) name.span
  let circular ← look (entities.tryContains id id) name.span
  require (!circular) .selfContaining name.span
  pure (if isClass then .declareClass id else .declareStruct id, ⟨env.scope, entities⟩)

/-! ### Statements -/

def checkReturn (env : Env) (value : Option Tree.Expr) (span : Span) : Result Stmt :=
  match env.scope.function with
  | none => refuse .returnOutsideFunction span
  | some id => do
    let result := (← look (env.entities.tryFunction id) span).signature.result
    match value with
    | some tree => do
      require (!result.isVoid) .valueFromVoid span
      let value ← checkExpr env tree
      requireAssignable env.entities value result tree.span
      pure (.ret (some value))
    | none => do
      require result.isVoid .missingValue span
      pure (.ret none)

/-- The variable of a caught error, which only the handler sees. -/
def declareError (env : Env) : Option Tree.Name → Option VariableId × Env
  | none => (none, env)
  | some name =>
    let (id, env) := env.addVariable name.text true .string
    (some id, env)

mutual

/-- The statement that a tree stands for, and the environment behind it. -/
def checkStmt (env : Env) : Tree.Stmt → Result (Stmt × Env)
  | .declareVariable name readOnly type written span =>
    declareVariable env name readOnly type written span
  | .declareFunction name params result ⟨body, _⟩ _ => do
    let f ← openFunction env name params result
    let (body, last) ← checkStmts f.inner body
    pure (.declareFunction f.id f.params body, last.around f.outer)
  | .declareStruct name fields isClass span => declareStruct env name fields isClass span
  | .ifThen test ⟨consequent, _⟩ _ => do
    let test ← checkCondition env test
    let (consequent, last) ← checkStmts (env.within env.scope.enterBlock) consequent
    pure (.ifThen test consequent, last.around env.scope)
  | .ifElse test ⟨consequent, _⟩ ⟨alternate, _⟩ _ => do
    let test ← checkCondition env test
    let (consequent, last) ← checkStmts (env.within env.scope.enterBlock) consequent
    let (alternate, last) ← checkStmts (last.around env.scope.enterBlock) alternate
    pure (.ifElse test consequent alternate, last.around env.scope)
  | .ifElseIf test ⟨consequent, _⟩ alternate _ => do
    let test ← checkCondition env test
    let (consequent, last) ← checkStmts (env.within env.scope.enterBlock) consequent
    let (alternate, last) ← checkStmt (last.around env.scope) alternate
    pure (.ifElseIf test consequent alternate, last)
  | .whileLoop test ⟨body, _⟩ _ => do
    let test ← checkCondition env test
    let (body, last) ← checkStmts (env.within env.scope.enterLoop) body
    pure (.whileLoop test body, last.around env.scope)
  | .rangeLoop iterator low op high ⟨body, _⟩ _ => do
    let low ← checkNumber env low
    let high ← checkNumber env high
    let (id, inner) := (env.within env.scope.enterLoop).addVariable iterator.text true .number
    let (body, last) ← checkStmts inner body
    pure (.rangeLoop id low op high body, last.around env.scope)
  | .collectionLoop iterator tree ⟨body, _⟩ _ => do
    let collection ← checkExpr env tree
    let element ← elementOf collection tree.span
    let (id, inner) := (env.within env.scope.enterLoop).addVariable iterator.text true element
    let (body, last) ← checkStmts inner body
    pure (.collectionLoop id collection body, last.around env.scope)
  | .ret value span => do
    let stmt ← checkReturn env value span
    pure (stmt, env)
  | .breakLoop span => do
    require env.scope.inLoop .breakOutsideLoop span
    pure (.breakLoop, env)
  | .continueLoop span => do
    require env.scope.inLoop .continueOutsideLoop span
    pure (.continueLoop, env)
  | .tryCatch ⟨body, _⟩ error ⟨handler, _⟩ _ => do
    let (body, last) ← checkStmts (env.within env.scope.enterBlock) body
    let (error, inner) := declareError (last.around env.scope.enterBlock) error
    let (handler, last) ← checkStmts inner handler
    pure (.tryCatch body error handler, last.around env.scope)
  | .print value _ => do
    let value ← checkExpr env value
    pure (.print value, env)
  | .increment target _ => do
    let target ← checkNumberTarget env target
    pure (.increment target, env)
  | .decrement target _ => do
    let target ← checkNumberTarget env target
    pure (.decrement target, env)
  | .assign target tree _ => do
    let target ← checkTarget env target
    let source ← checkExpr env tree
    requireAssignable env.entities source target.ty tree.span
    pure (.assign target source, env)
  | .call call _ => do
    let call ← checkExpr env call
    pure (.call call, env)

def checkStmts (env : Env) : List Tree.Stmt → Result (List Stmt × Env)
  | [] => pure ([], env)
  | stmt :: stmts => do
    let (stmt, env) ← checkStmt env stmt
    let (stmts, env) ← checkStmts env stmts
    pure (stmt :: stmts, env)

end

end TypedImp.Checking

namespace TypedImp

/-- The program that a list of statements stands for, or the first rule it breaks. -/
def Program.ofTree (stmts : List Tree.Stmt) : Checking.Result Program := do
  let (statements, last) ← Checking.checkStmts ⟨.root, .initial⟩ stmts
  pure ⟨statements, last.entities⟩

end TypedImp
