import TypedImp.Simplify.Expr

/-!
# Simplifying statements

A statement is simplified to a list of statements, which takes its place among
its neighbours: a conditional whose test is a literal leaves only the statements
of one side, and a loop that never runs leaves none.  As with expressions the
parts come first, and then at most one rule.

Behind `else` a conditional may turn into any list.  `joinElse` finds the form for
it: none at all, a single conditional, which can stay where it is, or a list
between braces.
-/

namespace TypedImp

namespace Stmt

/-- Picks a side of a conditional whose test is a literal. -/
def choose (test : Expr) (consequent alternate : List Stmt) (otherwise : Counted (List Stmt)) :
    Counted (List Stmt) :=
  match test.bool? with
  | some true => .once consequent
  | some false => .once alternate
  | none => otherwise

/-- A conditional with the statements that its alternate has become. -/
def joinElse (test : Expr) (consequent alternate : List Stmt) : Counted (List Stmt) :=
  match alternate with
  | [] => .once [.ifThen test consequent]
  | [stmt] =>
    if stmt.isConditional then pure [.ifElseIf test consequent stmt]
    else .once [.ifElse test consequent [stmt]]
  | stmts => .once [.ifElse test consequent stmts]

/-- Whether both bounds of a range are literals and the range is empty. -/
def isEmptyRange (low high : Expr) : Bool :=
  match low.number?, high.number? with
  | some l, some h => h < l
  | _, _ => false

/-- Whether a variable is assigned to itself. -/
def isSelfAssignment (target source : Expr) : Bool :=
  match target.var?, source.var? with
  | some t, some s => t == s
  | _, _ => false

/-- Leaves a statement out if it has no effect. -/
def dropIf (idle : Bool) (stmt : Stmt) : Counted (List Stmt) :=
  if idle then .once [] else pure [stmt]

end Stmt

def Expr.simplifyOption : Option Expr → Counted (Option Expr)
  | none => pure none
  | some e => do
    let e ← e.simplify
    pure (some e)

mutual

/-- The statements that take the place of a statement. -/
def Stmt.simplify : Stmt → Counted (List Stmt)
  | .declareVariable id initializer => do
    let initializer ← Expr.simplifyOption initializer
    pure [.declareVariable id initializer]
  | .declareFunction id params body => do
    let body ← Stmt.simplifyAll body
    pure [.declareFunction id params body]
  | .declareStruct id => pure [.declareStruct id]
  | .declareClass id => pure [.declareClass id]
  | .ifThen test consequent => do
    let test ← test.simplify
    let consequent ← Stmt.simplifyAll consequent
    choose test consequent [] (pure [.ifThen test consequent])
  | .ifElse test consequent alternate => do
    let test ← test.simplify
    let consequent ← Stmt.simplifyAll consequent
    let alternate ← Stmt.simplifyAll alternate
    choose test consequent alternate (pure [.ifElse test consequent alternate])
  | .ifElseIf test consequent alternate => do
    let test ← test.simplify
    let consequent ← Stmt.simplifyAll consequent
    let alternate ← alternate.simplify
    choose test consequent alternate (joinElse test consequent alternate)
  | .whileLoop test body => do
    let test ← test.simplify
    let body ← Stmt.simplifyAll body
    dropIf (test.bool? == some false) (.whileLoop test body)
  | .rangeLoop iterator low op high body => do
    let low ← low.simplify
    let high ← high.simplify
    let body ← Stmt.simplifyAll body
    dropIf (isEmptyRange low high) (.rangeLoop iterator low op high body)
  | .collectionLoop iterator collection body => do
    let collection ← collection.simplify
    let body ← Stmt.simplifyAll body
    dropIf collection.isEmptyArray (.collectionLoop iterator collection body)
  | .ret value => do
    let value ← Expr.simplifyOption value
    pure [.ret value]
  | .breakLoop => pure [.breakLoop]
  | .continueLoop => pure [.continueLoop]
  | .tryCatch body error handler => do
    let body ← Stmt.simplifyAll body
    let handler ← Stmt.simplifyAll handler
    pure [.tryCatch body error handler]
  | .print value => do
    let value ← value.simplify
    pure [.print value]
  | .increment target => do
    let target ← target.simplify
    pure [.increment target]
  | .decrement target => do
    let target ← target.simplify
    pure [.decrement target]
  | .assign target source => do
    let target ← target.simplify
    let source ← source.simplify
    dropIf (isSelfAssignment target source) (.assign target source)
  | .call c => do
    let c ← c.simplify
    pure [.call c]

def Stmt.simplifyAll : List Stmt → Counted (List Stmt)
  | [] => pure []
  | stmt :: stmts => do
    let first ← stmt.simplify
    let others ← Stmt.simplifyAll stmts
    pure (first ++ others)

end

/-- A program with its statements simplified. -/
def Program.simplify (p : Program) : Counted Program := do
  let statements ← Stmt.simplifyAll p.statements
  pure { p with statements }

end TypedImp
