import TypedImp.Checking.Fault
import TypedImp.Program.Basic
import TypedImp.Scope
import TypedImp.Tree

/-!
# Checking expressions

`resolveType` finds the type that a type expression stands for, and `checkExpr`
the expression with its type.  Neither declares anything, so both only read the
scope and the tables.  Parts are checked from left to right, and each is held to
the rules that concern it before the next one is looked at; the first broken rule
is the one reported.
-/

namespace TypedImp.Checking

/-- What a part of a program is checked against. -/
structure Env where
  scope : Scope
  entities : Entities

/-! ### Types -/

mutual

/-- The type that a type expression stands for. -/
def resolveType (scope : Scope) : Tree.TypeExpr → Result Ty
  | .named name =>
    match scope.find? name.text with
    | some (.type ty) => pure ty
    | some (.struct id) => pure (.struct id)
    | some _ => refuse .typeExpected name.span
    | none => refuse (.notDeclared name.text) name.span
  | .array element _ => do
    let element ← resolveType scope element
    pure (.array element)
  | .function params result _ => do
    let params ← resolveTypes scope params
    let result ← resolveType scope result
    pure (.function params result)

def resolveTypes (scope : Scope) : List Tree.TypeExpr → Result (List Ty)
  | [] => pure []
  | type :: types => do
    let ty ← resolveType scope type
    let tys ← resolveTypes scope types
    pure (ty :: tys)

end

/-! ### Rules on single types -/

def requireNumber (e : Expr) (span : Span) : Result Unit :=
  require e.ty.isNumber .numberExpected span

def requireBool (e : Expr) (span : Span) : Result Unit :=
  require e.ty.isBool .boolExpected span

/-- A value is stored where the type `target` is wanted. -/
def requireAssignable (entities : Entities) (source : Expr) (target : Ty) (span : Span) :
    Result Unit :=
  if source.ty.assignableTo target then pure ()
  else do
    let given ← look (entities.tryDescribe source.ty) span
    let wanted ← look (entities.tryDescribe target) span
    refuse (.notAssignable given wanted) span

/-- The type of the elements of an array. -/
def elementOf (array : Expr) (span : Span) : Result Ty :=
  match array.ty.element? with
  | some element => pure element
  | none => refuse .arrayExpected span

/-! ### Operators -/

/-- What a binary operator wants of its operands. -/
inductive Operands where
  | bools
  | numbers
  /-- Two numbers or two strings. -/
  | ordered
  /-- Two values of any one type. -/
  | alike
deriving DecidableEq, Repr

def operandsOf : BinaryOp → Operands
  | .or | .and => .bools
  | .sub | .mul | .div | .pow => .numbers
  | .add | .lt | .le | .gt | .ge => .ordered
  | .eq | .ne => .alike

def requireLeft (operands : Operands) (left : Expr) (span : Span) : Result Unit :=
  match operands with
  | .bools => requireBool left span
  | .numbers => requireNumber left span
  | .ordered => require left.ty.isNumberOrString .numberOrStringExpected span
  | .alike => pure ()

def requireRight (operands : Operands) (left right : Expr) (span : Span) : Result Unit :=
  match operands with
  | .bools => requireBool right span
  | .numbers => requireNumber right span
  | .ordered | .alike => require (right.ty.equivalent left.ty) .differentOperands span

/-- The type of a binary expression, from the type of its left operand. -/
def resultTy (op : BinaryOp) (left : Ty) : Ty :=
  match op with
  | .add => left
  | .sub | .mul | .div | .pow => .number
  | .or | .and | .eq | .ne | .lt | .le | .gt | .ge => .bool

/-! ### Expressions -/

/-- What a name stands for as a value. -/
def checkName (env : Env) (name : Tree.Name) : Result Expr :=
  match env.scope.find? name.text with
  | some (.var id) => do
    let row ← look (env.entities.tryVariable id) name.span
    pure (.var id row.ty)
  | some (.func id) => do
    let row ← look (env.entities.tryFunction id) name.span
    pure (.func id row.signature.ty)
  | some (.struct id) => do
    let signature ← look (env.entities.tryConstructor id) name.span
    pure (.struct id signature.ty)
  | some (.type _) => refuse (.typeAsValue name.text) name.span
  | none => refuse (.notDeclared name.text) name.span

/-- The type of a field of a value. -/
def fieldTy (entities : Entities) (object : Ty) (field : Tree.Name) : Result Ty :=
  match object with
  | .struct id => do
    match ← look (entities.tryField id field.text) field.span with
    | some found => pure found.ty
    | none => refuse .noSuchField field.span
  | _ => refuse .noSuchField field.span

/-- The signature of a callee that takes so many arguments. -/
def signatureFor (callee : Expr) (count : Nat) (span : Span) : Result Signature :=
  match callee.ty.signature? with
  | some signature => do
    require (signature.params.length == count)
      (.argumentCount signature.params.length count) span
    pure signature
  | none => refuse .notFunction span

/-- The type of an array literal, from its elements. -/
def arrayTy (elements : List Expr) (span : Span) : Result Ty :=
  match elements with
  | [] => refuse .typeExpected span
  | first :: _ => do
    require (elements.all fun e => e.ty.equivalent first.ty) .differentElements span
    pure (.array first.ty)

mutual

/-- The expression that a tree stands for. -/
def checkExpr (env : Env) : Tree.Expr → Result Expr
  | .number value _ => pure (.number value .number)
  | .string value _ => pure (.string value .string)
  | .bool value _ => pure (.bool value .bool)
  | .name name => checkName env name
  | .binary op left right _ => do
    let l ← checkExpr env left
    requireLeft (operandsOf op) l left.span
    let r ← checkExpr env right
    requireRight (operandsOf op) l r right.span
    pure (.binary op l r (resultTy op l.ty))
  | .unary op operand _ => do
    let e ← checkExpr env operand
    match op with
    | .neg => do
      requireNumber e operand.span
      pure (.unary .neg e .number)
    | .not => do
      requireBool e operand.span
      pure (.unary .not e .bool)
  | .array elements span => do
    let elements ← checkExprs env elements
    let ty ← arrayTy elements span
    pure (.array elements ty)
  | .emptyArray element _ => do
    let element ← resolveType env.scope element
    pure (.array [] (.array element))
  | .call callee args span => do
    let callee ← checkExpr env callee
    let signature ← signatureFor callee args.length span
    let args ← checkArgs env args signature.params
    pure (.call callee args signature.result)
  | .member object field _ => do
    let object ← checkExpr env object
    let ty ← fieldTy env.entities object.ty field
    pure (.member object field.text ty)
  | .subscript array index _ => do
    let a ← checkExpr env array
    let element ← elementOf a array.span
    let i ← checkExpr env index
    requireNumber i index.span
    pure (.subscript a i element)

def checkExprs (env : Env) : List Tree.Expr → Result (List Expr)
  | [] => pure []
  | e :: es => do
    let e ← checkExpr env e
    let es ← checkExprs env es
    pure (e :: es)

/-- Arguments for parameters of the given types. -/
def checkArgs (env : Env) : List Tree.Expr → List Ty → Result (List Expr)
  | e :: es, ty :: tys => do
    let arg ← checkExpr env e
    requireAssignable env.entities arg ty e.span
    let args ← checkArgs env es tys
    pure (arg :: args)
  | _, _ => pure []

end

def checkNumber (env : Env) (e : Tree.Expr) : Result Expr := do
  let checked ← checkExpr env e
  requireNumber checked e.span
  pure checked

def checkCondition (env : Env) (e : Tree.Expr) : Result Expr := do
  let checked ← checkExpr env e
  requireBool checked e.span
  pure checked

/-- A place that can be written to: a variable that is not read-only, a field, or
an element. -/
def checkTarget (env : Env) (e : Tree.Expr) : Result Expr := do
  let checked ← checkExpr env e
  match checked with
  | .var id _ =>
    let row ← look (env.entities.tryVariable id) e.span
    require (!row.readOnly) (.constantTarget row.name) e.span
  | .member .. | .subscript .. => pure ()
  | _ => refuse .notTarget e.span
  pure checked

/-- A place of a number that can be written to. -/
def checkNumberTarget (env : Env) (e : Tree.Expr) : Result Expr := do
  let checked ← checkTarget env e
  requireNumber checked e.span
  pure checked

end TypedImp.Checking
