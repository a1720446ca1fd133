import TypedImp.Program.Listing

/-!
# Printing

How a run comes to the listing of a program: the same text as `Program.listing`, but every name
and every type is read from the tables, and where an index has no row, there is no text.  Parts
are read from left to right, so the first index without a row is the one reported.
-/

namespace TypedImp

namespace Listing

def tryVariable (e : Entities) (id : VariableId) : Lookup String := do
  let row ← e.tryVariable id
  pure (indexed row.name id.index)

def tryFunction (e : Entities) (id : FunctionId) : Lookup String := do
  let row ← e.tryFunction id
  pure (if row.builtin then row.name else indexed row.name id.index)

def tryStruct (e : Entities) (id : StructId) : Lookup String := do
  let row ← e.tryStruct id
  pure (indexed row.name id.index)

mutual

def tryExpr (e : Entities) : Expr → Lookup String
  | .number value _ => pure (Decimal.text value)
  | .string value _ => pure (Text.quote value)
  | .bool value _ => pure (if value then "true" else "false")
  | .var id _ => tryVariable e id
  | .func id _ => tryFunction e id
  | .struct id _ => tryStruct e id
  | .binary op left right _ => do
    let left ← tryExpr e left
    let right ← tryExpr e right
    pure ("(" ++ left ++ " " ++ op.spelling ++ " " ++ right ++ ")")
  | .unary op operand _ => do
    let text ← tryExpr e operand
    pure (if operand.isUnary then op.spelling ++ "(" ++ text ++ ")" else op.spelling ++ text)
  | .array [] ty => do
    let ty ← e.tryDescribe ty
    pure (ty ++ "()")
  | .array (first :: others) _ => do
    let first ← tryExpr e first
    let others ← tryExprs e others
    pure ("[" ++ commaSeparated (first :: others) ++ "]")
  | .call callee args _ => do
    let callee ← tryExpr e callee
    let args ← tryExprs e args
    pure (callee ++ "(" ++ commaSeparated args ++ ")")
  | .member object field _ => do
    let object ← tryExpr e object
    pure (object ++ "." ++ field)
  | .subscript array index _ => do
    let array ← tryExpr e array
    let index ← tryExpr e index
    pure (array ++ "[" ++ index ++ "]")

def tryExprs (e : Entities) : List Expr → Lookup (List String)
  | [] => pure []
  | x :: xs => do
    let text ← tryExpr e x
    let texts ← tryExprs e xs
    pure (text :: texts)

end

def tryAnnotated (e : Entities) (name : String) (ty : Ty) : Lookup String := do
  let ty ← e.tryDescribe ty
  pure (name ++ ": " ++ ty)

/-- A parameter with its type. -/
def tryParam (e : Entities) (id : VariableId) : Lookup String := do
  let name ← tryVariable e id
  let row ← e.tryVariable id
  tryAnnotated e name row.ty

def tryFunctionHeader (e : Entities) (id : FunctionId) (params : List VariableId) :
    Lookup String := do
  let row ← e.tryFunction id
  let params ← params.mapM (tryParam e)
  let name ← tryFunction e id
  let result ← e.tryDescribe row.signature.result
  pure ("fn " ++ name ++ "(" ++ commaSeparated params ++ "): " ++ result)

def tryVariableLine (e : Entities) (id : VariableId) (initializer : Option Expr) :
    Lookup String := do
  let row ← e.tryVariable id
  let name ← tryVariable e id
  let declared ← tryAnnotated e name row.ty
  let value ← match initializer with
    | some x => do
      let x ← tryExpr e x
      pure (" = " ++ x)
    | none => pure ""
  pure ((if row.readOnly then "const " else "let ") ++ declared ++ value ++ ";")

def tryStructLine (e : Entities) (id : StructId) : Lookup String := do
  let row ← e.tryStruct id
  let fields ← row.fields.mapM fun field => tryAnnotated e field.name field.ty
  pure ((if row.isClass then "class " else "struct ") ++ indexed row.name id.index ++
    " \x7b " ++ commaSeparated fields ++ " \x7d")

mutual

def tryStmt (e : Entities) (depth : Nat) : Stmt → Lookup (List Line)
  | .declareFunction id params body => do
    let header ← tryFunctionHeader e id params
    let body ← tryStmts e (depth + 1) body
    pure (braced depth header body)
  | .declareVariable id initializer => do
    let text ← tryVariableLine e id initializer
    pure [⟨depth, text⟩]
  | .declareStruct id | .declareClass id => do
    let text ← tryStructLine e id
    pure [⟨depth, text⟩]
  | .ifElse test consequent alternate => do
    let test ← tryExpr e test
    let consequent ← tryStmts e (depth + 1) consequent
    let alternate ← tryStmts e (depth + 1) alternate
    pure (braced depth ("if " ++ test) consequent ++ braced depth "else" alternate)
  | .ifThen test consequent => do
    let test ← tryExpr e test
    let consequent ← tryStmts e (depth + 1) consequent
    pure (braced depth ("if " ++ test) consequent)
  | .ifElseIf test consequent alternate => do
    let test ← tryExpr e test
    let consequent ← tryStmts e (depth + 1) consequent
    let alternate ← tryStmt e depth alternate
    pure (braced depth ("if " ++ test) consequent ++ ⟨depth, "else"⟩ :: alternate)
  | .rangeLoop iterator low op high body => do
    let iterator ← tryVariable e iterator
    let low ← tryExpr e low
    let high ← tryExpr e high
    let body ← tryStmts e (depth + 1) body
    pure (braced depth ("for " ++ iterator ++ " in " ++ low ++ " " ++ op.spelling ++ " " ++ high)
      body)
  | .collectionLoop iterator collection body => do
    let iterator ← tryVariable e iterator
    let collection ← tryExpr e collection
    let body ← tryStmts e (depth + 1) body
    pure (braced depth ("for " ++ iterator ++ " in " ++ collection) body)
  | .whileLoop test body => do
    let test ← tryExpr e test
    let body ← tryStmts e (depth + 1) body
    pure (braced depth ("while " ++ test) body)
  | .ret none => pure [⟨depth, "return;"⟩]
  | .ret (some value) => do
    let value ← tryExpr e value
    pure [⟨depth, "return " ++ value ++ ";"⟩]
  | .breakLoop => pure [⟨depth, "break;"⟩]
  | .continueLoop => pure [⟨depth, "continue;"⟩]
  | .tryCatch body error handler => do
    let body ← tryStmts e (depth + 1) body
    let header ← match error with
      | some id => do
        let name ← tryVariable e id
        pure ("catch " ++ name)
      | none => pure "catch"
    let handler ← tryStmts e (depth + 1) handler
    pure (braced depth "try" body ++ braced depth header handler)
  | .print value => do
    let value ← tryExpr e value
    pure [⟨depth, "print " ++ value ++ ";"⟩]
  | .increment target => do
    let target ← tryExpr e target
    pure [⟨depth, target ++ "++;"⟩]
  | .decrement target => do
    let target ← tryExpr e target
    pure [⟨depth, target ++ "--;"⟩]
  | .assign target source => do
    let target ← tryExpr e target
    let source ← tryExpr e source
    pure [⟨depth, target ++ " = " ++ source ++ ";"⟩]
  | .call call => do
    let call ← tryExpr e call
    pure [⟨depth, call ++ ";"⟩]

def tryStmts (e : Entities) (depth : Nat) : List Stmt → Lookup (List Line)
  | [] => pure []
  | stmt :: stmts => do
    let lines ← tryStmt e depth stmt
    let others ← tryStmts e depth stmts
    pure (lines ++ others)

end

end Listing

/-- The listing of a program, as a run prints it. -/
def Program.print (p : Program) : Lookup String := do
  let lines ← Listing.tryStmts p.entities 0 p.statements
  pure (String.join (lines.map Listing.Line.render))

end TypedImp
