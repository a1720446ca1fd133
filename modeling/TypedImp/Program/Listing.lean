import TypedImp.Decimal.Layout
import TypedImp.Program.Basic
import TypedImp.Text.Quoted

/-!
# Listings

A listing shows a program in the language it was written in, one statement to a
line and two spaces further in for every brace.  Every name has the index of its
row behind it, `x_4`, apart from the functions that come with the language.  A
binary expression has parentheses around it, so that no precedence needs to be
known; the sign of a unary one stands directly in front of its operand, with
parentheses only where two signs would meet.
-/

namespace TypedImp

namespace Listing

/-- Texts with a comma and a space between them. -/
def commaSeparated (texts : List String) : String := String.intercalate ", " texts

/-- A name with its index. -/
def indexed (name : String) (index : Nat) : String := name ++ "_" ++ toString index

def ofVariable (e : Entities) (id : VariableId) : String :=
  indexed (e.variableAt id).name id.index

def ofFunction (e : Entities) (id : FunctionId) : String :=
  let f := e.functionAt id
  if f.builtin then f.name else indexed f.name id.index

def ofStruct (e : Entities) (id : StructId) : String := indexed (e.structAt id).name id.index

mutual

def ofExpr (e : Entities) : Expr → String
  | .number value _ => Decimal.text value
  | .string value _ => Text.quote value
  | .bool value _ => if value then "true" else "false"
  | .var id _ => ofVariable e id
  | .func id _ => ofFunction e id
  | .struct id _ => ofStruct e id
  | .binary op left right _ =>
    "(" ++ ofExpr e left ++ " " ++ op.spelling ++ " " ++ ofExpr e right ++ ")"
  | .unary op operand _ =>
    if operand.isUnary then op.spelling ++ "(" ++ ofExpr e operand ++ ")"
    else op.spelling ++ ofExpr e operand
  | .array [] ty => e.describe ty ++ "()"
  | .array (first :: others) _ =>
    "[" ++ commaSeparated (ofExpr e first :: ofExprs e others) ++ "]"
  | .call callee args _ => ofExpr e callee ++ "(" ++ commaSeparated (ofExprs e args) ++ ")"
  | .member object field _ => ofExpr e object ++ "." ++ field
  | .subscript array index _ => ofExpr e array ++ "[" ++ ofExpr e index ++ "]"

def ofExprs (e : Entities) : List Expr → List String
  | [] => []
  | x :: xs => ofExpr e x :: ofExprs e xs

end

/-- A name with its type. -/
def annotated (e : Entities) (name : String) (ty : Ty) : String := name ++ ": " ++ e.describe ty

def functionHeader (e : Entities) (id : FunctionId) (params : List VariableId) : String :=
  let param (p : VariableId) := annotated e (ofVariable e p) (e.variableAt p).ty
  "fn " ++ ofFunction e id ++ "(" ++ commaSeparated (params.map param) ++ "): " ++
    e.describe (e.functionAt id).signature.result

def variableLine (e : Entities) (id : VariableId) (initializer : Option Expr) : String :=
  let v := e.variableAt id
  let value := match initializer with
    | some x => " = " ++ ofExpr e x
    | none => ""
  (if v.readOnly then "const " else "let ") ++ annotated e (ofVariable e id) v.ty ++ value ++ ";"

def structLine (e : Entities) (id : StructId) : String :=
  let s := e.structAt id
  let field (f : Field) := annotated e f.name f.ty
  (if s.isClass then "class " else "struct ") ++ ofStruct e id ++
    " \x7b " ++ commaSeparated (s.fields.map field) ++ " \x7d"

/-- A line of a listing and how far in it stands. -/
structure Line where
  depth : Nat
  text : String
deriving DecidableEq, Repr

def Line.render (line : Line) : String :=
  String.ofList (List.replicate (2 * line.depth) ' ') ++ line.text ++ "\n"

/-- A header, an opening brace behind it, the lines within, and the closing brace. -/
def braced (depth : Nat) (header : String) (body : List Line) : List Line :=
  ⟨depth, header ++ " \x7b"⟩ :: body ++ [⟨depth, "\x7d"⟩]

mutual

/-- The lines of a statement at the given depth. -/
def ofStmt (e : Entities) (depth : Nat) : Stmt → List Line
  | .declareFunction id params body =>
    braced depth (functionHeader e id params) (ofStmts e (depth + 1) body)
  | .declareVariable id initializer => [⟨depth, variableLine e id initializer⟩]
  | .declareStruct id | .declareClass id => [⟨depth, structLine e id⟩]
  | .ifElse test consequent alternate =>
    braced depth ("if " ++ ofExpr e test) (ofStmts e (depth + 1) consequent) ++
      braced depth "else" (ofStmts e (depth + 1) alternate)
  | .ifThen test consequent =>
    braced depth ("if " ++ ofExpr e test) (ofStmts e (depth + 1) consequent)
  | .ifElseIf test consequent alternate =>
    braced depth ("if " ++ ofExpr e test) (ofStmts e (depth + 1) consequent) ++
      ⟨depth, "else"⟩ :: ofStmt e depth alternate
  | .rangeLoop iterator low op high body =>
    braced depth ("for " ++ ofVariable e iterator ++ " in " ++ ofExpr e low ++ " " ++
      op.spelling ++ " " ++ ofExpr e high) (ofStmts e (depth + 1) body)
  | .collectionLoop iterator collection body =>
    braced depth ("for " ++ ofVariable e iterator ++ " in " ++ ofExpr e collection)
      (ofStmts e (depth + 1) body)
  | .whileLoop test body =>
    braced depth ("while " ++ ofExpr e test) (ofStmts e (depth + 1) body)
  | .ret none => [⟨depth, "return;"⟩]
  | .ret (some value) => [⟨depth, "return " ++ ofExpr e value ++ ";"⟩]
  | .breakLoop => [⟨depth, "break;"⟩]
  | .continueLoop => [⟨depth, "continue;"⟩]
  | .tryCatch body error handler =>
    let header := match error with
      | some id => "catch " ++ ofVariable e id
      | none => "catch"
    braced depth "try" (ofStmts e (depth + 1) body) ++
      braced depth header (ofStmts e (depth + 1) handler)
  | .print value => [⟨depth, "print " ++ ofExpr e value ++ ";"⟩]
  | .increment target => [⟨depth, ofExpr e target ++ "++;"⟩]
  | .decrement target => [⟨depth, ofExpr e target ++ "--;"⟩]
  | .assign target source => [⟨depth, ofExpr e target ++ " = " ++ ofExpr e source ++ ";"⟩]
  | .call call => [⟨depth, ofExpr e call ++ ";"⟩]

def ofStmts (e : Entities) (depth : Nat) : List Stmt → List Line
  | [] => []
  | stmt :: stmts => ofStmt e depth stmt ++ ofStmts e depth stmts

end

/-- The text of statements. -/
def render (e : Entities) (stmts : List Stmt) : String :=
  String.join ((ofStmts e 0 stmts).map Line.render)

end Listing

/-- The listing of a program. -/
def Program.listing (p : Program) : String := Listing.render p.entities p.statements

end TypedImp
