import TypedImp.Operator
import TypedImp.Source.Span

/-!
# Parse trees

A parse tree is a program as it was written: names are still names, types are
still type expressions, and every node knows the span of text it came from.
Parentheses leave no trace in a tree; the nesting says it all.
-/

namespace TypedImp.Tree

/-- A name at the place where it is written. -/
structure Name where
  text : String
  span : Span
deriving DecidableEq, Repr

/-- A type as it is written. -/
inductive TypeExpr where
  | named (name : Name)
  | array (element : TypeExpr) (span : Span)
  | function (params : List TypeExpr) (result : TypeExpr) (span : Span)
deriving Repr

def TypeExpr.span : TypeExpr → Span
  | named name => name.span
  | array _ span | function _ _ span => span

/-- A name with its type: a parameter of a function or a field of a struct. -/
structure Annotated where
  name : Name
  type : TypeExpr
deriving Repr

def Annotated.span (a : Annotated) : Span := a.name.span.merge a.type.span

inductive Expr where
  | number (value : Float) (span : Span)
  | string (value : String) (span : Span)
  | bool (value : Bool) (span : Span)
  | name (name : Name)
  | binary (op : BinaryOp) (left right : Expr) (span : Span)
  | unary (op : UnaryOp) (operand : Expr) (span : Span)
  | array (elements : List Expr) (span : Span)
  /-- An array without elements, of elements of the given type. -/
  | emptyArray (element : TypeExpr) (span : Span)
  | call (callee : Expr) (args : List Expr) (span : Span)
  | member (object : Expr) (field : Name) (span : Span)
  | subscript (array index : Expr) (span : Span)
deriving Repr

def Expr.span : Expr → Span
  | number _ span | string _ span | bool _ span => span
  | name n => n.span
  | binary _ _ _ span | unary _ _ span | array _ span | emptyArray _ span | call _ _ span
  | member _ _ span | subscript _ _ span => span

/-- Whether an expression is a call, the only kind that may stand as a statement. -/
def Expr.isCall : Expr → Bool
  | call .. => true
  | _ => false

/-- Statements between braces. -/
structure Block (α : Type) where
  stmts : List α
  span : Span
deriving Repr

inductive Stmt where
  | declareVariable (name : Name) (readOnly : Bool) (type : Option TypeExpr)
      (initializer : Option Expr) (span : Span)
  | declareFunction (name : Name) (params : List Annotated) (result : Option TypeExpr)
      (body : Block Stmt) (span : Span)
  | declareStruct (name : Name) (fields : List Annotated) (isClass : Bool) (span : Span)
  | ifThen (test : Expr) (consequent : Block Stmt) (span : Span)
  | ifElse (test : Expr) (consequent alternate : Block Stmt) (span : Span)
  /-- The alternate is again one of the three forms of `if`. -/
  | ifElseIf (test : Expr) (consequent : Block Stmt) (alternate : Stmt) (span : Span)
  | whileLoop (test : Expr) (body : Block Stmt) (span : Span)
  | rangeLoop (iterator : Name) (low : Expr) (op : RangeOp) (high : Expr) (body : Block Stmt)
      (span : Span)
  | collectionLoop (iterator : Name) (collection : Expr) (body : Block Stmt) (span : Span)
  | ret (value : Option Expr) (span : Span)
  | breakLoop (span : Span)
  | continueLoop (span : Span)
  | tryCatch (body : Block Stmt) (error : Option Name) (handler : Block Stmt) (span : Span)
  | print (value : Expr) (span : Span)
  | increment (target : Expr) (span : Span)
  | decrement (target : Expr) (span : Span)
  | assign (target value : Expr) (span : Span)
  | call (call : Expr) (span : Span)
deriving Repr

def Stmt.span : Stmt → Span
  | declareVariable _ _ _ _ span | declareFunction _ _ _ _ span | declareStruct _ _ _ span
  | ifThen _ _ span | ifElse _ _ _ span | ifElseIf _ _ _ span | whileLoop _ _ span
  | rangeLoop _ _ _ _ _ span | collectionLoop _ _ _ span | ret _ span | breakLoop span
  | continueLoop span | tryCatch _ _ _ span | print _ span | increment _ span | decrement _ span
  | assign _ _ span | call _ span => span

end TypedImp.Tree
