import TypedImp.Entities
import TypedImp.Operator

/-!
# Programs

A program is a list of statements with the tables of all it declares.  Names are
gone: a variable, function or struct is known by the index of its row.  Every
expression carries its type.
-/

namespace TypedImp

inductive Expr where
  | number (value : Float) (ty : Ty)
  | string (value : String) (ty : Ty)
  | bool (value : Bool) (ty : Ty)
  | var (id : VariableId) (ty : Ty)
  | func (id : FunctionId) (ty : Ty)
  /-- A struct as the function that makes its values. -/
  | struct (id : StructId) (ty : Ty)
  | binary (op : BinaryOp) (left right : Expr) (ty : Ty)
  | unary (op : UnaryOp) (operand : Expr) (ty : Ty)
  | array (elements : List Expr) (ty : Ty)
  | call (callee : Expr) (args : List Expr) (ty : Ty)
  | member (object : Expr) (field : String) (ty : Ty)
  | subscript (array index : Expr) (ty : Ty)
deriving Repr, Inhabited

inductive Stmt where
  | declareVariable (id : VariableId) (initializer : Option Expr)
  | declareFunction (id : FunctionId) (params : List VariableId) (body : List Stmt)
  | declareStruct (id : StructId)
  | declareClass (id : StructId)
  | ifThen (test : Expr) (consequent : List Stmt)
  | ifElse (test : Expr) (consequent alternate : List Stmt)
  /-- The alternate is again one of the three forms of `if`. -/
  | ifElseIf (test : Expr) (consequent : List Stmt) (alternate : Stmt)
  | whileLoop (test : Expr) (body : List Stmt)
  | rangeLoop (iterator : VariableId) (low : Expr) (op : RangeOp) (high : Expr) (body : List Stmt)
  | collectionLoop (iterator : VariableId) (collection : Expr) (body : List Stmt)
  | ret (value : Option Expr)
  | breakLoop
  | continueLoop
  | tryCatch (body : List Stmt) (error : Option VariableId) (handler : List Stmt)
  | print (value : Expr)
  | increment (target : Expr)
  | decrement (target : Expr)
  | assign (target source : Expr)
  /-- A call for the sake of its effects. -/
  | call (call : Expr)
deriving Repr, Inhabited

structure Program where
  statements : List Stmt
  entities : Entities
deriving Repr, Inhabited

namespace Expr

/-- The type that an expression carries. -/
def ty : Expr → Ty
  | number _ ty | string _ ty | bool _ ty | var _ ty | func _ ty | struct _ ty | binary _ _ _ ty
  | unary _ _ ty | array _ ty | call _ _ ty | member _ _ ty | subscript _ _ ty => ty

/-- The value of a number literal. -/
def number? : Expr → Option Float
  | number value _ => some value
  | _ => none

/-- The value of a literal truth value. -/
def bool? : Expr → Option Bool
  | bool value _ => some value
  | _ => none

/-- The variable that an expression names. -/
def var? : Expr → Option VariableId
  | var id _ => some id
  | _ => none

def isUnary : Expr → Bool
  | unary .. => true
  | _ => false

/-- Whether an expression is an array without elements. -/
def isEmptyArray : Expr → Bool
  | array [] _ => true
  | _ => false

end Expr

/-- Whether a statement may stand behind `else` as it is. -/
def Stmt.isConditional : Stmt → Bool
  | ifThen .. | ifElse .. | ifElseIf .. => true
  | _ => false

end TypedImp
