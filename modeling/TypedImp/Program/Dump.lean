import TypedImp.Program.Basic
import TypedImp.Text.Json

/-!
# Programs as JSON documents

The whole of a program as a JSON value.  A node with several forms is an object
with one member, named for the form, or, where the form has no content, only that
name.  Rows are meant by their indices.
-/

namespace TypedImp

namespace Json

/-- A node whose form has the given content. -/
def tagged (form : String) (content : Json) : Json := object [(form, content)]

/-- A node whose form has named parts. -/
def node (form : String) (parts : List (String × Json)) : Json := tagged form (object parts)

end Json

mutual

def Ty.dump : Ty → Json
  | .number => .string "Number"
  | .string => .string "String"
  | .bool => .string "Bool"
  | .void => .string "Void"
  | .any => .string "Any"
  | .array element => .tagged "Array" element.dump
  | .struct id => .tagged "Struct" (.nat id.index)
  | .function params result =>
    .node "Function" [("params", .array (Ty.dumpAll params)), ("ret", result.dump)]

def Ty.dumpAll : List Ty → List Json
  | [] => []
  | ty :: tys => ty.dump :: Ty.dumpAll tys

end

def Signature.dump (s : Signature) : Json :=
  .object [("params", .array (Ty.dumpAll s.params)), ("ret", s.result.dump)]

/-! ### Tables -/

def Variable.dump (v : Variable) : Json :=
  .object [("name", .string v.name), ("read_only", .bool v.readOnly), ("ty", v.ty.dump)]

def Function.dump (f : Function) : Json :=
  .object [("name", .string f.name), ("ty", f.signature.dump), ("builtin", .bool f.builtin)]

def Field.dump (f : Field) : Json := .object [("name", .string f.name), ("ty", f.ty.dump)]

def Struct.dump (s : Struct) : Json :=
  .object [("name", .string s.name), ("fields", .ofList Field.dump s.fields),
    ("is_class", .bool s.isClass)]

def Entities.dump (e : Entities) : Json :=
  .object [("variables", .ofList Variable.dump e.vars.toList),
    ("functions", .ofList Function.dump e.funcs.toList),
    ("structs", .ofList Struct.dump e.structs.toList)]

/-! ### Expressions -/

def BinaryOp.dump : BinaryOp → Json
  | .or => .string "Or"
  | .and => .string "And"
  | .eq => .string "Eq"
  | .ne => .string "Ne"
  | .lt => .string "Lt"
  | .le => .string "Le"
  | .gt => .string "Gt"
  | .ge => .string "Ge"
  | .add => .string "Add"
  | .sub => .string "Sub"
  | .mul => .string "Mul"
  | .div => .string "Div"
  | .pow => .string "Pow"

def UnaryOp.dump : UnaryOp → Json
  | .neg => .string "Neg"
  | .not => .string "Not"

def RangeOp.dump : RangeOp → Json
  | .inclusive => .string "Inclusive"
  | .exclusive => .string "Exclusive"

/-- An expression is its form together with its type. -/
def Expr.typed (kind : Json) (ty : Ty) : Json := .object [("kind", kind), ("ty", ty.dump)]

mutual

def Expr.dump : Expr → Json
  | .number value ty => typed (.tagged "Number" (.float value)) ty
  | .string value ty => typed (.tagged "String" (.string value)) ty
  | .bool value ty => typed (.tagged "Bool" (.bool value)) ty
  | .var id ty => typed (.tagged "Variable" (.nat id.index)) ty
  | .func id ty => typed (.tagged "Function" (.nat id.index)) ty
  | .struct id ty => typed (.tagged "Struct" (.nat id.index)) ty
  | .binary op left right ty =>
    typed (.node "Binary" [("op", op.dump), ("left", left.dump), ("right", right.dump)]) ty
  | .unary op operand ty =>
    typed (.node "Unary" [("op", op.dump), ("operand", operand.dump)]) ty
  | .array elements ty => typed (.tagged "Array" (.array (Expr.dumpAll elements))) ty
  | .call callee args ty =>
    typed (.node "Call" [("callee", callee.dump), ("args", .array (Expr.dumpAll args))]) ty
  | .member object field ty =>
    typed (.node "Member" [("object", object.dump), ("field", .string field)]) ty
  | .subscript a index ty =>
    typed (.node "Subscript" [("array", a.dump), ("index", index.dump)]) ty

def Expr.dumpAll : List Expr → List Json
  | [] => []
  | e :: es => e.dump :: Expr.dumpAll es

end

/-! ### Statements -/

def VariableId.dump (id : VariableId) : Json := .nat id.index

mutual

def Stmt.dump : Stmt → Json
  | .declareFunction id params body =>
    .node "FunctionDeclaration" [("function", .nat id.index),
      ("params", .ofList VariableId.dump params), ("body", .array (Stmt.dumpAll body))]
  | .declareVariable id initializer =>
    .node "VariableDeclaration" [("variable", id.dump),
      ("initializer", .ofOption Expr.dump initializer)]
  | .declareStruct id => .tagged "StructDeclaration" (.nat id.index)
  | .declareClass id => .tagged "ClassDeclaration" (.nat id.index)
  | .ifElse test consequent alternate =>
    .node "If" [("test", test.dump), ("consequent", .array (Stmt.dumpAll consequent)),
      ("alternate", .array (Stmt.dumpAll alternate))]
  | .ifThen test consequent =>
    .node "ShortIf" [("test", test.dump), ("consequent", .array (Stmt.dumpAll consequent))]
  | .ifElseIf test consequent alternate =>
    .node "NestedIf" [("test", test.dump), ("consequent", .array (Stmt.dumpAll consequent)),
      ("else_if", alternate.dump)]
  | .rangeLoop iterator low op high body =>
    .node "ForRange" [("iterator", iterator.dump), ("low", low.dump), ("op", op.dump),
      ("high", high.dump), ("body", .array (Stmt.dumpAll body))]
  | .collectionLoop iterator collection body =>
    .node "ForCollection" [("iterator", iterator.dump), ("collection", collection.dump),
      ("body", .array (Stmt.dumpAll body))]
  | .whileLoop test body =>
    .node "While" [("test", test.dump), ("body", .array (Stmt.dumpAll body))]
  | .ret value => .tagged "Return" (.ofOption Expr.dump value)
  | .breakLoop => .string "Break"
  | .continueLoop => .string "Continue"
  | .tryCatch body error handler =>
    .node "TryCatch" [("body", .array (Stmt.dumpAll body)),
      ("error", .ofOption VariableId.dump error), ("handler", .array (Stmt.dumpAll handler))]
  | .print value => .tagged "Print" value.dump
  | .increment target => .tagged "Increment" target.dump
  | .decrement target => .tagged "Decrement" target.dump
  | .assign target source =>
    .node "Assignment" [("target", target.dump), ("source", source.dump)]
  | .call c => .tagged "Call" c.dump

def Stmt.dumpAll : List Stmt → List Json
  | [] => []
  | stmt :: stmts => stmt.dump :: Stmt.dumpAll stmts

end

def Program.dump (p : Program) : Json :=
  .object [("statements", .array (Stmt.dumpAll p.statements)), ("entities", p.entities.dump)]

end TypedImp
