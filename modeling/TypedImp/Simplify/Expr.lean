import TypedImp.Program.Basic
import TypedImp.Simplify.Counted

/-!
# Simplifying expressions

An expression is simplified from the inside out: first its parts, then the node
that is rebuilt from them, to which at most one rule is applied.  The rules on a
binary node are tried in this order.

* `fold?`: both operands are number literals; the operator is applied to them.
* `absorb?`, for `||` and `&&`: one operand is the literal that has no influence;
  the other operand is left.
* `identity?`, for the operators on numbers: one operand is a literal with which
  the other operand is left, or is negated, or has no influence at all.

A literal is compared as a number, so the literals `0` and `-0` are alike and a
literal that is not a number equals none.  Each rule that is applied is counted.
-/

namespace TypedImp

namespace Expr

/-- The literal of a number. -/
def ofNumber (value : Float) : Expr := .number value .number

/-- The literal of a truth value. -/
def ofBool (value : Bool) : Expr := .bool value .bool

/-- Whether an expression is the literal of a number equal to the given one. -/
def isLiteral (value : Float) (e : Expr) : Bool := e.number?.any (· == value)

end Expr

namespace BinaryOp

/-- An operator applied to two numbers. -/
def onNumbers? (op : BinaryOp) (l r : Float) : Option Expr :=
  match op with
  | add => some (.ofNumber (l + r))
  | sub => some (.ofNumber (l - r))
  | mul => some (.ofNumber (l * r))
  | div => some (.ofNumber (l / r))
  | pow => some (.ofNumber (power l r))
  | lt => some (.ofBool (l < r))
  | le => some (.ofBool (l ≤ r))
  | eq => some (.ofBool (l == r))
  | ne => some (.ofBool (l != r))
  | ge => some (.ofBool (r ≤ l))
  | gt => some (.ofBool (r < l))
  | or | and => none

/-- The literal that two number literals with an operator between them come to. -/
def fold? (op : BinaryOp) (left right : Expr) : Option Expr :=
  match left.number?, right.number? with
  | some l, some r => op.onNumbers? l r
  | _, _ => none

/-- The operand that is left when the other one is the literal without influence. -/
def absorb? (op : BinaryOp) (left right : Expr) : Option Expr :=
  match op with
  | or =>
    if left.bool? = some false then some right
    else if right.bool? = some false then some left
    else none
  | and =>
    if left.bool? = some true then some right
    else if right.bool? = some true then some left
    else none
  | _ => none

/-- What an operator on numbers comes to when one operand is a special literal. -/
def identity? (op : BinaryOp) (left right : Expr) : Option Expr :=
  match op with
  | add =>
    if right.isLiteral 0 then some left
    else if left.isLiteral 0 then some right
    else none
  | sub =>
    if right.isLiteral 0 then some left
    else if left.isLiteral 0 then some (.unary .neg right .number)
    else none
  | mul =>
    if right.isLiteral 1 then some left
    else if left.isLiteral 1 then some right
    else if right.isLiteral 0 || left.isLiteral 0 then some (.ofNumber 0)
    else none
  | div =>
    if left.isLiteral 0 then some (.ofNumber 0)
    else if right.isLiteral 1 then some left
    else none
  | pow =>
    if right.isLiteral 0 then some (.ofNumber 1)
    else if left.isLiteral 1 then some (.ofNumber 1)
    else none
  | _ => none

/-- The first rule that applies to a binary node. -/
def simplify? (op : BinaryOp) (left right : Expr) : Option Expr :=
  (op.fold? left right).or ((op.absorb? left right).or (op.identity? left right))

end BinaryOp

/-- The literal that an operator in front of a literal comes to. -/
def UnaryOp.fold? (op : UnaryOp) (operand : Expr) : Option Expr :=
  match op, operand with
  | .neg, .number value _ => some (.ofNumber (-value))
  | .not, .bool value _ => some (.ofBool (!value))
  | _, _ => none

/-- The outcome of a rule, or the node that no rule applies to. -/
def Counted.orElse {α : Type} (outcome : Option α) (node : α) : Counted α :=
  match outcome with
  | some a => .once a
  | none => pure node

mutual

/-- The simplified form of an expression. -/
def Expr.simplify : Expr → Counted Expr
  | .binary op left right ty => do
    let left ← left.simplify
    let right ← right.simplify
    .orElse (op.simplify? left right) (.binary op left right ty)
  | .unary op operand ty => do
    let operand ← operand.simplify
    .orElse (op.fold? operand) (.unary op operand ty)
  | .array elements ty => do
    let elements ← Expr.simplifyAll elements
    pure (.array elements ty)
  | .call callee args ty => do
    let callee ← callee.simplify
    let args ← Expr.simplifyAll args
    pure (.call callee args ty)
  | .member object field ty => do
    let object ← object.simplify
    pure (.member object field ty)
  | .subscript a index ty => do
    let a ← a.simplify
    let index ← index.simplify
    pure (.subscript a index ty)
  | .number value ty => pure (.number value ty)
  | .string value ty => pure (.string value ty)
  | .bool value ty => pure (.bool value ty)
  | .var id ty => pure (.var id ty)
  | .func id ty => pure (.func id ty)
  | .struct id ty => pure (.struct id ty)

def Expr.simplifyAll : List Expr → Counted (List Expr)
  | [] => pure []
  | e :: es => do
    let e ← e.simplify
    let es ← Expr.simplifyAll es
    pure (e :: es)

end

end TypedImp
