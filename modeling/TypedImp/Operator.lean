import TypedImp.Token.Symbol

/-!
# Operators

The operators of expressions and of range loops.  Each is written as one symbol.
A binary operator has a precedence, the higher the tighter; `**` groups to the
right and all others to the left, which `BinaryOp.rightPrecedence` says as the
least precedence an operator may have to join the right operand.  The sign of a
unary operator stands in front of its operand and binds tighter than every
binary operator but `**`.
-/

namespace TypedImp

inductive BinaryOp where
  | or | and | eq | ne | lt | le | gt | ge | add | sub | mul | div | pow
deriving DecidableEq, Repr

inductive UnaryOp where
  | neg | not
deriving DecidableEq, Repr

/-- Whether a range loop reaches its high bound. -/
inductive RangeOp where
  | inclusive | exclusive
deriving DecidableEq, Repr

namespace BinaryOp

def symbol : BinaryOp → Symbol
  | or => .orOr
  | and => .andAnd
  | eq => .equal
  | ne => .notEqual
  | lt => .less
  | le => .lessEqual
  | gt => .greater
  | ge => .greaterEqual
  | add => .plus
  | sub => .minus
  | mul => .star
  | div => .slash
  | pow => .starStar

def spelling (op : BinaryOp) : String := op.symbol.spelling

/-- How tightly an operator binds. -/
def precedence : BinaryOp → Nat
  | or => 1
  | and => 2
  | eq | ne => 3
  | lt | le | gt | ge => 4
  | add | sub => 5
  | mul | div => 6
  | pow => 8

/-- The least precedence of an operator that still belongs to the right operand. -/
def rightPrecedence : BinaryOp → Nat
  | pow => pow.precedence
  | op => op.precedence + 1

/-- The power of two numbers.  A power with the exponent zero is one, and so is one of the
base one, also if the other number is infinite or none.  The operation on floats is
documented to obey these two laws, but it has no definition that they could be read off,
so they are written out here. -/
def power (base exponent : Float) : Float :=
  if exponent == 0 || base == 1 then 1 else base ^ exponent

/-- The binary operator that a symbol stands for. -/
def ofSymbol? : Symbol → Option BinaryOp
  | .orOr => some or
  | .andAnd => some and
  | .equal => some eq
  | .notEqual => some ne
  | .less => some lt
  | .lessEqual => some le
  | .greater => some gt
  | .greaterEqual => some ge
  | .plus => some add
  | .minus => some sub
  | .star => some mul
  | .slash => some div
  | .starStar => some pow
  | _ => none

theorem ofSymbol?_eq_some_iff {s : Symbol} {op : BinaryOp} :
    ofSymbol? s = some op ↔ s = op.symbol := by
  cases s <;> cases op <;> decide

end BinaryOp

namespace UnaryOp

def symbol : UnaryOp → Symbol
  | neg => .minus
  | not => .bang

def spelling (op : UnaryOp) : String := op.symbol.spelling

/-- The least precedence of a binary operator that belongs to the operand. -/
def precedence : Nat := 7

/-- The unary operator that a symbol in front of an operand stands for. -/
def ofSymbol? : Symbol → Option UnaryOp
  | .minus => some neg
  | .bang => some not
  | _ => none

theorem ofSymbol?_eq_some_iff {s : Symbol} {op : UnaryOp} :
    ofSymbol? s = some op ↔ s = op.symbol := by
  cases s <;> cases op <;> decide

end UnaryOp

namespace RangeOp

def symbol : RangeOp → Symbol
  | inclusive => .dotDotDot
  | exclusive => .dotDotLess

def spelling (op : RangeOp) : String := op.symbol.spelling

/-- The range operator that a symbol between two bounds stands for. -/
def ofSymbol? : Symbol → Option RangeOp
  | .dotDotDot => some inclusive
  | .dotDotLess => some exclusive
  | _ => none

theorem ofSymbol?_eq_some_iff {s : Symbol} {op : RangeOp} :
    ofSymbol? s = some op ↔ s = op.symbol := by
  cases s <;> cases op <;> decide

end RangeOp

end TypedImp
