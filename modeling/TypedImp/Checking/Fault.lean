import TypedImp.Diagnostic
import TypedImp.Entities

/-!
# Broken rules

The rules that a parse tree can break, each with its message.  Types are named in
a message as they are written in the program.

An index without a row is no broken rule: a run cannot go on from there, so checking
ends with `noRow`.
-/

namespace TypedImp.Checking

/-- Why a parse tree is not a program. -/
inductive Fault where
  | notDeclared (name : String)
  | alreadyDeclared (name : String)
  /-- A name of a type is wanted, or the type of the elements of an array. -/
  | typeExpected
  /-- The name of a type stands where a value is wanted. -/
  | typeAsValue (name : String)
  | constantWithoutValue
  /-- A variable has neither a type nor an initial value. -/
  | noTypeFor (name : String)
  | voidVariable
  | notAssignable (source target : String)
  | constantTarget (name : String)
  | notTarget
  | numberExpected
  | boolExpected
  | numberOrStringExpected
  | arrayExpected
  | differentOperands
  | differentElements
  | noSuchField
  | notFunction
  | argumentCount (required passed : Nat)
  | structInFunction
  | repeatedField
  | selfContaining
  | breakOutsideLoop
  | continueOutsideLoop
  | returnOutsideFunction
  | valueFromVoid
  | missingValue
  /-- What is looked up in a table is not there. -/
  | noRow (missing : NoRow)
deriving DecidableEq, Repr

def Fault.message : Fault → String
  | notDeclared name => "Identifier " ++ name ++ " not declared"
  | alreadyDeclared name => "Identifier " ++ name ++ " already declared"
  | typeExpected => "Type expected"
  | typeAsValue name => "Type " ++ name ++ " cannot be used as a value"
  | constantWithoutValue => "Const declarations require an initializer"
  | noTypeFor name => "Cannot infer type of " ++ name ++ " without an initializer"
  | voidVariable => "Variables cannot have type void"
  | notAssignable source target => "Cannot assign a " ++ source ++ " to a " ++ target
  | constantTarget name => "Cannot assign to constant " ++ name
  | notTarget => "Cannot assign to this expression"
  | numberExpected => "Expected a number"
  | boolExpected => "Expected a boolean"
  | numberOrStringExpected => "Expected a number or string"
  | arrayExpected => "Expected an array"
  | differentOperands => "Operands do not have the same type"
  | differentElements => "Not all elements have the same type"
  | noSuchField => "No such field"
  | notFunction => "Call of non-function"
  | argumentCount required passed =>
    toString required ++ " argument(s) required but " ++ toString passed ++ " passed"
  | structInFunction => "Struct declarations must be at top level or in a block outside functions"
  | repeatedField => "Fields must be distinct"
  | selfContaining => "Struct type must not be self-containing"
  | breakOutsideLoop => "Break can only appear in a loop"
  | continueOutsideLoop => "Continue can only appear in a loop"
  | returnOutsideFunction => "Return can only appear in a function"
  | valueFromVoid => "Cannot return a value from this function"
  | missingValue => "Something should be returned"
  | noRow missing => missing.text

/-- The outcome of checking a part of a tree: what it stands for, or the first
rule it breaks. -/
abbrev Result (α : Type) := Except (Located Fault) α

/-- Reports a broken rule. -/
def refuse {α : Type} (fault : Fault) (span : Span) : Result α := .error ⟨fault, span⟩

/-- Goes on only if a rule is kept. -/
def require (kept : Bool) (fault : Fault) (span : Span) : Result Unit :=
  if kept then pure () else refuse fault span

/-- What is looked up at a place of the tree. -/
def look {α : Type} (x : Lookup α) (span : Span) : Result α :=
  match x with
  | .ok a => pure a
  | .error missing => refuse (.noRow missing) span

theorem require_eq_ok_iff {kept : Bool} {fault : Fault} {span : Span} :
    require kept fault span = .ok () ↔ kept = true := by
  cases kept <;> simp [require, refuse, pure, Except.pure]

end TypedImp.Checking

namespace TypedImp

def Diagnostic.ofChecking (fault : Located Checking.Fault) : Diagnostic :=
  ⟨.semantics, fault.cause.message, fault.span⟩

end TypedImp
