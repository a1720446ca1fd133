import TypedImp.Proofs.Listing.Tree
import TypedImp.Proofs.Token.Kinds

/-!
# The tokens of a program

`Stmt.kinds` are the tokens of a statement in a listing, one after the other, and
`Expr.kinds` and `Entities.typeKinds` those of an expression and of a type.  They stand
between the text of a listing and the tree that is read from it: on the one side there is
only lexing to do, on the other only parsing.

A program may hold what no source can: a variable with a blank in its name, a sign in front of
a number below zero, a call of a number.  `Printable` leaves these out.  It says of every type,
expression and statement on its own what a listing needs so that its tokens fit together: all
that stands for a name is a name, what a suffix stands behind is something that a suffix may
follow, and no two signs meet.

A program is `Readable` if, besides, its literals are read as they are.
-/

namespace TypedImp

open Listing Token

/-! ### Types -/

namespace Listing

def commas : List (List Kind) → List Kind
  | [] => []
  | [ks] => ks
  | ks :: kss => ks ++ .symbol .comma :: commas kss

def bracedKinds (ks : List Kind) : List Kind :=
  .symbol .leftBrace :: (ks ++ [.symbol .rightBrace])

end Listing

namespace Entities

variable (E : Entities)

mutual

def typeKinds : Ty → List Kind
  | .number => [.name "number"]
  | .string => [.name "string"]
  | .bool => [.name "boolean"]
  | .void => [.name "void"]
  | .any => [.name "any"]
  | .array element => .symbol .leftBracket :: (typeKinds element ++ [.symbol .rightBracket])
  | .struct id => [.name (E.structAt id).name]
  | .function params result =>
    .symbol .leftParen :: (commas (typeKindsAll params) ++
      .symbol .rightParen :: .symbol .arrow :: typeKinds result)

def typeKindsAll : List Ty → List (List Kind)
  | [] => []
  | ty :: tys => typeKinds ty :: typeKindsAll tys

end

mutual

def ReadableType : Ty → Prop
  | .array element => ReadableType element
  | .struct id => IsName (E.structAt id).name
  | .function params result => ReadableTypes params ∧ ReadableType result
  | _ => True

def ReadableTypes : List Ty → Prop
  | [] => True
  | ty :: tys => ReadableType ty ∧ ReadableTypes tys

end

theorem typeKindsAll_eq_map (tys : List Ty) : E.typeKindsAll tys = tys.map E.typeKinds := by
  induction tys with
  | nil => rfl
  | cons ty tys ih => rw [typeKindsAll, ih, List.map_cons]

def annotatedKinds (name : String) (ty : Ty) : List Kind :=
  .name name :: .symbol .colon :: E.typeKinds ty

def variableKinds (id : VariableId) : List Kind :=
  E.annotatedKinds (ofVariable E id) (E.variableAt id).ty

def fieldKinds (id : StructId) : List (List Kind) :=
  (E.structAt id).fields.map fun field => E.annotatedKinds field.name field.ty

def ReadableAnnotated (name : String) (ty : Ty) : Prop := IsName name ∧ E.ReadableType ty

def ReadableVariable (id : VariableId) : Prop :=
  E.ReadableAnnotated (ofVariable E id) (E.variableAt id).ty

def ReadableStruct (id : StructId) : Prop :=
  IsName (ofStruct E id) ∧
    ∀ field ∈ (E.structAt id).fields, E.ReadableAnnotated field.name field.ty

end Entities

/-! ### Expressions -/

namespace Expr

/-- Whether arguments, a field or an index may stand directly behind an expression. -/
def takesSuffix : Expr → Bool
  | number .. | unary .. => false
  | _ => true

def isSigned : Expr → Bool
  | number value _ => Decimal.isSigned value
  | _ => false

def isArray : Expr → Bool
  | array .. => true
  | _ => false

section

variable (E : Entities)

mutual

def kinds : Expr → List Kind
  | number value _ => numberKinds value
  | string value _ => [.string (asRead value)]
  | bool value _ => [.symbol (if value then .trueWord else .falseWord)]
  | var id _ => [.name (ofVariable E id)]
  | func id _ => [.name (ofFunction E id)]
  | struct id _ => [.name (ofStruct E id)]
  | binary op left right _ =>
    .symbol .leftParen :: (kinds left ++ .symbol op.symbol :: (kinds right ++
      [.symbol .rightParen]))
  | unary op operand _ =>
    .symbol op.symbol ::
      if operand.isUnary then .symbol .leftParen :: (kinds operand ++ [.symbol .rightParen])
      else kinds operand
  | array [] ty => E.typeKinds ty ++ [.symbol .leftParen, .symbol .rightParen]
  | array (first :: others) _ =>
    .symbol .leftBracket :: (commas (kinds first :: kindsAll others) ++ [.symbol .rightBracket])
  | call callee args _ =>
    kinds callee ++ .symbol .leftParen :: (commas (kindsAll args) ++ [.symbol .rightParen])
  | member object field _ => kinds object ++ [.symbol .dot, .name field]
  | subscript a index _ =>
    kinds a ++ .symbol .leftBracket :: (kinds index ++ [.symbol .rightBracket])

def kindsAll : List Expr → List (List Kind)
  | [] => []
  | e :: es => kinds e :: kindsAll es

end

/-- **What a listing needs of an expression**, apart from those within it, so that its tokens are
an expression again: all that stands for a name is a name, only what takes a suffix has one,
and no sign stands in front of another. -/
def Printable : Expr → Prop
  | var id _ => IsName (ofVariable E id)
  | func id _ => IsName (ofFunction E id) ∧ id.index < E.funcs.size
  | struct id _ => IsName (ofStruct E id)
  | unary _ operand _ => operand.isSigned = false
  | array [] ty => ∃ element, ty = .array element ∧ E.ReadableType element
  | call callee _ _ => callee.takesSuffix = true ∧ callee.isArray = false
  | member object field _ => object.takesSuffix = true ∧ IsName field
  | subscript a _ _ => a.takesSuffix = true
  | _ => True

def ReadsBack : Expr → Prop
  | number value _ => Decimal.Plain value
  | string value _ => ∀ c ∈ value.toList, Text.ReadsBack c
  | _ => True

def Readable (e : Expr) : Prop := e.Printable E ∧ e.ReadsBack

end

variable {E : Entities}

theorem kindsAll_eq_map (es : List Expr) : kindsAll E es = es.map (kinds E) := by
  induction es with
  | nil => rfl
  | cons e es ih => rw [kindsAll, ih, List.map_cons]

theorem forall_nested_of_part {P : Expr → Prop} {e : Expr} (h : ∀ e' ∈ e.nested, P e') :
    ∀ part ∈ e.parts, ∀ e' ∈ part.nested, P e' :=
  fun _ hp e' he' => h e' (mem_nested_of_part hp he')

def startsExpr : Kind → Bool
  | .name _ | .number _ | .string _ => true
  | .symbol s => s ∈ [.trueWord, .falseWord, .leftParen, .leftBracket, .minus, .bang]
  | _ => false

end Expr

/-! ### Statements -/

namespace Stmt

section

variable (E : Entities)

mutual

def kinds : Stmt → List Kind
  | declareVariable id initializer =>
    .symbol (if (E.variableAt id).readOnly then .constWord else .letWord) ::
      (E.variableKinds id ++
        ((initializer.elim [] fun e => .symbol .assign :: e.kinds E) ++ [.symbol .semicolon]))
  | declareFunction id params body =>
    .symbol .fnWord :: .name (ofFunction E id) :: .symbol .leftParen ::
      (commas (params.map E.variableKinds) ++ .symbol .rightParen :: .symbol .colon ::
        (E.typeKinds (E.functionAt id).signature.result ++ bracedKinds (kindsAll body)))
  | declareStruct id | declareClass id =>
    .symbol (if (E.structAt id).isClass then .classWord else .structWord) ::
      .name (ofStruct E id) :: bracedKinds (commas (E.fieldKinds id))
  | ifThen test consequent =>
    .symbol .ifWord :: (test.kinds E ++ bracedKinds (kindsAll consequent))
  | ifElse test consequent alternate =>
    .symbol .ifWord :: (test.kinds E ++ (bracedKinds (kindsAll consequent) ++
      .symbol .elseWord :: bracedKinds (kindsAll alternate)))
  | ifElseIf test consequent alternate =>
    .symbol .ifWord :: (test.kinds E ++ (bracedKinds (kindsAll consequent) ++
      .symbol .elseWord :: kinds alternate))
  | whileLoop test body => .symbol .whileWord :: (test.kinds E ++ bracedKinds (kindsAll body))
  | rangeLoop iterator low op high body =>
    .symbol .forWord :: .name (ofVariable E iterator) :: .symbol .inWord ::
      (low.kinds E ++ .symbol op.symbol :: (high.kinds E ++ bracedKinds (kindsAll body)))
  | collectionLoop iterator collection body =>
    .symbol .forWord :: .name (ofVariable E iterator) :: .symbol .inWord ::
      (collection.kinds E ++ bracedKinds (kindsAll body))
  | ret value => .symbol .returnWord :: (value.elim [] (Expr.kinds E) ++ [.symbol .semicolon])
  | breakLoop => [.symbol .breakWord, .symbol .semicolon]
  | continueLoop => [.symbol .continueWord, .symbol .semicolon]
  | tryCatch body error handler =>
    .symbol .tryWord :: (bracedKinds (kindsAll body) ++ .symbol .catchWord ::
      ((error.elim [] fun id => [.name (ofVariable E id)]) ++ bracedKinds (kindsAll handler)))
  | print value => .symbol .printWord :: (value.kinds E ++ [.symbol .semicolon])
  | increment target => target.kinds E ++ [.symbol .plusPlus, .symbol .semicolon]
  | decrement target => target.kinds E ++ [.symbol .minusMinus, .symbol .semicolon]
  | assign target source =>
    target.kinds E ++ .symbol .assign :: (source.kinds E ++ [.symbol .semicolon])
  | call e => e.kinds E ++ [.symbol .semicolon]

def kindsAll : List Stmt → List Kind
  | [] => []
  | s :: ss => kinds s ++ kindsAll ss

end

/-- **What a listing needs of a statement**, apart from the expressions and the statements
within it. -/
def Readable : Stmt → Prop
  | declareVariable id _ => E.ReadableVariable id
  | declareFunction id params _ =>
    IsName (ofFunction E id) ∧ id.index < E.funcs.size ∧ (∀ p ∈ params, E.ReadableVariable p) ∧
      E.ReadableType (E.functionAt id).signature.result
  | declareStruct id => E.ReadableStruct id ∧ (E.structAt id).isClass = false
  | declareClass id => E.ReadableStruct id ∧ (E.structAt id).isClass = true
  | ifElseIf _ _ alternate => alternate.isConditional = true
  | rangeLoop iterator _ _ _ _ | collectionLoop iterator _ _ => IsName (ofVariable E iterator)
  | tryCatch _ error _ => ∀ id ∈ error, IsName (ofVariable E id)
  | call e => e.isCall = true
  | _ => True

end

variable {E : Entities}

theorem kindsAll_eq_flatMap (ss : List Stmt) : kindsAll E ss = ss.flatMap (kinds E) := by
  induction ss with
  | nil => rfl
  | cons s ss ih => rw [kindsAll, ih, List.flatMap_cons]

end Stmt

def Stmt.AllPrintable (E : Entities) : Stmt → Prop :=
  Throughout (Stmt.Readable E) (Expr.Printable E)

def Stmt.AllReadable (E : Entities) : Stmt → Prop :=
  Throughout (Stmt.Readable E) (Expr.Readable E)

theorem Stmt.AllReadable.printable {E : Entities} {s : Stmt} (h : s.AllReadable E) :
    s.AllPrintable E :=
  h.mono (fun _ hs => hs) fun _ he => he.1

/-- **A program that can be shown**, as far as its names and the places of its suffixes and signs
are concerned. -/
def Program.Printable (p : Program) : Prop := ∀ s ∈ p.statements, s.AllPrintable p.entities

/-- **A program that can be read again**, since its literals are read as they are. -/
def Program.Readable (p : Program) : Prop := ∀ s ∈ p.statements, s.AllReadable p.entities

def Program.kinds (p : Program) : List Kind :=
  Stmt.kindsAll p.entities p.statements ++ [.eof]

end TypedImp
