import TypedImp.Grammar.Parser
import TypedImp.Token.Lexer
import TypedImp.Tree

/-!
# The grammar

The grammar has three rules that come back to themselves: types, expressions and
statements.  They are not written as functions that call each other.  A value of
`Rules` holds a parser for each of the three, and every rule is a plain function
of such a value, which it uses where the grammar goes one level down.
`Rules.unfold n` ties the knot `n` times over, so a statement about all parsers
is proved for the rules once, from the parsers below them, by one induction on
`n`.

Each level down passes a token, except that a statement begins with an
expression.  Twice as many levels as there are tokens are therefore enough, and
`Tree.ofTokens` takes no fewer.

    type      = name | '[' type ']' | '(' types ')' '->' type
    primary   = number | string | 'true' | 'false' | name | '(' expr ')'
              | '[' type ']' '(' ')' | '[' exprs ']'
    operand   = ('-' | '!') expr | primary suffix*
    suffix    = '(' exprs ')' | '.' name | '[' expr ']'
    expr      = operand (operator expr)*

Which operators an expression may take in is a matter of precedence: `r.expr p`
reads an expression whose outer operators bind at least as tightly as `p`.
-/

namespace TypedImp.Grammar

open TypedImp.Grammar.Parser

/-- Parsers for the recursive rules of the grammar. -/
structure Rules where
  /-- How many items a list may have. -/
  steps : Nat
  type : Parser Tree.TypeExpr
  /-- Expressions whose outer operators have at least the given precedence. -/
  expr : Nat → Parser Tree.Expr
  stmt : Parser Tree.Stmt

def identifier : Parser Tree.Name := fun cursor =>
  match cursor.current.kind with
  | .name text => .done ⟨text, cursor.current.span⟩ cursor.step
  | _ => unexpected .identifier cursor

namespace Rules

/-! ### Types -/

def typeRule (r : Rules) : Parser Tree.TypeExpr := do
  match ← peek with
  | .name _ =>
    let name ← identifier
    pure (.named name)
  | .symbol .leftBracket =>
    let start ← advance
    let element ← r.type
    let stop ← expect .rightBracket
    pure (.array element (start.merge stop))
  | .symbol .leftParen =>
    let start ← advance
    let params ← commaItems .rightParen r.type r.steps
    let _ ← expect .rightParen
    let _ ← expect .arrow
    let result ← r.type
    pure (.function params result (start.merge result.span))
  | _ => unexpected .type

/-- A name, a colon and a type. -/
def annotated (r : Rules) : Parser Tree.Annotated := do
  let name ← identifier
  let _ ← expect .colon
  let type ← r.type
  pure ⟨name, type⟩

/-- A type behind a colon, if there is a colon. -/
def colonType (r : Rules) : Parser (Option Tree.TypeExpr) := do
  if ← accept .colon then
    let type ← r.type
    pure (some type)
  else pure none

/-! ### Expressions -/

/-- The rest of an array without elements: a type, its bracket, and parentheses. -/
def emptyArray (r : Rules) : Parser (Tree.TypeExpr × Span) := do
  let element ← r.type
  let _ ← expect .rightBracket
  let _ ← expect .leftParen
  let stop ← expect .rightParen
  pure (element, stop)

/-- An array.  What can be read as an array without elements is one. -/
def array (r : Rules) : Parser Tree.Expr := do
  let start ← advance
  match ← attempt r.emptyArray with
  | some (element, stop) => pure (.emptyArray element (start.merge stop))
  | none =>
    let elements ← commaItems .rightBracket (r.expr 0) r.steps
    let stop ← expect .rightBracket
    pure (.array elements (start.merge stop))

def primary (r : Rules) : Parser Tree.Expr := do
  match ← peek with
  | .number value =>
    let span ← advance
    pure (.number value span)
  | .string value =>
    let span ← advance
    pure (.string value span)
  | .symbol .trueWord =>
    let span ← advance
    pure (.bool true span)
  | .symbol .falseWord =>
    let span ← advance
    pure (.bool false span)
  | .name _ =>
    let name ← identifier
    pure (.name name)
  | .symbol .leftParen =>
    let _ ← advance
    let inner ← r.expr 0
    let _ ← expect .rightParen
    pure inner
  | .symbol .leftBracket => r.array
  | _ => unexpected .expression

/-- Arguments, fields and indices behind an expression. -/
def suffixes (r : Rules) : Nat → Tree.Expr → Parser Tree.Expr
  | 0, _ => exhausted
  | steps + 1, e => do
    match ← peek with
    | .symbol .leftParen =>
      let _ ← advance
      let args ← commaItems .rightParen (r.expr 0) r.steps
      let stop ← expect .rightParen
      suffixes r steps (.call e args (e.span.merge stop))
    | .symbol .dot =>
      let _ ← advance
      let field ← identifier
      suffixes r steps (.member e field (e.span.merge field.span))
    | .symbol .leftBracket =>
      let _ ← advance
      let index ← r.expr 0
      let stop ← expect .rightBracket
      suffixes r steps (.subscript e index (e.span.merge stop))
    | _ => pure e

def operand (r : Rules) : Parser Tree.Expr := do
  match (← peek).unary? with
  | some op =>
    let start ← advance
    let operand ← r.expr UnaryOp.precedence
    pure (.unary op operand (start.merge operand.span))
  | none =>
    let first ← r.primary
    r.suffixes r.steps first

/-- Operators of at least the given precedence behind an expression. -/
def operators (r : Rules) (least : Nat) : Nat → Tree.Expr → Parser Tree.Expr
  | 0, _ => exhausted
  | steps + 1, left => do
    match (← peek).binary? with
    | some op =>
      if op.precedence < least then pure left
      else
        let _ ← advance
        let right ← r.expr op.rightPrecedence
        operators r least steps (.binary op left right (left.span.merge right.span))
    | none => pure left

def exprRule (r : Rules) (least : Nat) : Parser Tree.Expr := do
  let first ← r.operand
  r.operators least r.steps first

/-! ### Statements -/

def block (r : Rules) : Parser (Tree.Block Tree.Stmt) := do
  let start ← expect .leftBrace
  let stmts ← itemsUntil (closes .rightBrace) r.stmt r.steps
  let stop ← expect .rightBrace
  pure ⟨stmts, start.merge stop⟩

def variableRule (r : Rules) (readOnly : Bool) : Parser Tree.Stmt := do
  let start ← advance
  let name ← identifier
  let type ← r.colonType
  let assigned ← accept .assign
  let initializer ← if assigned then some <$> r.expr 0 else pure none
  let stop ← expect .semicolon
  pure (.declareVariable name readOnly type initializer (start.merge stop))

def functionRule (r : Rules) : Parser Tree.Stmt := do
  let start ← advance
  let name ← identifier
  let _ ← expect .leftParen
  let params ← commaItems .rightParen r.annotated r.steps
  let _ ← expect .rightParen
  let result ← r.colonType
  let body ← r.block
  pure (.declareFunction name params result body (start.merge body.span))

/-- A field, and the comma or semicolon behind it, if there is one. -/
def field (r : Rules) : Parser Tree.Annotated := do
  let field ← r.annotated
  if ← accept .comma then pure field
  else
    let _ ← accept .semicolon
    pure field

def structRule (r : Rules) (isClass : Bool) : Parser Tree.Stmt := do
  let start ← advance
  let name ← identifier
  let _ ← expect .leftBrace
  let fields ← itemsUntil (closes .rightBrace) r.field r.steps
  let stop ← expect .rightBrace
  pure (.declareStruct name fields isClass (start.merge stop))

def ifRule (r : Rules) : Parser Tree.Stmt := do
  let start ← advance
  let test ← r.expr 0
  let consequent ← r.block
  if ← accept .elseWord then
    match ← peek with
    | .symbol .ifWord =>
      let alternate ← r.stmt
      pure (.ifElseIf test consequent alternate (start.merge alternate.span))
    | _ =>
      let alternate ← r.block
      pure (.ifElse test consequent alternate (start.merge alternate.span))
  else pure (.ifThen test consequent (start.merge consequent.span))

def whileRule (r : Rules) : Parser Tree.Stmt := do
  let start ← advance
  let test ← r.expr 0
  let body ← r.block
  pure (.whileLoop test body (start.merge body.span))

def forRule (r : Rules) : Parser Tree.Stmt := do
  let start ← advance
  let iterator ← identifier
  let _ ← expect .inWord
  let first ← r.expr 0
  match (← peek).range? with
  | some op =>
    let _ ← advance
    let high ← r.expr 0
    let body ← r.block
    pure (.rangeLoop iterator first op high body (start.merge body.span))
  | none =>
    let body ← r.block
    pure (.collectionLoop iterator first body (start.merge body.span))

def tryRule (r : Rules) : Parser Tree.Stmt := do
  let start ← advance
  let body ← r.block
  let _ ← expect .catchWord
  let error ← match ← peek with
    | .name _ => some <$> identifier
    | _ => pure none
  let handler ← r.block
  pure (.tryCatch body error handler (start.merge handler.span))

def returnRule (r : Rules) : Parser Tree.Stmt := do
  let start ← advance
  let value ← match ← peek with
    | .symbol .semicolon => pure none
    | _ => some <$> r.expr 0
  let stop ← expect .semicolon
  pure (.ret value (start.merge stop))

def printRule (r : Rules) : Parser Tree.Stmt := do
  let start ← advance
  let value ← r.expr 0
  let stop ← expect .semicolon
  pure (.print value (start.merge stop))

/-- An assignment, a step up or down by one, or a call. -/
def simpleRule (r : Rules) : Parser Tree.Stmt := do
  let target ← r.expr 0
  let stmt ← match ← peek with
    | .symbol .assign =>
      let _ ← advance
      let value ← r.expr 0
      pure (Tree.Stmt.assign target value (target.span.merge value.span))
    | .symbol .plusPlus =>
      let stop ← advance
      pure (Tree.Stmt.increment target (target.span.merge stop))
    | .symbol .minusMinus =>
      let stop ← advance
      pure (Tree.Stmt.decrement target (target.span.merge stop))
    | _ =>
      if target.isCall then pure (Tree.Stmt.call target target.span)
      else unexpected .assignmentOrCall
  let _ ← expect .semicolon
  pure stmt

def stmtRule (r : Rules) : Parser Tree.Stmt := do
  match ← peek with
  | .symbol .letWord => r.variableRule false
  | .symbol .constWord => r.variableRule true
  | .symbol .fnWord => r.functionRule
  | .symbol .structWord => r.structRule false
  | .symbol .classWord => r.structRule true
  | .symbol .ifWord => r.ifRule
  | .symbol .whileWord => r.whileRule
  | .symbol .forWord => r.forRule
  | .symbol .tryWord => r.tryRule
  | .symbol .returnWord => r.returnRule
  | .symbol .breakWord =>
    let span ← advance
    let _ ← expect .semicolon
    pure (.breakLoop span)
  | .symbol .continueWord =>
    let span ← advance
    let _ ← expect .semicolon
    pure (.continueLoop span)
  | .symbol .printWord => r.printRule
  | _ => r.simpleRule

/-! ### The whole grammar -/

/-- The rules, unfolded to the given depth. -/
def unfold : Nat → Rules
  | 0 => ⟨0, exhausted, fun _ => exhausted, exhausted⟩
  | depth + 1 =>
    let below := unfold depth
    ⟨depth + 1, below.typeRule, below.exprRule, below.stmtRule⟩

/-- Whether the input ends here. -/
def atEnd : Parser Bool := fun cursor => .done cursor.current.kind.isEof cursor

/-- Statements up to the end of the input. -/
def program (r : Rules) : Parser (List Tree.Stmt) := itemsUntil atEnd r.stmt r.steps

/-- How deep the rules are unfolded for a number of tokens. -/
def depthFor (tokens : Nat) : Nat := 2 * tokens + 1

end Rules

end TypedImp.Grammar

namespace TypedImp.Tree

open TypedImp.Grammar

/-- The statements that tokens spell, or why they spell none. -/
def ofTokens : List Token → Except (Located Fault) (List Stmt)
  | [] => .ok []
  | current :: ahead =>
    match (Rules.unfold (Rules.depthFor (ahead.length + 1))).program ⟨current, ahead⟩ with
    | .done stmts _ => .ok stmts
    | .failed fault => .error fault
    | .exhausted => .error ⟨.tooDeep, current.span⟩

/-- The statements of a source text, or why it has none. -/
def ofSource (source : String) : Except (Located Fault) (List Stmt) :=
  ofTokens (Token.ofSource source)

end TypedImp.Tree
