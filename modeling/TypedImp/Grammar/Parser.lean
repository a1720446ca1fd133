import TypedImp.Token.Basic

/-!
# Parsers

A parser looks at tokens through a `Cursor`, which holds the current token and
those ahead of it.  The last token is the end of the input; `Cursor.step` never
goes past it.  A parser ends in one of three ways: it is `done` with a value and
the cursor it stopped at, it `failed` at a token, or its steps are `exhausted`.
The last is kept apart from failure, so that a parser with more steps to go can
be seen to agree with every answer of one with fewer.

Parsers are built by `>>=` from a few that look at one token: `peek`, `advance`,
`accept`, `expect` and `identifier`.  None of them but `advance` passes a token
that it did not recognise.  `itemsUntil` and `commaItems` read lists.
-/

namespace TypedImp.Grammar

/-- What a rule of the grammar wants to see next. -/
inductive Expected where
  | symbol (s : Symbol)
  | identifier
  | type
  | expression
  /-- What may stand behind an expression that begins a statement. -/
  | assignmentOrCall
deriving DecidableEq, Repr

def Expected.text : Expected → String
  | symbol s => Token.Kind.singleQuoted s.spelling
  | identifier => "an identifier"
  | type => "a type"
  | expression => "an expression"
  | assignmentOrCall => "'=', '++', '--' or a call"

/-- Why tokens are not a program. -/
inductive Fault where
  | unexpectedCharacter (c : Char)
  | unterminatedString
  | expected (wanted : Expected) (found : Token.Kind)
  /-- The steps given to the grammar did not reach the end.  There are always
  enough of them. -/
  | tooDeep
deriving Repr

def Fault.message : Fault → String
  | unexpectedCharacter c => "Unexpected character " ++ Token.Kind.singleQuoted (String.singleton c)
  | unterminatedString => "Unterminated string"
  | expected wanted found => "Expected " ++ wanted.text ++ ", found " ++ found.describe
  | tooDeep => "Nested too deeply"

/-- The fault of a token that is not the wanted one.  A token that no rule ever
wants is itself the mistake. -/
def Fault.ofKind (wanted : Expected) : Token.Kind → Fault
  | .unknown c => unexpectedCharacter c
  | .unterminated => unterminatedString
  | found => expected wanted found

/-- A place between tokens. -/
structure Cursor where
  current : Token
  ahead : List Token
deriving Repr

/-- The place behind the current token; the end of the input is never passed. -/
def Cursor.step : Cursor → Cursor
  | ⟨current, []⟩ => ⟨current, []⟩
  | ⟨_, next :: ahead⟩ => ⟨next, ahead⟩

/-- How a parser ends. -/
inductive Outcome (α : Type) where
  | done (value : α) (rest : Cursor)
  | failed (fault : Located Fault)
  | exhausted

/-- A reader of tokens. -/
def Parser (α : Type) := Cursor → Outcome α

namespace Parser

variable {α β : Type}

instance : Monad Parser where
  pure value := fun cursor => .done value cursor
  bind p f := fun cursor =>
    match p cursor with
    | .done value rest => f value rest
    | .failed fault => .failed fault
    | .exhausted => .exhausted

theorem bind_apply (p : Parser α) (f : α → Parser β) (cursor : Cursor) :
    (p >>= f) cursor =
      match p cursor with
      | .done value rest => f value rest
      | .failed fault => .failed fault
      | .exhausted => .exhausted := rfl

/-- The parser whose steps are used up. -/
def exhausted : Parser α := fun _ => .exhausted

/-- The kind of the current token. -/
def peek : Parser Token.Kind := fun cursor => .done cursor.current.kind cursor

/-- Passes the current token. -/
def advance : Parser Span := fun cursor => .done cursor.current.span cursor.step

/-- Fails at the current token. -/
def unexpected (wanted : Expected) : Parser α := fun cursor =>
  .failed ⟨.ofKind wanted cursor.current.kind, cursor.current.span⟩

/-- Passes the current token if it is the given symbol, and says whether it was. -/
def accept (s : Symbol) : Parser Bool := fun cursor =>
  if cursor.current.kind.isSymbol s then .done true cursor.step else .done false cursor

/-- Passes the given symbol. -/
def expect (s : Symbol) : Parser Span := fun cursor =>
  if cursor.current.kind.isSymbol s then .done cursor.current.span cursor.step
  else unexpected (.symbol s) cursor

/-- The answer of a parser, or, where it fails, nothing read. -/
def attempt (p : Parser α) : Parser (Option α) := fun cursor =>
  match p cursor with
  | .done value rest => .done (some value) rest
  | .failed _ => .done none cursor
  | .exhausted => .exhausted

/-- Whether the current token closes a list, or the input ends. -/
def closes (closing : Symbol) : Parser Bool := fun cursor =>
  .done (cursor.current.kind.isSymbol closing || cursor.current.kind.isEof) cursor

/-- Items up to a token that ends them. -/
def itemsUntil (ends : Parser Bool) (item : Parser α) : Nat → Parser (List α)
  | 0 => exhausted
  | steps + 1 => do
    if ← ends then pure []
    else
      let first ← item
      let others ← itemsUntil ends item steps
      pure (first :: others)

/-- Items with commas between them, up to a closing symbol.  A comma may stand
behind the last one. -/
def commaItems (closing : Symbol) (item : Parser α) : Nat → Parser (List α)
  | 0 => exhausted
  | steps + 1 => do
    if ← closes closing then pure []
    else
      let first ← item
      if ← accept .comma then
        let others ← commaItems closing item steps
        pure (first :: others)
      else pure [first]

end Parser

end TypedImp.Grammar
