import TypedImp.Decimal.Layout
import TypedImp.Operator
import TypedImp.Source.Span

/-!
# Tokens

A token is a stretch of the source with the kind of thing it is: a symbol, a
name, a number, a string, or the end of the input.  A character that begins no
token, and a string that is not closed on its line, are tokens of their own
kind, so that every source has tokens and the mistake is reported only where a
reader of the tokens comes upon it.
-/

namespace TypedImp

namespace Token

inductive Kind where
  | symbol (s : Symbol)
  | name (name : String)
  | number (value : Float)
  | string (value : String)
  | eof
  /-- A character that begins no token. -/
  | unknown (c : Char)
  /-- A string without its closing quote. -/
  | unterminated
deriving Repr

namespace Kind

/-- A text between single quotes. -/
def singleQuoted (s : String) : String := "'" ++ s ++ "'"

/-- How a token is named in a message. -/
def describe : Kind → String
  | symbol s => singleQuoted s.spelling
  | name n => "identifier " ++ singleQuoted n
  | number x => "number " ++ Decimal.text x
  | string s => "string \"" ++ s ++ "\""
  | eof => "end of input"
  | unknown c => "character " ++ singleQuoted (String.singleton c)
  | unterminated => "unterminated string"

/-- Whether a token is the given symbol. -/
def isSymbol (s : Symbol) : Kind → Bool
  | symbol t => s == t
  | _ => false

/-- Whether the input ends here. -/
def isEof : Kind → Bool
  | eof => true
  | _ => false

/-- The spelling of a token that has only one. -/
def spelling? : Kind → Option String
  | symbol s => some s.spelling
  | _ => none

/-- The binary operator that a token stands for between two operands. -/
def binary? : Kind → Option BinaryOp
  | symbol s => BinaryOp.ofSymbol? s
  | _ => none

/-- The unary operator that a token stands for in front of an operand. -/
def unary? : Kind → Option UnaryOp
  | symbol s => UnaryOp.ofSymbol? s
  | _ => none

/-- The range operator that a token stands for between two bounds. -/
def range? : Kind → Option RangeOp
  | symbol s => RangeOp.ofSymbol? s
  | _ => none

@[simp] theorem isSymbol_symbol (s t : Symbol) : (symbol t).isSymbol s = (s == t) := rfl

theorem isSymbol_iff {s : Symbol} {k : Kind} : k.isSymbol s = true ↔ k = symbol s := by
  cases k <;> simp [isSymbol, @eq_comm _ s]

theorem isEof_iff {k : Kind} : k.isEof = true ↔ k = eof := by
  cases k <;> simp [isEof]

end Kind

end Token

/-- A token of a source text. -/
structure Token where
  kind : Token.Kind
  span : Span
deriving Repr

end TypedImp
