import TypedImp.Source.Span
import TypedImp.Grammar.Parser

/-!
# Diagnostics

What a user is told about a program that is not accepted: which stage refused
it, why, and where.
-/

namespace TypedImp

/-- The stage at which a program is refused. -/
inductive Stage where
  /-- Its tokens are not a program. -/
  | grammar
  /-- It breaks a rule on names, types or the places of statements. -/
  | semantics
deriving DecidableEq, Repr

def Stage.name : Stage → String
  | grammar => "Syntax"
  | semantics => "Semantic"

/-- A message with its place. -/
structure Diagnostic where
  stage : Stage
  message : String
  span : Span
deriving DecidableEq, Repr

/-- A diagnostic as it is shown: the stage, the place, and the message. -/
def Diagnostic.text (d : Diagnostic) : String :=
  d.stage.name ++ " error at " ++ d.span.text ++ ": " ++ d.message

def Diagnostic.ofGrammar (fault : Located Grammar.Fault) : Diagnostic :=
  ⟨.grammar, fault.cause.message, fault.span⟩

end TypedImp
