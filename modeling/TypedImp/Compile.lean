import TypedImp.Checking.Stmt
import TypedImp.Grammar.Rules
import TypedImp.Simplify.Stmt

/-!
# Compiling a source text

The stages in a row: tokens, parse tree, program, and, if wanted, its simplified
form.  The first mistake ends the run with its diagnostic.
-/

namespace TypedImp

/-- The parse tree of a source text, or what is wrong with its grammar. -/
def parse (source : String) : Except Diagnostic (List Tree.Stmt) :=
  (Tree.ofSource source).mapError .ofGrammar

/-- The program of a parse tree, or the rule that it breaks. -/
def analyze (tree : List Tree.Stmt) : Except Diagnostic Program :=
  (Program.ofTree tree).mapError .ofChecking

/-- The program of a source text, simplified if wanted. -/
def compile (source : String) (simplify : Bool) : Except Diagnostic Program := do
  let tree ← parse source
  let program ← analyze tree
  pure (if simplify then program.simplify.value else program)

end TypedImp
