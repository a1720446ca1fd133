import TypedImp.Main
import TypedImp.Proofs.Agreement
import TypedImp.Proofs.Binary64.Signs
import TypedImp.Proofs.Checking.Invariant
import TypedImp.Proofs.Command.Runs
import TypedImp.Proofs.Document.Numbers
import TypedImp.Proofs.Grammar.Mistakes
import TypedImp.Proofs.Grammar.Moves
import TypedImp.Proofs.Grammar.Progress
import TypedImp.Proofs.Grammar.StatementCompleteness
import TypedImp.Proofs.Joined.Source
import TypedImp.Proofs.Layout.Compile
import TypedImp.Proofs.Listing.Described
import TypedImp.Proofs.Listing.Lexed
import TypedImp.Proofs.Listing.ReadBack
import TypedImp.Proofs.Listing.Shown
import TypedImp.Proofs.Listing.Statements
import TypedImp.Proofs.Placement.Checked
import TypedImp.Proofs.Places.Source
import TypedImp.Proofs.Scoping.Checked
import TypedImp.Proofs.Scoping.Distinct
import TypedImp.Proofs.Scoping.Frames
import TypedImp.Proofs.Scoping.History
import TypedImp.Proofs.Simplify.Calls
import TypedImp.Proofs.Simplify.Normal
import TypedImp.Proofs.Simplify.Origin
import TypedImp.Proofs.Simplify.Run
import TypedImp.Proofs.Simplify.Size
import TypedImp.Proofs.Simplify.Substitution
import TypedImp.Proofs.Simplify.Types
import TypedImp.Proofs.Simplify.Typing
import TypedImp.Proofs.Tables.Access
import TypedImp.Proofs.Tables.Growth
import TypedImp.Proofs.Tables.Names
import TypedImp.Proofs.Tables.Order
import TypedImp.Proofs.Tables.Structs
import TypedImp.Proofs.Tables.Void
import TypedImp.Proofs.Token.Placed
import TypedImp.Proofs.Token.Source
import TypedImp.Proofs.Token.Written
import TypedImp.Proofs.Typing.Any
import TypedImp.Proofs.Typing.Assignable
import TypedImp.Proofs.Typing.Soundness
