import TypedImp.Proofs.Listing.Lexed
import TypedImp.Proofs.Listing.Regular
import TypedImp.Proofs.Listing.Statements

/-!
# Listings that are read back

A program that passes checking can be shown and read again, if its numbers are finite and its
strings hold nothing that a listing shows as a code point (`Program.readable_of_analyze`).
Its names and suffixes are in order whatever its literals are (`Program.regular_of_analyze`), and
a number that checking leaves in a program has no sign.

**`Program.parse_listing`**: what is read from its listing is a tree of the same statements and
the same expressions, except that a power whose left operand has a sign is read with the sign
in front of the whole power.  So a listing is read as the program that it shows exactly if that
has no such power.
-/

namespace TypedImp

open Listing Token

/-! ### Literals -/

/-- A number is finite, and a string holds only characters that come back. -/
def Expr.IsPlain : Expr → Prop
  | number x _ => x.isFinite = true
  | string s _ => ∀ c ∈ s.toList, Text.ReadsBack c
  | _ => True

/-- **All literals can be written down and read again.** -/
def Program.HasPlainLiterals (p : Program) : Prop := ∀ e ∈ p.exprs, e.IsPlain

theorem Expr.Spelled.readsBack {E : Entities} {e : Expr} (hs : e.Spelled E) (hl : e.IsPlain) :
    e.ReadsBack := by
  cases e with
  | number x ty => exact Decimal.plain_of_isFinite (hs.number x ty rfl) hl
  | string s ty => exact hl
  | _ => trivial

/-! ### Programs -/

/-- **A program that passes checking can be read again**, if its literals can. -/
theorem Program.readable_of_analyze {tree : List Tree.Stmt} {p : Program}
    (htree : ∀ s ∈ tree, s.Built Kind.IsLexed) (hp : analyze tree = .ok p)
    (hl : p.HasPlainLiterals) : p.Readable := by
  have hprintable := (regular_of_analyze htree hp).printable
  obtain ⟨-, hspelled⟩ := spelled_of_analyze htree hp
  intro s hs s' hs'
  obtain ⟨hform, hexprs⟩ := hprintable s hs s' hs'
  refine ⟨hform, fun e he e' he' => ⟨hexprs e he e' he', ?_⟩⟩
  have hmem : e' ∈ p.exprs :=
    mem_exprs_iff.mpr ⟨s', Stmt.mem_nestedAll.mpr ⟨s, hs, hs'⟩, e, he, he'⟩
  exact ((hspelled s hs s' hs').2 e he e' he').readsBack (hl e' hmem)

theorem Program.readable_of_compile {source : String} {p : Program}
    (h : compile source false = .ok p) (hl : p.HasPlainLiterals) : p.Readable := by
  obtain ⟨tree, hparse, hanalyze⟩ := compile_eq_ok h
  have htree := Tree.ofTokens_built (isLexed_ofSource source) (parse_eq_ok hparse)
  exact readable_of_analyze htree hanalyze hl

/-- A listing that can be read has the trees of its program, but for signed powers. -/
theorem Program.Readable.parse_eq_ok {p : Program} (h : p.Readable) :
    ∃ trees, parse p.listing = .ok trees ∧
      trees.map Tree.Stmt.bare = p.trees Tree.Expr.signedPower := by
  have hkinds : (Token.ofSource p.listing).map Token.kind = p.kinds :=
    kinds_listing fun s hs => (h s hs).printable
  obtain ⟨trees, htrees, hbare⟩ := ofTokens_eq h hkinds
  refine ⟨trees, ?_, hbare⟩
  rw [parse, Tree.ofSource, htrees]
  rfl

/-- **A listing is read as the program that it shows, but for signed powers.**  For every
program that is made of a source, or of a tree of tokens such as sources have, the listing can
be read if the literals can be written down.  The statements and expressions that are read are
those of the program, with every name as it was shown, and with the sign of a signed power in
front of it.  So they are those of the program exactly if it has no signed power. -/
theorem Program.parse_listing {p : Program}
    (hp : (∃ source, compile source false = .ok p) ∨
      ∃ tree : List Tree.Stmt, (∀ s ∈ tree, s.Built Kind.IsLexed) ∧ analyze tree = .ok p)
    (hl : p.HasPlainLiterals) :
    ∃ trees, parse p.listing = .ok trees ∧
      trees.map Tree.Stmt.bare = p.trees Tree.Expr.signedPower ∧
      (trees.map Tree.Stmt.bare = p.trees Tree.Expr.power ↔
        ∀ e ∈ p.exprs, e.isSignedPower = false) := by
  have hreadable : p.Readable := by
    rcases hp with ⟨source, hsource⟩ | ⟨tree, htree, hanalyze⟩
    · exact readable_of_compile hsource hl
    · exact readable_of_analyze htree hanalyze hl
  obtain ⟨trees, hparse, hbare⟩ := hreadable.parse_eq_ok
  refine ⟨trees, hparse, hbare, ?_⟩
  rw [hbare]
  exact p.trees_eq_iff

/-- An `else if`, an array without elements and a string with an escape. -/
def chainedSource : String :=
  "let s = \"a\\n\"; if s == \"\" \x7b print [string](); \x7d else if -π < π \x7b print s; \x7d"

def chainedProgram : Program :=
  { statements :=
      [.declareVariable ⟨1⟩ (some (.string "a\n" .string)),
        .ifElseIf (.binary .eq (.var ⟨1⟩ .string) (.string "" .string) .bool)
          [.print (.array [] (.array .string))]
          (.ifThen (.binary .lt (.unary .neg (.var ⟨0⟩ .number) .number) (.var ⟨0⟩ .number) .bool)
            [.print (.var ⟨1⟩ .string)])]
    entities := Entities.initial.addVariable ⟨"s", false, .string⟩ }

theorem Program.parse_listing_chained :
    compile chainedSource false = .ok chainedProgram ∧ chainedProgram.HasPlainLiterals ∧
      ∃ trees, parse chainedProgram.listing = .ok trees ∧
        trees.map Tree.Stmt.bare = chainedProgram.trees Tree.Expr.power := by
  have hcompile : compile chainedSource false = .ok chainedProgram := by cbv
  have hplain : chainedProgram.HasPlainLiterals := by
    have hall : ("a\n".toList.all fun c => decide (Text.ReadsBack c)) = true := by decide +kernel
    have hescaped : ∀ c ∈ "a\n".toList, Text.ReadsBack c := by
      intro c hc
      exact of_decide_eq_true (List.all_eq_true.mp hall c hc)
    simpa [HasPlainLiterals, chainedProgram, exprs, stmts, Stmt.nestedAll, Stmt.nested, Stmt.exprs,
      Expr.nested, Expr.nestedAll, Expr.IsPlain] using hescaped
  obtain ⟨trees, hparse, -, hiff⟩ := parse_listing (.inl ⟨chainedSource, hcompile⟩) hplain
  exact ⟨hcompile, hplain, trees, hparse, hiff.mpr (by decide)⟩

/-- The program of `print (-π) ** π;`. -/
def signedPowerProgram : Program :=
  { statements :=
      [.print (.binary .pow (.unary .neg (.var ⟨0⟩ .number) .number) (.var ⟨0⟩ .number) .number)]
    entities := .initial }

/-- **A signed power is not read as what it is.** -/
theorem exists_listing_misread : ∃ (source : String) (p : Program),
    compile source false = .ok p ∧ p.HasPlainLiterals ∧
      ¬ ∃ trees, parse p.listing = .ok trees ∧
        trees.map Tree.Stmt.bare = p.trees Tree.Expr.power := by
  have hcompile : compile "print (-π) ** π;" false = .ok signedPowerProgram := by cbv
  have hplain : signedPowerProgram.HasPlainLiterals := by
    simp [Program.HasPlainLiterals, signedPowerProgram, Program.exprs, Program.stmts,
      Stmt.nestedAll, Stmt.nested, Stmt.exprs, Expr.nested, Expr.IsPlain]
  refine ⟨_, signedPowerProgram, hcompile, hplain, ?_⟩
  rintro ⟨trees, hparse, hbare⟩
  obtain ⟨trees', hparse', hbare'⟩ := (Program.readable_of_compile hcompile hplain).parse_eq_ok
  rw [hparse] at hparse'
  cases hparse'
  -- The tree that is read begins with the sign, the tree of the program with the power.
  rw [hbare] at hbare'
  cases hbare'

end TypedImp
