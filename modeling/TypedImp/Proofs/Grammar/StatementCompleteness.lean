import TypedImp.Proofs.Grammar.Completeness
import TypedImp.Proofs.Grammar.StatementSoundness

/-!
# Every statement is read

Where an expression stands in a statement, what comes behind it goes on with no expression: a
brace, a semicolon, an assignment, a range.  So every expression of a statement is read as it
is, and each form of statement is read by its own rule.  One thing more is needed: no `else`
comes behind a statement, since a conditional would take it in.  It does not where another
statement comes, or the brace that closes a block, or the end of the input.

The induction over a derivation assumes of every statement within it that it is read
(`StmtReads`), and is closed by one lemma for each form (**`IsStmt.reads`**).

With what the parser yields this says what it accepts: **`Tree.ofTokens_exact`**, the tokens up
to the first end of the input are read as a program exactly if they are one, and as what they
are.
-/

namespace TypedImp

open Listing Grammar Grammar.Parser
open TypedImp.Token (Kind)

namespace Grammar

variable {depth : Nat} {ks rest : List Kind}

theorem stops_semicolon (ks : List Kind) : Stops 0 (.symbol .semicolon :: ks) :=
  stops_cons_of_none 0 ks rfl rfl

theorem stops_bracedKinds (ks ks' : List Kind) : Stops 0 (bracedKinds ks ++ ks') :=
  stops_cons_of_none 0 _ rfl rfl

theorem stops_range (op : RangeOp) (ks : List Kind) : Stops 0 (.symbol op.symbol :: ks) := by
  cases op <;> exact stops_cons_of_none 0 ks rfl rfl

/-! ### Parts of statements -/

theorem IsAnnotated.reads {a : Tree.Annotated} (h : IsAnnotated ks a) (hr : Ended rest)
    (hdepth : (ks ++ rest).length < depth) :
    Reads (Rules.unfold depth).annotated ks rest fun value => value.bare = a := by
  cases h with
  | @of ks type name h =>
    simp only [List.cons_append, List.length_cons] at hdepth
    refine Reads.bind_cons (reads_identifier ((hr.append _).cons _)) fun name' hname => ?_
    refine Reads.bind_cons (reads_expect (hr.append _)) fun _ _ => ?_
    refine (h.reads hr (by omega)).bind_pure fun type htype => ?_
    rw [Tree.Annotated.bare, hname, htype]

theorem reads_colonType {type : Option Tree.TypeExpr}
    (h : Optional IsType [.symbol .colon] ks type) (hr : Ended rest)
    (hcolon : rest.head? ≠ some (.symbol .colon)) (hdepth : (ks ++ rest).length < depth) :
    Reads (Rules.colonType (Rules.unfold depth)) ks rest
      fun value => value.map Tree.TypeExpr.bare = type := by
  cases h with
  | none =>
    refine Reads.bind_known (reads_accept_other hcolon) ?_
    exact reads_pure rfl
  | some h =>
    refine Reads.bind_cons_known (reads_accept (hr.append _)) ?_
    simp only [List.cons_append, List.length_cons] at hdepth
    exact (h.reads hr (Nat.lt_of_succ_lt hdepth)).bind_pure fun type htype => congrArg some htype

def NoSeparator (ks : List Kind) : Prop :=
  ks.head? ≠ some (.symbol .comma) ∧ ks.head? ≠ some (.symbol .semicolon)

theorem IsField.reads {a : Tree.Annotated} (h : IsField ks a) (hr : Ended rest)
    (hnext : NoSeparator rest) (hdepth : (ks ++ rest).length < depth) :
    Reads (Rules.unfold depth).field ks rest fun value => value.bare = a := by
  cases h with
  | last h =>
    rw [← List.append_nil ks]
    refine Reads.bind (h.reads hr hdepth) fun a ha => ?_
    refine Reads.bind_known (reads_accept_other hnext.1) ?_
    exact Reads.bind_known (reads_accept_other hnext.2) (reads_pure ha)
  | comma h =>
    rw [List.append_assoc] at hdepth
    refine Reads.bind (h.reads (hr.cons _) hdepth) fun a ha => ?_
    refine Reads.bind_cons_known (reads_accept hr) ?_
    exact reads_pure ha
  | semicolon h =>
    rw [List.append_assoc] at hdepth
    refine Reads.bind (h.reads (hr.cons _) hdepth) fun a ha => ?_
    refine Reads.bind_known (reads_accept_other (by simp)) ?_
    exact Reads.bind_cons_known (reads_accept hr) (reads_pure ha)

/-! ### Statements one after the other -/

def NoElse (ks : List Kind) : Prop := ks.head? ≠ some (.symbol .elseWord)

/-- **A statement is read as its tree.**  An expression may begin it without a token in between, so
the rules have to be unfolded once more than there are tokens. -/
def StmtReads (ks : List Kind) (s : Tree.Stmt) : Prop :=
  ∀ depth rest, Ended rest → (ks ++ rest).length + 1 < depth → NoElse rest →
    Reads (Rules.unfold depth).stmt ks rest fun value => value.bare = s

theorem stmtReads_of_rule {s : Tree.Stmt} (h : ∀ depth rest, Ended rest →
    (ks ++ rest).length < depth → NoElse rest →
    Reads (Rules.unfold depth).stmtRule ks rest fun value => value.bare = s) : StmtReads ks s := by
  intro depth rest hr hdepth hrest
  cases depth with
  | zero => omega
  | succ depth => exact h depth rest hr (Nat.lt_of_succ_lt_succ hdepth) hrest

section

variable {body : List (List Kind × Tree.Stmt)} (hbody : ∀ p ∈ body, IsStmt p.1 p.2)
  (hread : ∀ p ∈ body, StmtReads p.1 p.2)

include hbody hread

/-- Statements one after the other, up to a token that ends them. -/
theorem reads_stmts {ends : Parser Bool} {steps : Nat} (hends : Reads ends [] rest (· = true))
    (hothers : ∀ k ks, startsStmt k = true → Reads ends [] (k :: ks) (· = false))
    (hrest : NoElse rest) (hr : Ended rest)
    (hdepth : (body.flatMap Prod.fst ++ rest).length + 1 < depth)
    (hsteps : (body.flatMap Prod.fst ++ rest).length ≤ steps) :
    Reads (itemsUntil ends (Rules.unfold depth).stmt steps) (body.flatMap Prod.fst) rest
      fun values => values.map Tree.Stmt.bare = body.map Prod.snd := by
  refine reads_itemsUntil hends hrest (fun p hp => ?_) (fun p hp others hends hle hothers => ?_) hr
    (Nat.le_refl _) hsteps
  · obtain ⟨k, ks, hks, hk⟩ := (hbody p hp).eq_cons
    rw [hks]
    refine ⟨List.cons_ne_nil k ks, fun others => ⟨hothers k _ hk, fun hhead => ?_⟩⟩
    cases hhead
    cases hk
  · exact hread p hp depth others hends (by omega) hothers

theorem reads_block (hr : Ended rest) (hdepth : (blockKinds body ++ rest).length < depth) :
    Reads (Rules.unfold depth).block (blockKinds body) rest
      fun block => Tree.Stmt.bareAll block.stmts = body.map Prod.snd := by
  have hlength : (body.flatMap Prod.fst ++ .symbol .rightBrace :: rest).length + 1 < depth := by
    simpa [blockKinds, bracedKinds] using hdepth
  have hends : Reads (Parser.closes .rightBrace) [] (.symbol .rightBrace :: rest) (· = true) :=
    (reads_closes (k := .symbol .rightBrace) rfl).mono fun _ h => h
  have hothers (k : Kind) (ks : List Kind) (hk : startsStmt k = true) :
      Reads (Parser.closes .rightBrace) [] (k :: ks) (· = false) :=
    (reads_closes rfl).mono fun _ h => h.trans (not_closes_of_startsStmt hk)
  have hstmts := reads_stmts hbody hread hends hothers (by simp [NoElse]) (hr.cons _) hlength
    (show _ ≤ (Rules.unfold depth).steps by rw [Rules.steps_unfold]; omega)
  refine Reads.bind_cons (reads_expect (hr.append _)) fun start _ => ?_
  refine Reads.bind hstmts fun stmts hstmts => ?_
  refine Reads.bind_cons (reads_expect hr) fun stop _ => reads_pure ?_
  rw [Tree.Stmt.bareAll_eq_map, hstmts]

end

/-! ### Declarations -/

theorem reads_variableRule {ks' : List Kind} {type : Option Tree.TypeExpr}
    {initializer : Option Tree.Expr} {k : Kind} {name : String} (readOnly : Bool)
    (htype : Optional IsType [.symbol .colon] ks type)
    (hinitializer : Optional (Derives .or) [.symbol .assign] ks' initializer) (hr : Ended rest)
    (hdepth : (ks ++ (ks' ++ .symbol .semicolon :: rest)).length < depth) :
    Reads ((Rules.unfold depth).variableRule readOnly)
      (k :: .name name :: (ks ++ (ks' ++ [.symbol .semicolon]))) rest
      fun value => value.bare =
        .declareVariable (.of name) readOnly type initializer default := by
  refine Reads.bind_cons (reads_advance (hr.append _)) fun start _ => ?_
  refine Reads.bind_cons (reads_identifier (hr.append _)) fun name hname => ?_
  have hcolon : (ks' ++ [Kind.symbol .semicolon] ++ rest).head? ≠ some (.symbol .colon) := by
    cases hinitializer <;> simp
  refine Reads.bind (reads_colonType htype (hr.append _) hcolon (by simpa using hdepth))
    fun type htype => ?_
  cases hinitializer with
  | none =>
    refine Reads.bind_known (reads_accept_other (by simp)) ?_
    refine Reads.bind_known (reads_pure rfl) ?_
    refine Reads.bind_cons (reads_expect hr) fun stop _ => reads_pure ?_
    rw [Tree.Stmt.bare, hname, htype]
    rfl
  | some he =>
    simp only [List.length_append, List.length_cons] at hdepth
    have hvalue := (he.reads (hr.cons _) (show _ < depth by
      simp only [List.length_append, List.length_cons]; omega) (stops_semicolon rest)).map
        (g := some) (Q := fun value => value.map Tree.Expr.bare = some _)
          fun value hvalue => congrArg some hvalue
    refine Reads.bind_cons_known (reads_accept (hr.append _)) ?_
    refine Reads.bind hvalue fun initializer hinitializer => ?_
    refine Reads.bind_cons (reads_expect hr) fun stop _ => reads_pure ?_
    rw [Tree.Stmt.bare, hname, htype, hinitializer]

theorem stmtReads_declareVariable {ks' : List Kind} {type : Option Tree.TypeExpr}
    {initializer : Option Tree.Expr} (name : String) (readOnly : Bool)
    (htype : Optional IsType [.symbol .colon] ks type)
    (hinitializer : Optional (Derives .or) [.symbol .assign] ks' initializer) :
    StmtReads (.symbol (if readOnly then .constWord else .letWord) :: .name name ::
      (ks ++ (ks' ++ [.symbol .semicolon])))
      (.declareVariable (.of name) readOnly type initializer default) := by
  refine stmtReads_of_rule fun depth rest hr hdepth _ => ?_
  have hlength : (ks ++ (ks' ++ .symbol .semicolon :: rest)).length < depth := by
    simp only [List.length_append, List.length_cons, List.length_nil] at hdepth ⊢
    omega
  refine Reads.bind_known (reads_peek rfl) ?_
  cases readOnly
  · exact reads_variableRule false htype hinitializer hr hlength
  · exact reads_variableRule true htype hinitializer hr hlength

/-- Parameters with commas between them. -/
theorem reads_params {params : List (List Kind × Tree.Annotated)}
    (hparams : ∀ p ∈ params, IsAnnotated p.1 p.2) (hks : Separated (params.map Prod.fst) ks)
    (hr : Ended rest) (hdepth : (ks ++ .symbol .rightParen :: rest).length < depth) :
    Reads (commaItems .rightParen (Rules.unfold depth).annotated (Rules.unfold depth).steps) ks
      (.symbol .rightParen :: rest)
      fun values => values.map Tree.Annotated.bare = params.map Prod.snd := by
  refine reads_separated hks rfl (by decide) (fun p hp => ?_) (fun p hp others hothers hle _ => ?_)
    hr (Nat.le_refl _) (by rw [Rules.steps_unfold]; omega)
  · obtain ⟨ks, a⟩ := p
    obtain ⟨name, -⟩ := hparams _ hp
    exact ⟨_, _, rfl, rfl, rfl⟩
  · exact (hparams p hp).reads hothers (Nat.lt_of_le_of_lt hle hdepth)

theorem stmtReads_declareFunction {params : List (List Kind × Tree.Annotated)} {ks' : List Kind}
    {result : Option Tree.TypeExpr} {body : List (List Kind × Tree.Stmt)} (name : String)
    (hparams : ∀ p ∈ params, IsAnnotated p.1 p.2) (hks : Separated (params.map Prod.fst) ks)
    (hresult : Optional IsType [.symbol .colon] ks' result) (hbody : ∀ p ∈ body, IsStmt p.1 p.2)
    (hread : ∀ p ∈ body, StmtReads p.1 p.2) :
    StmtReads (.symbol .fnWord :: .name name :: .symbol .leftParen ::
      (ks ++ .symbol .rightParen :: (ks' ++ blockKinds body)))
      (.declareFunction (.of name) (params.map Prod.snd) result (blockTree body) default) := by
  refine stmtReads_of_rule fun depth rest hr hdepth _ => ?_
  simp only [List.length_append, List.length_cons, List.cons_append, List.append_assoc] at hdepth
  have hparams' := reads_params hparams hks (hr.append (ks' ++ blockKinds body))
    (show _ < depth by simp only [List.length_append, List.length_cons]; omega)
  have hresult' := reads_colonType hresult (hr.append (blockKinds body))
    (by simp [blockKinds, bracedKinds])
    (show _ < depth by simp only [List.length_append]; omega)
  have hblock := reads_block hbody hread hr
    (show _ < depth by simp only [List.length_append]; omega)
  refine Reads.bind_known (reads_peek rfl) ?_
  refine Reads.bind_cons (reads_advance (hr.append _)) fun start _ => ?_
  refine Reads.bind_cons (reads_identifier (hr.append _)) fun name' hname => ?_
  refine Reads.bind_cons (reads_expect (hr.append _)) fun _ _ => ?_
  refine Reads.bind hparams' fun values hvalues => ?_
  refine Reads.bind_cons (reads_expect (hr.append _)) fun _ _ => ?_
  refine Reads.bind hresult' fun result' hresult => ?_
  refine hblock.bind_pure fun block hblock => ?_
  obtain ⟨stmts, span⟩ := block
  rw [Tree.Stmt.bare, hname, hvalues, hresult, hblock, blockTree]

theorem reads_structRule {fields : List (List Kind × Tree.Annotated)} {k : Kind} {name : String}
    (isClass : Bool) (hfields : ∀ p ∈ fields, IsField p.1 p.2) (hr : Ended rest)
    (hdepth : (bracedKinds (fields.flatMap Prod.fst) ++ rest).length < depth) :
    Reads ((Rules.unfold depth).structRule isClass)
      (k :: .name name :: bracedKinds (fields.flatMap Prod.fst)) rest
      fun value => value.bare =
        .declareStruct (.of name) (fields.map Prod.snd) isClass default := by
  have hlength : (fields.flatMap Prod.fst ++ .symbol .rightBrace :: rest).length + 1 < depth := by
    simpa [bracedKinds] using hdepth
  have hends : Reads (Parser.closes .rightBrace) [] (.symbol .rightBrace :: rest) (· = true) :=
    (reads_closes (k := .symbol .rightBrace) rfl).mono fun _ h => h
  -- Behind a field come another one or the brace, so neither a comma nor a semicolon.
  have hfields' : Reads (itemsUntil (Parser.closes .rightBrace) (Rules.unfold depth).field
      (Rules.unfold depth).steps) (fields.flatMap Prod.fst) (.symbol .rightBrace :: rest)
      fun values => values.map Tree.Annotated.bare = fields.map Prod.snd := by
    have hlast : NoSeparator (.symbol .rightBrace :: rest) := by simp [NoSeparator]
    refine reads_itemsUntil hends hlast (fun p hp => ?_)
      (fun p hp others hothers hle hnext => ?_) (hr.cons _) (Nat.le_refl _)
      (by rw [Rules.steps_unfold]; omega)
    · obtain ⟨name, ks, hks⟩ := (hfields p hp).eq_cons
      rw [hks]
      exact ⟨by simp, fun others => ⟨(reads_closes (k := .name name) rfl).mono fun _ h => h,
        by simp [NoSeparator]⟩⟩
    · exact (hfields p hp).reads hothers hnext (by omega)
  refine Reads.bind_cons (reads_advance (hr.append _)) fun start _ => ?_
  refine Reads.bind_cons (reads_identifier (hr.append _)) fun name' hname => ?_
  refine Reads.bind_cons (reads_expect (hr.append _)) fun _ _ => ?_
  refine Reads.bind hfields' fun fields hfields => ?_
  refine Reads.bind_cons (reads_expect hr) fun stop _ => reads_pure ?_
  rw [Tree.Stmt.bare, hname, hfields]

theorem stmtReads_declareStruct {fields : List (List Kind × Tree.Annotated)} (name : String)
    (isClass : Bool) (hfields : ∀ p ∈ fields, IsField p.1 p.2) :
    StmtReads (.symbol (if isClass then .classWord else .structWord) :: .name name ::
      bracedKinds (fields.flatMap Prod.fst))
      (.declareStruct (.of name) (fields.map Prod.snd) isClass default) := by
  refine stmtReads_of_rule fun depth rest hr hdepth _ => ?_
  simp only [List.cons_append, List.length_cons] at hdepth
  refine Reads.bind_known (reads_peek rfl) ?_
  cases isClass
  · exact reads_structRule false hfields hr (by omega)
  · exact reads_structRule true hfields hr (by omega)

/-! ### Conditionals and loops -/

/-- **A test and a block** behind a keyword, which a conditional and a loop begin with. -/
theorem reads_test_block {test : Tree.Expr} {body : List (List Kind × Tree.Stmt)} {k : Kind}
    {ks' : List Kind} {f : Span → Tree.Expr → Tree.Block Tree.Stmt → Parser Tree.Stmt}
    {Q : Tree.Stmt → Prop} (htest : Derives .or ks test) (hbody : ∀ p ∈ body, IsStmt p.1 p.2)
    (hread : ∀ p ∈ body, StmtReads p.1 p.2) (hr : Ended (ks' ++ rest))
    (hdepth : (ks ++ (blockKinds body ++ (ks' ++ rest))).length < depth)
    (hf : ∀ start test' block, test'.bare = test →
      Tree.Stmt.bareAll block.stmts = body.map Prod.snd →
        Reads (f start test' block) ks' rest Q) :
    Reads (do
        let start ← advance
        let test' ← (Rules.unfold depth).expr 0
        let block ← (Rules.unfold depth).block
        f start test' block)
      (k :: (ks ++ (blockKinds body ++ ks'))) rest Q := by
  have hbehind := hr.append (blockKinds body)
  have htest' := htest.reads hbehind hdepth (stops_bracedKinds _ _)
  have hblock := reads_block hbody hread hr
    (show _ < depth by rw [List.length_append] at hdepth; omega)
  rw [← List.append_assoc] at htest' hbehind
  refine Reads.bind_cons (reads_advance ?_) fun start _ => ?_
  · rw [List.append_assoc]
    exact hbehind.append _
  refine Reads.bind htest' fun test' htest' => ?_
  exact Reads.bind hblock fun block hblock => hf start test' block htest' hblock

section

variable {test : Tree.Expr} {consequent : List (List Kind × Tree.Stmt)}
  (htest : Derives .or ks test) (hconsequent : ∀ p ∈ consequent, IsStmt p.1 p.2)
  (hread : ∀ p ∈ consequent, StmtReads p.1 p.2)

include htest hconsequent hread

theorem stmtReads_ifThen :
    StmtReads (.symbol .ifWord :: (ks ++ blockKinds consequent))
      (.ifThen test (blockTree consequent) default) := by
  refine stmtReads_of_rule fun depth rest hr hdepth hrest => ?_
  rw [List.cons_append, List.append_assoc, List.length_cons] at hdepth
  rw [← List.append_nil (blockKinds _)]
  refine Reads.bind_known (reads_peek rfl) ?_
  refine reads_test_block htest hconsequent hread hr (Nat.lt_of_succ_lt hdepth)
    fun start test' block htest' hblock => ?_
  refine Reads.bind_known (reads_accept_other hrest) ?_
  refine reads_pure ?_
  obtain ⟨stmts, span⟩ := block
  rw [Tree.Stmt.bare, htest', hblock, blockTree]

theorem stmtReads_ifElse {alternate : List (List Kind × Tree.Stmt)}
    (halternate : ∀ p ∈ alternate, IsStmt p.1 p.2) (hread' : ∀ p ∈ alternate, StmtReads p.1 p.2) :
    StmtReads (.symbol .ifWord :: (ks ++ (blockKinds consequent ++
      .symbol .elseWord :: blockKinds alternate)))
      (.ifElse test (blockTree consequent) (blockTree alternate) default) := by
  refine stmtReads_of_rule fun depth rest hr hdepth _ => ?_
  simp only [List.length_append, List.length_cons, List.cons_append, List.append_assoc] at hdepth
  have hbehind := hr.append (blockKinds alternate)
  have hsecond := reads_block halternate hread' hr
    (show _ < depth by rw [List.length_append]; omega)
  refine Reads.bind_known (reads_peek rfl) ?_
  refine reads_test_block htest hconsequent hread (hbehind.cons _) ?_
    fun start test' block htest' hblock => ?_
  · simp only [List.length_append, List.length_cons, List.cons_append]
    omega
  refine Reads.bind_cons_known (reads_accept hbehind) ?_
  refine Reads.bind_known (reads_peek rfl) ?_
  refine hsecond.bind_pure fun block' hblock' => ?_
  obtain ⟨stmts, span⟩ := block
  obtain ⟨stmts', span'⟩ := block'
  rw [Tree.Stmt.bare, htest', hblock, hblock', blockTree, blockTree]

/-- What stands behind `else` as it is begins with `if`. -/
theorem stmtReads_ifElseIf {ks' : List Kind} {alternate : Tree.Stmt}
    (halternate : IsStmt ks' alternate)
    (hif : alternate.isConditional = true) (hread' : StmtReads ks' alternate) :
    StmtReads (.symbol .ifWord :: (ks ++ (blockKinds consequent ++ .symbol .elseWord :: ks')))
      (.ifElseIf test (blockTree consequent) alternate default) := by
  refine stmtReads_of_rule fun depth rest hr hdepth hrest => ?_
  simp only [List.length_append, List.length_cons, List.cons_append, List.append_assoc] at hdepth
  have hbehind := hr.append ks'
  have hsecond := hread' depth rest hr (by rw [List.length_append]; omega) hrest
  have hhead : (ks' ++ rest).head? = some (.symbol .ifWord) := by
    rw [List.head?_append_of_ne_nil _ halternate.ne_nil]
    exact halternate.head_eq_ifWord_iff.mpr hif
  refine Reads.bind_known (reads_peek rfl) ?_
  refine reads_test_block htest hconsequent hread (hbehind.cons _) ?_
    fun start test' block htest' hblock => ?_
  · simp only [List.length_append, List.length_cons, List.cons_append]
    omega
  refine Reads.bind_cons_known (reads_accept hbehind) ?_
  refine Reads.bind_known (reads_peek hhead) ?_
  refine hsecond.bind_pure fun alternate' halternate' => ?_
  obtain ⟨stmts, span⟩ := block
  rw [Tree.Stmt.bare, htest', hblock, halternate', blockTree]

theorem stmtReads_whileLoop :
    StmtReads (.symbol .whileWord :: (ks ++ blockKinds consequent))
      (.whileLoop test (blockTree consequent) default) := by
  refine stmtReads_of_rule fun depth rest hr hdepth _ => ?_
  rw [List.cons_append, List.append_assoc, List.length_cons] at hdepth
  rw [← List.append_nil (blockKinds _)]
  refine Reads.bind_known (reads_peek rfl) ?_
  refine reads_test_block htest hconsequent hread hr (Nat.lt_of_succ_lt hdepth)
    fun start test' block htest' hblock => reads_pure ?_
  obtain ⟨stmts, span⟩ := block
  rw [Tree.Stmt.bare, htest', hblock, blockTree]

end

/-- **An iterator and what it ranges over**, which both loops begin with. -/
theorem reads_iterator {e : Tree.Expr} {k : Kind} {ks' : List Kind} {iterator : String}
    {f : Span → Tree.Name → Tree.Expr → Parser Tree.Stmt} {Q : Tree.Stmt → Prop}
    (he : Reads ((Rules.unfold depth).expr 0) ks (ks' ++ rest) fun value => value.bare = e)
    (hr : Ended (ks' ++ rest))
    (hf : ∀ start name e', name.bare = .of iterator → e'.bare = e →
      Reads (f start name e') ks' rest Q) :
    Reads (do
        let start ← advance
        let name ← identifier
        let _ ← expect .inWord
        let e' ← (Rules.unfold depth).expr 0
        f start name e')
      (k :: .name iterator :: .symbol .inWord :: (ks ++ ks')) rest Q := by
  have hbehind := hr.append ks
  rw [← List.append_assoc] at hbehind
  refine Reads.bind_cons (reads_advance ((hbehind.cons _).cons _)) fun start _ => ?_
  refine Reads.bind_cons (reads_identifier (hbehind.cons _)) fun name hname => ?_
  refine Reads.bind_cons (reads_expect hbehind) fun _ _ => ?_
  exact Reads.bind he fun e' he' => hf start name e' hname he'

section

variable {body : List (List Kind × Tree.Stmt)} (hbody : ∀ p ∈ body, IsStmt p.1 p.2)
  (hread : ∀ p ∈ body, StmtReads p.1 p.2)

include hbody hread

theorem stmtReads_rangeLoop {ks' : List Kind} {low high : Tree.Expr} (iterator : String)
    (op : RangeOp) (hlow : Derives .or ks low) (hhigh : Derives .or ks' high) :
    StmtReads (.symbol .forWord :: .name iterator :: .symbol .inWord ::
      (ks ++ .symbol op.symbol :: (ks' ++ blockKinds body)))
      (.rangeLoop (.of iterator) low op high (blockTree body) default) := by
  refine stmtReads_of_rule fun depth rest hr hdepth _ => ?_
  simp only [List.length_append, List.length_cons, List.cons_append, List.append_assoc] at hdepth
  have hbehind := hr.append (blockKinds body)
  have hlater : Ended (.symbol op.symbol :: (ks' ++ blockKinds body) ++ rest) := by
    rw [List.cons_append, List.append_assoc]
    exact (hbehind.append ks').cons _
  have hlow' := hlow.reads hlater
    (show _ < depth by simp only [List.length_append, List.length_cons]; omega) (stops_range op _)
  have hhigh' := hhigh.reads hbehind
    (show _ < depth by simp only [List.length_append]; omega) (stops_bracedKinds _ _)
  have hblock := reads_block hbody hread hr (show _ < depth by rw [List.length_append]; omega)
  refine Reads.bind_known (reads_peek rfl) ?_
  refine reads_iterator hlow' hlater fun start name first hname hfirst => ?_
  refine Reads.bind_known (reads_peek rfl) ?_
  rw [range?_eq_some_iff.mpr rfl]
  refine Reads.bind_cons (reads_advance (hr.append _)) fun _ _ => ?_
  refine Reads.bind hhigh' fun last hlast => ?_
  refine hblock.bind_pure fun block hblock => ?_
  obtain ⟨stmts, span⟩ := block
  rw [Tree.Stmt.bare, hname, hfirst, hlast, hblock, blockTree]

theorem stmtReads_collectionLoop {collection : Tree.Expr} (iterator : String)
    (hcollection : Derives .or ks collection) :
    StmtReads (.symbol .forWord :: .name iterator :: .symbol .inWord :: (ks ++ blockKinds body))
      (.collectionLoop (.of iterator) collection (blockTree body) default) := by
  refine stmtReads_of_rule fun depth rest hr hdepth _ => ?_
  simp only [List.length_append, List.length_cons, List.cons_append, List.append_assoc] at hdepth
  have hcollection' := hcollection.reads (hr.append _)
    (show (ks ++ (blockKinds body ++ rest)).length < depth by
      simp only [List.length_append]; omega) (stops_bracedKinds (body.flatMap Prod.fst) rest)
  have hblock := reads_block hbody hread hr (show _ < depth by rw [List.length_append]; omega)
  refine Reads.bind_known (reads_peek rfl) ?_
  refine reads_iterator hcollection' (hr.append _) fun start name first hname hfirst => ?_
  refine Reads.bind_known (reads_peek (k := .symbol .leftBrace) rfl) ?_
  refine hblock.bind_pure fun block hblock => ?_
  obtain ⟨stmts, span⟩ := block
  rw [Tree.Stmt.bare, hname, hfirst, hblock, blockTree]

/-! ### Further statements -/

theorem stmtReads_tryCatch {handler : List (List Kind × Tree.Stmt)} {error : Option Tree.Name}
    (herror : Optional IsNamed [] ks error) (hhandler : ∀ p ∈ handler, IsStmt p.1 p.2)
    (hread' : ∀ p ∈ handler, StmtReads p.1 p.2) :
    StmtReads (.symbol .tryWord :: (blockKinds body ++
      .symbol .catchWord :: (ks ++ blockKinds handler)))
      (.tryCatch (blockTree body) error (blockTree handler) default) := by
  refine stmtReads_of_rule fun depth rest hr hdepth _ => ?_
  simp only [List.length_append, List.length_cons, List.cons_append, List.append_assoc] at hdepth
  have hbehind := hr.append (ks ++ blockKinds handler)
  have hfirst := reads_block hbody hread (hbehind.cons (.symbol .catchWord))
    (show _ < depth by simp only [List.length_append, List.length_cons]; omega)
  have hsecond := reads_block hhandler hread' hr
    (show _ < depth by rw [List.length_append]; omega)
  refine Reads.bind_known (reads_peek rfl) ?_
  refine Reads.bind_cons (reads_advance (hr.append _)) fun start _ => ?_
  refine Reads.bind hfirst fun block hblock => ?_
  refine Reads.bind_cons (reads_expect hbehind) fun _ _ => ?_
  obtain ⟨stmts, span⟩ := block
  cases herror with
  | none =>
    refine Reads.bind_known (reads_peek (k := .symbol .leftBrace) rfl) ?_
    refine Reads.bind_known (reads_pure rfl) ?_
    refine hsecond.bind_pure fun block' hblock' => ?_
    obtain ⟨stmts', span'⟩ := block'
    rw [Tree.Stmt.bare, hblock, hblock', blockTree, blockTree]
    rfl
  | some h =>
    obtain ⟨name⟩ := h
    refine Reads.bind_known (reads_peek (k := .name name) rfl) ?_
    have hname : Reads (some <$> identifier) [.name name] (blockKinds handler ++ rest)
        fun error => error.map Tree.Name.bare = some (.of name) :=
      (reads_identifier (hr.append _)).map fun name hname => congrArg some hname
    refine Reads.bind_cons hname fun error herror => ?_
    refine hsecond.bind_pure fun block' hblock' => ?_
    obtain ⟨stmts', span'⟩ := block'
    rw [Tree.Stmt.bare, hblock, hblock', herror, blockTree, blockTree]

end

theorem stmtReads_ret {value : Option Tree.Expr} (hvalue : Optional (Derives .or) [] ks value) :
    StmtReads (.symbol .returnWord :: (ks ++ [.symbol .semicolon])) (.ret value default) := by
  refine stmtReads_of_rule fun depth rest hr hdepth _ => ?_
  simp only [List.length_append, List.length_cons, List.cons_append, List.append_assoc] at hdepth
  refine Reads.bind_known (reads_peek rfl) ?_
  refine Reads.bind_cons (reads_advance (hr.append _)) fun start _ => ?_
  cases hvalue with
  | none =>
    refine Reads.bind_known (reads_peek (k := .symbol .semicolon) rfl) ?_
    refine Reads.bind_known (reads_pure rfl) ?_
    exact Reads.bind_cons (reads_expect hr) fun stop _ => reads_pure rfl
  | @some ks e he =>
    obtain ⟨first, others, rfl, hfirst, -⟩ := he.eq_cons
    have he' : Reads (some <$> (Rules.unfold depth).expr 0) (first :: others)
        (.symbol .semicolon :: rest) fun value => value.map Tree.Expr.bare = some e :=
      (he.reads (hr.cons _) (show _ < depth by
        simp only [List.length_append, List.length_cons, List.nil_append] at hdepth ⊢
        omega) (stops_semicolon rest)).map fun value hvalue => congrArg some hvalue
    refine Reads.bind_known (reads_peek (k := first) rfl) ?_
    split
    · cases hfirst
    refine Reads.bind he' fun value hvalue => ?_
    refine Reads.bind_cons (reads_expect hr) fun stop _ => reads_pure ?_
    rw [Tree.Stmt.bare, hvalue]

/-- A statement that is one word. -/
theorem reads_word {k : Kind} {s : Tree.Stmt} {form : Span → Tree.Stmt}
    (hform : ∀ span, (form span).bare = s) (hr : Ended rest) :
    Reads (do
        let span ← advance
        let _ ← expect .semicolon
        pure (form span)) [k, .symbol .semicolon] rest fun value => value.bare = s :=
  Reads.bind_cons (reads_advance (hr.cons _)) fun span _ =>
    Reads.bind_cons (reads_expect hr) fun _ _ => reads_pure (hform span)

theorem stmtReads_breakLoop :
    StmtReads [.symbol .breakWord, .symbol .semicolon] (.breakLoop default) := by
  refine stmtReads_of_rule fun depth rest hr _ _ => ?_
  refine Reads.bind_known (reads_peek rfl) ?_
  exact reads_word (fun _ => rfl) hr

theorem stmtReads_continueLoop :
    StmtReads [.symbol .continueWord, .symbol .semicolon] (.continueLoop default) := by
  refine stmtReads_of_rule fun depth rest hr _ _ => ?_
  refine Reads.bind_known (reads_peek rfl) ?_
  exact reads_word (fun _ => rfl) hr

theorem stmtReads_print {value : Tree.Expr} (hvalue : Derives .or ks value) :
    StmtReads (.symbol .printWord :: (ks ++ [.symbol .semicolon])) (.print value default) := by
  refine stmtReads_of_rule fun depth rest hr hdepth _ => ?_
  simp only [List.length_append, List.length_cons, List.cons_append, List.append_assoc] at hdepth
  have hvalue' := hvalue.reads (hr.cons (.symbol .semicolon))
    (show _ < depth by simp only [List.length_append, List.length_cons]; omega)
    (stops_semicolon rest)
  refine Reads.bind_known (reads_peek rfl) ?_
  refine Reads.bind_cons (reads_advance (hr.append _)) fun start _ => ?_
  refine Reads.bind hvalue' fun value' hvalue' => ?_
  refine Reads.bind_cons (reads_expect hr) fun stop _ => reads_pure ?_
  rw [Tree.Stmt.bare, hvalue']

/-! ### Statements that begin with an expression -/

/-- No form of statement but the simple ones begins as an expression does. -/
theorem stmtReads_of_simpleRule {e : Tree.Expr} {ks' : List Kind} {s : Tree.Stmt}
    (he : Derives .or ks e)
    (h : ∀ depth rest, Ended rest → (ks ++ (ks' ++ rest)).length < depth →
      Reads (Rules.unfold depth).simpleRule (ks ++ ks') rest fun value => value.bare = s) :
    StmtReads (ks ++ ks') s := by
  refine stmtReads_of_rule fun depth rest hr hdepth _ => ?_
  obtain ⟨k, others, hks, hstart, -⟩ := he.eq_cons
  have hsimple := h depth rest hr (by rwa [← List.append_assoc])
  refine Reads.bind_known (reads_peek (k := k) (by rw [hks]; rfl)) ?_
  split
  case h_14 => exact hsimple
  all_goals cases hstart

/-- Where its form is found, a simple statement ends with a semicolon. -/
theorem reads_form {s value : Tree.Stmt} (hvalue : value.bare = s) (hr : Ended rest) :
    Reads (do
        let stmt ← pure value
        let _ ← expect .semicolon
        pure stmt) [.symbol .semicolon] rest fun value => value.bare = s := by
  refine Reads.bind_nil (reads_pure (P := fun value => value.bare = s) hvalue) fun stmt hstmt => ?_
  exact Reads.bind_cons (reads_expect hr) fun _ _ => reads_pure hstmt

theorem stmtReads_increment {target : Tree.Expr} (htarget : Derives .or ks target) :
    StmtReads (ks ++ [.symbol .plusPlus, .symbol .semicolon]) (.increment target default) := by
  refine stmtReads_of_simpleRule htarget fun depth rest hr hdepth => ?_
  have hsemicolon := hr.cons (.symbol .semicolon)
  have htarget' := htarget.reads (hsemicolon.cons (.symbol .plusPlus)) hdepth
    (stops_cons_of_none 0 _ rfl rfl)
  refine Reads.bind htarget' fun target' htarget' => ?_
  refine Reads.bind_known (reads_peek rfl) ?_
  refine Reads.bind_cons (reads_advance hsemicolon) fun stop _ => reads_form ?_ hr
  rw [Tree.Stmt.bare, htarget']

theorem stmtReads_decrement {target : Tree.Expr} (htarget : Derives .or ks target) :
    StmtReads (ks ++ [.symbol .minusMinus, .symbol .semicolon]) (.decrement target default) := by
  refine stmtReads_of_simpleRule htarget fun depth rest hr hdepth => ?_
  have hsemicolon := hr.cons (.symbol .semicolon)
  have htarget' := htarget.reads (hsemicolon.cons (.symbol .minusMinus)) hdepth
    (stops_cons_of_none 0 _ rfl rfl)
  refine Reads.bind htarget' fun target' htarget' => ?_
  refine Reads.bind_known (reads_peek rfl) ?_
  refine Reads.bind_cons (reads_advance hsemicolon) fun stop _ => reads_form ?_ hr
  rw [Tree.Stmt.bare, htarget']

theorem stmtReads_assign {ks' : List Kind} {target value : Tree.Expr}
    (htarget : Derives .or ks target) (hvalue : Derives .or ks' value) :
    StmtReads (ks ++ .symbol .assign :: (ks' ++ [.symbol .semicolon]))
      (.assign target value default) := by
  refine stmtReads_of_simpleRule htarget fun depth rest hr hdepth => ?_
  simp only [List.length_append, List.length_cons, List.cons_append, List.append_assoc] at hdepth
  have hsource := (hr.cons (.symbol .semicolon)).append ks'
  have htarget' := htarget.reads (hsource.cons (.symbol .assign))
    (show _ < depth by simp only [List.length_append, List.length_cons]; omega)
    (stops_cons_of_none 0 _ rfl rfl)
  have hvalue' := hvalue.reads (hr.cons (.symbol .semicolon))
    (show _ < depth by simp only [List.length_append, List.length_cons]; omega)
    (stops_semicolon rest)
  refine Reads.bind (by simpa using htarget') fun target' htarget' => ?_
  refine Reads.bind_known (reads_peek rfl) ?_
  refine Reads.bind_cons (reads_advance (hr.append _)) fun _ _ => ?_
  refine Reads.bind hvalue' fun value' hvalue' => reads_form ?_ hr
  rw [Tree.Stmt.bare, htarget', hvalue']

theorem stmtReads_call {e : Tree.Expr} (he : Derives .or ks e) (hcall : e.isCall = true) :
    StmtReads (ks ++ [.symbol .semicolon]) (.call e default) := by
  refine stmtReads_of_simpleRule he fun depth rest hr hdepth => ?_
  refine Reads.bind (he.reads (hr.cons _) hdepth (stops_semicolon rest)) fun e' he' => ?_
  have hcall' : e'.isCall = true := by rwa [← Tree.Expr.bare_isCall, he']
  refine Reads.bind_known (reads_peek rfl) ?_
  rw [hcall']
  refine reads_form ?_ hr
  rw [Tree.Stmt.bare, he']

/-! ### All statements -/

/-- **A statement is read as its tree.** -/
theorem IsStmt.reads {s : Tree.Stmt} (h : IsStmt ks s) : StmtReads ks s := by
  induction h with
  | declareVariable name readOnly htype hinitializer =>
    exact stmtReads_declareVariable name readOnly htype hinitializer
  | declareFunction name hparams hks hresult hbody ih =>
    exact stmtReads_declareFunction name hparams hks hresult hbody ih
  | declareStruct name isClass hfields => exact stmtReads_declareStruct name isClass hfields
  | ifThen htest hconsequent ih => exact stmtReads_ifThen htest hconsequent ih
  | ifElse htest hconsequent halternate ih ih' =>
    exact stmtReads_ifElse htest hconsequent ih halternate ih'
  | ifElseIf htest hconsequent halternate hif ih ih' =>
    exact stmtReads_ifElseIf htest hconsequent ih halternate hif ih'
  | whileLoop htest hbody ih => exact stmtReads_whileLoop htest hbody ih
  | rangeLoop iterator op hlow hhigh hbody ih =>
    exact stmtReads_rangeLoop hbody ih iterator op hlow hhigh
  | collectionLoop iterator hcollection hbody ih =>
    exact stmtReads_collectionLoop hbody ih iterator hcollection
  | ret hvalue => exact stmtReads_ret hvalue
  | breakLoop => exact stmtReads_breakLoop
  | continueLoop => exact stmtReads_continueLoop
  | tryCatch hbody herror hhandler ih ih' =>
    exact stmtReads_tryCatch hbody ih herror hhandler ih'
  | print hvalue => exact stmtReads_print hvalue
  | assign htarget hvalue => exact stmtReads_assign htarget hvalue
  | increment htarget => exact stmtReads_increment htarget
  | decrement htarget => exact stmtReads_decrement htarget
  | call he hcall => exact stmtReads_call he hcall

/-! ### Programs -/

theorem Rules.reads_atEnd {k : Kind} {ks : List Kind} :
    Reads atEnd [] (k :: ks) (· = k.isEof) := by
  intro cursor hc
  refine ⟨_, cursor, rfl, hc, ?_⟩
  rw [Cursor.current_kind hc]

/-- **A program is read as its trees**, up to the end of the input. -/
theorem IsProgram.reads {trees : List Tree.Stmt} (h : IsProgram ks trees)
    (hr : Ended (.eof :: rest)) (hdepth : (ks ++ .eof :: rest).length + 1 < depth) :
    Reads (Rules.unfold depth).program ks (.eof :: rest)
      fun values => values.map Tree.Stmt.bare = trees := by
  obtain ⟨items, rfl, rfl, hall⟩ := h
  refine reads_stmts hall (fun p hp => (hall p hp).reads) (Rules.reads_atEnd (k := .eof))
    (fun k ks hk => Rules.reads_atEnd.mono fun ended hended => ?_) (by simp [NoElse]) hr hdepth ?_
  · rw [hended, ← Bool.not_eq_true, Kind.isEof_iff]
    rintro rfl
    cases hk
  · rw [Rules.steps_unfold]
    omega

end Grammar

namespace Tree

/-! ### What the parser accepts -/

def kindsBeforeEof (tokens : List Token) : List Kind :=
  (tokens.map Token.kind).takeWhile fun k => !k.isEof

theorem kindsBeforeEof_eq {tokens : List Token} {ks rest : List Kind}
    (h : tokens.map Token.kind = ks ++ .eof :: rest) (hks : Kind.eof ∉ ks) :
    kindsBeforeEof tokens = ks := by
  have hne (k : Kind) (hk : k ∈ ks) : (!k.isEof) = true := by
    rw [Bool.not_eq_true', ← Bool.not_eq_true, Kind.isEof_iff]
    rintro rfl
    exact hks hk
  rw [kindsBeforeEof, h, List.takeWhile_append_of_pos hne, List.takeWhile_cons_of_neg (by decide),
    List.append_nil]

theorem lt_depthFor (c : Cursor) : c.kinds.length + 1 < Rules.depthFor (c.ahead.length + 1) := by
  simp +arith [Cursor.kinds, Rules.depthFor]

/-- What the parser answers is a program of the grammar. -/
theorem isProgram_of_ofTokens {tokens : List Token} {stmts : List Stmt}
    (h : Ended (tokens.map Token.kind)) (hstmts : ofTokens tokens = .ok stmts) :
    IsProgram (kindsBeforeEof tokens) (stmts.map Stmt.bare) := by
  cases tokens with
  | nil => exact absurd rfl h.ne_nil
  | cons current ahead =>
    let cursor : Cursor := ⟨current, ahead⟩
    have hc : Ended cursor.kinds := h
    have hyields := Rules.yieldsAt_program hc (lt_depthFor cursor)
    rw [ofTokens] at hstmts
    split at hstmts
    case h_1 stmts' behind hdone =>
      cases hstmts
      obtain ⟨-, front, htokens, heof, hprogram⟩ := hyields.2 stmts behind hdone
      have hkinds : (current :: ahead).map Token.kind = front.map Token.kind ++ behind.kinds := by
        rw [← behind.map_kind_tokens, ← List.map_append, ← htokens]
        rfl
      rw [Cursor.kinds, Option.some.inj heof] at hkinds
      rwa [kindsBeforeEof_eq hkinds hprogram.eof_notMem]
    all_goals cases hstmts

/-- What is read of a row of tokens is a program of all of them. -/
theorem isProgram_front {front : List Token} {eof : Token} {stmts : List Stmt}
    (hfront : ∀ t ∈ front, t.kind ≠ .eof) (heof : eof.kind = .eof)
    (h : ofTokens (front ++ [eof]) = .ok stmts) :
    IsProgram (front.map Token.kind) (stmts.map Stmt.bare) := by
  have hkinds : (front ++ [eof]).map Token.kind = front.map Token.kind ++ [.eof] := by
    rw [List.map_append, List.map_singleton, heof]
  have hnone : Kind.eof ∉ front.map Token.kind := by
    intro hmem
    obtain ⟨t, ht, hkind⟩ := List.mem_map.mp hmem
    exact hfront t ht hkind
  have hprogram := isProgram_of_ofTokens ⟨_, hkinds⟩ h
  rwa [kindsBeforeEof_eq hkinds hnone] at hprogram

/-- Every program of the grammar is answered. -/
theorem ofTokens_of_isProgram {tokens : List Token} {ks rest : List Kind} {trees : List Stmt}
    (h : IsProgram ks trees) (htokens : tokens.map Token.kind = ks ++ .eof :: rest)
    (hr : Ended (.eof :: rest)) :
    ∃ stmts, ofTokens tokens = .ok stmts ∧ stmts.map Stmt.bare = trees := by
  cases tokens with
  | nil => simp at htokens
  | cons current ahead =>
    have hlength := congrArg List.length htokens
    rw [List.length_map, List.length_cons] at hlength
    have hdepth : (ks ++ .eof :: rest).length + 1 < Rules.depthFor (ahead.length + 1) := by
      rw [← hlength, Rules.depthFor]
      omega
    obtain ⟨stmts, behind, hdone, -, hstmts⟩ := h.reads hr hdepth ⟨current, ahead⟩ htokens
    exact ⟨stmts, by rw [ofTokens, hdone], hstmts⟩

/-- **The parser accepts the programs of the grammar and nothing else**, and answers their trees.
What comes behind the first end of the input is not looked at.  No tokens have two trees. -/
theorem ofTokens_exact {tokens : List Token} (h : Ended (tokens.map Token.kind)) :
    (∀ trees, (∃ stmts, ofTokens tokens = .ok stmts ∧ stmts.map Stmt.bare = trees) ↔
      IsProgram (kindsBeforeEof tokens) trees) ∧
    ∀ trees trees', IsProgram (kindsBeforeEof tokens) trees →
      IsProgram (kindsBeforeEof tokens) trees' → trees = trees' := by
  have hmem : Kind.eof ∈ tokens.map Token.kind := by
    obtain ⟨front, hfront⟩ := h
    simp [hfront]
  obtain ⟨ks, rest, htokens, hks⟩ := List.eq_append_cons_of_mem hmem
  have hr : Ended (.eof :: rest) := by
    rw [htokens] at h
    exact h.of_append (List.cons_ne_nil _ _)
  have hreads {trees : List Stmt} (htrees : IsProgram (kindsBeforeEof tokens) trees) :
      ∃ stmts, ofTokens tokens = .ok stmts ∧ stmts.map Stmt.bare = trees := by
    rw [kindsBeforeEof_eq htokens hks] at htrees
    exact ofTokens_of_isProgram htrees htokens hr
  refine ⟨fun trees => ⟨?_, hreads⟩, fun trees trees' htrees htrees' => ?_⟩
  · rintro ⟨stmts, hstmts, rfl⟩
    exact isProgram_of_ofTokens h hstmts
  · obtain ⟨stmts, hstmts, rfl⟩ := hreads htrees
    obtain ⟨stmts', hstmts', rfl⟩ := hreads htrees'
    rw [hstmts] at hstmts'
    cases hstmts'
    rfl

def chainedIf : List Token :=
  [⟨.symbol .ifWord, default⟩, ⟨.name "x", default⟩, ⟨.symbol .leftBrace, default⟩,
    ⟨.name "x", default⟩, ⟨.symbol .plusPlus, default⟩, ⟨.symbol .semicolon, default⟩,
    ⟨.symbol .rightBrace, default⟩, ⟨.symbol .elseWord, default⟩, ⟨.symbol .ifWord, default⟩,
    ⟨.name "x", default⟩, ⟨.symbol .leftBrace, default⟩, ⟨.name "f", default⟩,
    ⟨.symbol .leftParen, default⟩, ⟨.symbol .rightParen, default⟩,
    ⟨.symbol .semicolon, default⟩, ⟨.symbol .rightBrace, default⟩, ⟨.eof, default⟩]

/-- The second conditional is what stands behind `else`. -/
theorem ofTokens_exact_chainedIf : Ended (chainedIf.map Token.kind) ∧
    ∃ stmts, ofTokens chainedIf = .ok stmts ∧ stmts.map Stmt.bare =
      [.ifElseIf (.name (.of "x")) ⟨[.increment (.name (.of "x")) default], default⟩
        (.ifThen (.name (.of "x"))
          ⟨[.call (.call (.name (.of "f")) [] default) default], default⟩ default) default] := by
  have hended : Ended (chainedIf.map Token.kind) :=
    ⟨(chainedIf.map Token.kind).dropLast, rfl⟩
  have hname (name : String) : Derives .or [.name name] (.name (.of name)) :=
    (Derives.name name).loosen (by decide)
  have hcall : Derives .or [.name "f", .symbol .leftParen, .symbol .rightParen]
      (.call (.name (.of "f")) [] default) := by
    have hf : Derives .suffixed [.name "f"] (.name (.of "f")) :=
      (Derives.name "f").loosen (by decide)
    refine (Derives.call hf (List.forall_mem_nil _) .nil fun _ => ?_).loosen (by decide)
    rintro ⟨inner, type, -, heq⟩
    cases heq
  have hblock {ks : List Kind} {s : Stmt} (hs : IsStmt ks s) : ∀ p ∈ [(ks, s)], IsStmt p.1 p.2 :=
    List.forall_mem_singleton.mpr hs
  have hsecond := IsStmt.ifThen (hname "x") (hblock (.call hcall rfl))
  have hfirst := IsStmt.ifElseIf (hname "x") (hblock (.increment (hname "x"))) hsecond rfl
  refine ⟨hended, ((ofTokens_exact hended).1 _).mpr ⟨[(_, _)], ?_, rfl, hblock hfirst⟩⟩
  rfl

end Tree

end TypedImp
