import TypedImp.Proofs.Grammar.Soundness
import TypedImp.Proofs.Grammar.Statements

/-!
# What is read as a statement is one

Each rule for statements yields only what the grammar has, if the parsers below it do.  A rule
passes a keyword before it goes one level down, so `StmtYields depth N` asks this of statements
only at places with at most `N` tokens, where the rule itself stands at one token more.  The
simple statements pass no keyword; they begin with an expression, and for those it is known
already at every place.  One induction on the depth closes the knot (**`Rules.yieldsAt_stmt`**),
and a list of statements up to the end of the input follows from that of its items
(**`Rules.yieldsAt_program`**).

How many tokens are left has to be known at every place in between.  The lemmas that put a rule
together (`YieldsAt.bind_within`, `yieldsAt_advance_bind`, `yieldsAt_expect_bind`) carry this
bound along.
-/

namespace TypedImp.Grammar

open TypedImp.Token (Kind)
open TypedImp.Grammar.Parser

/-! ### Contracts with a bound on the tokens left -/

namespace Parser

variable {α β : Type} {p : Parser α} {f : α → Parser β} {g : Span → Parser β} {cursor : Cursor}
  {P : List Kind → α → List Kind → Prop} {Q : List Kind → β → List Kind → Prop} {N : Nat}

theorem YieldsAt.bind_within (hp : YieldsAt p cursor P) (hN : cursor.kinds.length ≤ N)
    (hf : ∀ ks value behind, Ended behind.kinds → behind.kinds.length ≤ N →
      P ks value behind.kinds →
        YieldsAt (f value) behind fun ks' result rest => Q (ks ++ ks') result rest) :
    YieldsAt (p >>= f) cursor Q := by
  refine hp.bind fun ks value behind hkinds hbehind hvalue => hf ks value behind hbehind ?_ hvalue
  rw [hkinds, List.length_append] at hN
  omega

theorem YieldsAt.map_bind {γ : Type} {form : α → γ} {f : γ → Parser β} (hp : YieldsAt p cursor P)
    (hN : cursor.kinds.length ≤ N)
    (hf : ∀ ks value behind, Ended behind.kinds → behind.kinds.length ≤ N →
      P ks value behind.kinds →
        YieldsAt (f (form value)) behind fun ks' result rest => Q (ks ++ ks') result rest) :
    YieldsAt (form <$> p >>= f) cursor Q := by
  have hmap : (form <$> p >>= f) cursor = (p >>= fun value => f (form value)) cursor := by
    change ((p >>= fun value => pure (form value)) >>= f) cursor = _
    simp only [bind_apply]
    cases p cursor <;> rfl
  rw [YieldsAt, hmap]
  exact hp.bind_within hN hf

/-- A token that is known is passed first. -/
theorem yieldsAt_advance_bind {k : Kind} (hk : cursor.current.kind = k) (hne : k ≠ .eof)
    (hc : Ended cursor.kinds) (hN : cursor.kinds.length ≤ N + 1)
    (hf : ∀ span behind, Ended behind.kinds → behind.kinds.length ≤ N →
      YieldsAt (g span) behind fun ks result rest => Q (k :: ks) result rest) :
    YieldsAt (advance >>= g) cursor Q := by
  refine (yieldsAt_advance hk hne hc).bind ?_
  rintro _ span behind hkinds hbehind rfl
  refine hf span behind hbehind ?_
  rw [hkinds, List.length_append, List.length_singleton] at hN
  omega

theorem yieldsAt_expect_bind {s : Symbol} (hc : Ended cursor.kinds) (hN : cursor.kinds.length ≤ N)
    (hf : ∀ span behind, Ended behind.kinds → behind.kinds.length ≤ N →
      YieldsAt (g span) behind fun ks result rest => Q (.symbol s :: ks) result rest) :
    YieldsAt (expect s >>= g) cursor Q := by
  refine (yieldsAt_expect hc).bind_within hN ?_
  rintro _ span behind hbehind hle rfl
  exact hf span behind hbehind hle

/-- **Items up to a token that ends them** have enough steps for all tokens that come.  `ends`
passes nothing; where it holds, `E` says what comes next. -/
theorem yieldsAt_itemsUntil {item : Parser α} {ends : Parser Bool} {E : List Kind → Prop}
    (bare : α → β) {P : List Kind → β → Prop}
    (hends : ∀ place : Cursor, Ended place.kinds → YieldsAt ends place fun ks ended rest =>
      ks = [] ∧ (ended = true → E rest))
    (hitem : ∀ place : Cursor, Ended place.kinds → place.kinds.length ≤ N →
      YieldsAt item place fun ks value _ => ks ≠ [] ∧ P ks (bare value))
    {steps : Nat} (hc : Ended cursor.kinds) (hN : cursor.kinds.length ≤ N)
    (hsteps : cursor.kinds.length ≤ steps) :
    YieldsAt (itemsUntil ends item steps) cursor fun ks values rest =>
      E rest ∧ ∃ items : List (List Kind × β), items.flatMap Prod.fst = ks ∧
        items.map Prod.snd = values.map bare ∧ ∀ q ∈ items, P q.1 q.2 := by
  induction steps generalizing cursor with
  | zero =>
    rw [Cursor.kinds, List.length_cons] at hsteps
    omega
  | succ steps ih =>
    refine (hends cursor hc).bind ?_
    rintro _ ended place hplace hended ⟨rfl, hE⟩
    rw [List.nil_append] at hplace
    rw [hplace] at hN hsteps
    cases ended with
    | true => exact yieldsAt_pure hended ⟨hE rfl, [], rfl, rfl, by simp⟩
    | false =>
      refine (hitem place hended hN).bind ?_
      rintro ks first behind hbehind hb ⟨hne, hfirst⟩
      have hpos := List.length_pos_iff.mpr hne
      rw [hbehind, List.length_append] at hN hsteps
      refine (ih hb (by omega) (by omega)).bind ?_
      rintro ks' others rest - hrest ⟨hE', items, hks', hitems, hall⟩
      refine yieldsAt_pure hrest ⟨hE', (ks, bare first) :: items, ?_, ?_, ?_⟩
      · simp [hks']
      · rw [List.map_cons, List.map_cons, hitems]
      · rintro q hq
        rcases List.mem_cons.mp hq with rfl | hq
        · exact hfirst
        · exact hall q hq

theorem yieldsAt_closes (closing : Symbol) (hc : Ended cursor.kinds) :
    YieldsAt (closes closing) cursor fun ks ended _ => ks = [] ∧ (ended = true → True) :=
  yieldsAt_here rfl hc ⟨rfl, fun _ => trivial⟩

end Parser

namespace Rules

variable {depth N : Nat} {cursor : Cursor}

/-! ### Parts of statements -/

theorem yieldsAt_annotated (hc : Ended cursor.kinds) (hN : cursor.kinds.length ≤ N)
    (hdepth : N < depth) :
    YieldsAt (unfold depth).annotated cursor fun ks a _ => IsAnnotated ks a.bare := by
  refine (yieldsAt_identifier hc).bind_within hN ?_
  rintro _ name place₁ h₁ hN₁ rfl
  refine yieldsAt_expect_bind h₁ hN₁ fun _ place₂ h₂ hN₂ => ?_
  refine (yieldsAt_type depth h₂ (Nat.lt_of_le_of_lt hN₂ hdepth)).bind_within hN₂ ?_
  intro ks type place₃ h₃ hN₃ htype
  exact yieldsAt_pure h₃ (by
    simpa [Tree.Annotated.bare, Tree.Name.bare] using IsAnnotated.of name.text htype)

theorem yieldsAt_colonType (hc : Ended cursor.kinds) (hN : cursor.kinds.length ≤ N)
    (hdepth : N < depth) :
    YieldsAt (Rules.colonType (unfold depth)) cursor fun ks type _ =>
      Optional IsType [.symbol .colon] ks (type.map Tree.TypeExpr.bare) := by
  refine (yieldsAt_accept hc).bind_within hN ?_
  rintro _ colon place₁ h₁ hN₁ rfl
  cases colon with
  | false => exact yieldsAt_pure h₁ .none
  | true =>
    refine (yieldsAt_type depth h₁ (Nat.lt_of_le_of_lt hN₁ hdepth)).bind_within hN₁ ?_
    intro ks type place₂ h₂ hN₂ htype
    exact yieldsAt_pure h₂ (by simpa using Optional.cons htype)

/-- An expression between other parts of a statement. -/
theorem yieldsAt_inner (hc : Ended cursor.kinds) (hN : cursor.kinds.length ≤ N)
    (hdepth : N < depth) :
    YieldsAt ((unfold depth).expr 0) cursor fun ks e _ => Derives .or ks e.bare :=
  (yieldsAt_expr depth hc (Nat.lt_of_le_of_lt hN hdepth) 0).mono fun _ _ _ _ h => h.1

theorem yieldsAt_field (hc : Ended cursor.kinds) (hN : cursor.kinds.length ≤ N)
    (hdepth : N < depth) :
    YieldsAt (unfold depth).field cursor fun ks a _ => ks ≠ [] ∧ IsField ks a.bare := by
  refine (yieldsAt_annotated hc hN hdepth).bind_within hN ?_
  rintro ks a place₁ h₁ hN₁ ha
  have hne : ks ≠ [] := by
    cases ha
    simp
  refine (yieldsAt_accept h₁).bind_within hN₁ ?_
  rintro _ comma place₂ h₂ hN₂ rfl
  cases comma with
  | true => exact yieldsAt_pure h₂ ⟨by simp, by simpa using IsField.comma ha⟩
  | false =>
    refine (yieldsAt_accept h₂).bind_within hN₂ ?_
    rintro _ semicolon place₃ h₃ hN₃ rfl
    cases semicolon with
    | true => exact yieldsAt_pure h₃ ⟨by simp, by simpa using IsField.semicolon ha⟩
    | false => exact yieldsAt_pure h₃ ⟨by simpa using hne, by simpa using IsField.last ha⟩

def StmtYields (depth N : Nat) : Prop :=
  ∀ place : Cursor, Ended place.kinds → place.kinds.length ≤ N →
    YieldsAt (unfold depth).stmt place fun ks s _ => IsStmt ks s.bare

/-- Statements one after the other, up to a token that ends them. -/
theorem StmtYields.itemsUntil (h : StmtYields depth N) {ends : Parser Bool}
    {E : List Kind → Prop} (hends : ∀ place : Cursor, Ended place.kinds →
      YieldsAt ends place fun ks ended rest => ks = [] ∧ (ended = true → E rest))
    (hc : Ended cursor.kinds) (hN : cursor.kinds.length ≤ N) (hdepth : N < depth) :
    YieldsAt (itemsUntil ends (unfold depth).stmt (unfold depth).steps) cursor
      fun ks values rest => E rest ∧ IsProgram ks (values.map Tree.Stmt.bare) := by
  refine yieldsAt_itemsUntil Tree.Stmt.bare hends (fun place hplace hle => ?_) hc hN ?_
  · exact (h place hplace hle).mono fun ks s rest _ hs => ⟨hs.ne_nil, hs⟩
  · rw [steps_unfold]
    omega

/-- The tokens and the trees of a block. -/
theorem StmtYields.block (h : StmtYields depth N) (hc : Ended cursor.kinds)
    (hN : cursor.kinds.length ≤ N) (hdepth : N < depth) :
    YieldsAt (unfold depth).block cursor fun ks block _ =>
      ∃ body : List (List Kind × Tree.Stmt), ks = blockKinds body ∧
        Tree.Stmt.bareAll block.stmts = body.map Prod.snd ∧ ∀ p ∈ body, IsStmt p.1 p.2 := by
  refine yieldsAt_expect_bind hc hN fun start place₁ h₁ hN₁ => ?_
  refine (h.itemsUntil (fun _ => yieldsAt_closes .rightBrace) h₁ hN₁ hdepth).bind_within hN₁ ?_
  rintro _ stmts place₂ h₂ hN₂ ⟨-, body, rfl, hbody, hall⟩
  refine yieldsAt_expect_bind h₂ hN₂ fun stop place₃ h₃ _ => ?_
  refine yieldsAt_pure h₃ ⟨body, ?_, ?_, hall⟩
  · simp [blockKinds, Listing.bracedKinds]
  · rw [Tree.Stmt.bareAll_eq_map, hbody]

/-! ### The rules -/

section

variable (hdepth : N + 1 < depth) (hc : Ended cursor.kinds) (hN : cursor.kinds.length ≤ N + 1)

include hdepth hc hN

theorem yieldsAt_variableRule (readOnly : Bool)
    (hk : cursor.current.kind = .symbol (if readOnly then .constWord else .letWord)) :
    YieldsAt ((unfold depth).variableRule readOnly) cursor fun ks s _ => IsStmt ks s.bare := by
  have hN' := Nat.lt_of_succ_lt hdepth
  refine yieldsAt_advance_bind hk (by simp) hc hN fun start place₁ h₁ hN₁ => ?_
  refine (yieldsAt_identifier h₁).bind_within hN₁ ?_
  rintro _ name place₂ h₂ hN₂ rfl
  refine (yieldsAt_colonType h₂ hN₂ hN').bind_within hN₂ ?_
  intro ks type place₃ h₃ hN₃ htype
  refine (yieldsAt_accept h₃).bind_within hN₃ ?_
  rintro _ assigned place₄ h₄ hN₄ rfl
  -- With or without a value, the semicolon is what is left.
  have hlast (ks' : List Kind) (value : Option Tree.Expr) {place₅ : Cursor}
      (h₅ : Ended place₅.kinds)
      (hvalue : Optional (Derives .or) [.symbol .assign] ks' (value.map Tree.Expr.bare)) :
      YieldsAt (expect .semicolon >>= fun stop =>
        pure (Tree.Stmt.declareVariable name readOnly type value (start.merge stop))) place₅
        fun ks'' s _ => IsStmt (.symbol (if readOnly then .constWord else .letWord) ::
          .name name.text :: (ks ++ (ks' ++ ks''))) s.bare := by
    refine yieldsAt_expect_bind h₅ (Nat.le_refl _) fun stop place₆ h₆ _ => yieldsAt_pure h₆ ?_
    rw [Tree.Stmt.bare]
    exact .declareVariable name.text readOnly htype hvalue
  cases assigned with
  | false => exact hlast [] none h₄ .none
  | true =>
    refine (yieldsAt_inner h₄ hN₄ hN').map_bind hN₄ ?_
    intro ks' value place₅ h₅ _ hvalue
    exact hlast _ (some value) h₅ (.cons hvalue)

theorem yieldsAt_structRule (isClass : Bool)
    (hk : cursor.current.kind = .symbol (if isClass then .classWord else .structWord)) :
    YieldsAt ((unfold depth).structRule isClass) cursor fun ks s _ => IsStmt ks s.bare := by
  have hN' := Nat.lt_of_succ_lt hdepth
  refine yieldsAt_advance_bind hk (by simp) hc hN fun start place₁ h₁ hN₁ => ?_
  refine (yieldsAt_identifier h₁).bind_within hN₁ ?_
  rintro _ name place₂ h₂ hN₂ rfl
  refine yieldsAt_expect_bind h₂ hN₂ fun _ place₃ h₃ hN₃ => ?_
  have hfields := yieldsAt_itemsUntil (P := IsField) Tree.Annotated.bare
    (fun _ => yieldsAt_closes .rightBrace)
    (fun place hplace hle => yieldsAt_field hplace hle hN') h₃ hN₃
    (show place₃.kinds.length ≤ (unfold depth).steps by rw [steps_unfold]; omega)
  refine hfields.bind_within hN₃ ?_
  rintro _ trees place₄ h₄ hN₄ ⟨-, fields, rfl, hfields, hall⟩
  refine yieldsAt_expect_bind h₄ hN₄ fun stop place₅ h₅ _ => yieldsAt_pure h₅ ?_
  rw [Tree.Stmt.bare, Tree.Name.bare, ← hfields]
  simpa [Listing.bracedKinds] using IsStmt.declareStruct name.text isClass hall

theorem yieldsAt_printRule (hk : cursor.current.kind = .symbol .printWord) :
    YieldsAt (unfold depth).printRule cursor fun ks s _ => IsStmt ks s.bare := by
  refine yieldsAt_advance_bind hk (by simp) hc hN fun start place₁ h₁ hN₁ => ?_
  refine (yieldsAt_inner h₁ hN₁ (Nat.lt_of_succ_lt hdepth)).bind_within hN₁ ?_
  intro ks value place₂ h₂ hN₂ hvalue
  refine yieldsAt_expect_bind h₂ hN₂ fun stop place₃ h₃ _ => yieldsAt_pure h₃ ?_
  rw [Tree.Stmt.bare]
  exact .print hvalue

theorem yieldsAt_returnRule (hk : cursor.current.kind = .symbol .returnWord) :
    YieldsAt (unfold depth).returnRule cursor fun ks s _ => IsStmt ks s.bare := by
  refine yieldsAt_advance_bind hk (by simp) hc hN fun start place₁ h₁ hN₁ => ?_
  have hlast (ks : List Kind) (value : Option Tree.Expr) {place₂ : Cursor}
      (h₂ : Ended place₂.kinds)
      (hvalue : Optional (Derives .or) [] ks (value.map Tree.Expr.bare)) :
      YieldsAt (expect .semicolon >>= fun stop => pure (Tree.Stmt.ret value (start.merge stop)))
        place₂ fun ks' s _ => IsStmt (.symbol .returnWord :: (ks ++ ks')) s.bare := by
    refine yieldsAt_expect_bind h₂ (Nat.le_refl _) fun stop place₃ h₃ _ => yieldsAt_pure h₃ ?_
    rw [Tree.Stmt.bare]
    exact .ret hvalue
  refine yieldsAt_peek_bind ?_
  split
  · exact hlast [] none h₁ .none
  · refine (yieldsAt_inner h₁ hN₁ (Nat.lt_of_succ_lt hdepth)).map_bind hN₁ ?_
    intro ks value place₂ h₂ _ hvalue
    exact hlast ks (some value) h₂ (.bare hvalue)

omit hdepth in
/-- `break` and `continue`. -/
theorem yieldsAt_word {k : Kind} {form : Span → Tree.Stmt} (hk : cursor.current.kind = k)
    (hne : k ≠ .eof) (hform : ∀ span, IsStmt [k, .symbol .semicolon] (form span).bare) :
    YieldsAt (advance >>= fun span => expect .semicolon >>= fun _ => pure (form span)) cursor
      fun ks s _ => IsStmt ks s.bare :=
  yieldsAt_advance_bind hk hne hc hN fun _ _ h₁ hN₁ =>
    yieldsAt_expect_bind h₁ hN₁ fun _ _ h₂ _ => yieldsAt_pure h₂ (hform _)

/-- The statement begins with an expression, so no keyword is passed in front of it. -/
theorem yieldsAt_simpleRule :
    YieldsAt (unfold depth).simpleRule cursor fun ks s _ => IsStmt ks s.bare := by
  refine (yieldsAt_inner hc hN hdepth).bind_within hN ?_
  intro ks target place₁ h₁ hN₁ htarget
  -- What is found behind the expression is a statement once the semicolon is there.
  have hlast (ks' : List Kind) (s : Tree.Stmt) {place₂ : Cursor} (h₂ : Ended place₂.kinds)
      (hs : IsStmt (ks ++ (ks' ++ [.symbol .semicolon])) s.bare) :
      YieldsAt (expect .semicolon >>= fun _ => pure s) place₂
        fun ks'' s _ => IsStmt (ks ++ (ks' ++ ks'')) s.bare :=
    yieldsAt_expect_bind h₂ (Nat.le_refl _) fun _ _ h₃ _ => yieldsAt_pure h₃ hs
  refine yieldsAt_peek_bind ?_
  split
  · rename_i hk
    refine yieldsAt_advance_bind hk (by simp) h₁ hN₁ fun _ place₂ h₂ hN₂ => ?_
    refine (yieldsAt_inner h₂ hN₂ (Nat.lt_of_succ_lt hdepth)).bind ?_
    intro ks' value place₃ _ h₃ hvalue
    exact hlast (.symbol .assign :: ks') _ h₃ (.assign htarget hvalue)
  · rename_i hk
    refine yieldsAt_advance_bind hk (by simp) h₁ hN₁ fun stop place₂ h₂ _ => ?_
    exact hlast [.symbol .plusPlus] _ h₂ (.increment htarget)
  · rename_i hk
    refine yieldsAt_advance_bind hk (by simp) h₁ hN₁ fun stop place₂ h₂ _ => ?_
    exact hlast [.symbol .minusMinus] _ h₂ (.decrement htarget)
  · dsimp only
    split
    · rename_i hcall
      exact hlast [] _ h₁ (.call htarget (by rwa [Tree.Expr.bare_isCall]))
    · exact yieldsAt_failed rfl

variable (hstmt : StmtYields depth N)

include hstmt

theorem yieldsAt_functionRule (hk : cursor.current.kind = .symbol .fnWord) :
    YieldsAt (unfold depth).functionRule cursor fun ks s _ => IsStmt ks s.bare := by
  have hN' := Nat.lt_of_succ_lt hdepth
  refine yieldsAt_advance_bind hk (by simp) hc hN fun start place₁ h₁ hN₁ => ?_
  refine (yieldsAt_identifier h₁).bind_within hN₁ ?_
  rintro _ name place₂ h₂ hN₂ rfl
  refine yieldsAt_expect_bind h₂ hN₂ fun _ place₃ h₃ hN₃ => ?_
  have hitem (place : Cursor) (hplace : Ended place.kinds) (hle : place.kinds.length ≤ N) :
      YieldsAt (unfold depth).annotated place fun ks a _ => ks ≠ [] ∧ IsAnnotated ks a.bare :=
    (yieldsAt_annotated hplace hle hN').mono fun ks a _ _ ha => ⟨by cases ha; simp, ha⟩
  refine (yieldsAt_commaItems .rightParen Tree.Annotated.bare hitem h₃ hN₃
    (by rw [steps_unfold]; omega)).bind_within hN₃ ?_
  rintro ks trees place₄ h₄ hN₄ ⟨params, hparams, hks, hall⟩
  refine yieldsAt_expect_bind h₄ hN₄ fun _ place₅ h₅ hN₅ => ?_
  refine (yieldsAt_colonType h₅ hN₅ hN').bind_within hN₅ ?_
  intro ks' result place₆ h₆ hN₆ hresult
  refine (hstmt.block h₆ hN₆ hN').bind_within hN₆ ?_
  rintro _ ⟨stmts, span⟩ place₇ h₇ - ⟨body, rfl, hbody, hbodyAll⟩
  refine yieldsAt_pure h₇ ?_
  rw [Tree.Stmt.bare, Tree.Name.bare, ← hparams, hbody]
  simpa [blockTree] using IsStmt.declareFunction name.text hall hks hresult hbodyAll

theorem yieldsAt_whileRule (hk : cursor.current.kind = .symbol .whileWord) :
    YieldsAt (unfold depth).whileRule cursor fun ks s _ => IsStmt ks s.bare := by
  have hN' := Nat.lt_of_succ_lt hdepth
  refine yieldsAt_advance_bind hk (by simp) hc hN fun start place₁ h₁ hN₁ => ?_
  refine (yieldsAt_inner h₁ hN₁ hN').bind_within hN₁ ?_
  intro ks test place₂ h₂ hN₂ htest
  refine (hstmt.block h₂ hN₂ hN').bind_within hN₂ ?_
  rintro _ ⟨stmts, span⟩ place₃ h₃ - ⟨body, rfl, hbody, hall⟩
  refine yieldsAt_pure h₃ ?_
  rw [Tree.Stmt.bare, hbody]
  simpa [blockTree] using IsStmt.whileLoop htest hall

theorem yieldsAt_ifRule (hk : cursor.current.kind = .symbol .ifWord) :
    YieldsAt (unfold depth).ifRule cursor fun ks s _ => IsStmt ks s.bare := by
  have hN' := Nat.lt_of_succ_lt hdepth
  refine yieldsAt_advance_bind hk (by simp) hc hN fun start place₁ h₁ hN₁ => ?_
  refine (yieldsAt_inner h₁ hN₁ hN').bind_within hN₁ ?_
  intro ks test place₂ h₂ hN₂ htest
  refine (hstmt.block h₂ hN₂ hN').bind_within hN₂ ?_
  rintro _ ⟨stmts, span⟩ place₃ h₃ hN₃ ⟨consequent, rfl, hconsequent, hall⟩
  refine (yieldsAt_accept h₃).bind_within hN₃ ?_
  rintro _ other place₄ h₄ hN₄ rfl
  cases other with
  | false =>
    refine yieldsAt_pure h₄ ?_
    rw [Tree.Stmt.bare, hconsequent]
    simpa [blockTree] using IsStmt.ifThen htest hall
  | true =>
    refine yieldsAt_peek_bind ?_
    split
    · rename_i hif
      -- A statement that begins with `if` is a conditional.
      refine (hstmt place₄ h₄ hN₄).bind fun ks' alternate place₅ hkinds h₅ halternate => ?_
      have hconditional : alternate.bare.isConditional = true := by
        obtain ⟨k, others, rfl, -⟩ := halternate.eq_cons
        refine halternate.head_eq_ifWord_iff.mp ?_
        rw [← hif, Cursor.current_kind hkinds]
        rfl
      refine yieldsAt_pure h₅ ?_
      rw [Tree.Stmt.bare, hconsequent]
      simpa [blockTree] using IsStmt.ifElseIf htest hall halternate hconditional
    · refine (hstmt.block h₄ hN₄ hN').bind ?_
      rintro _ ⟨stmts', span'⟩ place₅ - h₅ ⟨alternate, rfl, halternate, hall'⟩
      refine yieldsAt_pure h₅ ?_
      rw [Tree.Stmt.bare, hconsequent, halternate]
      simpa [blockTree] using IsStmt.ifElse htest hall hall'

theorem yieldsAt_forRule (hk : cursor.current.kind = .symbol .forWord) :
    YieldsAt (unfold depth).forRule cursor fun ks s _ => IsStmt ks s.bare := by
  have hN' := Nat.lt_of_succ_lt hdepth
  refine yieldsAt_advance_bind hk (by simp) hc hN fun start place₁ h₁ hN₁ => ?_
  refine (yieldsAt_identifier h₁).bind_within hN₁ ?_
  rintro _ iterator place₂ h₂ hN₂ rfl
  refine yieldsAt_expect_bind h₂ hN₂ fun _ place₃ h₃ hN₃ => ?_
  refine (yieldsAt_inner h₃ hN₃ hN').bind_within hN₃ ?_
  intro ks first place₄ h₄ hN₄ hfirst
  refine yieldsAt_peek_bind ?_
  cases hop : place₄.current.kind.range? with
  | some op =>
    refine yieldsAt_advance_bind (range?_eq_some_iff.mp hop) (by simp) h₄
      (Nat.le_succ_of_le hN₄) fun _ place₅ h₅ hN₅ => ?_
    refine (yieldsAt_inner h₅ hN₅ hN').bind_within hN₅ ?_
    intro ks' high place₆ h₆ hN₆ hhigh
    refine (hstmt.block h₆ hN₆ hN').bind_within hN₆ ?_
    rintro _ ⟨stmts, span⟩ place₇ h₇ - ⟨body, rfl, hbody, hall⟩
    refine yieldsAt_pure h₇ ?_
    rw [Tree.Stmt.bare, Tree.Name.bare, hbody]
    simpa [blockTree] using IsStmt.rangeLoop iterator.text op hfirst hhigh hall
  | none =>
    refine (hstmt.block h₄ hN₄ hN').bind_within hN₄ ?_
    rintro _ ⟨stmts, span⟩ place₅ h₅ - ⟨body, rfl, hbody, hall⟩
    refine yieldsAt_pure h₅ ?_
    rw [Tree.Stmt.bare, Tree.Name.bare, hbody]
    simpa [blockTree] using IsStmt.collectionLoop iterator.text hfirst hall

theorem yieldsAt_tryRule (hk : cursor.current.kind = .symbol .tryWord) :
    YieldsAt (unfold depth).tryRule cursor fun ks s _ => IsStmt ks s.bare := by
  have hN' := Nat.lt_of_succ_lt hdepth
  refine yieldsAt_advance_bind hk (by simp) hc hN fun start place₁ h₁ hN₁ => ?_
  refine (hstmt.block h₁ hN₁ hN').bind_within hN₁ ?_
  rintro _ ⟨stmts, span⟩ place₂ h₂ hN₂ ⟨body, rfl, hbody, hall⟩
  refine yieldsAt_expect_bind h₂ hN₂ fun _ place₃ h₃ hN₃ => ?_
  have hlast (ks : List Kind) (error : Option Tree.Name) {place₄ : Cursor}
      (h₄ : Ended place₄.kinds) (hN₄ : place₄.kinds.length ≤ N)
      (herror : Optional IsNamed [] ks (error.map Tree.Name.bare)) :
      YieldsAt ((unfold depth).block >>= fun handler => pure (Tree.Stmt.tryCatch ⟨stmts, span⟩ error
        handler (start.merge handler.span))) place₄ fun ks' s _ =>
          IsStmt (.symbol .tryWord :: (blockKinds body ++ .symbol .catchWord :: (ks ++ ks')))
            s.bare := by
    refine (hstmt.block h₄ hN₄ hN').bind ?_
    rintro _ ⟨stmts', span'⟩ place₅ - h₅ ⟨handler, rfl, hhandler, hall'⟩
    refine yieldsAt_pure h₅ ?_
    rw [Tree.Stmt.bare, hbody, hhandler, List.append_nil]
    exact .tryCatch hall herror hall'
  refine yieldsAt_peek_bind ?_
  split
  · refine (yieldsAt_identifier h₃).map_bind hN₃ ?_
    rintro _ name place₄ h₄ hN₄ rfl
    exact hlast _ (some name) h₄ hN₄ (.bare (.of name.text))
  · exact hlast [] none h₃ hN₃ .none

/-- The first token says which rule reads the statement. -/
theorem yieldsAt_stmtRule :
    YieldsAt (unfold depth).stmtRule cursor fun ks s _ => IsStmt ks s.bare := by
  refine yieldsAt_peek_bind ?_
  split
  case h_1 hk => exact yieldsAt_variableRule hdepth hc hN false hk
  case h_2 hk => exact yieldsAt_variableRule hdepth hc hN true hk
  case h_3 hk => exact yieldsAt_functionRule hdepth hc hN hstmt hk
  case h_4 hk => exact yieldsAt_structRule hdepth hc hN false hk
  case h_5 hk => exact yieldsAt_structRule hdepth hc hN true hk
  case h_6 hk => exact yieldsAt_ifRule hdepth hc hN hstmt hk
  case h_7 hk => exact yieldsAt_whileRule hdepth hc hN hstmt hk
  case h_8 hk => exact yieldsAt_forRule hdepth hc hN hstmt hk
  case h_9 hk => exact yieldsAt_tryRule hdepth hc hN hstmt hk
  case h_10 hk => exact yieldsAt_returnRule hdepth hc hN hk
  case h_11 hk => exact yieldsAt_word hc hN hk (by simp) fun _ => .breakLoop
  case h_12 hk => exact yieldsAt_word hc hN hk (by simp) fun _ => .continueLoop
  case h_13 hk => exact yieldsAt_printRule hdepth hc hN hk
  case h_14 => exact yieldsAt_simpleRule hdepth hc hN

end

/-! ### The whole grammar -/

/-- **What is read as a statement is one**, and there are enough steps to read it. -/
theorem yieldsAt_stmt (depth : Nat) (hc : Ended cursor.kinds)
    (hdepth : cursor.kinds.length + 1 < depth) :
    YieldsAt (unfold depth).stmt cursor fun ks s _ => IsStmt ks s.bare := by
  induction depth generalizing cursor with
  | zero => omega
  | succ depth ih =>
    have hlength : cursor.kinds.length = cursor.ahead.length + 1 := by simp [Cursor.kinds]
    refine yieldsAt_stmtRule (N := cursor.ahead.length) (by omega) hc (Nat.le_of_eq hlength) ?_
    exact fun place hplace hle => ih hplace (by omega)

/-- **What is read as a program is one**, up to the end of the input. -/
theorem yieldsAt_program (hc : Ended cursor.kinds) (hdepth : cursor.kinds.length + 1 < depth) :
    YieldsAt (unfold depth).program cursor fun ks trees rest =>
      rest.head? = some .eof ∧ IsProgram ks (trees.map Tree.Stmt.bare) := by
  refine StmtYields.itemsUntil (N := cursor.kinds.length) (E := fun rest => rest.head? = some .eof)
    (fun place hplace hle => yieldsAt_stmt depth hplace (by omega)) (fun place hplace => ?_) hc
    (Nat.le_refl _) (by omega)
  exact yieldsAt_here rfl hplace ⟨rfl, fun h => congrArg some (Kind.isEof_iff.mp h)⟩

end Rules

end TypedImp.Grammar
