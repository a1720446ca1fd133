import TypedImp.Proofs.Grammar.Statements

/-!
# Where a parser stops

A parser only passes tokens that are part of a program.  It stops at the place behind them, if it
succeeds, and at the place where it meets a token that it does not want, if it fails: such a token
is the one that the fault is about.  `Parser.MovesAt` says both of a parser at a place.  It is put
together along `>>=` (`MovesAt.bind`), so every rule of the grammar has it as soon as the parsers
below it do, and one induction on the depth closes the knot (**`Rules.moves_unfold`**).

Most rules look at a token before they pass it.  The others are for what begins with a bracket or
a keyword, and are only tried where this comes; of them it is said where a token comes that is part
of a program.  `Rules.IsFunction` lists the functions of a parser with this condition, and
**`Rules.movesAt_function`** is about all of them, also about the attempt to read an array without
elements, which goes back to where it began if it fails.
-/

namespace TypedImp.Grammar

open TypedImp.Token (Kind)
open TypedImp.Grammar.Parser

/-! ### From place to place -/

/-- **From one place to another one behind it**, where all tokens between them are part of a
program. -/
def Cursor.Reaches (c d : Cursor) : Prop :=
  ∃ front, c.tokens = front ++ d.tokens ∧ AllPassed (front.map Token.kind)

theorem Cursor.Reaches.refl (c : Cursor) : c.Reaches c := ⟨[], rfl, allPassed_nil⟩

theorem Cursor.Reaches.trans {c d e : Cursor} (h : c.Reaches d) (g : d.Reaches e) :
    c.Reaches e := by
  obtain ⟨front, hfront, hpassed⟩ := h
  obtain ⟨others, hothers, hpassed'⟩ := g
  refine ⟨front ++ others, by rw [hfront, hothers, List.append_assoc], ?_⟩
  rw [List.map_append]
  exact allPassed_append.mpr ⟨hpassed, hpassed'⟩

theorem Cursor.Reaches.ended {c d : Cursor} (h : c.Reaches d) (hc : Ended c.kinds) :
    Ended d.kinds := by
  obtain ⟨front, hfront, -⟩ := h
  have hkinds : c.kinds = front.map Token.kind ++ d.kinds := by
    rw [← c.map_kind_tokens, hfront, List.map_append, d.map_kind_tokens]
  rw [hkinds] at hc
  exact hc.of_append (List.cons_ne_nil _ _)

/-- Passing a token that is part of a program. -/
theorem Cursor.reaches_step {c : Cursor} (hc : Ended c.kinds)
    (hk : isPassed c.current.kind = true) : c.Reaches c.step := by
  have hne : c.current.kind ≠ .eof := by
    intro heof
    rw [heof] at hk
    cases hk
  refine ⟨[c.current], (Cursor.tokens_step hc hne).1, ?_⟩
  exact allPassed_cons.mpr ⟨hk, allPassed_nil⟩

/-! ### Contracts -/

namespace Parser

variable {α β : Type}

/-- **Where a parser stops**: behind tokens that are part of a program, or, if it fails, at a token
behind such tokens, which is the one that was not wanted. -/
def MovesAt (p : Parser α) (c : Cursor) : Prop :=
  Ended c.kinds → (∀ value d, p c = .done value d → c.Reaches d) ∧
    ∀ fault, p c = .failed fault →
      ∃ d wanted, c.Reaches d ∧ fault = ⟨.ofKind wanted d.current.kind, d.current.span⟩

variable {p : Parser α} {f : α → Parser β} {c : Cursor}

theorem MovesAt.bind (hp : MovesAt p c) (hf : ∀ value d, MovesAt (f value) d) :
    MovesAt (p >>= f) c := by
  intro hc
  obtain ⟨hdone, hfailed⟩ := hp hc
  rw [bind_apply]
  cases hpc : p c with
  | exhausted => exact ⟨by simp, by simp⟩
  | failed fault =>
    refine ⟨by simp, fun fault' h => ?_⟩
    cases h
    exact hfailed fault hpc
  | done value d =>
    have hd := hdone value d hpc
    obtain ⟨hdone', hfailed'⟩ := hf value d (hd.ended hc)
    refine ⟨fun result e he => hd.trans (hdone' result e he), fun fault h => ?_⟩
    obtain ⟨e, wanted, he, heq⟩ := hfailed' fault h
    exact ⟨e, wanted, hd.trans he, heq⟩

theorem movesAt_done {value : α} {d : Cursor} (hp : p c = .done value d)
    (hd : Ended c.kinds → c.Reaches d) : MovesAt p c := by
  intro hc
  refine ⟨fun v e h => ?_, fun fault h => ?_⟩
  · rw [hp] at h
    cases h
    exact hd hc
  · rw [hp] at h
    cases h

theorem movesAt_pure {value : α} : MovesAt (pure value) c := movesAt_done rfl fun _ => .refl c

theorem MovesAt.map {g : α → β} (hp : MovesAt p c) : MovesAt (g <$> p) c :=
  hp.bind fun _ _ => movesAt_pure

theorem movesAt_exhausted : MovesAt (exhausted : Parser α) c := by
  intro _
  refine ⟨fun _ _ h => ?_, fun _ h => ?_⟩
  · cases h
  · cases h

/-- A parser that fails where it stands. -/
theorem movesAt_fails {wanted : Expected} (hp : p c = unexpected wanted c) : MovesAt p c := by
  intro _
  refine ⟨fun _ _ h => ?_, fun fault h => ?_⟩
  · rw [hp] at h
    cases h
  · rw [hp] at h
    cases h
    exact ⟨c, wanted, .refl c, rfl⟩

theorem movesAt_unexpected {wanted : Expected} : MovesAt (unexpected wanted : Parser α) c :=
  movesAt_fails rfl

theorem movesAt_peek_bind {f : Kind → Parser β} (hf : MovesAt (f c.current.kind) c) :
    MovesAt (peek >>= f) c :=
  hf

/-! ### Tokens -/

theorem movesAt_advance (hk : isPassed c.current.kind = true) : MovesAt advance c :=
  movesAt_done rfl fun hc => c.reaches_step hc hk

theorem isPassed_of_isSymbol {s : Symbol} (h : c.current.kind.isSymbol s = true) :
    isPassed c.current.kind = true := by
  rw [Kind.isSymbol_iff.mp h]
  rfl

theorem movesAt_expect (s : Symbol) : MovesAt (expect s) c := by
  by_cases hs : c.current.kind.isSymbol s = true
  · exact movesAt_done (by rw [expect, if_pos hs]) fun hc =>
      c.reaches_step hc (isPassed_of_isSymbol hs)
  · exact movesAt_fails (by rw [expect, if_neg hs])

theorem movesAt_accept (s : Symbol) : MovesAt (accept s) c := by
  by_cases hs : c.current.kind.isSymbol s = true
  · exact movesAt_done (by rw [accept, if_pos hs]) fun hc =>
      c.reaches_step hc (isPassed_of_isSymbol hs)
  · exact movesAt_done (by rw [accept, if_neg hs]) fun _ => .refl c

theorem movesAt_identifier : MovesAt identifier c := by
  cases hk : c.current.kind with
  | name text =>
    exact movesAt_done (by rw [identifier, hk]) fun hc => c.reaches_step hc (by rw [hk]; rfl)
  | _ => exact movesAt_fails (by rw [identifier, hk])

/-! ### Lists -/

/-- What fails is not heard of: the attempt stops where it began. -/
theorem MovesAt.attempt (hp : MovesAt p c) : MovesAt (Parser.attempt p) c := by
  cases hpc : p c with
  | exhausted =>
    have hattempt : Parser.attempt p c = .exhausted := by rw [Parser.attempt, hpc]
    intro _
    exact ⟨by simp [hattempt], by simp [hattempt]⟩
  | failed fault => exact movesAt_done (by rw [Parser.attempt, hpc]) fun _ => .refl c
  | done value d =>
    exact movesAt_done (by rw [Parser.attempt, hpc]) fun hc => (hp hc).1 value d hpc

theorem movesAt_itemsUntil {ends : Parser Bool}
    (hends : ∀ d, ∃ ended, ends d = .done ended d) (hp : ∀ d, MovesAt p d) (steps : Nat) :
    MovesAt (itemsUntil ends p steps) c := by
  induction steps generalizing c with
  | zero => exact movesAt_exhausted
  | succ steps ih =>
    obtain ⟨ended, hended⟩ := hends c
    refine (movesAt_done hended fun _ => .refl c).bind fun ended d => ?_
    cases ended with
    | true => exact movesAt_pure
    | false => exact (hp d).bind fun _ _ => ih.bind fun _ _ => movesAt_pure

theorem movesAt_commaItems (closing : Symbol) (hp : ∀ d, MovesAt p d) (steps : Nat) :
    MovesAt (commaItems closing p steps) c := by
  induction steps generalizing c with
  | zero => exact movesAt_exhausted
  | succ steps ih =>
    refine (movesAt_done (p := closes closing) rfl fun _ => .refl c).bind fun ended d => ?_
    cases ended with
    | true => exact movesAt_pure
    | false =>
      refine (hp d).bind fun _ _ => (movesAt_accept .comma).bind fun more _ => ?_
      cases more with
      | true => exact ih.bind fun _ _ => movesAt_pure
      | false => exact movesAt_pure

end Parser

/-! ### The rules -/

namespace Rules

/-- **The parsers below a rule stop** where they should. -/
structure Moves (r : Rules) : Prop where
  type : ∀ c, MovesAt r.type c
  expr : ∀ least c, MovesAt (r.expr least) c
  stmt : ∀ c, MovesAt r.stmt c

variable {r : Rules} {c : Cursor} (h : r.Moves)

include h

/-! ### Types -/

theorem Moves.typeRule : MovesAt r.typeRule c := by
  refine movesAt_peek_bind ?_
  split
  · exact movesAt_identifier.bind fun _ _ => movesAt_pure
  · rename_i hk
    refine (movesAt_advance (by rw [hk]; rfl)).bind fun _ c₁ => (h.type c₁).bind fun _ _ => ?_
    exact (movesAt_expect _).bind fun _ _ => movesAt_pure
  · rename_i hk
    refine (movesAt_advance (by rw [hk]; rfl)).bind fun _ _ => ?_
    refine (movesAt_commaItems _ h.type _).bind fun _ _ => (movesAt_expect _).bind fun _ _ => ?_
    exact (movesAt_expect _).bind fun _ c₁ => (h.type c₁).bind fun _ _ => movesAt_pure
  · exact movesAt_unexpected

theorem Moves.annotated : MovesAt r.annotated c :=
  movesAt_identifier.bind fun _ _ => (movesAt_expect _).bind fun _ c₁ =>
    (h.type c₁).bind fun _ _ => movesAt_pure

theorem Moves.colonType : MovesAt (Rules.colonType r) c := by
  refine (movesAt_accept _).bind fun colon c₁ => ?_
  cases colon with
  | true => exact (h.type c₁).bind fun _ _ => movesAt_pure
  | false => exact movesAt_pure

/-! ### Expressions -/

theorem Moves.emptyArray : MovesAt r.emptyArray c := by
  refine (h.type c).bind fun _ _ => (movesAt_expect _).bind fun _ _ => ?_
  exact (movesAt_expect _).bind fun _ _ => (movesAt_expect _).bind fun _ _ => movesAt_pure

theorem Moves.array (hk : isPassed c.current.kind = true) : MovesAt r.array c := by
  refine (movesAt_advance hk).bind fun _ _ => h.emptyArray.attempt.bind fun found _ => ?_
  cases found with
  | some found => exact movesAt_pure
  | none =>
    refine (movesAt_commaItems _ (h.expr 0) _).bind fun _ _ => ?_
    exact (movesAt_expect _).bind fun _ _ => movesAt_pure

theorem Moves.primary : MovesAt r.primary c := by
  have literal (hk : isPassed c.current.kind = true) (e : Span → Tree.Expr) :
      MovesAt (do
        let span ← advance
        pure (e span)) c :=
    (movesAt_advance hk).bind fun _ _ => movesAt_pure
  refine movesAt_peek_bind ?_
  split
  · rename_i hk
    exact literal (by rw [hk]; rfl) _
  · rename_i hk
    exact literal (by rw [hk]; rfl) _
  · rename_i hk
    exact literal (by rw [hk]; rfl) _
  · rename_i hk
    exact literal (by rw [hk]; rfl) _
  · exact movesAt_identifier.bind fun _ _ => movesAt_pure
  · rename_i hk
    refine (movesAt_advance (by rw [hk]; rfl)).bind fun _ c₁ => (h.expr 0 c₁).bind fun _ _ => ?_
    exact (movesAt_expect _).bind fun _ _ => movesAt_pure
  · rename_i hk
    exact h.array (by rw [hk]; rfl)
  · exact movesAt_unexpected

theorem Moves.suffixes (steps : Nat) (e : Tree.Expr) : MovesAt (r.suffixes steps e) c := by
  induction steps generalizing c e with
  | zero => exact movesAt_exhausted
  | succ steps ih =>
    refine movesAt_peek_bind ?_
    split
    · rename_i hk
      refine (movesAt_advance (by rw [hk]; rfl)).bind fun _ _ => ?_
      refine (movesAt_commaItems _ (h.expr 0) _).bind fun _ _ => ?_
      exact (movesAt_expect _).bind fun _ _ => ih _
    · rename_i hk
      exact (movesAt_advance (by rw [hk]; rfl)).bind fun _ _ =>
        movesAt_identifier.bind fun _ _ => ih _
    · rename_i hk
      refine (movesAt_advance (by rw [hk]; rfl)).bind fun _ c₁ => (h.expr 0 c₁).bind fun _ _ => ?_
      exact (movesAt_expect _).bind fun _ _ => ih _
    · exact movesAt_pure

theorem Moves.operand : MovesAt r.operand c := by
  refine movesAt_peek_bind ?_
  split
  · rename_i op hop
    have hk : isPassed c.current.kind = true := by
      rw [unary?_eq_some_iff.mp hop]
      rfl
    exact (movesAt_advance hk).bind fun _ c₁ => (h.expr _ c₁).bind fun _ _ => movesAt_pure
  · exact h.primary.bind fun first _ => h.suffixes _ first

theorem Moves.operators (least steps : Nat) (left : Tree.Expr) :
    MovesAt (r.operators least steps left) c := by
  induction steps generalizing c left with
  | zero => exact movesAt_exhausted
  | succ steps ih =>
    refine movesAt_peek_bind ?_
    split
    · rename_i op hop
      have hk : isPassed c.current.kind = true := by
        rw [binary?_eq_some_iff.mp hop]
        rfl
      split
      · exact movesAt_pure
      · exact (movesAt_advance hk).bind fun _ c₁ => (h.expr _ c₁).bind fun _ _ => ih _
    · exact movesAt_pure

theorem Moves.exprRule (least : Nat) : MovesAt (r.exprRule least) c :=
  h.operand.bind fun first _ => h.operators least _ first

/-! ### Statements -/

theorem Moves.block : MovesAt r.block c := by
  refine (movesAt_expect _).bind fun _ _ => ?_
  refine (movesAt_itemsUntil (fun _ => ⟨_, rfl⟩) h.stmt _).bind fun _ _ => ?_
  exact (movesAt_expect _).bind fun _ _ => movesAt_pure

theorem Moves.variableRule (hk : isPassed c.current.kind = true) (readOnly : Bool) :
    MovesAt (r.variableRule readOnly) c := by
  refine (movesAt_advance hk).bind fun start _ => movesAt_identifier.bind fun name _ => ?_
  refine h.colonType.bind fun type _ => (movesAt_accept _).bind fun assigned c₁ => ?_
  have behind (initializer : Option Tree.Expr) (d : Cursor) :
      MovesAt (do
        let stop ← expect .semicolon
        pure (Tree.Stmt.declareVariable name readOnly type initializer (start.merge stop))) d :=
    (movesAt_expect _).bind fun _ _ => movesAt_pure
  cases assigned with
  | true => exact (h.expr 0 c₁).map.bind behind
  | false => exact behind none c₁

theorem Moves.functionRule (hk : isPassed c.current.kind = true) : MovesAt r.functionRule c := by
  refine (movesAt_advance hk).bind fun _ _ => movesAt_identifier.bind fun _ _ => ?_
  refine (movesAt_expect _).bind fun _ _ => ?_
  refine (movesAt_commaItems _ (fun _ => h.annotated) _).bind fun _ _ => ?_
  refine (movesAt_expect _).bind fun _ _ => h.colonType.bind fun _ _ => ?_
  exact h.block.bind fun _ _ => movesAt_pure

theorem Moves.field : MovesAt r.field c := by
  refine h.annotated.bind fun _ _ => (movesAt_accept _).bind fun comma _ => ?_
  cases comma with
  | true => exact movesAt_pure
  | false => exact (movesAt_accept _).bind fun _ _ => movesAt_pure

theorem Moves.structRule (hk : isPassed c.current.kind = true) (isClass : Bool) :
    MovesAt (r.structRule isClass) c := by
  refine (movesAt_advance hk).bind fun _ _ => movesAt_identifier.bind fun _ _ => ?_
  refine (movesAt_expect _).bind fun _ _ => ?_
  refine (movesAt_itemsUntil (fun _ => ⟨_, rfl⟩) (fun _ => h.field) _).bind fun _ _ => ?_
  exact (movesAt_expect _).bind fun _ _ => movesAt_pure

theorem Moves.ifRule (hk : isPassed c.current.kind = true) : MovesAt r.ifRule c := by
  refine (movesAt_advance hk).bind fun _ c₁ => (h.expr 0 c₁).bind fun _ _ => ?_
  refine h.block.bind fun _ _ => (movesAt_accept _).bind fun more c₂ => ?_
  cases more with
  | false => exact movesAt_pure
  | true =>
    refine movesAt_peek_bind ?_
    split
    · exact (h.stmt c₂).bind fun _ _ => movesAt_pure
    · exact h.block.bind fun _ _ => movesAt_pure

theorem Moves.whileRule (hk : isPassed c.current.kind = true) : MovesAt r.whileRule c :=
  (movesAt_advance hk).bind fun _ c₁ => (h.expr 0 c₁).bind fun _ _ =>
    h.block.bind fun _ _ => movesAt_pure

theorem Moves.forRule (hk : isPassed c.current.kind = true) : MovesAt r.forRule c := by
  refine (movesAt_advance hk).bind fun _ _ => movesAt_identifier.bind fun _ _ => ?_
  refine (movesAt_expect _).bind fun _ c₁ => (h.expr 0 c₁).bind fun _ c₂ => ?_
  refine movesAt_peek_bind ?_
  split
  · rename_i op hop
    have hk : isPassed c₂.current.kind = true := by
      rw [range?_eq_some_iff.mp hop]
      rfl
    refine (movesAt_advance hk).bind fun _ c₃ => (h.expr 0 c₃).bind fun _ _ => ?_
    exact h.block.bind fun _ _ => movesAt_pure
  · exact h.block.bind fun _ _ => movesAt_pure

theorem Moves.tryRule (hk : isPassed c.current.kind = true) : MovesAt r.tryRule c := by
  refine (movesAt_advance hk).bind fun start _ => h.block.bind fun body _ => ?_
  refine (movesAt_expect _).bind fun _ c₁ => movesAt_peek_bind ?_
  have behind (error : Option Tree.Name) (d : Cursor) :
      MovesAt (do
        let handler ← r.block
        pure (Tree.Stmt.tryCatch body error handler (start.merge handler.span))) d :=
    h.block.bind fun _ _ => movesAt_pure
  dsimp only
  split
  · exact movesAt_identifier.map.bind behind
  · exact behind none c₁

theorem Moves.returnRule (hk : isPassed c.current.kind = true) : MovesAt r.returnRule c := by
  refine (movesAt_advance hk).bind fun start c₁ => movesAt_peek_bind ?_
  have behind (value : Option Tree.Expr) (d : Cursor) :
      MovesAt (do
        let stop ← expect .semicolon
        pure (Tree.Stmt.ret value (start.merge stop))) d :=
    (movesAt_expect _).bind fun _ _ => movesAt_pure
  dsimp only
  split
  · exact behind none c₁
  · exact (h.expr 0 c₁).map.bind behind

theorem Moves.printRule (hk : isPassed c.current.kind = true) : MovesAt r.printRule c :=
  (movesAt_advance hk).bind fun _ c₁ => (h.expr 0 c₁).bind fun _ _ =>
    (movesAt_expect _).bind fun _ _ => movesAt_pure

theorem Moves.simpleRule : MovesAt r.simpleRule c := by
  refine (h.expr 0 c).bind fun target c₁ => movesAt_peek_bind ?_
  have behind (stmt : Tree.Stmt) (d : Cursor) :
      MovesAt (do
        let _ ← expect .semicolon
        pure stmt) d :=
    (movesAt_expect _).bind fun _ _ => movesAt_pure
  dsimp only
  split
  · rename_i hk
    exact (movesAt_advance (by rw [hk]; rfl)).bind fun _ c₂ => (h.expr 0 c₂).bind fun _ => behind _
  · rename_i hk
    exact (movesAt_advance (by rw [hk]; rfl)).bind fun _ => behind _
  · rename_i hk
    exact (movesAt_advance (by rw [hk]; rfl)).bind fun _ => behind _
  · split
    · exact behind _ c₁
    · exact movesAt_unexpected.bind behind

theorem Moves.stmtRule : MovesAt r.stmtRule c := by
  have word (hk : isPassed c.current.kind = true) (s : Span → Tree.Stmt) :
      MovesAt (do
        let span ← advance
        let _ ← expect .semicolon
        pure (s span)) c :=
    (movesAt_advance hk).bind fun _ _ => (movesAt_expect _).bind fun _ _ => movesAt_pure
  refine movesAt_peek_bind ?_
  split
  · rename_i hk
    exact h.variableRule (by rw [hk]; rfl) _
  · rename_i hk
    exact h.variableRule (by rw [hk]; rfl) _
  · rename_i hk
    exact h.functionRule (by rw [hk]; rfl)
  · rename_i hk
    exact h.structRule (by rw [hk]; rfl) _
  · rename_i hk
    exact h.structRule (by rw [hk]; rfl) _
  · rename_i hk
    exact h.ifRule (by rw [hk]; rfl)
  · rename_i hk
    exact h.whileRule (by rw [hk]; rfl)
  · rename_i hk
    exact h.forRule (by rw [hk]; rfl)
  · rename_i hk
    exact h.tryRule (by rw [hk]; rfl)
  · rename_i hk
    exact h.returnRule (by rw [hk]; rfl)
  · rename_i hk
    exact word (by rw [hk]; rfl) _
  · rename_i hk
    exact word (by rw [hk]; rfl) _
  · rename_i hk
    exact h.printRule (by rw [hk]; rfl)
  · exact h.simpleRule

omit h

/-- **All parsers stop where they should**, however deep the rules are unfolded. -/
theorem moves_unfold (depth : Nat) : (unfold depth).Moves := by
  induction depth with
  | zero =>
    exact ⟨fun _ => movesAt_exhausted, fun _ _ => movesAt_exhausted, fun _ => movesAt_exhausted⟩
  | succ depth ih =>
    exact ⟨fun _ => ih.typeRule, fun least _ => ih.exprRule least, fun _ => ih.stmtRule⟩

/-! ### All functions of a parser -/

/-- **The functions of a parser**, at a place where a token of the kind `k` comes.  `advance` and
those for what begins with a bracket or a keyword pass this without a look at it, and they are not
for a token that cannot be part of a program. -/
inductive IsFunction (r : Rules) (k : Kind) : {α : Type} → Parser α → Prop
  | advance (hk : isPassed k = true) : IsFunction r k advance
  | identifier : IsFunction r k identifier
  | expect (s : Symbol) : IsFunction r k (expect s)
  | accept (s : Symbol) : IsFunction r k (accept s)
  | type : IsFunction r k r.typeRule
  | annotated : IsFunction r k r.annotated
  | colonType : IsFunction r k (Rules.colonType r)
  | emptyArray : IsFunction r k r.emptyArray
  | attempt : IsFunction r k (attempt r.emptyArray)
  | array (hk : isPassed k = true) : IsFunction r k r.array
  | primary : IsFunction r k r.primary
  | suffixes (steps : Nat) (e : Tree.Expr) : IsFunction r k (r.suffixes steps e)
  | operand : IsFunction r k r.operand
  | operators (least steps : Nat) (left : Tree.Expr) :
    IsFunction r k (r.operators least steps left)
  | expr (least : Nat) : IsFunction r k (r.exprRule least)
  | block : IsFunction r k r.block
  | declareVariable (hk : isPassed k = true) (readOnly : Bool) :
    IsFunction r k (r.variableRule readOnly)
  | declareFunction (hk : isPassed k = true) : IsFunction r k r.functionRule
  | field : IsFunction r k r.field
  | declareStruct (hk : isPassed k = true) (isClass : Bool) :
    IsFunction r k (r.structRule isClass)
  | conditional (hk : isPassed k = true) : IsFunction r k r.ifRule
  | whileLoop (hk : isPassed k = true) : IsFunction r k r.whileRule
  | forLoop (hk : isPassed k = true) : IsFunction r k r.forRule
  | tryCatch (hk : isPassed k = true) : IsFunction r k r.tryRule
  | ret (hk : isPassed k = true) : IsFunction r k r.returnRule
  | print (hk : isPassed k = true) : IsFunction r k r.printRule
  | simple : IsFunction r k r.simpleRule
  | stmt : IsFunction r k r.stmtRule
  | program : IsFunction r k r.program

/-- **All functions of a parser stop where they should.** -/
theorem movesAt_function {α : Type} {p : Parser α} (depth : Nat)
    (hp : (unfold depth).IsFunction c.current.kind p) : MovesAt p c := by
  have h := moves_unfold depth
  cases hp with
  | advance hk => exact movesAt_advance hk
  | identifier => exact movesAt_identifier
  | expect s => exact movesAt_expect s
  | accept s => exact movesAt_accept s
  | type => exact h.typeRule
  | annotated => exact h.annotated
  | colonType => exact h.colonType
  | emptyArray => exact h.emptyArray
  | attempt => exact h.emptyArray.attempt
  | array hk => exact h.array hk
  | primary => exact h.primary
  | suffixes steps e => exact h.suffixes steps e
  | operand => exact h.operand
  | operators least steps left => exact h.operators least steps left
  | expr least => exact h.exprRule least
  | block => exact h.block
  | declareVariable hk readOnly => exact h.variableRule hk readOnly
  | declareFunction hk => exact h.functionRule hk
  | field => exact h.field
  | declareStruct hk isClass => exact h.structRule hk isClass
  | conditional hk => exact h.ifRule hk
  | whileLoop hk => exact h.whileRule hk
  | forLoop hk => exact h.forRule hk
  | tryCatch hk => exact h.tryRule hk
  | ret hk => exact h.returnRule hk
  | print hk => exact h.printRule hk
  | simple => exact h.simpleRule
  | stmt => exact h.stmtRule
  | program => exact movesAt_itemsUntil (fun _ => ⟨_, rfl⟩) h.stmt _

end Rules

end TypedImp.Grammar
