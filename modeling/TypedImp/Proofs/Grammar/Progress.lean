import TypedImp.Proofs.Grammar.Settles

/-!
# Parsers make progress and halt

`Routine` lists the functions of a parser, from those of a single token to the one for a whole
program.  From every place in a row of tokens that ends where the input does, each of them has an
answer, and it is the same one however much deeper the rules are unfolded
(**`parser_progresses`**).  No function gets past the end, and those that read something are
further on when they succeed; the others read what may be missing, such as the suffixes of an
expression, and may stay where they are.

An array is the one construct that is tried twice.  `Rules.elements` is what reads it when no array
without elements was found, from the place right behind its bracket.
-/

namespace TypedImp

open TypedImp.Token (Kind)
open TypedImp.Grammar.Parser

namespace Grammar

/-! ### The functions of a parser -/

/-- **The functions of a parser**, by what they yield. -/
inductive Routine : Type → Type
  | advance : Routine Span
  | identifier : Routine Tree.Name
  | expect (s : Symbol) : Routine Span
  | accept (s : Symbol) : Routine Bool
  | type : Routine Tree.TypeExpr
  | annotated : Routine Tree.Annotated
  /-- A type behind a colon, if there is a colon. -/
  | colonType : Routine (Option Tree.TypeExpr)
  /-- The rest of an array without elements. -/
  | emptyArray : Routine (Tree.TypeExpr × Span)
  | array : Routine Tree.Expr
  | primary : Routine Tree.Expr
  | suffixes (e : Tree.Expr) : Routine Tree.Expr
  | operand : Routine Tree.Expr
  | operators (least : Nat) (left : Tree.Expr) : Routine Tree.Expr
  | expr (least : Nat) : Routine Tree.Expr
  | block : Routine (Tree.Block Tree.Stmt)
  | declareVariable (readOnly : Bool) : Routine Tree.Stmt
  | declareFunction : Routine Tree.Stmt
  | field : Routine Tree.Annotated
  | declareStruct (isClass : Bool) : Routine Tree.Stmt
  | conditional : Routine Tree.Stmt
  | whileLoop : Routine Tree.Stmt
  | forLoop : Routine Tree.Stmt
  | tryCatch : Routine Tree.Stmt
  | ret : Routine Tree.Stmt
  | print : Routine Tree.Stmt
  | simple : Routine Tree.Stmt
  | stmt : Routine Tree.Stmt
  | program : Routine (List Tree.Stmt)

namespace Routine

/-- A function of a parser, with the rules that it uses below it. -/
def parser (r : Rules) : {α : Type} → Routine α → Parser α
  | _, advance => Parser.advance
  | _, identifier => Grammar.identifier
  | _, expect s => Parser.expect s
  | _, accept s => Parser.accept s
  | _, type => r.typeRule
  | _, annotated => r.annotated
  | _, colonType => Rules.colonType r
  | _, emptyArray => r.emptyArray
  | _, array => r.array
  | _, primary => r.primary
  | _, suffixes e => r.suffixes r.steps e
  | _, operand => r.operand
  | _, operators least left => r.operators least r.steps left
  | _, expr least => r.exprRule least
  | _, block => r.block
  | _, declareVariable readOnly => r.variableRule readOnly
  | _, declareFunction => r.functionRule
  | _, field => r.field
  | _, declareStruct isClass => r.structRule isClass
  | _, conditional => r.ifRule
  | _, whileLoop => r.whileRule
  | _, forLoop => r.forRule
  | _, tryCatch => r.tryRule
  | _, ret => r.returnRule
  | _, print => r.printRule
  | _, simple => r.simpleRule
  | _, stmt => r.stmtRule
  | _, program => r.program

/-- Whether a function passes a token whenever it succeeds.  The others may find nothing to read,
or stand at the end of the input. -/
def passes : {α : Type} → Routine α → Bool
  | _, advance | _, accept _ | _, colonType | _, suffixes _ | _, operators _ _ | _, program => false
  | _, _ => true

/-- **All functions of a parser settle** at a place where the rules are unfolded deep enough for
the tokens left. -/
theorem settlesAt {α : Type} (f : Routine α) {c : Cursor} {depth depth' : Nat}
    (hdepth : c.left + 2 < depth) (hdepth' : c.left + 2 < depth') :
    SettlesAt (f.parser (Rules.unfold depth)) (f.parser (Rules.unfold depth')) c
      (bif f.passes then c.left else c.left + 1) := by
  have h := Rules.settles_unfold hdepth hdepth'
  have hlt : c.left < c.left + 2 := by omega
  obtain ⟨hsteps, hsteps'⟩ := h.lt_steps hlt
  cases f with
  | advance => exact settlesAt_advance
  | identifier => exact settlesAt_identifier
  | expect s => exact settlesAt_expect s
  | accept s => exact settlesAt_accept s
  | type => exact h.typeRule (Nat.le_of_lt hlt)
  | annotated => exact h.annotated hlt
  | colonType => exact h.colonType hlt
  | emptyArray => exact h.emptyArray hlt
  | array => exact h.array hlt
  | primary => exact h.primary (Nat.le_of_lt hlt)
  | suffixes e => exact h.suffixes hlt hsteps hsteps' e
  | operand => exact h.operand (Nat.le_of_lt hlt)
  | operators least left => exact h.operators least hlt hsteps hsteps' left
  | expr least => exact h.exprRule least (Nat.le_of_lt hlt)
  | block => exact h.block hlt
  | declareVariable readOnly => exact h.variableRule hlt readOnly
  | declareFunction => exact h.functionRule hlt
  | field => exact h.field hlt
  | declareStruct isClass => exact h.structRule hlt isClass
  | conditional => exact h.ifRule hlt
  | whileLoop => exact h.whileRule hlt
  | forLoop => exact h.forRule hlt
  | tryCatch => exact h.tryRule hlt
  | ret => exact h.returnRule hlt
  | print => exact h.printRule hlt
  | simple => exact h.simpleRule hlt
  | stmt => exact h.stmtRule hlt
  | program => exact h.program (Nat.lt_succ_self _)

end Routine

/-! ### Arrays that are tried twice -/

/-- The rest of an array with elements, whose bracket is at `start`. -/
def Rules.elements (r : Rules) (start : Span) : Parser Tree.Expr := do
  let elements ← commaItems .rightBracket (r.expr 0) r.steps
  let stop ← Parser.expect .rightBracket
  pure (.array elements (start.merge stop))

/-- **What was tried first leaves no trace**: the elements of an array are read from the place
behind its bracket. -/
theorem Rules.array_of_failed {r : Rules} {c : Cursor} {fault : Located Fault}
    (h : r.emptyArray c.step = .failed fault) : r.array c = r.elements c.current.span c.step := by
  have hattempt : attempt r.emptyArray c.step = .done none c.step := by rw [attempt, h]
  show (attempt r.emptyArray >>= _) c.step = _
  rw [bind_apply, hattempt]
  rfl

/-! ### Places in a row of tokens -/

variable {α : Type} {tokens front : List Token} {eof : Token} {c d : Cursor} {i : Nat}

/-- **A run from the place behind `i` tokens of a row has an answer.**  If it succeeds, it stops at
a token of the row, the last one at most, and has not passed the end of the input on the way;
`passes` says whether it has passed a token at all.  If it fails, then at a token of the row. -/
structure Outcome.Progresses (tokens : List Token) (i : Nat) (passes : Bool)
    (outcome : Outcome α) : Prop where
  answers : outcome ≠ .exhausted
  done : ∀ value d, outcome = .done value d → ∃ j, i ≤ j ∧ j < tokens.length ∧
    d.tokens = tokens.drop j ∧ (∀ t ∈ (tokens.take j).drop i, t.kind ≠ .eof) ∧
    (passes = true → i < j)
  failed : ∀ fault, outcome = .failed fault → ∃ j t wanted, i ≤ j ∧ tokens[j]? = some t ∧
    fault = ⟨.ofKind wanted t.kind, t.span⟩

theorem ended_of_drop (heof : eof.kind = .eof) (hc : c.tokens = (front ++ [eof]).drop i) :
    Ended c.kinds := by
  have hended : Ended ((front ++ [eof]).map Token.kind) := ended_map_kind heof
  rw [← List.take_append_drop i (front ++ [eof]), ← hc, List.map_append] at hended
  exact hended.of_append (List.cons_ne_nil _ _)

/-- The place behind `i` tokens and the tokens left behind it make up the row. -/
theorem left_of_drop (hc : c.tokens = tokens.drop i) : i + c.left + 1 = tokens.length := by
  have hlength := congrArg List.length hc
  rw [List.length_drop, Cursor.length_tokens_eq_left] at hlength
  omega

/-- A later place is behind more tokens. -/
theorem drop_of_suffix (hc : c.tokens = tokens.drop i) (hd : d.tokens <:+ c.tokens) :
    d.tokens = tokens.drop (i + (c.left - d.left)) := by
  obtain ⟨passed, hpassed⟩ := hd
  have hlength := congrArg List.length hpassed
  rw [List.length_append, Cursor.length_tokens_eq_left, Cursor.length_tokens_eq_left] at hlength
  have hcount : c.left - d.left = passed.length := by omega
  rw [hcount, ← List.drop_drop, ← hc, ← hpassed, List.drop_left]

theorem step_of_drop (heof : eof.kind = .eof) (hc : c.tokens = (front ++ [eof]).drop i)
    (hk : c.current.kind ≠ .eof) : c.step.tokens = (front ++ [eof]).drop (i + 1) := by
  have htokens := (Cursor.tokens_step (ended_of_drop heof hc) hk).1
  rw [hc] at htokens
  rw [← List.drop_drop, htokens]
  rfl

/-- In front of the last token no token ends the input. -/
theorem ne_eof_of_mem_take (hfront : ∀ t ∈ front, t.kind ≠ .eof) {j : Nat}
    (hj : j < (front ++ [eof]).length) {t : Token} (ht : t ∈ ((front ++ [eof]).take j).drop i) :
    t.kind ≠ .eof := by
  have hle : j ≤ front.length := by
    rw [List.length_append, List.length_singleton] at hj
    omega
  have hmem := List.mem_of_mem_drop ht
  rw [List.take_append_of_le_length hle] at hmem
  exact hfront t (List.mem_of_mem_take hmem)

/-- What settles within a row of tokens makes progress in it. -/
theorem Outcome.Settled.progresses {outcome : Outcome α} {passes : Bool}
    (h : outcome.Settled c (bif passes then c.left else c.left + 1))
    (hfront : ∀ t ∈ front, t.kind ≠ .eof) (hc : c.tokens = (front ++ [eof]).drop i) :
    outcome.Progresses (front ++ [eof]) i passes := by
  refine ⟨?_, ?_, ?_⟩
  · rintro rfl
    exact h
  · rintro value d rfl
    obtain ⟨hsuffix, hlt⟩ := h
    have hdrop := drop_of_suffix hc hsuffix
    have hd := left_of_drop hdrop
    have hj : i + (c.left - d.left) < (front ++ [eof]).length := by omega
    refine ⟨_, Nat.le_add_right _ _, hj, hdrop, fun t ht => ne_eof_of_mem_take hfront hj ht, ?_⟩
    rintro rfl
    rw [cond_true] at hlt
    omega
  · rintro fault rfl
    obtain ⟨d, wanted, hsuffix, heq⟩ := h
    have hdrop := drop_of_suffix hc hsuffix
    exact ⟨_, d.current, wanted, Nat.le_add_right _ _, d.getElem?_current hdrop, heq⟩

theorem Fault.ofKind_ne_tooDeep (wanted : Expected) (k : Kind) :
    Fault.ofKind wanted k ≠ .tooDeep := by
  cases k <;> simp [ofKind]

end Grammar

open Grammar

/-- The rules are unfolded deep enough for any row of tokens. -/
theorem Tree.ofTokens_ne_tooDeep {front : List Token} {eof : Token}
    (hfront : ∀ t ∈ front, t.kind ≠ .eof) (heof : eof.kind = .eof) (span : Span) :
    Tree.ofTokens (front ++ [eof]) ≠ .error ⟨.tooDeep, span⟩ := by
  intro h
  obtain ⟨current, ahead, htokens⟩ : ∃ current ahead, front ++ [eof] = current :: ahead :=
    List.exists_cons_of_ne_nil (by simp)
  let c : Cursor := ⟨current, ahead⟩
  have hc : c.tokens = (front ++ [eof]).drop 0 := htokens.symm
  have hdepth : c.left + 2 < Rules.depthFor (ahead.length + 1) := by
    show ahead.length + 2 < _
    rw [Rules.depthFor]
    omega
  have hsettled := (Routine.program.settlesAt hdepth hdepth (ended_of_drop heof hc)).2
  have hprogress := hsettled.progresses hfront hc
  rw [htokens, Tree.ofTokens] at h
  split at h
  · cases h
  · rename_i fault hfailed
    cases h
    obtain ⟨j, t, wanted, -, -, heq⟩ := hprogress.failed _ hfailed
    exact Fault.ofKind_ne_tooDeep wanted t.kind (congrArg Located.cause heq).symm
  · rename_i hexhausted
    exact hprogress.answers hexhausted

/-- **Parsers make progress and halt.**  In a row of tokens of which only the last one ends the
input, each function of the parser has an answer at each place, and it is the same however deep the
rules are unfolded, as soon as this is deep enough for the tokens that come.  It is a value, in
front of the last token or at it, without the end of the input having been passed, and behind at
least one token more for all functions that have something to read; or it is a fault at one of the
tokens that come.  So the row as a whole is read or refused for one of its tokens.

Where no type with its bracket and empty parentheses is found behind the bracket of an array, the
elements are read from the place right behind this bracket. -/
theorem parser_progresses {front : List Token} {eof : Token} (hfront : ∀ t ∈ front, t.kind ≠ .eof)
    (heof : eof.kind = .eof) {i : Nat} {c : Cursor} (hc : c.tokens = (front ++ [eof]).drop i) :
    (∀ {α : Type} (f : Routine α), ∃ outcome : Outcome α,
      outcome.Progresses (front ++ [eof]) i f.passes ∧
      ∀ depth, c.tokens.length + 1 < depth → f.parser (Rules.unfold depth) c = outcome) ∧
    (∀ depth fault, c.current.kind = .symbol .leftBracket →
      (Rules.unfold depth).emptyArray c.step = .failed fault →
        c.step.tokens = (front ++ [eof]).drop (i + 1) ∧
        (Rules.unfold depth).array c = (Rules.unfold depth).elements c.current.span c.step) ∧
    ∀ span, Tree.ofTokens (front ++ [eof]) ≠ .error ⟨.tooDeep, span⟩ := by
  have hended := ended_of_drop heof hc
  refine ⟨fun {α} f => ?_, fun depth fault hk h => ⟨?_, Rules.array_of_failed h⟩,
    Tree.ofTokens_ne_tooDeep hfront heof⟩
  · have hsettles (depth : Nat) (hdepth : c.tokens.length + 1 < depth) :=
      f.settlesAt (Nat.lt_succ_self (c.left + 2)) hdepth hended
    refine ⟨_, (hsettles _ (Nat.lt_succ_self _)).2.progresses hfront hc, fun depth hdepth => ?_⟩
    exact (hsettles depth hdepth).1.symm
  · exact step_of_drop heof hc (by simp [hk])

def bracketedTokens : List Token :=
  [⟨.symbol .leftBracket, ⟨⟨0, 1, 1⟩, 1⟩⟩, ⟨.name "a", ⟨⟨1, 1, 2⟩, 2⟩⟩,
    ⟨.symbol .rightBracket, ⟨⟨2, 1, 3⟩, 3⟩⟩, ⟨.symbol .semicolon, ⟨⟨3, 1, 4⟩, 4⟩⟩]

def bracketedEnd : Token := ⟨.eof, ⟨⟨4, 1, 5⟩, 4⟩⟩

def bracketedStart : Cursor :=
  ⟨⟨.symbol .leftBracket, ⟨⟨0, 1, 1⟩, 1⟩⟩, bracketedTokens.tail ++ [bracketedEnd]⟩

/-- The name could be a type, but there are no parentheses behind the brackets; so the array is read
once more, from its name on. -/
theorem parser_progresses_bracketed :
    bracketedStart.tokens = (bracketedTokens ++ [bracketedEnd]).drop 0 ∧
    (Rules.unfold 8).array bracketedStart =
      (Rules.unfold 8).elements bracketedStart.current.span bracketedStart.step ∧
    ∃ e d j, (Rules.unfold 8).array bracketedStart = .done e d ∧ 0 < j ∧
      d.tokens = (bracketedTokens ++ [bracketedEnd]).drop j := by
  have hfront : ∀ t ∈ bracketedTokens, t.kind ≠ .eof := by simp [bracketedTokens]
  have hc : bracketedStart.tokens = (bracketedTokens ++ [bracketedEnd]).drop 0 := rfl
  obtain ⟨hhalts, hagain, -⟩ := parser_progresses hfront rfl hc
  have hfails : ∃ fault, (Rules.unfold 8).emptyArray bracketedStart.step = .failed fault := ⟨_, rfl⟩
  have hdone : ∃ e d, (Rules.unfold 8).array bracketedStart = .done e d := ⟨_, _, rfl⟩
  obtain ⟨fault, hfails⟩ := hfails
  obtain ⟨e, d, hdone⟩ := hdone
  obtain ⟨outcome, hprogress, hdeep⟩ := hhalts .array
  have houtcome : outcome = .done e d := (hdeep 8 (by decide)).symm.trans hdone
  obtain ⟨j, -, -, hdrop, -, hlt⟩ := hprogress.done e d houtcome
  exact ⟨hc, (hagain 8 fault rfl hfails).2, e, d, j, hdone, hlt rfl, hdrop⟩

end TypedImp
