import Mathlib.Data.List.Forall2
import TypedImp.Proofs.Grammar.Statements

/-!
# The grammar does not look at places

The rules of the grammar pass spans on and merge them, but no rule ever decides by one.
So on two rows of tokens of the same kinds they do the same, wherever the tokens stand:
they read the same trees, up to spans, or they meet the same mistake at the same token.

Both runs are followed at once.  `Parser.Agree S view p q` says of two parsers that on
rows of the same kinds they end in the same way, with values that are equal as far as
`view` shows, and, if they fail, for the same cause at places that `S` relates.  `S` is
any relation that holds of the places of tokens opposite each other; that the tokens have
the same index is one such relation.  Agreement is put together along `>>=`
(`Agree.bind`), so each rule agrees with itself as soon as the parsers below it do, and
one induction on the depth closes the knot (**`Rules.blind_unfold`**).
-/

namespace TypedImp

namespace Grammar

open TypedImp.Grammar.Parser

/-! ### Rows of the same kinds -/

/-- Two tokens of the same kind, at places that `S` relates. -/
structure TokenAlike (S : Span → Span → Prop) (t u : Token) : Prop where
  kind : t.kind = u.kind
  span : S t.span u.span

/-- From two places on, there are the same tokens up to their own places. -/
structure Cursor.Alike (S : Span → Span → Prop) (c d : Cursor) : Prop where
  current : TokenAlike S c.current d.current
  ahead : List.Forall₂ (TokenAlike S) c.ahead d.ahead

/-- Two runs end in the same way: with values of one `view`, or with one mistake at places
that `S` relates. -/
inductive Outcome.Alike {α γ : Type} (S : Span → Span → Prop) (view : α → γ) :
    Outcome α → Outcome α → Prop where
  | done {a b : α} {c d : Cursor} (value : view a = view b) (rest : c.Alike S d) :
    Outcome.Alike S view (.done a c) (.done b d)
  | failed {f g : Located Fault} (cause : f.cause = g.cause) (span : S f.span g.span) :
    Outcome.Alike S view (.failed f) (.failed g)
  | exhausted : Outcome.Alike S view .exhausted .exhausted

variable {S : Span → Span → Prop}

theorem Cursor.Alike.step {c d : Cursor} (h : c.Alike S d) : c.step.Alike S d.step := by
  obtain ⟨current, ahead⟩ := c
  obtain ⟨current', ahead'⟩ := d
  obtain ⟨hcurrent, hahead⟩ := h
  cases hahead with
  | nil => exact ⟨hcurrent, .nil⟩
  | cons hnext hahead => exact ⟨hnext, hahead⟩

/-! ### Parsers that agree -/

namespace Parser

variable {α β γ δ : Type}

/-- **Two parsers agree**: on rows of the same kinds they end in the same way. -/
def Agree (S : Span → Span → Prop) (view : α → γ) (p q : Parser α) : Prop :=
  ∀ c d : Cursor, c.Alike S d → (p c).Alike S view (q d)

theorem Agree.pure {view : α → γ} {a b : α} (h : view a = view b) :
    Agree S view (Pure.pure a) (Pure.pure b) :=
  fun _ _ hc => .done h hc

theorem Agree.bind {see : α → γ} {view : β → δ} {p q : Parser α} {f g : α → Parser β}
    (hp : Agree S see p q) (hf : ∀ a b, see a = see b → Agree S view (f a) (g b)) :
    Agree S view (p >>= f) (q >>= g) := by
  intro c d hc
  rw [bind_apply, bind_apply]
  have h := hp c d hc
  generalize p c = x at h
  generalize q d = y at h
  cases h with
  | done value rest => exact hf _ _ value _ _ rest
  | failed cause span => exact .failed cause span
  | exhausted => exact .exhausted

/-- A value that is seen as a whole is the same in both runs. -/
theorem Agree.bind_same {view : β → δ} {p q : Parser α} {f g : α → Parser β}
    (hp : Agree S id p q) (hf : ∀ a, Agree S view (f a) (g a)) :
    Agree S view (p >>= f) (q >>= g) :=
  hp.bind fun a b hab => by
    obtain rfl : a = b := hab
    exact hf a

theorem Agree.map_some {view : α → γ} {p q : Parser α} (hp : Agree S view p q) :
    Agree S (Option.map view) (some <$> p) (some <$> q) :=
  hp.bind fun _ _ hab => .pure (congrArg some hab)

theorem agree_exhausted {view : α → γ} : Agree S view exhausted exhausted :=
  fun _ _ _ => .exhausted

/-- A failure is at the current token, and its cause is the kind of that token. -/
theorem agree_unexpected {view : α → γ} (wanted : Expected) :
    Agree S view (unexpected wanted) (unexpected wanted) :=
  fun _ _ hc => .failed (congrArg (Fault.ofKind wanted) hc.current.kind) hc.current.span

theorem agree_peek : Agree S id peek peek := fun _ _ hc => .done hc.current.kind hc

theorem agree_advance : Agree S (fun _ => ()) advance advance := fun _ _ hc => .done rfl hc.step

theorem agree_accept (s : Symbol) : Agree S id (accept s) (accept s) := by
  intro c d hc
  rw [accept, accept, hc.current.kind]
  split
  · exact .done rfl hc.step
  · exact .done rfl hc

theorem agree_expect (s : Symbol) : Agree S (fun _ => ()) (expect s) (expect s) := by
  intro c d hc
  rw [expect, expect, hc.current.kind]
  split
  · exact .done rfl hc.step
  · exact agree_unexpected _ c d hc

theorem agree_closes (closing : Symbol) : Agree S id (closes closing) (closes closing) := by
  intro c d hc
  rw [closes, closes, hc.current.kind]
  exact .done rfl hc

/-- Where both runs fail, both go back to where they began. -/
theorem Agree.attempt {view : α → γ} {p q : Parser α} (hp : Agree S view p q) :
    Agree S (Option.map view) (attempt p) (attempt q) := by
  intro c d hc
  rw [Parser.attempt, Parser.attempt]
  have h := hp c d hc
  generalize p c = x at h
  generalize q d = y at h
  cases h with
  | done value rest => exact .done (congrArg some value) rest
  | failed cause span => exact .done rfl hc
  | exhausted => exact .exhausted

theorem Agree.itemsUntil {view : α → γ} {ends : Parser Bool} {item : Parser α}
    (hends : Agree S id ends ends) (hitem : Agree S view item item) (steps : Nat) :
    Agree S (List.map view) (itemsUntil ends item steps) (itemsUntil ends item steps) := by
  induction steps with
  | zero => exact agree_exhausted
  | succ steps ih =>
    refine hends.bind_same fun ended => ?_
    cases ended with
    | true => exact .pure rfl
    | false =>
      refine hitem.bind fun first first' hfirst => ih.bind fun others others' hothers => .pure ?_
      rw [List.map_cons, List.map_cons, hfirst, hothers]

theorem Agree.commaItems {view : α → γ} {item : Parser α} (closing : Symbol)
    (hitem : Agree S view item item) (steps : Nat) :
    Agree S (List.map view) (commaItems closing item steps) (commaItems closing item steps) := by
  induction steps with
  | zero => exact agree_exhausted
  | succ steps ih =>
    refine (agree_closes closing).bind_same fun ended => ?_
    cases ended with
    | true => exact .pure rfl
    | false =>
      refine hitem.bind fun first first' hfirst => (agree_accept .comma).bind_same fun more => ?_
      cases more with
      | true =>
        refine ih.bind fun others others' hothers => .pure ?_
        rw [List.map_cons, List.map_cons, hfirst, hothers]
      | false => exact .pure (congrArg ([·]) hfirst)

end Parser

theorem agree_identifier : Agree S Tree.Name.bare identifier identifier := by
  intro c d hc
  rw [identifier, identifier, hc.current.kind]
  split
  · exact .done rfl hc.step
  · exact agree_unexpected _ c d hc

/-! ### The rules -/

namespace Rules

/-- The parsers below a rule do not look at places: each agrees with itself, up to the
spans of what it reads. -/
structure Blind (S : Span → Span → Prop) (r : Rules) : Prop where
  type : Agree S Tree.TypeExpr.bare r.type r.type
  expr : ∀ least, Agree S Tree.Expr.bare (r.expr least) (r.expr least)
  stmt : Agree S Tree.Stmt.bare r.stmt r.stmt

variable {r : Rules} (h : r.Blind S)

include h

/-! ### Types -/

theorem Blind.typeRule : Agree S Tree.TypeExpr.bare r.typeRule r.typeRule := by
  refine agree_peek.bind_same fun kind => ?_
  split
  · exact agree_identifier.bind fun name name' hname => .pure (congrArg Tree.TypeExpr.named hname)
  · refine agree_advance.bind fun start start' _ => h.type.bind fun element element' helement => ?_
    refine (agree_expect _).bind fun stop stop' _ => .pure ?_
    rw [Tree.TypeExpr.bare, Tree.TypeExpr.bare, helement]
  · refine agree_advance.bind fun start start' _ =>
      (h.type.commaItems _ _).bind fun params params' hparams => ?_
    refine (agree_expect _).bind fun _ _ _ => (agree_expect _).bind fun _ _ _ => ?_
    refine h.type.bind fun result result' hresult => .pure ?_
    rw [Tree.TypeExpr.bare, Tree.TypeExpr.bare, Tree.TypeExpr.bareAll_eq_map,
      Tree.TypeExpr.bareAll_eq_map, hparams, hresult]
  · exact agree_unexpected _

theorem Blind.annotated : Agree S Tree.Annotated.bare r.annotated r.annotated := by
  refine agree_identifier.bind fun name name' hname => (agree_expect _).bind fun _ _ _ => ?_
  refine h.type.bind fun type type' htype => .pure ?_
  rw [Tree.Annotated.bare, Tree.Annotated.bare, hname, htype]

theorem Blind.colonType :
    Agree S (Option.map Tree.TypeExpr.bare) (Rules.colonType r) (Rules.colonType r) := by
  refine (agree_accept _).bind_same fun colon => ?_
  cases colon with
  | true => exact h.type.bind fun type type' htype => .pure (congrArg some htype)
  | false => exact .pure rfl

/-! ### Expressions -/

theorem Blind.emptyArray :
    Agree S (fun found => Tree.TypeExpr.bare found.1) r.emptyArray r.emptyArray := by
  refine h.type.bind fun element element' helement => (agree_expect _).bind fun _ _ _ => ?_
  refine (agree_expect _).bind fun _ _ _ => (agree_expect _).bind fun stop stop' _ => ?_
  exact .pure helement

theorem Blind.array : Agree S Tree.Expr.bare r.array r.array := by
  refine agree_advance.bind fun start start' _ =>
    h.emptyArray.attempt.bind fun found found' hfound => ?_
  cases found with
  | some found =>
    cases found' with
    | none => cases hfound
    | some found' =>
      have helement : found.1.bare = found'.1.bare := Option.some.inj hfound
      refine .pure ?_
      rw [Tree.Expr.bare, Tree.Expr.bare, helement]
  | none =>
    cases found' with
    | some found' => cases hfound
    | none =>
      refine ((h.expr 0).commaItems _ _).bind fun elements elements' helements => ?_
      refine (agree_expect _).bind fun stop stop' _ => .pure ?_
      rw [Tree.Expr.bare, Tree.Expr.bare, Tree.Expr.bareAll_eq_map, Tree.Expr.bareAll_eq_map,
        helements]

theorem Blind.primary : Agree S Tree.Expr.bare r.primary r.primary := by
  refine agree_peek.bind_same fun kind => ?_
  split
  · exact agree_advance.bind fun span span' _ => .pure rfl
  · exact agree_advance.bind fun span span' _ => .pure rfl
  · exact agree_advance.bind fun span span' _ => .pure rfl
  · exact agree_advance.bind fun span span' _ => .pure rfl
  · exact agree_identifier.bind fun name name' hname => .pure (congrArg Tree.Expr.name hname)
  · refine agree_advance.bind fun _ _ _ => (h.expr 0).bind fun inner inner' hinner => ?_
    exact (agree_expect _).bind fun _ _ _ => .pure hinner
  · exact h.array
  · exact agree_unexpected _

theorem Blind.suffixes (steps : Nat) {e f : Tree.Expr} (he : e.bare = f.bare) :
    Agree S Tree.Expr.bare (r.suffixes steps e) (r.suffixes steps f) := by
  induction steps generalizing e f with
  | zero => exact agree_exhausted
  | succ steps ih =>
    refine agree_peek.bind_same fun kind => ?_
    split
    · refine agree_advance.bind fun _ _ _ =>
        ((h.expr 0).commaItems _ _).bind fun args args' hargs => ?_
      refine (agree_expect _).bind fun stop stop' _ => ih ?_
      rw [Tree.Expr.bare, Tree.Expr.bare, Tree.Expr.bareAll_eq_map, Tree.Expr.bareAll_eq_map, he,
        hargs]
    · refine agree_advance.bind fun _ _ _ => agree_identifier.bind fun field field' hfield => ih ?_
      rw [Tree.Expr.bare, Tree.Expr.bare, he, hfield]
    · refine agree_advance.bind fun _ _ _ => (h.expr 0).bind fun index index' hindex => ?_
      refine (agree_expect _).bind fun stop stop' _ => ih ?_
      rw [Tree.Expr.bare, Tree.Expr.bare, he, hindex]
    · exact .pure he

theorem Blind.operand : Agree S Tree.Expr.bare r.operand r.operand := by
  refine agree_peek.bind_same fun kind => ?_
  split
  · refine agree_advance.bind fun start start' _ =>
      (h.expr _).bind fun operand operand' hoperand => .pure ?_
    rw [Tree.Expr.bare, Tree.Expr.bare, hoperand]
  · exact h.primary.bind fun first first' hfirst => h.suffixes _ hfirst

theorem Blind.operators (least steps : Nat) {left left' : Tree.Expr}
    (hleft : left.bare = left'.bare) :
    Agree S Tree.Expr.bare (r.operators least steps left) (r.operators least steps left') := by
  induction steps generalizing left left' with
  | zero => exact agree_exhausted
  | succ steps ih =>
    refine agree_peek.bind_same fun kind => ?_
    split
    · split
      · exact .pure hleft
      · refine agree_advance.bind fun _ _ _ => (h.expr _).bind fun right right' hright => ih ?_
        rw [Tree.Expr.bare, Tree.Expr.bare, hleft, hright]
    · exact .pure hleft

theorem Blind.exprRule (least : Nat) :
    Agree S Tree.Expr.bare (r.exprRule least) (r.exprRule least) :=
  h.operand.bind fun _ _ hfirst => h.operators least _ hfirst

/-! ### Statements -/

theorem Blind.block :
    Agree S (fun block => Tree.Stmt.bareAll block.stmts) r.block r.block := by
  refine (agree_expect _).bind fun start start' _ =>
    ((agree_closes _).itemsUntil h.stmt _).bind fun stmts stmts' hstmts => ?_
  refine (agree_expect _).bind fun stop stop' _ => .pure ?_
  rw [Tree.Stmt.bareAll_eq_map, Tree.Stmt.bareAll_eq_map, hstmts]

theorem Blind.variableRule (readOnly : Bool) :
    Agree S Tree.Stmt.bare (r.variableRule readOnly) (r.variableRule readOnly) := by
  refine agree_advance.bind fun start start' _ => agree_identifier.bind fun name name' hname => ?_
  refine h.colonType.bind fun type type' htype => (agree_accept _).bind_same fun assigned => ?_
  have behind : ∀ value value' : Option Tree.Expr,
      value.map Tree.Expr.bare = value'.map Tree.Expr.bare →
      Agree S Tree.Stmt.bare
        (do
          let stop ← expect .semicolon
          pure (.declareVariable name readOnly type value (start.merge stop)))
        (do
          let stop ← expect .semicolon
          pure (.declareVariable name' readOnly type' value' (start'.merge stop))) := by
    intro value value' hvalue
    refine (agree_expect _).bind fun stop stop' _ => .pure ?_
    rw [Tree.Stmt.bare, Tree.Stmt.bare, hname, htype, hvalue]
  cases assigned with
  | true => exact Agree.bind (h.expr 0).map_some behind
  | false => exact behind none none rfl

theorem Blind.functionRule : Agree S Tree.Stmt.bare r.functionRule r.functionRule := by
  refine agree_advance.bind fun start start' _ => agree_identifier.bind fun name name' hname => ?_
  refine (agree_expect _).bind fun _ _ _ =>
    (h.annotated.commaItems _ _).bind fun params params' hparams => ?_
  refine (agree_expect _).bind fun _ _ _ => h.colonType.bind fun result result' hresult => ?_
  refine h.block.bind fun body body' hbody => .pure ?_
  rw [Tree.Stmt.bare, Tree.Stmt.bare, hname, hparams, hresult, hbody]

theorem Blind.field : Agree S Tree.Annotated.bare r.field r.field := by
  refine h.annotated.bind fun field field' hfield => (agree_accept _).bind_same fun comma => ?_
  cases comma with
  | true => exact .pure hfield
  | false => exact (agree_accept _).bind fun _ _ _ => .pure hfield

theorem Blind.structRule (isClass : Bool) :
    Agree S Tree.Stmt.bare (r.structRule isClass) (r.structRule isClass) := by
  refine agree_advance.bind fun start start' _ => agree_identifier.bind fun name name' hname => ?_
  refine (agree_expect _).bind fun _ _ _ =>
    ((agree_closes _).itemsUntil h.field _).bind fun fields fields' hfields => ?_
  refine (agree_expect _).bind fun stop stop' _ => .pure ?_
  rw [Tree.Stmt.bare, Tree.Stmt.bare, hname, hfields]

theorem Blind.ifRule : Agree S Tree.Stmt.bare r.ifRule r.ifRule := by
  refine agree_advance.bind fun start start' _ => (h.expr 0).bind fun test test' htest => ?_
  refine h.block.bind fun consequent consequent' hconsequent => ?_
  refine (agree_accept _).bind_same fun alternative => ?_
  cases alternative with
  | false =>
    refine .pure ?_
    rw [Tree.Stmt.bare, Tree.Stmt.bare, htest, hconsequent]
  | true =>
    refine agree_peek.bind_same fun kind => ?_
    split
    · refine h.stmt.bind fun alternate alternate' halternate => .pure ?_
      rw [Tree.Stmt.bare, Tree.Stmt.bare, htest, hconsequent, halternate]
    · refine h.block.bind fun alternate alternate' halternate => .pure ?_
      rw [Tree.Stmt.bare, Tree.Stmt.bare, htest, hconsequent, halternate]

theorem Blind.whileRule : Agree S Tree.Stmt.bare r.whileRule r.whileRule := by
  refine agree_advance.bind fun start start' _ => (h.expr 0).bind fun test test' htest => ?_
  refine h.block.bind fun body body' hbody => .pure ?_
  rw [Tree.Stmt.bare, Tree.Stmt.bare, htest, hbody]

theorem Blind.forRule : Agree S Tree.Stmt.bare r.forRule r.forRule := by
  refine agree_advance.bind fun start start' _ =>
    agree_identifier.bind fun iterator iterator' hiterator => ?_
  refine (agree_expect _).bind fun _ _ _ => (h.expr 0).bind fun first first' hfirst => ?_
  refine agree_peek.bind_same fun kind => ?_
  split
  · refine agree_advance.bind fun _ _ _ => (h.expr 0).bind fun high high' hhigh => ?_
    refine h.block.bind fun body body' hbody => .pure ?_
    rw [Tree.Stmt.bare, Tree.Stmt.bare, hiterator, hfirst, hhigh, hbody]
  · refine h.block.bind fun body body' hbody => .pure ?_
    rw [Tree.Stmt.bare, Tree.Stmt.bare, hiterator, hfirst, hbody]

theorem Blind.tryRule : Agree S Tree.Stmt.bare r.tryRule r.tryRule := by
  refine agree_advance.bind fun start start' _ => h.block.bind fun body body' hbody => ?_
  refine (agree_expect _).bind fun _ _ _ => agree_peek.bind_same fun kind => ?_
  have behind : ∀ error error' : Option Tree.Name,
      error.map Tree.Name.bare = error'.map Tree.Name.bare →
      Agree S Tree.Stmt.bare
        (do
          let handler ← r.block
          pure (.tryCatch body error handler (start.merge handler.span)))
        (do
          let handler ← r.block
          pure (.tryCatch body' error' handler (start'.merge handler.span))) := by
    intro error error' herror
    refine h.block.bind fun handler handler' hhandler => .pure ?_
    rw [Tree.Stmt.bare, Tree.Stmt.bare, hbody, herror, hhandler]
  dsimp only
  split
  · exact Agree.bind agree_identifier.map_some behind
  · exact behind none none rfl

theorem Blind.returnRule : Agree S Tree.Stmt.bare r.returnRule r.returnRule := by
  refine agree_advance.bind fun start start' _ => agree_peek.bind_same fun kind => ?_
  have behind : ∀ value value' : Option Tree.Expr,
      value.map Tree.Expr.bare = value'.map Tree.Expr.bare →
      Agree S Tree.Stmt.bare
        (do
          let stop ← expect .semicolon
          pure (.ret value (start.merge stop)))
        (do
          let stop ← expect .semicolon
          pure (.ret value' (start'.merge stop))) := by
    intro value value' hvalue
    refine (agree_expect _).bind fun stop stop' _ => .pure ?_
    rw [Tree.Stmt.bare, Tree.Stmt.bare, hvalue]
  dsimp only
  split
  · exact behind none none rfl
  · exact Agree.bind (h.expr 0).map_some behind

theorem Blind.printRule : Agree S Tree.Stmt.bare r.printRule r.printRule := by
  refine agree_advance.bind fun start start' _ => (h.expr 0).bind fun value value' hvalue => ?_
  refine (agree_expect _).bind fun stop stop' _ => .pure ?_
  rw [Tree.Stmt.bare, Tree.Stmt.bare, hvalue]

/-- Whether the target is a call can be told without its spans. -/
theorem Blind.simpleRule : Agree S Tree.Stmt.bare r.simpleRule r.simpleRule := by
  refine (h.expr 0).bind fun target target' htarget => agree_peek.bind_same fun kind => ?_
  have hcall : target.isCall = target'.isCall := by
    rw [← target.bare_isCall, htarget, target'.bare_isCall]
  have behind : ∀ stmt stmt' : Tree.Stmt, stmt.bare = stmt'.bare →
      Agree S Tree.Stmt.bare
        (do
          let _ ← expect .semicolon
          pure stmt)
        (do
          let _ ← expect .semicolon
          pure stmt') :=
    fun stmt stmt' hstmt => (agree_expect _).bind fun _ _ _ => .pure hstmt
  dsimp only
  rw [hcall]
  split
  · refine agree_advance.bind fun _ _ _ => (h.expr 0).bind fun value value' hvalue => ?_
    refine behind _ _ ?_
    rw [Tree.Stmt.bare, Tree.Stmt.bare, htarget, hvalue]
  · refine agree_advance.bind fun stop stop' _ => behind _ _ ?_
    rw [Tree.Stmt.bare, Tree.Stmt.bare, htarget]
  · refine agree_advance.bind fun stop stop' _ => behind _ _ ?_
    rw [Tree.Stmt.bare, Tree.Stmt.bare, htarget]
  · split
    · refine behind _ _ ?_
      rw [Tree.Stmt.bare, Tree.Stmt.bare, htarget]
    · exact (agree_unexpected _).bind behind

theorem Blind.stmtRule : Agree S Tree.Stmt.bare r.stmtRule r.stmtRule := by
  refine agree_peek.bind_same fun kind => ?_
  split
  · exact h.variableRule _
  · exact h.variableRule _
  · exact h.functionRule
  · exact h.structRule _
  · exact h.structRule _
  · exact h.ifRule
  · exact h.whileRule
  · exact h.forRule
  · exact h.tryRule
  · exact h.returnRule
  · exact agree_advance.bind fun _ _ _ => (agree_expect _).bind fun _ _ _ => .pure rfl
  · exact agree_advance.bind fun _ _ _ => (agree_expect _).bind fun _ _ _ => .pure rfl
  · exact h.printRule
  · exact h.simpleRule

omit h

/-! ### The whole grammar -/

/-- **No parser looks at places**, however deep the rules are unfolded. -/
theorem blind_unfold (depth : Nat) : (unfold depth).Blind S := by
  induction depth with
  | zero => exact ⟨agree_exhausted, fun _ => agree_exhausted, agree_exhausted⟩
  | succ depth ih => exact ⟨ih.typeRule, ih.exprRule, ih.stmtRule⟩

theorem agree_program (depth : Nat) :
    Agree S (List.map Tree.Stmt.bare) (unfold depth).program (unfold depth).program := by
  have hend : Agree S id atEnd atEnd := by
    intro c d hc
    rw [atEnd, atEnd, hc.current.kind]
    exact .done rfl hc
  exact hend.itemsUntil (blind_unfold depth).stmt _

end Rules

end Grammar

end TypedImp
