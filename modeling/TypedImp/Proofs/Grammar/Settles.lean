import TypedImp.Proofs.Grammar.Statements

/-!
# How long a parser takes

A parser that is unfolded deep enough has an answer: it never runs out of steps, and to unfold it
deeper changes nothing.  `Parser.SettlesAt p q c limit` says this of a parser at a place, where `p`
and `q` are two unfoldings of it: both have the same answer, which is either a fault at a token that
is still ahead or a value, with fewer than `limit` tokens left.  It is put together along `>>=`
(`SettlesAt.bind`), and each limit is the bound under which the next parser has to settle.

What makes it go through is that types, expressions and statements pass a token whenever they
succeed, so the limit behind them is what was left in front of them.  Lists then end because there
are fewer tokens left for each item (`settlesAt_itemsUntil`, `settlesAt_commaItems`), and the rules
end because they come back to themselves only behind a token.  The one exception is a statement that
begins with an expression; so with steps for `N` tokens, types and expressions settle where fewer
than `N` tokens are left, and statements where there is one token less (`Rules.Settles`).  One
induction on `N` closes the knot (**`Rules.settles_unfold`**).

A rule that begins with a keyword or a bracket is only used where that comes.  Nothing depends on
this here, so the contract holds of it at every place.
-/

namespace TypedImp.Grammar

open TypedImp.Token (Kind)
open TypedImp.Grammar.Parser

/-! ### From place to place -/

def Cursor.left (c : Cursor) : Nat := c.ahead.length

theorem Cursor.length_tokens_eq_left (c : Cursor) : c.tokens.length = c.left + 1 := rfl

theorem Cursor.step_suffix (c : Cursor) : c.step.tokens <:+ c.tokens := by
  obtain ⟨current, ahead⟩ := c
  cases ahead with
  | nil => exact List.suffix_rfl
  | cons next ahead => exact List.suffix_cons _ _

theorem Cursor.left_step_le (c : Cursor) : c.step.left ≤ c.left := by
  have hle := c.step_suffix.length_le
  rw [length_tokens_eq_left, length_tokens_eq_left] at hle
  omega

/-- Where the input goes on, the next place has fewer tokens left. -/
theorem Cursor.left_step_lt {c : Cursor} (hc : Ended c.kinds) (hk : c.current.kind ≠ .eof) :
    c.step.left < c.left := by
  have htokens := congrArg List.length (Cursor.tokens_step hc hk).1
  rw [List.length_cons, length_tokens_eq_left, length_tokens_eq_left] at htokens
  omega

/-- A later place is in front of the same end. -/
theorem Ended.of_suffix {c d : Cursor} (hc : Ended c.kinds) (h : d.tokens <:+ c.tokens) :
    Ended d.kinds := by
  obtain ⟨front, hfront⟩ := h
  rw [← c.map_kind_tokens, ← hfront, List.map_append] at hc
  exact hc.of_append (List.cons_ne_nil _ _)

/-! ### Contracts -/

/-- **A run from a place has an answer**: a value, with fewer than `limit` tokens left, or a fault
that is about a token from that place on. -/
def Outcome.Settled {α : Type} (c : Cursor) (limit : Nat) : Outcome α → Prop
  | .done _ d => d.tokens <:+ c.tokens ∧ d.left < limit
  | .failed fault => ∃ (d : Cursor) (wanted : Expected), d.tokens <:+ c.tokens ∧
      fault = ⟨.ofKind wanted d.current.kind, d.current.span⟩
  | .exhausted => False

theorem Outcome.Settled.mono {α : Type} {c : Cursor} {limit limit' : Nat} {outcome : Outcome α}
    (h : outcome.Settled c limit) (hle : limit ≤ limit') : outcome.Settled c limit' := by
  cases outcome with
  | done value d => exact ⟨h.1, Nat.lt_of_lt_of_le h.2 hle⟩
  | failed fault => exact h
  | exhausted => exact h

/-- What begins at a later place begins at an earlier one too. -/
theorem Outcome.Settled.widen {α : Type} {c d : Cursor} {limit : Nat} {outcome : Outcome α}
    (h : outcome.Settled d limit) (hd : d.tokens <:+ c.tokens) : outcome.Settled c limit := by
  cases outcome with
  | done value e => exact ⟨h.1.trans hd, h.2⟩
  | failed fault =>
    obtain ⟨e, wanted, he, heq⟩ := h
    exact ⟨e, wanted, he.trans hd, heq⟩
  | exhausted => exact h

namespace Parser

variable {α β : Type}

/-- **Two unfoldings of a parser settle at a place**: they have the same answer. -/
def SettlesAt (p q : Parser α) (c : Cursor) (limit : Nat) : Prop :=
  Ended c.kinds → p c = q c ∧ (p c).Settled c limit

variable {p q : Parser α} {f g : α → Parser β} {c : Cursor} {limit limit' N : Nat}

theorem SettlesAt.bind (hp : SettlesAt p q c limit)
    (hf : ∀ value d, d.left < limit → SettlesAt (f value) (g value) d limit') :
    SettlesAt (p >>= f) (q >>= g) c limit' := by
  intro hc
  obtain ⟨heq, hsettled⟩ := hp hc
  rw [bind_apply, bind_apply, ← heq]
  cases hpc : p c with
  | exhausted =>
    rw [hpc] at hsettled
    exact hsettled.elim
  | failed fault =>
    rw [hpc] at hsettled
    exact ⟨rfl, hsettled⟩
  | done value d =>
    rw [hpc] at hsettled
    obtain ⟨hsuffix, hlt⟩ := hsettled
    obtain ⟨heq', hsettled'⟩ := hf value d hlt (hc.of_suffix hsuffix)
    exact ⟨heq', hsettled'.widen hsuffix⟩

theorem SettlesAt.mono (hp : SettlesAt p q c limit) (hle : limit ≤ limit') :
    SettlesAt p q c limit' := by
  intro hc
  obtain ⟨heq, hsettled⟩ := hp hc
  exact ⟨heq, hsettled.mono hle⟩

theorem settlesAt_done {value : α} {d : Cursor} (hp : p c = .done value d)
    (hd : Ended c.kinds → d.tokens <:+ c.tokens ∧ d.left < limit) : SettlesAt p p c limit := by
  intro hc
  rw [hp]
  exact ⟨rfl, hd hc⟩

theorem settlesAt_pure {value : α} (h : c.left < limit) :
    SettlesAt (pure value) (pure value) c limit :=
  settlesAt_done rfl fun _ => ⟨List.suffix_rfl, h⟩

theorem SettlesAt.map {γ : Type} {form : α → γ} (hp : SettlesAt p q c limit) :
    SettlesAt (form <$> p) (form <$> q) c limit :=
  hp.bind fun _ _ hd => settlesAt_pure hd

/-- A parser that fails where it stands. -/
theorem settlesAt_fails {wanted : Expected} (hp : p c = unexpected wanted c) :
    SettlesAt p p c limit := by
  intro _
  rw [hp]
  exact ⟨rfl, c, wanted, List.suffix_rfl, rfl⟩

theorem settlesAt_unexpected {wanted : Expected} :
    SettlesAt (unexpected wanted : Parser α) (unexpected wanted) c limit :=
  settlesAt_fails rfl

theorem settlesAt_peek_bind {f g : Kind → Parser β}
    (hf : ∀ kind, c.current.kind = kind → SettlesAt (f kind) (g kind) c limit) :
    SettlesAt (peek >>= f) (peek >>= g) c limit :=
  hf c.current.kind rfl

/-! ### Tokens -/

/-- Where the input ends, no token is passed. -/
theorem settlesAt_advance : SettlesAt advance advance c (c.left + 1) :=
  settlesAt_done rfl fun _ => ⟨c.step_suffix, Nat.lt_succ_of_le c.left_step_le⟩

theorem settlesAt_advance_of_ne (hk : c.current.kind ≠ .eof) :
    SettlesAt advance advance c c.left :=
  settlesAt_done rfl fun hc => ⟨c.step_suffix, Cursor.left_step_lt hc hk⟩

theorem ne_eof_of_isSymbol {s : Symbol} (h : c.current.kind.isSymbol s = true) :
    c.current.kind ≠ .eof := by
  rw [Kind.isSymbol_iff.mp h]
  simp

theorem settlesAt_expect (s : Symbol) : SettlesAt (expect s) (expect s) c c.left := by
  by_cases hs : c.current.kind.isSymbol s = true
  · exact settlesAt_done (by rw [expect, if_pos hs]) fun hc =>
      ⟨c.step_suffix, Cursor.left_step_lt hc (ne_eof_of_isSymbol hs)⟩
  · exact settlesAt_fails (by rw [expect, if_neg hs])

theorem settlesAt_accept (s : Symbol) : SettlesAt (accept s) (accept s) c (c.left + 1) := by
  by_cases hs : c.current.kind.isSymbol s = true
  · exact settlesAt_done (by rw [accept, if_pos hs]) fun _ =>
      ⟨c.step_suffix, Nat.lt_succ_of_le c.left_step_le⟩
  · exact settlesAt_done (by rw [accept, if_neg hs]) fun _ =>
      ⟨List.suffix_rfl, Nat.lt_succ_self _⟩

theorem settlesAt_identifier : SettlesAt identifier identifier c c.left := by
  cases hk : c.current.kind with
  | name text =>
    exact settlesAt_done (by rw [identifier, hk]) fun hc =>
      ⟨c.step_suffix, Cursor.left_step_lt hc (by simp [hk])⟩
  | _ => exact settlesAt_fails (by rw [identifier, hk])

/-! ### Attempts and lists -/

/-- What comes behind an attempt that is given up begins where the attempt began. -/
theorem SettlesAt.attempt_bind {f g : Option α → Parser β} (hp : SettlesAt p q c limit)
    (hsome : ∀ value d, d.left < limit → SettlesAt (f (some value)) (g (some value)) d limit')
    (hnone : SettlesAt (f none) (g none) c limit') :
    SettlesAt (attempt p >>= f) (attempt q >>= g) c limit' := by
  intro hc
  obtain ⟨heq, hsettled⟩ := hp hc
  rw [bind_apply, bind_apply, Parser.attempt, Parser.attempt, ← heq]
  cases hpc : p c with
  | exhausted =>
    rw [hpc] at hsettled
    exact hsettled.elim
  | failed fault => exact hnone hc
  | done value d =>
    rw [hpc] at hsettled
    obtain ⟨hsuffix, hlt⟩ := hsettled
    obtain ⟨heq', hsettled'⟩ := hsome value d hlt (hc.of_suffix hsuffix)
    exact ⟨heq', hsettled'.widen hsuffix⟩

/-- **Lists have an end**: each item passes a token, so there are steps enough if there is one for
each token left. -/
theorem settlesAt_itemsUntil {ends : Parser Bool} (hends : ∀ d, ∃ ended, ends d = .done ended d)
    (hp : ∀ d : Cursor, d.left < N → SettlesAt p q d d.left) (hc : c.left < N)
    {steps steps' : Nat} (hsteps : c.left < steps) (hsteps' : c.left < steps') :
    SettlesAt (itemsUntil ends p steps) (itemsUntil ends q steps') c (c.left + 1) := by
  induction steps generalizing steps' c with
  | zero => omega
  | succ steps ih =>
    obtain ⟨steps', rfl⟩ : ∃ n, steps' = n + 1 := ⟨steps' - 1, by omega⟩
    obtain ⟨ended, hended⟩ := hends c
    have hhere : SettlesAt ends ends c (c.left + 1) :=
      settlesAt_done hended fun _ => ⟨List.suffix_rfl, Nat.lt_succ_self _⟩
    refine hhere.bind fun ended d hd => ?_
    cases ended with
    | true => exact settlesAt_pure hd
    | false =>
      refine (hp d (by omega)).bind fun first e he => ?_
      refine (ih (by omega) (by omega) (by omega)).bind fun others e' he' => ?_
      exact settlesAt_pure (by omega)

theorem settlesAt_commaItems (closing : Symbol)
    (hp : ∀ d : Cursor, d.left < N → SettlesAt p q d d.left) (hc : c.left < N)
    {steps steps' : Nat} (hsteps : c.left < steps) (hsteps' : c.left < steps') :
    SettlesAt (commaItems closing p steps) (commaItems closing q steps') c (c.left + 1) := by
  induction steps generalizing steps' c with
  | zero => omega
  | succ steps ih =>
    obtain ⟨steps', rfl⟩ : ∃ n, steps' = n + 1 := ⟨steps' - 1, by omega⟩
    have hhere : SettlesAt (closes closing) (closes closing) c (c.left + 1) :=
      settlesAt_done rfl fun _ => ⟨List.suffix_rfl, Nat.lt_succ_self _⟩
    refine hhere.bind fun ended d hd => ?_
    cases ended with
    | true => exact settlesAt_pure hd
    | false =>
      refine (hp d (by omega)).bind fun first e he => (settlesAt_accept .comma).bind ?_
      intro more e' he'
      cases more with
      | true =>
        refine (ih (by omega) (by omega) (by omega)).bind fun others e'' he'' => ?_
        exact settlesAt_pure (by omega)
      | false => exact settlesAt_pure (by omega)

end Parser

/-! ### The rules -/

namespace Rules

/-- **Two unfoldings of the grammar settle** where fewer than `N` tokens are left, and a statement
where there is one token less. -/
structure Settles (N : Nat) (r r' : Rules) : Prop where
  steps : N ≤ r.steps
  steps' : N ≤ r'.steps
  type : ∀ c : Cursor, c.left < N → SettlesAt r.type r'.type c c.left
  expr : ∀ least (c : Cursor), c.left < N → SettlesAt (r.expr least) (r'.expr least) c c.left
  stmt : ∀ c : Cursor, c.left + 1 < N → SettlesAt r.stmt r'.stmt c c.left

variable {N : Nat} {r r' : Rules} {c : Cursor} (h : r.Settles N r')

include h

/-- There is a step for each token left, and one more. -/
theorem Settles.lt_steps (hc : c.left < N) : c.left < r.steps ∧ c.left < r'.steps :=
  ⟨Nat.lt_of_lt_of_le hc h.steps, Nat.lt_of_lt_of_le hc h.steps'⟩

/-- Items with commas between them, with the steps that the rules have for lists. -/
theorem Settles.commaItems {α : Type} {p q : Parser α} (closing : Symbol)
    (hp : ∀ d : Cursor, d.left < N → SettlesAt p q d d.left) (hc : c.left < N) :
    SettlesAt (Parser.commaItems closing p r.steps) (Parser.commaItems closing q r'.steps) c
      (c.left + 1) := by
  obtain ⟨hsteps, hsteps'⟩ := h.lt_steps hc
  exact settlesAt_commaItems closing hp hc hsteps hsteps'

/-! ### Types -/

theorem Settles.typeRule (hc : c.left ≤ N) : SettlesAt r.typeRule r'.typeRule c c.left := by
  refine settlesAt_peek_bind fun kind hkind => ?_
  split
  · exact settlesAt_identifier.bind fun _ _ h₁ => settlesAt_pure h₁
  · refine (settlesAt_advance_of_ne (by simp [hkind])).bind fun _ c₁ h₁ => ?_
    refine (h.type c₁ (by omega)).bind fun _ c₂ h₂ => (settlesAt_expect _).bind fun _ c₃ h₃ => ?_
    exact settlesAt_pure (by omega)
  · refine (settlesAt_advance_of_ne (by simp [hkind])).bind fun _ c₁ h₁ => ?_
    refine (h.commaItems _ h.type (by omega)).bind fun _ c₂ h₂ => ?_
    refine (settlesAt_expect _).bind fun _ c₃ h₃ => (settlesAt_expect _).bind fun _ c₄ h₄ => ?_
    exact (h.type c₄ (by omega)).bind fun _ c₅ h₅ => settlesAt_pure (by omega)
  · exact settlesAt_unexpected

theorem Settles.annotated (hc : c.left < N) : SettlesAt r.annotated r'.annotated c c.left := by
  refine settlesAt_identifier.bind fun _ c₁ h₁ => (settlesAt_expect _).bind fun _ c₂ h₂ => ?_
  exact (h.type c₂ (by omega)).bind fun _ c₃ h₃ => settlesAt_pure (by omega)

theorem Settles.colonType (hc : c.left < N) :
    SettlesAt (Rules.colonType r) (Rules.colonType r') c (c.left + 1) := by
  refine (settlesAt_accept _).bind fun colon c₁ h₁ => ?_
  cases colon with
  | true => exact (h.type c₁ (by omega)).bind fun _ c₂ h₂ => settlesAt_pure (by omega)
  | false => exact settlesAt_pure h₁

/-! ### Expressions -/

theorem Settles.emptyArray (hc : c.left < N) :
    SettlesAt r.emptyArray r'.emptyArray c c.left := by
  refine (h.type c hc).bind fun _ c₁ h₁ => (settlesAt_expect _).bind fun _ c₂ h₂ => ?_
  refine (settlesAt_expect _).bind fun _ c₃ h₃ => (settlesAt_expect _).bind fun _ c₄ h₄ => ?_
  exact settlesAt_pure (by omega)

/-- An array where its bracket has been passed. -/
theorem Settles.array_of_advance {limit : Nat} (hadvance : SettlesAt advance advance c limit)
    (hlimit : limit ≤ c.left + 1) (hN : limit ≤ N) : SettlesAt r.array r'.array c c.left := by
  refine hadvance.bind fun start c₁ h₁ => (h.emptyArray (by omega)).attempt_bind ?_ ?_
  · intro found c₂ h₂
    exact settlesAt_pure (by omega)
  · refine (h.commaItems _ (h.expr 0) (by omega)).bind fun _ c₂ h₂ => ?_
    exact (settlesAt_expect _).bind fun _ c₃ h₃ => settlesAt_pure (by omega)

theorem Settles.array (hc : c.left < N) : SettlesAt r.array r'.array c c.left :=
  h.array_of_advance settlesAt_advance (Nat.le_refl _) hc

theorem Settles.primary (hc : c.left ≤ N) : SettlesAt r.primary r'.primary c c.left := by
  have literal (hk : c.current.kind ≠ .eof) (e : Span → Tree.Expr) :
      SettlesAt (do
        let span ← advance
        pure (e span)) (do
        let span ← advance
        pure (e span)) c c.left :=
    (settlesAt_advance_of_ne hk).bind fun _ _ h₁ => settlesAt_pure h₁
  refine settlesAt_peek_bind fun kind hkind => ?_
  split
  · exact literal (by simp [hkind]) _
  · exact literal (by simp [hkind]) _
  · exact literal (by simp [hkind]) _
  · exact literal (by simp [hkind]) _
  · exact settlesAt_identifier.bind fun _ _ h₁ => settlesAt_pure h₁
  · refine (settlesAt_advance_of_ne (by simp [hkind])).bind fun _ c₁ h₁ => ?_
    refine (h.expr 0 c₁ (by omega)).bind fun _ c₂ h₂ => (settlesAt_expect _).bind fun _ c₃ h₃ => ?_
    exact settlesAt_pure (by omega)
  · exact h.array_of_advance (settlesAt_advance_of_ne (by simp [hkind])) (Nat.le_succ _) hc
  · exact settlesAt_unexpected

theorem Settles.suffixes (hc : c.left < N) {steps steps' : Nat} (hsteps : c.left < steps)
    (hsteps' : c.left < steps') (e : Tree.Expr) :
    SettlesAt (r.suffixes steps e) (r'.suffixes steps' e) c (c.left + 1) := by
  induction steps generalizing steps' c e with
  | zero => omega
  | succ steps ih =>
    obtain ⟨steps', rfl⟩ : ∃ n, steps' = n + 1 := ⟨steps' - 1, by omega⟩
    have behind (d : Cursor) (hd : d.left < c.left) (e : Tree.Expr) :
        SettlesAt (r.suffixes steps e) (r'.suffixes steps' e) d (c.left + 1) :=
      (ih (by omega) (by omega) (by omega) e).mono (by omega)
    refine settlesAt_peek_bind fun kind hkind => ?_
    split
    · refine (settlesAt_advance_of_ne (by simp [hkind])).bind fun _ c₁ h₁ => ?_
      refine (h.commaItems _ (h.expr 0) (by omega)).bind fun _ c₂ h₂ => ?_
      exact (settlesAt_expect _).bind fun _ c₃ h₃ => behind c₃ (by omega) _
    · refine (settlesAt_advance_of_ne (by simp [hkind])).bind fun _ c₁ h₁ => ?_
      exact settlesAt_identifier.bind fun _ c₂ h₂ => behind c₂ (by omega) _
    · refine (settlesAt_advance_of_ne (by simp [hkind])).bind fun _ c₁ h₁ => ?_
      refine (h.expr 0 c₁ (by omega)).bind fun _ c₂ h₂ => ?_
      exact (settlesAt_expect _).bind fun _ c₃ h₃ => behind c₃ (by omega) _
    · exact settlesAt_pure (Nat.lt_succ_self _)

theorem Settles.operand (hc : c.left ≤ N) : SettlesAt r.operand r'.operand c c.left := by
  refine settlesAt_peek_bind fun kind hkind => ?_
  split
  · rename_i op hop
    have hk : c.current.kind ≠ .eof := by
      rw [hkind, unary?_eq_some_iff.mp hop]
      simp
    refine (settlesAt_advance_of_ne hk).bind fun _ c₁ h₁ => ?_
    exact (h.expr _ c₁ (by omega)).bind fun _ c₂ h₂ => settlesAt_pure (by omega)
  · refine (h.primary hc).bind fun first c₁ h₁ => ?_
    have hlt : c₁.left < N := by omega
    obtain ⟨hsteps, hsteps'⟩ := h.lt_steps hlt
    exact (h.suffixes hlt hsteps hsteps' first).mono (by omega)

theorem Settles.operators (least : Nat) (hc : c.left < N) {steps steps' : Nat}
    (hsteps : c.left < steps) (hsteps' : c.left < steps') (left : Tree.Expr) :
    SettlesAt (r.operators least steps left) (r'.operators least steps' left) c (c.left + 1) := by
  induction steps generalizing steps' c left with
  | zero => omega
  | succ steps ih =>
    obtain ⟨steps', rfl⟩ : ∃ n, steps' = n + 1 := ⟨steps' - 1, by omega⟩
    refine settlesAt_peek_bind fun kind hkind => ?_
    split
    · rename_i op hop
      have hk : c.current.kind ≠ .eof := by
        rw [hkind, binary?_eq_some_iff.mp hop]
        simp
      split
      · exact settlesAt_pure (Nat.lt_succ_self _)
      · refine (settlesAt_advance_of_ne hk).bind fun _ c₁ h₁ => ?_
        refine (h.expr _ c₁ (by omega)).bind fun _ c₂ h₂ => ?_
        exact (ih (by omega) (by omega) (by omega) _).mono (by omega)
    · exact settlesAt_pure (Nat.lt_succ_self _)

theorem Settles.exprRule (least : Nat) (hc : c.left ≤ N) :
    SettlesAt (r.exprRule least) (r'.exprRule least) c c.left := by
  refine (h.operand hc).bind fun first c₁ h₁ => ?_
  have hlt : c₁.left < N := by omega
  obtain ⟨hsteps, hsteps'⟩ := h.lt_steps hlt
  exact (h.operators least hlt hsteps hsteps' first).mono (by omega)

/-! ### Statements -/

theorem Settles.block (hc : c.left < N) : SettlesAt r.block r'.block c c.left := by
  refine (settlesAt_expect _).bind fun _ c₁ h₁ => ?_
  have hitem (d : Cursor) (hd : d.left < c.left) : SettlesAt r.stmt r'.stmt d d.left :=
    h.stmt d (by omega)
  obtain ⟨hsteps, hsteps'⟩ := h.lt_steps (show c₁.left < N by omega)
  refine (settlesAt_itemsUntil (fun _ => ⟨_, rfl⟩) hitem h₁ hsteps hsteps').bind ?_
  exact fun _ c₂ h₂ => (settlesAt_expect _).bind fun _ c₃ h₃ => settlesAt_pure (by omega)

theorem Settles.variableRule (hc : c.left < N) (readOnly : Bool) :
    SettlesAt (r.variableRule readOnly) (r'.variableRule readOnly) c c.left := by
  refine settlesAt_advance.bind fun start c₁ h₁ => settlesAt_identifier.bind fun name c₂ h₂ => ?_
  refine (h.colonType (by omega)).bind fun type c₃ h₃ => (settlesAt_accept _).bind ?_
  intro assigned c₄ h₄
  have behind (initializer : Option Tree.Expr) (d : Cursor) (hd : d.left < c.left) :
      SettlesAt (do
        let stop ← expect .semicolon
        pure (Tree.Stmt.declareVariable name readOnly type initializer (start.merge stop))) (do
        let stop ← expect .semicolon
        pure (Tree.Stmt.declareVariable name readOnly type initializer (start.merge stop)))
        d c.left :=
    (settlesAt_expect _).bind fun _ e he => settlesAt_pure (by omega)
  cases assigned with
  | true =>
    exact (h.expr 0 c₄ (by omega)).map.bind fun initializer d hd => behind initializer d (by omega)
  | false => exact behind none c₄ (by omega)

theorem Settles.functionRule (hc : c.left < N) :
    SettlesAt r.functionRule r'.functionRule c c.left := by
  refine settlesAt_advance.bind fun _ c₁ h₁ => settlesAt_identifier.bind fun _ c₂ h₂ => ?_
  refine (settlesAt_expect _).bind fun _ c₃ h₃ => ?_
  refine (h.commaItems _ (fun _ hd => h.annotated hd) (by omega)).bind fun _ c₄ h₄ => ?_
  refine (settlesAt_expect _).bind fun _ c₅ h₅ => ?_
  refine (h.colonType (by omega)).bind fun _ c₆ h₆ => (h.block (by omega)).bind fun _ c₇ h₇ => ?_
  exact settlesAt_pure (by omega)

theorem Settles.field (hc : c.left < N) : SettlesAt r.field r'.field c c.left := by
  refine (h.annotated hc).bind fun _ c₁ h₁ => (settlesAt_accept _).bind fun comma c₂ h₂ => ?_
  cases comma with
  | true => exact settlesAt_pure (by omega)
  | false => exact (settlesAt_accept _).bind fun _ c₃ h₃ => settlesAt_pure (by omega)

theorem Settles.structRule (hc : c.left < N) (isClass : Bool) :
    SettlesAt (r.structRule isClass) (r'.structRule isClass) c c.left := by
  refine settlesAt_advance.bind fun _ c₁ h₁ => settlesAt_identifier.bind fun _ c₂ h₂ => ?_
  refine (settlesAt_expect _).bind fun _ c₃ h₃ => ?_
  have hlt : c₃.left < N := by omega
  obtain ⟨hsteps, hsteps'⟩ := h.lt_steps hlt
  refine (settlesAt_itemsUntil (fun _ => ⟨_, rfl⟩) (fun _ hd => h.field hd) hlt hsteps
    hsteps').bind fun _ c₄ h₄ => ?_
  exact (settlesAt_expect _).bind fun _ c₅ h₅ => settlesAt_pure (by omega)

theorem Settles.ifRule (hc : c.left < N) : SettlesAt r.ifRule r'.ifRule c c.left := by
  refine settlesAt_advance.bind fun _ c₁ h₁ => (h.expr 0 c₁ (by omega)).bind fun _ c₂ h₂ => ?_
  refine (h.block (by omega)).bind fun _ c₃ h₃ => (settlesAt_accept _).bind fun more c₄ h₄ => ?_
  cases more with
  | false => exact settlesAt_pure (by omega)
  | true =>
    refine settlesAt_peek_bind fun kind hkind => ?_
    split
    · exact (h.stmt c₄ (by omega)).bind fun _ c₅ h₅ => settlesAt_pure (by omega)
    · exact (h.block (by omega)).bind fun _ c₅ h₅ => settlesAt_pure (by omega)

theorem Settles.whileRule (hc : c.left < N) : SettlesAt r.whileRule r'.whileRule c c.left := by
  refine settlesAt_advance.bind fun _ c₁ h₁ => (h.expr 0 c₁ (by omega)).bind fun _ c₂ h₂ => ?_
  exact (h.block (by omega)).bind fun _ c₃ h₃ => settlesAt_pure (by omega)

theorem Settles.forRule (hc : c.left < N) : SettlesAt r.forRule r'.forRule c c.left := by
  refine settlesAt_advance.bind fun _ c₁ h₁ => settlesAt_identifier.bind fun _ c₂ h₂ => ?_
  refine (settlesAt_expect _).bind fun _ c₃ h₃ => ?_
  refine (h.expr 0 c₃ (by omega)).bind fun _ c₄ h₄ => ?_
  refine settlesAt_peek_bind fun kind hkind => ?_
  split
  · refine settlesAt_advance.bind fun _ c₅ h₅ => (h.expr 0 c₅ (by omega)).bind fun _ c₆ h₆ => ?_
    exact (h.block (by omega)).bind fun _ c₇ h₇ => settlesAt_pure (by omega)
  · exact (h.block (by omega)).bind fun _ c₅ h₅ => settlesAt_pure (by omega)

theorem Settles.tryRule (hc : c.left < N) : SettlesAt r.tryRule r'.tryRule c c.left := by
  refine settlesAt_advance.bind fun start c₁ h₁ => (h.block (by omega)).bind fun body c₂ h₂ => ?_
  refine (settlesAt_expect _).bind fun _ c₃ h₃ => settlesAt_peek_bind fun kind hkind => ?_
  have behind (error : Option Tree.Name) (d : Cursor) (hd : d.left < c.left) :
      SettlesAt (do
        let handler ← r.block
        pure (Tree.Stmt.tryCatch body error handler (start.merge handler.span))) (do
        let handler ← r'.block
        pure (Tree.Stmt.tryCatch body error handler (start.merge handler.span))) d c.left :=
    (h.block (by omega)).bind fun _ e he => settlesAt_pure (by omega)
  dsimp only
  split
  · exact settlesAt_identifier.map.bind fun error d hd => behind error d (by omega)
  · exact behind none c₃ (by omega)

theorem Settles.returnRule (hc : c.left < N) : SettlesAt r.returnRule r'.returnRule c c.left := by
  refine settlesAt_advance.bind fun start c₁ h₁ => settlesAt_peek_bind fun kind hkind => ?_
  have behind (value : Option Tree.Expr) (d : Cursor) (hd : d.left ≤ c.left) :
      SettlesAt (do
        let stop ← expect .semicolon
        pure (Tree.Stmt.ret value (start.merge stop))) (do
        let stop ← expect .semicolon
        pure (Tree.Stmt.ret value (start.merge stop))) d c.left :=
    (settlesAt_expect _).bind fun _ e he => settlesAt_pure (by omega)
  dsimp only
  split
  · exact behind none c₁ (by omega)
  · exact (h.expr 0 c₁ (by omega)).map.bind fun value d hd => behind value d (by omega)

theorem Settles.printRule (hc : c.left < N) : SettlesAt r.printRule r'.printRule c c.left := by
  refine settlesAt_advance.bind fun _ c₁ h₁ => (h.expr 0 c₁ (by omega)).bind fun _ c₂ h₂ => ?_
  exact (settlesAt_expect _).bind fun _ c₃ h₃ => settlesAt_pure (by omega)

theorem Settles.simpleRule (hc : c.left < N) : SettlesAt r.simpleRule r'.simpleRule c c.left := by
  refine (h.expr 0 c hc).bind fun target c₁ h₁ => settlesAt_peek_bind fun kind hkind => ?_
  have behind (stmt : Tree.Stmt) (d : Cursor) (hd : d.left < c.left) :
      SettlesAt (do
        let _ ← expect .semicolon
        pure stmt) (do
        let _ ← expect .semicolon
        pure stmt) d c.left :=
    (settlesAt_expect _).bind fun _ e he => settlesAt_pure (by omega)
  dsimp only
  split
  · refine settlesAt_advance.bind fun _ c₂ h₂ => ?_
    exact (h.expr 0 c₂ (by omega)).bind fun _ d hd => behind _ d (by omega)
  · exact settlesAt_advance.bind fun _ d hd => behind _ d (by omega)
  · exact settlesAt_advance.bind fun _ d hd => behind _ d (by omega)
  · split
    · exact behind _ c₁ h₁
    · exact settlesAt_unexpected.bind fun stmt d hd => behind stmt d hd

theorem Settles.stmtRule (hc : c.left < N) : SettlesAt r.stmtRule r'.stmtRule c c.left := by
  have word (form : Span → Tree.Stmt) :
      SettlesAt (do
        let span ← advance
        let _ ← expect .semicolon
        pure (form span)) (do
        let span ← advance
        let _ ← expect .semicolon
        pure (form span)) c c.left :=
    settlesAt_advance.bind fun _ c₁ h₁ => (settlesAt_expect _).bind fun _ c₂ h₂ =>
      settlesAt_pure (by omega)
  refine settlesAt_peek_bind fun kind hkind => ?_
  split
  · exact h.variableRule hc _
  · exact h.variableRule hc _
  · exact h.functionRule hc
  · exact h.structRule hc _
  · exact h.structRule hc _
  · exact h.ifRule hc
  · exact h.whileRule hc
  · exact h.forRule hc
  · exact h.tryRule hc
  · exact h.returnRule hc
  · exact word _
  · exact word _
  · exact h.printRule hc
  · exact h.simpleRule hc

theorem Settles.program (hc : c.left + 1 < N) :
    SettlesAt r.program r'.program c (c.left + 1) := by
  have hitem (d : Cursor) (hd : d.left < c.left + 1) : SettlesAt r.stmt r'.stmt d d.left :=
    h.stmt d (by omega)
  obtain ⟨hsteps, hsteps'⟩ := h.lt_steps (Nat.lt_of_succ_lt hc)
  exact settlesAt_itemsUntil (fun _ => ⟨_, rfl⟩) hitem (Nat.lt_succ_self _) hsteps hsteps'

omit h

/-- **All parsers settle**, as soon as the rules are unfolded deep enough. -/
theorem settles_unfold {depth depth' : Nat} (hdepth : N < depth) (hdepth' : N < depth') :
    (unfold depth).Settles N (unfold depth') := by
  induction N generalizing depth depth' with
  | zero =>
    exact ⟨Nat.zero_le _, Nat.zero_le _, fun _ hc => by omega, fun _ _ hc => by omega,
      fun _ hc => by omega⟩
  | succ N ih =>
    obtain ⟨depth, rfl⟩ : ∃ n, depth = n + 1 := ⟨depth - 1, by omega⟩
    obtain ⟨depth', rfl⟩ : ∃ n, depth' = n + 1 := ⟨depth' - 1, by omega⟩
    have hbelow := ih (show N < depth by omega) (show N < depth' by omega)
    exact ⟨Nat.le_of_lt hdepth, Nat.le_of_lt hdepth', fun _ hc => hbelow.typeRule (by omega),
      fun least _ hc => hbelow.exprRule least (by omega), fun _ hc => hbelow.stmtRule (by omega)⟩

end Rules

end TypedImp.Grammar
