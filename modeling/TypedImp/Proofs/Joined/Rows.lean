import TypedImp.Proofs.Grammar.Yields
import TypedImp.Proofs.Joined.Tokens
import TypedImp.Proofs.Joined.Trees

/-!
# A row of tokens that goes on

Two runs of the grammar are followed at once: one on a row of tokens, and one on a longer row that
has these tokens too, at other places perhaps, and goes on where the first row ends
(`Extends`).  A parser that looks at the end of the first row need not do the same on the
second one.  But no statement is complete before its last semicolon or brace, and types, expressions
and the heads of statements hold neither: so at every place within a statement such a token is still
ahead (`Within`), and there both rows have the same current token.

Three contracts follow from this, for a parser of the first row and one of the second.

* `ReadsAt`: within a statement both end in the same way, and within the same statement.  This is
  how types and expressions are read, which hold no semicolon and no brace.
* `PassesAt`: what the first one passes within a statement, the second one passes too.  Whether a
  failure is the same is left open.
* `ClosedAt`: where the first one has an answer there is a semicolon or a brace ahead, and the
  second one has the same answer.  This is how statements and blocks are read.

The value of the second parser is that of the first one, changed by a function `g` that moves it.
-/

namespace TypedImp.Grammar

open TypedImp.Token (Kind)
open TypedImp.Grammar.Parser

/-! ### Rows -/

/-- **One row of tokens goes on with another**: from `d` on there are the tokens from `c` on, where
`f` says that they stand, and in place of the end of the input there is all that comes at `back`. -/
inductive Extends (f : Span → Span) (back : Cursor) : Cursor → Cursor → Prop where
  | last {eof : Token} (heof : eof.kind = .eof) : Extends f back ⟨eof, []⟩ back
  | token {t : Token} {c d : Cursor} (hkind : t.kind ≠ .eof) (h : Extends f back c d) :
    Extends f back ⟨t, c.tokens⟩ ⟨t.map f, d.tokens⟩

/-- Whether a token may stand within a type, an expression or the head of a statement. -/
def isInner : Kind → Bool
  | .symbol .semicolon | .symbol .leftBrace | .symbol .rightBrace => false
  | _ => true

def Cursor.AllInner (c : Cursor) : Prop := c.All (isInner · = true)

/-- **A place within a statement**: a semicolon or a brace is still ahead. -/
structure Within (f : Span → Span) (back c d : Cursor) : Prop where
  row : Extends f back c d
  bounded : ¬ c.AllInner

variable {f : Span → Span} {back c d : Cursor}

theorem Cursor.All.of_step {Q : Kind → Prop} (hk : Q c.current.kind) (h : c.step.All Q) :
    c.All Q := by
  obtain ⟨current, ahead⟩ := c
  cases ahead with
  | nil => exact h
  | cons next ahead => exact ⟨hk, List.forall_mem_cons.mpr h⟩

/-- **Within a statement both rows have the same token**, and it is not the end of the input. -/
theorem Within.current (h : Within f back c d) :
    c.current.kind ≠ .eof ∧ d.current = c.current.map f ∧ Extends f back c.step d.step := by
  obtain ⟨hrow, hbounded⟩ := h
  cases hrow with
  | last heof =>
    refine absurd ⟨?_, List.forall_mem_nil _⟩ hbounded
    show isInner _ = true
    rw [heof]
    rfl
  | token hkind h => exact ⟨hkind, rfl, h⟩

theorem Within.kind (h : Within f back c d) : d.current.kind = c.current.kind := by
  rw [h.current.2.1, Token.map]

theorem Within.span (h : Within f back c d) : d.current.span = f c.current.span := by
  rw [h.current.2.1, Token.map]

theorem Within.step (h : Within f back c d) (hk : isInner c.current.kind = true) :
    Within f back c.step d.step :=
  ⟨h.current.2.2, fun hinner => h.bounded (.of_step hk hinner)⟩

/-! ### Contracts -/

variable {α β γ : Type}

/-- Two runs end in the same way.  What happens when the steps of the first one are exhausted is
left open. -/
inductive Outcome.Mirrors (f : Span → Span) (back : Cursor) (g : α → α) :
    Outcome α → Outcome α → Prop where
  | done {value : α} {rest rest' : Cursor} (h : Within f back rest rest') :
    Mirrors f back g (.done value rest) (.done (g value) rest')
  | failed {fault fault' : Located Fault} : Mirrors f back g (.failed fault) (.failed fault')
  | exhausted {outcome : Outcome α} : Mirrors f back g .exhausted outcome

namespace Parser

section

variable (f : Span → Span) (back : Cursor) (g : α → α) (p q : Parser α) (c d : Cursor)

def FollowsAt : Prop :=
  ∀ value rest, p c = .done value rest →
    ∃ rest', q d = .done (g value) rest' ∧ Extends f back rest rest'

/-- **Both parsers end in the same way within a statement.** -/
structure ReadsAt : Prop where
  inner : c.AllInner → ∀ value rest, p c = .done value rest → rest.AllInner
  mirrors : Within f back c d → (p c).Mirrors f back g (q d)

/-- **The second parser has the answers of the first one**, as long as these stay within a
statement. -/
structure PassesAt : Prop where
  inner : c.AllInner → ∀ value rest, p c = .done value rest → rest.AllInner
  follows : Within f back c d → ∀ value rest, p c = .done value rest → ¬ rest.AllInner →
    ∃ rest', q d = .done (g value) rest' ∧ Extends f back rest rest'

/-- **The second parser has the answers of the first one**, which passes a semicolon or a brace. -/
structure ClosedAt : Prop where
  never : c.AllInner → ∀ value rest, p c ≠ .done value rest
  follows : Within f back c d → FollowsAt f back g p q c d

end

variable {g : α → α} {g' : β → β} {p q : Parser α} {k k' : α → Parser β}

/-! ### One parser after the other -/

theorem ReadsAt.passesAt (h : ReadsAt f back g p q c d) : PassesAt f back g p q c d := by
  refine ⟨h.inner, fun hc value rest hp _ => ?_⟩
  have hmirrors := h.mirrors hc
  rw [hp] at hmirrors
  generalize q d = outcome at hmirrors
  cases hmirrors with
  | done hrest => exact ⟨_, rfl, hrest.row⟩

theorem ClosedAt.passesAt (h : ClosedAt f back g p q c d) : PassesAt f back g p q c d :=
  ⟨fun hc value rest hp => absurd hp (h.never hc value rest),
    fun hc value rest hp _ => h.follows hc value rest hp⟩

/-- A parser that passes a semicolon or a brace need not know that one is ahead. -/
theorem ClosedAt.followsAt (h : ClosedAt f back g p q c d) (hc : Extends f back c d) :
    FollowsAt f back g p q c d :=
  fun value rest hp => h.follows ⟨hc, fun hinner => h.never hinner value rest hp⟩ value rest hp

theorem ReadsAt.bind (hp : ReadsAt f back g p q c d)
    (hk : ∀ value c' d', ReadsAt f back g' (k value) (k' (g value)) c' d') :
    ReadsAt f back g' (p >>= k) (q >>= k') c d := by
  refine ⟨fun hc result rest hresult => ?_, fun hc => ?_⟩
  · obtain ⟨value, middle, hvalue, hresult⟩ := done_of_bind hresult
    exact (hk value middle middle).inner (hp.inner hc value middle hvalue) result rest hresult
  · rw [bind_apply, bind_apply]
    have hmirrors := hp.mirrors hc
    generalize p c = x at hmirrors
    generalize q d = y at hmirrors
    cases hmirrors with
    | done hmiddle => exact (hk _ _ _).mirrors hmiddle
    | failed => exact .failed
    | exhausted => exact .exhausted

theorem PassesAt.bind (hp : PassesAt f back g p q c d)
    (hk : ∀ value c' d', PassesAt f back g' (k value) (k' (g value)) c' d') :
    PassesAt f back g' (p >>= k) (q >>= k') c d := by
  refine ⟨fun hc result rest hresult => ?_, fun hc result rest hresult hrest => ?_⟩
  · obtain ⟨value, middle, hvalue, hresult⟩ := done_of_bind hresult
    exact (hk value middle middle).inner (hp.inner hc value middle hvalue) result rest hresult
  · obtain ⟨value, middle, hvalue, hresult⟩ := done_of_bind hresult
    have hmiddle : ¬ middle.AllInner :=
      fun hinner => hrest ((hk value middle middle).inner hinner result rest hresult)
    obtain ⟨middle', hq, hrow⟩ := hp.follows hc value middle hvalue hmiddle
    rw [bind_of_done hq]
    exact (hk value middle middle').follows ⟨hrow, hmiddle⟩ result rest hresult hrest

/-- What comes before a parser that passes a semicolon or a brace is within a statement. -/
theorem PassesAt.bind_closed (hp : PassesAt f back g p q c d)
    (hk : ∀ value c' d', ClosedAt f back g' (k value) (k' (g value)) c' d') :
    ClosedAt f back g' (p >>= k) (q >>= k') c d := by
  refine ⟨fun hc result rest hresult => ?_, fun hc result rest hresult => ?_⟩
  · obtain ⟨value, middle, hvalue, hresult⟩ := done_of_bind hresult
    exact (hk value middle middle).never (hp.inner hc value middle hvalue) result rest hresult
  · obtain ⟨value, middle, hvalue, hresult⟩ := done_of_bind hresult
    have hmiddle : ¬ middle.AllInner :=
      fun hinner => (hk value middle middle).never hinner result rest hresult
    obtain ⟨middle', hq, hrow⟩ := hp.follows hc value middle hvalue hmiddle
    rw [bind_of_done hq]
    exact (hk value middle middle').follows ⟨hrow, hmiddle⟩ result rest hresult

theorem ReadsAt.bind_closed (hp : ReadsAt f back g p q c d)
    (hk : ∀ value c' d', ClosedAt f back g' (k value) (k' (g value)) c' d') :
    ClosedAt f back g' (p >>= k) (q >>= k') c d :=
  hp.passesAt.bind_closed hk

theorem FollowsAt.bind (hp : FollowsAt f back g p q c d)
    (hk : ∀ value c' d', Extends f back c' d' →
      FollowsAt f back g' (k value) (k' (g value)) c' d') :
    FollowsAt f back g' (p >>= k) (q >>= k') c d := by
  intro result rest hresult
  obtain ⟨value, middle, hvalue, hresult⟩ := done_of_bind hresult
  obtain ⟨middle', hq, hrow⟩ := hp value middle hvalue
  rw [bind_of_done hq]
  exact hk value middle middle' hrow result rest hresult

/-- Behind the semicolon or the brace the statement may be over. -/
theorem ClosedAt.bind (hp : ClosedAt f back g p q c d)
    (hk : ∀ value c' d', Extends f back c' d' →
      FollowsAt f back g' (k value) (k' (g value)) c' d') :
    ClosedAt f back g' (p >>= k) (q >>= k') c d := by
  refine ⟨fun hc result rest hresult => ?_, fun hc => (hp.follows hc).bind hk⟩
  obtain ⟨value, middle, hvalue, -⟩ := done_of_bind hresult
  exact hp.never hc value middle hvalue

/-! ### Parsers of one token -/

theorem readsAt_pure {a b : α} (h : b = g a) : ReadsAt f back g (pure a) (pure b) c d := by
  subst h
  refine ⟨fun hc value rest hp => ?_, fun hc => .done hc⟩
  cases hp
  exact hc

theorem followsAt_pure {a b : α} (hc : Extends f back c d) (h : b = g a) :
    FollowsAt f back g (pure a) (pure b) c d := by
  subst h
  intro value rest hp
  cases hp
  exact ⟨d, rfl, hc⟩

theorem readsAt_exhausted : ReadsAt f back g exhausted q c d := by
  refine ⟨fun _ value rest hp => ?_, fun _ => .exhausted⟩
  cases hp

theorem readsAt_unexpected (wanted : Expected) :
    ReadsAt f back g (unexpected wanted) (unexpected wanted) c d := by
  refine ⟨fun _ value rest hp => ?_, fun _ => .failed⟩
  cases hp

section

variable {h h' : Kind → Parser β}

theorem readsAt_peek_bind (hk : ∀ kind, c.current.kind = kind →
    ReadsAt f back g' (h kind) (h' kind) c d) :
    ReadsAt f back g' (peek >>= h) (peek >>= h') c d := by
  have hcurrent := hk _ rfl
  refine ⟨hcurrent.inner, fun hc => ?_⟩
  show (h c.current.kind c).Mirrors f back g' (h' d.current.kind d)
  rw [hc.kind]
  exact hcurrent.mirrors hc

theorem closedAt_peek_bind (hk : ∀ kind, c.current.kind = kind →
    ClosedAt f back g' (h kind) (h' kind) c d) :
    ClosedAt f back g' (peek >>= h) (peek >>= h') c d := by
  have hcurrent := hk _ rfl
  refine ⟨hcurrent.never, fun hc value rest hp => ?_⟩
  show ∃ rest', h' d.current.kind d = _ ∧ _
  rw [hc.kind]
  exact hcurrent.follows hc value rest hp

end

theorem readsAt_advance {kind : Kind} (hkind : c.current.kind = kind)
    (hinner : isInner kind = true) : ReadsAt f back f advance advance c d := by
  refine ⟨fun hc value rest hp => ?_, fun hc => ?_⟩
  · cases hp
    exact hc.step
  · rw [advance, advance, hc.span]
    exact .done (hc.step (by rwa [hkind]))

theorem readsAt_expect {s : Symbol} (hs : isInner (.symbol s) = true) :
    ReadsAt f back f (expect s) (expect s) c d := by
  refine ⟨fun hc value rest hp => (meets_expect s c hc value rest hp).2, fun hc => ?_⟩
  rw [expect, expect, hc.kind, hc.span]
  split
  · rename_i hkind
    rw [Kind.isSymbol_iff] at hkind
    exact .done (hc.step (by rwa [hkind]))
  · exact .failed

theorem readsAt_accept {s : Symbol} (hs : isInner (.symbol s) = true) :
    ReadsAt f back id (accept s) (accept s) c d := by
  refine ⟨fun hc value rest hp => (meets_accept s c hc value rest hp).2, fun hc => ?_⟩
  rw [accept, accept, hc.kind]
  split
  · rename_i hkind
    rw [Kind.isSymbol_iff] at hkind
    exact .done (hc.step (by rwa [hkind]))
  · exact .done hc

theorem readsAt_closes (closing : Symbol) :
    ReadsAt f back id (closes closing) (closes closing) c d := by
  refine ⟨fun hc value rest hp => (meets_closes closing c hc value rest hp).2, fun hc => ?_⟩
  rw [closes, closes, hc.kind]
  exact .done hc

/-- Also a semicolon may be accepted, but then the statement may be over. -/
theorem passesAt_accept (s : Symbol) : PassesAt f back id (accept s) (accept s) c d := by
  refine ⟨fun hc value rest hp => (meets_accept s c hc value rest hp).2,
    fun hc value rest hp _ => ?_⟩
  rw [accept] at hp ⊢
  rw [hc.kind]
  by_cases hkind : c.current.kind.isSymbol s = true
  · rw [if_pos hkind] at hp ⊢
    cases hp
    exact ⟨_, rfl, hc.current.2.2⟩
  · rw [if_neg hkind] at hp ⊢
    cases hp
    exact ⟨_, rfl, hc.row⟩

/-- A semicolon or a brace that is wanted and found. -/
theorem closedAt_expect {s : Symbol} (hs : isInner (.symbol s) = false) :
    ClosedAt f back f (expect s) (expect s) c d := by
  refine ⟨fun hc value rest hp => ?_, fun hc value rest hp => ?_⟩
  · rw [expect] at hp
    split at hp
    · rename_i hkind
      have hinner := hc.1
      rw [Kind.isSymbol_iff.mp hkind, hs] at hinner
      cases hinner
    · cases hp
  · rw [expect] at hp ⊢
    rw [hc.kind, hc.span]
    by_cases hkind : c.current.kind.isSymbol s = true
    · rw [if_pos hkind] at hp ⊢
      cases hp
      exact ⟨_, rfl, hc.current.2.2⟩
    · rw [if_neg hkind] at hp
      cases hp

/-- Where the statement may be over, a symbol is accepted in both rows or in none, as long as the
second row does not go on with it. -/
theorem followsAt_accept {s : Symbol} (hc : Extends f back c d)
    (hback : back.current.kind.isSymbol s = false) :
    FollowsAt f back id (accept s) (accept s) c d := by
  intro value rest hp
  cases hc with
  | @last eof heof =>
    rw [accept] at hp ⊢
    have hno : ¬ (eof.kind.isSymbol s = true) := by
      rw [heof]
      exact Bool.false_ne_true
    rw [if_neg hno] at hp
    cases hp
    exact ⟨back, by rw [hback]; rfl, .last heof⟩
  | @token t c d hkind h =>
    rw [accept] at hp ⊢
    show ∃ rest', (if t.kind.isSymbol s = true then _ else _) = _ ∧ _
    by_cases hsymbol : t.kind.isSymbol s = true
    · rw [if_pos hsymbol] at hp ⊢
      cases hp
      exact ⟨_, rfl, h⟩
    · rw [if_neg hsymbol] at hp ⊢
      cases hp
      exact ⟨_, rfl, .token hkind h⟩

/-! ### Attempts and lists -/

/-- Both attempts are given up or none. -/
theorem ReadsAt.attempt (hp : ReadsAt f back g p q c d) :
    ReadsAt f back (Option.map g) (attempt p) (attempt q) c d := by
  refine ⟨fun hc value rest hvalue => ?_, fun hc => ?_⟩
  · rw [Parser.attempt] at hvalue
    cases hpc : p c with
    | done a middle =>
      rw [hpc] at hvalue
      cases hvalue
      exact hp.inner hc a rest hpc
    | failed fault => rw [hpc] at hvalue; cases hvalue; exact hc
    | exhausted => rw [hpc] at hvalue; cases hvalue
  · rw [Parser.attempt, Parser.attempt]
    have hmirrors := hp.mirrors hc
    generalize p c = x at hmirrors
    generalize q d = y at hmirrors
    cases hmirrors with
    | done hrest => exact .done hrest
    | failed => exact .done hc
    | exhausted => exact .exhausted

theorem ReadsAt.map_some (hp : ReadsAt f back g p q c d) :
    ReadsAt f back (Option.map g) (some <$> p) (some <$> q) c d :=
  hp.bind fun _ _ _ => readsAt_pure rfl

theorem readsAt_commaItems {closing : Symbol}
    (hitem : ∀ c d, ReadsAt f back g p q c d) {steps steps' : Nat} (hle : steps ≤ steps') :
    ReadsAt f back (List.map g) (commaItems closing p steps) (commaItems closing q steps') c d := by
  induction steps generalizing steps' c d with
  | zero => exact readsAt_exhausted
  | succ steps ih =>
    obtain ⟨steps', rfl⟩ : ∃ n, steps' = n + 1 := ⟨steps' - 1, by omega⟩
    refine (readsAt_closes closing).bind fun ended c d => ?_
    cases ended with
    | true => exact readsAt_pure rfl
    | false =>
      refine (hitem c d).bind fun first c d => (readsAt_accept rfl).bind fun more c d => ?_
      cases more with
      | true => exact (ih (by omega)).bind fun others c d => readsAt_pure rfl
      | false => exact readsAt_pure rfl

theorem passesAt_itemsUntil {closing : Symbol} (hitem : ∀ c d, PassesAt f back g p q c d)
    {steps steps' : Nat} (hle : steps ≤ steps') :
    PassesAt f back (List.map g) (itemsUntil (closes closing) p steps)
      (itemsUntil (closes closing) q steps') c d := by
  induction steps generalizing steps' c d with
  | zero => exact readsAt_exhausted.passesAt
  | succ steps ih =>
    obtain ⟨steps', rfl⟩ : ∃ n, steps' = n + 1 := ⟨steps' - 1, by omega⟩
    refine (readsAt_closes closing).passesAt.bind fun ended c d => ?_
    cases ended with
    | true => exact (readsAt_pure rfl).passesAt
    | false =>
      refine (hitem c d).bind fun first c d => (ih (by omega)).bind fun others c d => ?_
      exact (readsAt_pure rfl).passesAt

end Parser

theorem readsAt_identifier : ReadsAt f back (Tree.Name.mapSpans f) identifier identifier c d := by
  refine ⟨fun hc value rest hp => (meets_identifier c hc value rest hp).2, fun hc => ?_⟩
  rw [identifier, identifier, hc.kind, hc.span]
  split
  · rename_i text hkind
    exact .done (hc.step (by rw [hkind]; rfl))
  · exact .failed

end TypedImp.Grammar
