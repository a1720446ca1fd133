import TypedImp.Proofs.Grammar.Types

/-!
# Reading operators

What an expression is read up to depends on the token behind it.  `Stops least rest` says
that behind an expression nothing comes which would go on with it: no suffix, and no operator
that binds as tightly as `least`.

An operand that is not unary is a primary expression with suffixes, and an expression is an
operand with operators and further operands.  Both are read from the left, one step after the
other, so that what is read first grows.  `Grows` is therefore stated for all that may be read
behind: such contracts can be continued (`Grows.step`), and where nothing comes that goes on,
all is read (`Grows.reads`).  For suffixes the contract is called `Begins`, with one
continuation for each (`Begins.call`, `Begins.member`, `Begins.subscript`); where no suffix
comes, an operand has been read (`Begins.reads_operand`), as it has been behind a sign
(`reads_operand_unary`).  For operators it is called `Joins` and goes on by `Joins.binary`.
-/

namespace TypedImp.Grammar

open TypedImp.Token (Kind)
open TypedImp.Grammar.Parser

/-! ### Where an expression ends -/

def startsSuffix : Kind → Bool
  | .symbol s => s ∈ [.leftParen, .dot, .leftBracket]
  | _ => false

/-- These tokens do not go on with an expression whose operators have at least the given
precedence. -/
def Stops (least : Nat) (ks : List Kind) : Prop :=
  ∀ k ∈ ks.head?, startsSuffix k = false ∧ ∀ op ∈ k.binary?, op.precedence < least

theorem stops_cons {least : Nat} {k : Kind} (ks : List Kind) (hk : startsSuffix k = false)
    (hop : ∀ op ∈ k.binary?, op.precedence < least) : Stops least (k :: ks) := by
  intro k' hk'
  cases hk'
  exact ⟨hk, hop⟩

/-- Tokens that are no operators. -/
theorem stops_cons_of_none (least : Nat) {k : Kind} (ks : List Kind)
    (hk : startsSuffix k = false) (hop : k.binary? = none) : Stops least (k :: ks) :=
  stops_cons ks hk (by rw [hop]; exact fun _ h => nomatch h)

theorem Stops.mono {least least' : Nat} {ks : List Kind} (h : Stops least ks)
    (hle : least ≤ least') : Stops least' ks :=
  fun k hk => ⟨(h k hk).1, fun op hop => Nat.lt_of_lt_of_le ((h k hk).2 op hop) hle⟩

theorem Stops.head {least : Nat} {ks : List Kind} (h : Stops least ks) :
    ∀ k ∈ ks.head?, startsSuffix k = false :=
  fun k hk => (h k hk).1

theorem startsSuffix_operator (op : BinaryOp) : startsSuffix (.symbol op.symbol) = false := by
  cases op <;> rfl

theorem binary?_eq_some_iff {k : Kind} {op : BinaryOp} :
    k.binary? = some op ↔ k = .symbol op.symbol := by
  cases k with
  | symbol s => rw [Kind.binary?, BinaryOp.ofSymbol?_eq_some_iff, Kind.symbol.injEq]
  | _ => simp [Kind.binary?]

theorem unary?_eq_some_iff {k : Kind} {op : UnaryOp} :
    k.unary? = some op ↔ k = .symbol op.symbol := by
  cases k with
  | symbol s => rw [Kind.unary?, UnaryOp.ofSymbol?_eq_some_iff, Kind.symbol.injEq]
  | _ => simp [Kind.unary?]

theorem binary?_operator (op : BinaryOp) : (Kind.symbol op.symbol).binary? = some op :=
  binary?_eq_some_iff.mpr rfl

theorem unary?_operator (op : UnaryOp) : (Kind.symbol op.symbol).unary? = some op :=
  unary?_eq_some_iff.mpr rfl

namespace Rules

variable {r : Rules} {P Q : Tree.Expr → Prop} {ks ks' rest : List Kind}

/-! ### Expressions that grow -/

/-- **What a first parser reads and further ones go on with**: the tokens `ks`, read as a value
that `P` holds of.  Every continuation takes one step, and no more steps than tokens are
needed. -/
def Grows (first : Parser Tree.Expr) (more : Nat → Tree.Expr → Parser Tree.Expr)
    (ks rest : List Kind) (P : Tree.Expr → Prop) : Prop :=
  ∀ (steps : Nat) (further behind : List Kind) (Q : Tree.Expr → Prop), rest = further ++ behind →
    ks.length ≤ steps →
    (∀ value steps', P value → steps ≤ steps' + ks.length →
      Reads (more (steps' + 1) value) further behind Q) →
    Reads (first >>= more (steps + 1)) (ks ++ further) behind Q

section

variable {first : Parser Tree.Expr} {more : Nat → Tree.Expr → Parser Tree.Expr}

theorem grows_of_first (h : Reads first ks rest P) : Grows first more ks rest P := by
  intro steps further behind Q hrest _ hfurther
  rw [hrest] at h
  exact Reads.bind h fun value hvalue => hfurther value steps hvalue (by omega)

/-- One more continuation.  It is read in one step, and then what comes behind. -/
theorem Grows.step (h : Grows first more ks (ks' ++ rest) P) (hne : ks' ≠ [])
    (hmore : ∀ value steps further behind (Q' : Tree.Expr → Prop), P value →
      rest = further ++ behind → (∀ value', Q value' →
        Reads (more steps value') further behind Q') →
      Reads (more (steps + 1) value) (ks' ++ further) behind Q') :
    Grows first more (ks ++ ks') rest Q := by
  have hpos := List.length_pos_iff.mpr hne
  intro steps further behind Q' hrest hsteps hfurther
  rw [List.length_append] at hsteps hfurther
  rw [List.append_assoc]
  refine h steps _ behind Q' (by rw [hrest, List.append_assoc]) (by omega)
    fun value steps' hvalue hle => hmore value steps' further behind Q' hvalue hrest ?_
  intro value' hvalue'
  obtain ⟨fewer, rfl⟩ := Nat.exists_eq_add_of_lt (show 0 < steps' by omega)
  exact hfurther value' _ hvalue' (by omega)

/-- All of it is read where nothing comes that goes on with it. -/
theorem Grows.reads (h : Grows first more ks rest P) {steps : Nat} (hsteps : ks.length < steps)
    (hlast : ∀ value steps', P value → Reads (more (steps' + 1) value) [] rest P) :
    Reads (first >>= more steps) ks rest P := by
  obtain ⟨fewer, rfl⟩ := Nat.exists_eq_add_of_lt hsteps
  have hall := h (ks.length + fewer) [] rest P rfl (Nat.le_add_right _ _)
    fun value steps' hvalue _ => hlast value steps' hvalue
  rwa [List.append_nil] at hall

end

/-! ### Suffixes -/

/-- **What an expression begins with**: a primary expression and suffixes. -/
def Begins (r : Rules) (ks rest : List Kind) (P : Tree.Expr → Prop) : Prop :=
  Grows r.primary r.suffixes ks rest P

theorem begins_of_primary (h : Reads r.primary ks rest P) : Begins r ks rest P :=
  grows_of_first h

theorem Begins.call {args : List Kind} {P' : List Tree.Expr → Prop}
    (h : Begins r ks (.symbol .leftParen :: (args ++ .symbol .rightParen :: rest)) P)
    (hargs : Reads (commaItems .rightParen (r.expr 0) r.steps) args
      (.symbol .rightParen :: rest) P') (hr : Ended rest)
    (hQ : ∀ f es span, P f → P' es → Q (.call f es span)) :
    Begins r (ks ++ .symbol .leftParen :: (args ++ [.symbol .rightParen])) rest Q := by
  refine Grows.step (by simpa [Begins] using h) (by simp) ?_
  intro f steps further behind Q' hf hrest hfurther
  rw [hrest] at hargs hr
  have hclose := hr.cons (.symbol .rightParen)
  refine Reads.bind_known (reads_peek rfl) ?_
  rw [List.cons_append, List.append_assoc]
  refine Reads.bind_cons (reads_advance (by simpa using hclose.append args)) fun _ _ => ?_
  refine Reads.bind hargs fun es hes => ?_
  refine Reads.bind_cons (reads_expect hr) fun stop _ => ?_
  exact hfurther _ (hQ f es _ hf hes)

theorem Begins.member {field : String}
    (h : Begins r ks (.symbol .dot :: .name field :: rest) P) (hr : Ended rest)
    (hQ : ∀ o (name : Tree.Name) span, P o → name.bare = .of field → Q (.member o name span)) :
    Begins r (ks ++ [.symbol .dot, .name field]) rest Q := by
  refine Grows.step h (by simp) ?_
  intro o steps further behind Q' ho hrest hfurther
  rw [hrest] at hr
  refine Reads.bind_known (reads_peek rfl) ?_
  refine Reads.bind_cons (reads_advance (hr.cons _)) fun _ _ => ?_
  refine Reads.bind_cons (reads_identifier hr) fun name hname => ?_
  exact hfurther _ (hQ o name _ ho hname)

theorem Begins.subscript {index : List Kind} {P' : Tree.Expr → Prop}
    (h : Begins r ks (.symbol .leftBracket :: (index ++ .symbol .rightBracket :: rest)) P)
    (hindex : Reads (r.expr 0) index (.symbol .rightBracket :: rest) P') (hr : Ended rest)
    (hQ : ∀ a i span, P a → P' i → Q (.subscript a i span)) :
    Begins r (ks ++ .symbol .leftBracket :: (index ++ [.symbol .rightBracket])) rest Q := by
  refine Grows.step (by simpa [Begins] using h) (by simp) ?_
  intro a steps further behind Q' ha hrest hfurther
  rw [hrest] at hindex hr
  have hclose := hr.cons (.symbol .rightBracket)
  refine Reads.bind_known (reads_peek rfl) ?_
  rw [List.cons_append, List.append_assoc]
  refine Reads.bind_cons (reads_advance (by simpa using hclose.append index)) fun _ _ => ?_
  refine Reads.bind hindex fun i hi => ?_
  refine Reads.bind_cons (reads_expect hr) fun stop _ => ?_
  exact hfurther _ (hQ a i _ ha hi)

/-- Where no suffix comes, an expression has none. -/
theorem reads_suffixes_nil {value : Tree.Expr} {steps : Nat} (hr : Ended rest)
    (hrest : ∀ k ∈ rest.head?, startsSuffix k = false) (hvalue : P value) :
    Reads (r.suffixes (steps + 1) value) [] rest P := by
  obtain ⟨k, others, rfl⟩ := List.exists_cons_of_ne_nil hr.ne_nil
  have hk := hrest k rfl
  refine Reads.bind_known (reads_peek rfl) ?_
  split
  · cases hk
  · cases hk
  · cases hk
  · exact reads_pure hvalue

/-! ### Operands -/

theorem Begins.reads_operand (h : Begins r ks rest P) {k : Kind} {others : List Kind}
    (hks : ks = k :: others) (hk : k.unary? = none) (hsteps : ks.length < r.steps)
    (hr : Ended rest) (hrest : ∀ k ∈ rest.head?, startsSuffix k = false) :
    Reads r.operand ks rest P := by
  refine Reads.bind_known (reads_peek (k := k) (by rw [hks]; rfl)) ?_
  rw [hk]
  exact h.reads hsteps fun value steps' hvalue => reads_suffixes_nil hr hrest hvalue

/-- A sign, and what it stands in front of. -/
theorem reads_operand_unary (op : UnaryOp)
    (h : Reads (r.expr UnaryOp.precedence) ks rest P) (hr : Ended rest)
    (hQ : ∀ e span, P e → Q (.unary op e span)) :
    Reads r.operand (.symbol op.symbol :: ks) rest Q := by
  refine Reads.bind_known (reads_peek rfl) ?_
  rw [unary?_operator]
  refine Reads.bind_cons (reads_advance (hr.append ks)) fun start _ => ?_
  exact h.bind_pure fun e he => hQ e _ he

/-! ### Expressions -/

/-- **What is read as a left operand**: operands with operators between them, which bind as
tightly as `least`. -/
def Joins (r : Rules) (least : Nat) (ks rest : List Kind) (P : Tree.Expr → Prop) : Prop :=
  Grows r.operand (r.operators least) ks rest P

theorem joins_of_operand {least : Nat} (h : Reads r.operand ks rest P) :
    r.Joins least ks rest P :=
  grows_of_first h

theorem Joins.binary {least : Nat} {op : BinaryOp} {P' : Tree.Expr → Prop}
    (h : r.Joins least ks (.symbol op.symbol :: (ks' ++ rest)) P)
    (hright : Reads (r.expr op.rightPrecedence) ks' rest P') (hop : least ≤ op.precedence)
    (hr : Ended rest) (hQ : ∀ left right span, P left → P' right → Q (.binary op left right span)) :
    r.Joins least (ks ++ .symbol op.symbol :: ks') rest Q := by
  refine Grows.step h (List.cons_ne_nil _ _) ?_
  intro left steps further behind Q' hleft hrest hfurther
  rw [hrest] at hright hr
  refine Reads.bind_known (reads_peek rfl) ?_
  rw [binary?_operator]
  dsimp only
  rw [if_neg (Nat.not_lt.mpr hop)]
  refine Reads.bind_cons (reads_advance (by simpa using hr.append ks')) fun _ _ => ?_
  refine Reads.bind hright fun right hright => ?_
  exact hfurther _ (hQ left right _ hleft hright)

/-- Where no operator comes that binds tightly enough, an expression ends. -/
theorem reads_operators_nil {least steps : Nat} {value : Tree.Expr} (hr : Ended rest)
    (hrest : Stops least rest) (hvalue : P value) :
    Reads (r.operators least (steps + 1) value) [] rest P := by
  obtain ⟨k, others, rfl⟩ := List.exists_cons_of_ne_nil hr.ne_nil
  have hk := (hrest k rfl).2
  refine Reads.bind_known (reads_peek rfl) ?_
  cases hop : k.binary? with
  | none => exact reads_pure hvalue
  | some op =>
    dsimp only
    rw [if_pos (hk op hop)]
    exact reads_pure hvalue

theorem Joins.reads_exprRule {least : Nat} (h : r.Joins least ks rest P)
    (hsteps : ks.length < r.steps) (hr : Ended rest) (hrest : Stops least rest) :
    Reads (r.exprRule least) ks rest P :=
  h.reads hsteps fun _ _ hvalue => reads_operators_nil hr hrest hvalue

/-! ### Primary expressions -/

theorem reads_primary_parens (h : Reads (r.expr 0) ks (.symbol .rightParen :: rest) P)
    (hr : Ended rest) :
    Reads r.primary (.symbol .leftParen :: (ks ++ [.symbol .rightParen])) rest P := by
  refine Reads.bind_known (reads_peek rfl) ?_
  refine Reads.bind_cons (reads_advance (hr.append _)) fun _ _ => ?_
  refine Reads.bind h fun inner hinner => ?_
  exact Reads.bind_cons (reads_expect hr) fun _ _ => reads_pure hinner

/-- An array without elements. -/
theorem reads_primary_emptyArray {depth : Nat} {type : Tree.TypeExpr} (h : IsType ks type)
    (hr : Ended rest)
    (hdepth : (ks ++ .symbol .rightBracket :: .symbol .leftParen :: .symbol .rightParen ::
      rest).length < depth) :
    Reads (unfold depth).primary (.symbol .leftBracket :: (ks ++
      [.symbol .rightBracket, .symbol .leftParen, .symbol .rightParen])) rest
      fun value => value.bare = .emptyArray type default := by
  refine Reads.bind_known (reads_peek rfl) ?_
  refine Reads.bind_cons (reads_advance (hr.append _)) fun start _ => ?_
  rw [← List.append_nil (ks ++ _)]
  refine Reads.bind (reads_emptyArray h hr hdepth).attempt fun found hfound => ?_
  obtain ⟨⟨element, stop⟩, rfl, helement⟩ := hfound
  exact reads_pure (by rw [Tree.Expr.bare, helement])

/-- An array literal.  If a type stands between its brackets, no empty parentheses come behind. -/
theorem reads_primary_array {depth : Nat} {P' : List Tree.Expr → Prop}
    (h : Reads (commaItems .rightBracket ((unfold depth).expr 0) (unfold depth).steps) ks
      (.symbol .rightBracket :: rest) P')
    (hks : Balanced ks) (hdepth : (ks ++ .symbol .rightBracket :: rest).length < depth)
    (hparens : ∀ type, IsType ks type → ∀ others,
      rest ≠ .symbol .leftParen :: .symbol .rightParen :: others)
    (hr : Ended rest) (hQ : ∀ es span, P' es → Q (.array es span)) :
    Reads (unfold depth).primary (.symbol .leftBracket :: (ks ++ [.symbol .rightBracket])) rest
      Q := by
  have hempty : Reads (attempt (unfold depth).emptyArray) []
      ((ks ++ [.symbol .rightBracket]) ++ rest) (· = none) := by
    intro cursor hc
    have hkinds : cursor.kinds = ks ++ .symbol .rightBracket :: rest := by simpa using hc
    exact ⟨none, cursor, attempt_emptyArray hkinds hks hr (by rwa [hkinds]) hparens, hc, rfl⟩
  refine Reads.bind_known (reads_peek rfl) ?_
  refine Reads.bind_cons (reads_advance (hr.append _)) fun start _ => ?_
  refine Reads.bind_known hempty ?_
  refine Reads.bind h fun es hes => ?_
  exact Reads.bind_cons (reads_expect hr) fun stop _ => reads_pure (hQ es _ hes)

end Rules

end TypedImp.Grammar
