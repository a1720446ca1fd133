import TypedImp.Proofs.Grammar.Derivation

/-!
# What is read as an expression is one

Each rule for expressions yields only what the grammar derives, if the parsers below it do.
`ExprYields depth N` says this of those below, for all places with fewer than `N` tokens: what
is read with a least precedence is of the level of that precedence, and nothing comes behind
that would go on with it.  One induction on the depth closes the knot (**`yieldsAt_expr`**).

The two loops need more of the tokens passed so far than that they are an expression.  The one
for suffixes has to know that a type between brackets is not followed by empty parentheses; it
would have been read as an array without elements.  The one for operators has to know that the
operator that comes next, whichever it is, may stand behind them: behind a sign or a power no
further power comes, since the operand has taken it in.
-/

namespace TypedImp.Grammar.Rules

open TypedImp.Token (Kind)
open TypedImp.Grammar.Parser

variable {depth : Nat} {cursor : Cursor}

def ExprYields (depth N : Nat) : Prop :=
  ∀ place : Cursor, Ended place.kinds → place.kinds.length < N → ∀ least,
    YieldsAt ((unfold depth).expr least) place fun ks e rest =>
      Derives (.ofLeast least) ks e.bare ∧ Stops least rest

/-- No type between brackets is followed by empty parentheses. -/
def TakesEmptyArray (ks rest : List Kind) : Prop :=
  IsBracketedType ks → ∀ others, rest ≠ .symbol .leftParen :: .symbol .rightParen :: others

theorem takesEmptyArray_append {ks ks' rest : List Kind} (h : Balanced ks) (hks : ks ≠ [])
    (hks' : ks' ≠ []) : TakesEmptyArray (ks ++ ks') rest :=
  fun hbracketed => absurd hbracketed (not_isBracketedType_append h hks hks')

theorem takesEmptyArray_of_head {k : Kind} {ks rest : List Kind} (hk : k ≠ .symbol .leftBracket) :
    TakesEmptyArray (k :: ks) rest := by
  rintro ⟨inner, type, -, heq⟩
  exact absurd (List.cons.inj heq).1 hk

/-- Expressions with commas between them, up to a closing bracket. -/
theorem ExprYields.commaItems (h : ExprYields depth cursor.kinds.length) {place : Cursor}
    (hplace : Ended place.kinds) (hlt : place.kinds.length < cursor.kinds.length)
    (hdepth : cursor.kinds.length ≤ depth) (closing : Symbol) :
    YieldsAt (commaItems closing ((unfold depth).expr 0) (unfold depth).steps) place
      fun ks values _ => ∃ items : List (List Kind × Tree.Expr),
        items.map Prod.snd = Tree.Expr.bareAll values ∧
          Separated (items.map Prod.fst) ks ∧ ∀ q ∈ items, Derives .or q.1 q.2 := by
  have hitem (place' : Cursor) (hplace' : Ended place'.kinds)
      (hle : place'.kinds.length ≤ place.kinds.length) :
      YieldsAt ((unfold depth).expr 0) place' fun ks value _ =>
        ks ≠ [] ∧ Derives .or ks value.bare :=
    (h place' hplace' (by omega) 0).mono fun ks value rest _ hv => ⟨hv.1.ne_nil, hv.1⟩
  simp only [Tree.Expr.bareAll_eq_map]
  refine yieldsAt_commaItems closing Tree.Expr.bare hitem hplace (Nat.le_refl _) ?_
  rw [steps_unfold]
  omega

/-! ### Primary expressions -/

theorem yieldsAt_array (h : ExprYields depth cursor.kinds.length) (hc : Ended cursor.kinds)
    (hdepth : cursor.kinds.length ≤ depth) (hk : cursor.current.kind = .symbol .leftBracket) :
    YieldsAt (unfold depth).array cursor fun ks e rest =>
      Derives .primary ks e.bare ∧ TakesEmptyArray ks rest := by
  refine (yieldsAt_advance hk (by simp) hc).bind ?_
  rintro _ start place₁ hkinds₁ h₁ rfl
  have hlt : place₁.kinds.length < cursor.kinds.length := by rw [hkinds₁]; simp
  refine ((yieldsAt_emptyArray h₁ (show place₁.kinds.length < depth by omega)).attempt h₁).bind ?_
  rintro ks (_ | ⟨element, stop⟩) place₂ hkinds₂ h₂ hfound
  · obtain ⟨rfl, hfails⟩ := hfound
    rw [List.nil_append] at hkinds₂
    rw [hkinds₂] at hlt
    refine (h.commaItems h₂ hlt hdepth .rightBracket).bind ?_
    rintro inner values place₃ hkinds₃ h₃ ⟨items, hitems, hinner, hall⟩
    refine (yieldsAt_expect h₃).bind ?_
    rintro _ stop place₄ hkinds₄ h₄ rfl
    refine yieldsAt_pure h₄ ⟨?_, ?_⟩
    · rw [Tree.Expr.bare, ← hitems]
      simpa using Derives.array hall hinner
    · -- A type and empty parentheses would have been read as an array without elements.
      rintro ⟨inner', type, htype, heq⟩ others hothers
      have heq' : inner = inner' := by simpa using heq
      have hkinds : place₁.kinds = (inner' ++
          [.symbol .rightBracket, .symbol .leftParen, .symbol .rightParen]) ++ others := by
        rw [hkinds₂, hkinds₃, hkinds₄, hothers, heq']
        simp
      have hended : Ended others := by
        rw [hothers] at h₄
        exact (h₄.tail (by simp)).tail (by simp)
      have hshort : place₁.kinds.length < depth := by
        rw [hkinds₂]
        omega
      rw [hkinds] at hshort
      obtain ⟨found, behind, hdone, -⟩ :=
        reads_emptyArray htype hended (by simpa using hshort) place₁ hkinds
      exact hfails found behind hdone
  · obtain ⟨inner, htype, rfl⟩ := hfound
    have hbrackets : Balanced (.symbol .leftBracket :: (inner ++ [.symbol .rightBracket])) :=
      htype.balanced.within rfl rfl rfl
    have hempty : TakesEmptyArray ((.symbol .leftBracket :: (inner ++ [.symbol .rightBracket])) ++
        [.symbol .leftParen, .symbol .rightParen]) place₂.kinds :=
      takesEmptyArray_append hbrackets (by simp) (by simp)
    refine yieldsAt_pure h₂ ?_
    rw [Tree.Expr.bare]
    exact ⟨by simpa using Derives.emptyArray htype, by simpa using hempty⟩

theorem yieldsAt_primary (h : ExprYields depth cursor.kinds.length) (hc : Ended cursor.kinds)
    (hdepth : cursor.kinds.length ≤ depth) :
    YieldsAt (unfold depth).primary cursor fun ks e rest =>
      Derives .primary ks e.bare ∧ TakesEmptyArray ks rest := by
  refine yieldsAt_peek_bind ?_
  cases hk : cursor.current.kind with
  | number value =>
    refine (yieldsAt_advance hk (by simp) hc).bind ?_
    rintro _ span place - hplace rfl
    exact yieldsAt_pure hplace ⟨.number value, takesEmptyArray_of_head (by simp)⟩
  | string value =>
    refine (yieldsAt_advance hk (by simp) hc).bind ?_
    rintro _ span place - hplace rfl
    exact yieldsAt_pure hplace ⟨.string value, takesEmptyArray_of_head (by simp)⟩
  | name text =>
    refine (yieldsAt_identifier hc).bind ?_
    rintro _ name place - hplace rfl
    exact yieldsAt_pure hplace ⟨.name name.text, takesEmptyArray_of_head (by simp)⟩
  | symbol s =>
    cases s with
    | trueWord =>
      refine (yieldsAt_advance hk (by simp) hc).bind ?_
      rintro _ span place - hplace rfl
      exact yieldsAt_pure hplace ⟨.bool true, takesEmptyArray_of_head (by simp)⟩
    | falseWord =>
      refine (yieldsAt_advance hk (by simp) hc).bind ?_
      rintro _ span place - hplace rfl
      exact yieldsAt_pure hplace ⟨.bool false, takesEmptyArray_of_head (by simp)⟩
    | leftParen =>
      refine (yieldsAt_advance hk (by simp) hc).bind ?_
      rintro _ _ place hkinds hplace rfl
      refine (h place hplace (by rw [hkinds]; simp) 0).bind ?_
      rintro ks inner place₂ - h₂ ⟨hinner, -⟩
      refine (yieldsAt_expect h₂).bind ?_
      rintro _ _ place₃ - h₃ rfl
      exact yieldsAt_pure h₃ ⟨by simpa using hinner.parens, takesEmptyArray_of_head (by simp)⟩
    | leftBracket => exact yieldsAt_array h hc hdepth hk
    | _ => exact yieldsAt_failed rfl
  | _ => exact yieldsAt_failed rfl

/-! ### Operands -/

theorem yieldsAt_suffixes (h : ExprYields depth cursor.kinds.length)
    (hdepth : cursor.kinds.length ≤ depth) {place : Cursor} (hplace : Ended place.kinds)
    (hle : place.kinds.length ≤ cursor.kinds.length) {steps : Nat}
    (hsteps : place.kinds.length ≤ steps) {ks : List Kind} {e : Tree.Expr}
    (he : Derives .suffixed ks e.bare) (hempty : TakesEmptyArray ks place.kinds) :
    YieldsAt ((unfold depth).suffixes steps e) place fun ks' e' rest =>
      Derives .suffixed (ks ++ ks') e'.bare ∧ ∀ k ∈ rest.head?, startsSuffix k = false := by
  induction steps generalizing place ks e with
  | zero =>
    rw [Cursor.kinds, List.length_cons] at hsteps
    omega
  | succ steps ih =>
    have hlast (hk : startsSuffix place.current.kind = false) :
        YieldsAt (pure e) place fun ks' e' rest =>
          Derives .suffixed (ks ++ ks') e'.bare ∧ ∀ k ∈ rest.head?, startsSuffix k = false := by
      refine yieldsAt_pure hplace ⟨by rwa [List.append_nil], fun k hk' => ?_⟩
      cases hk'
      exact hk
    refine yieldsAt_peek_bind ?_
    cases hk : place.current.kind with
    | symbol s =>
      cases s with
      | leftParen =>
        refine (yieldsAt_advance hk (by simp) hplace).bind ?_
        rintro _ _ place₁ hkinds₁ h₁ rfl
        have hlt₁ : place₁.kinds.length < place.kinds.length := by rw [hkinds₁]; simp
        refine (h.commaItems h₁ (by omega) hdepth .rightParen).bind ?_
        rintro inner values place₂ hkinds₂ h₂ ⟨items, hitems, hinner, hall⟩
        refine (yieldsAt_expect h₂).bind ?_
        rintro _ stop place₃ hkinds₃ h₃ rfl
        have hcall : Derives .suffixed
            (ks ++ .symbol .leftParen :: (inner ++ [.symbol .rightParen]))
            (Tree.Expr.call e values (e.span.merge stop)).bare := by
          rw [Tree.Expr.bare, ← hitems]
          refine .call he hall hinner ?_
          rintro rfl hbracketed
          refine hempty hbracketed place₃.kinds ?_
          rw [hkinds₁, hkinds₂, hkinds₃]
          rfl
        have hlt₃ : place₃.kinds.length < place₁.kinds.length := by
          rw [hkinds₂, hkinds₃]
          simp only [List.length_append, List.length_cons]
          omega
        refine (ih h₃ (by omega) (by omega) hcall
          (takesEmptyArray_append he.balanced he.ne_nil (by simp))).mono ?_
        rintro ks' e' rest - hv
        simpa using hv
      | dot =>
        refine (yieldsAt_advance hk (by simp) hplace).bind ?_
        rintro _ _ place₁ hkinds₁ h₁ rfl
        refine (yieldsAt_identifier h₁).bind ?_
        rintro _ field place₂ hkinds₂ h₂ rfl
        have hlt : place₂.kinds.length < place.kinds.length := by
          rw [hkinds₁, hkinds₂]
          simp only [List.length_append, List.length_cons]
          omega
        refine (ih h₂ (by omega) (by omega) (.member field.text he)
          (takesEmptyArray_append he.balanced he.ne_nil (by simp))).mono ?_
        rintro ks' e' rest - hv
        simpa using hv
      | leftBracket =>
        refine (yieldsAt_advance hk (by simp) hplace).bind ?_
        rintro _ _ place₁ hkinds₁ h₁ rfl
        have hlt₁ : place₁.kinds.length < place.kinds.length := by rw [hkinds₁]; simp
        refine (h place₁ h₁ (by omega) 0).bind ?_
        rintro inner index place₂ hkinds₂ h₂ ⟨hindex, -⟩
        refine (yieldsAt_expect h₂).bind ?_
        rintro _ stop place₃ hkinds₃ h₃ rfl
        have hlt₃ : place₃.kinds.length < place₁.kinds.length := by
          rw [hkinds₂, hkinds₃]
          simp only [List.length_append, List.length_cons]
          omega
        refine (ih h₃ (by omega) (by omega) (.subscript he hindex)
          (takesEmptyArray_append he.balanced he.ne_nil (by simp))).mono ?_
        rintro ks' e' rest - hv
        simpa using hv
      | _ => exact hlast (by rw [hk]; rfl)
    | _ => exact hlast (by rw [hk]; rfl)

/-- Behind an operand no suffix comes, and a power only if it has no sign. -/
theorem yieldsAt_operand (h : ExprYields depth cursor.kinds.length) (hc : Ended cursor.kinds)
    (hdepth : cursor.kinds.length ≤ depth) :
    YieldsAt (unfold depth).operand cursor fun ks e rest =>
      (∀ k ∈ rest.head?, startsSuffix k = false) ∧ Derives .unary ks e.bare ∧
        (rest.head? = some (.symbol .starStar) → Derives .suffixed ks e.bare) := by
  refine yieldsAt_peek_bind ?_
  cases hop : cursor.current.kind.unary? with
  | some op =>
    refine (yieldsAt_advance (unary?_eq_some_iff.mp hop) (by simp) hc).bind ?_
    rintro _ start place hkinds hplace rfl
    refine (h place hplace (by rw [hkinds]; simp) _).bind ?_
    rintro ks operand last - hl ⟨hoperand, hstops⟩
    refine yieldsAt_pure hl ⟨hstops.head, ?_, fun hstar => ?_⟩
    · rw [List.append_nil]
      exact .sign op hoperand
    · exact absurd ((hstops _ hstar).2 .pow rfl) (by decide)
  | none =>
    refine (yieldsAt_primary h hc hdepth).bind ?_
    rintro ks first place hkinds hplace ⟨hfirst, hempty⟩
    have hle : place.kinds.length ≤ cursor.kinds.length := by rw [hkinds]; simp
    refine (yieldsAt_suffixes h hdepth hplace hle (by rw [steps_unfold]; omega)
      (hfirst.loosen (by decide)) hempty).mono ?_
    rintro ks' e rest - ⟨he, hrest⟩
    exact ⟨hrest, he.loosen (by decide), fun _ => he⟩

/-! ### Operators -/

theorem yieldsAt_operators {least : Nat} (h : ExprYields depth cursor.kinds.length)
    {place : Cursor} (hplace : Ended place.kinds)
    (hle : place.kinds.length ≤ cursor.kinds.length) {steps : Nat}
    (hsteps : place.kinds.length ≤ steps) {ks : List Kind} {left : Tree.Expr}
    (hsuffix : startsSuffix place.current.kind = false)
    (hleft : Derives (.ofLeast least) ks left.bare)
    (hnext : ∀ op ∈ place.current.kind.binary?, Derives (.leftOf op) ks left.bare) :
    YieldsAt ((unfold depth).operators least steps left) place fun ks' e rest =>
      Derives (.ofLeast least) (ks ++ ks') e.bare ∧ Stops least rest := by
  induction steps generalizing place ks left with
  | zero =>
    rw [Cursor.kinds, List.length_cons] at hsteps
    omega
  | succ steps ih =>
    have hlast (hop : ∀ op ∈ place.current.kind.binary?, op.precedence < least) :
        YieldsAt (pure left) place fun ks' e rest =>
          Derives (.ofLeast least) (ks ++ ks') e.bare ∧ Stops least rest :=
      yieldsAt_pure hplace ⟨by rwa [List.append_nil], stops_cons _ hsuffix hop⟩
    refine yieldsAt_peek_bind ?_
    cases hop : place.current.kind.binary? with
    | none => exact hlast (by rw [hop]; simp)
    | some op =>
      dsimp only
      by_cases hleast : op.precedence < least
      · rw [if_pos hleast]
        exact hlast (by rw [hop]; simpa using hleast)
      · rw [if_neg hleast]
        refine (yieldsAt_advance (binary?_eq_some_iff.mp hop) (by simp) hplace).bind ?_
        rintro _ _ place₁ hkinds₁ h₁ rfl
        have hlt₁ : place₁.kinds.length < place.kinds.length := by rw [hkinds₁]; simp
        refine (h place₁ h₁ (by omega) _).bind ?_
        rintro ks' right place₂ hkinds₂ h₂ ⟨hright, hstops⟩
        have hjoined := (hnext op hop).join hright
        have hle₂ : place₂.kinds.length ≤ place₁.kinds.length := by rw [hkinds₂]; simp
        have hhead := hstops place₂.current.kind rfl
        refine (ih h₂ (by omega) (by omega) hhead.1 (hjoined.loosen ?_) fun op' hop' =>
          hjoined.loosen (Level.rank_leftOf_le (hhead.2 op' hop'))).mono ?_
        · rw [Level.rank_ofLeast, Level.rank_ofLeast]
          omega
        · rintro ks'' e rest - hv
          simpa using hv

theorem yieldsAt_exprRule {least : Nat} (h : ExprYields depth cursor.kinds.length)
    (hc : Ended cursor.kinds) (hdepth : cursor.kinds.length ≤ depth) :
    YieldsAt ((unfold depth).exprRule least) cursor fun ks e rest =>
      Derives (.ofLeast least) ks e.bare ∧ Stops least rest := by
  refine (yieldsAt_operand h hc hdepth).bind ?_
  rintro ks first place hkinds hplace ⟨hsuffix, hunary, hpower⟩
  have hle : place.kinds.length ≤ cursor.kinds.length := by rw [hkinds]; simp
  have hloosen (n : Nat) : Derives (.ofLeast n) ks first.bare :=
    hunary.loosen (by rw [Level.rank_ofLeast, Level.rank]; omega)
  refine yieldsAt_operators h hplace hle (by rw [steps_unfold]; omega)
    (hsuffix _ rfl) (hloosen least) fun op hop => ?_
  by_cases hpow : op = .pow
  · subst hpow
    exact hpower (congrArg some (binary?_eq_some_iff.mp hop))
  · rw [Level.leftOf, if_neg hpow]
    exact hloosen _

/-- **What is read as an expression is one**, it is read as far as possible, and there are enough
steps to read it. -/
theorem yieldsAt_expr (depth : Nat) (hc : Ended cursor.kinds)
    (hdepth : cursor.kinds.length < depth) (least : Nat) :
    YieldsAt ((unfold depth).expr least) cursor fun ks e rest =>
      Derives (.ofLeast least) ks e.bare ∧ Stops least rest := by
  induction depth generalizing cursor least with
  | zero => omega
  | succ depth ih =>
    have hbelow : ExprYields depth cursor.kinds.length :=
      fun place hplace hlt least => ih hplace (by omega) least
    exact yieldsAt_exprRule hbelow hc (by omega)

end TypedImp.Grammar.Rules
