import TypedImp.Proofs.Grammar.Completeness

/-!
# Reading the expressions of a program

The tokens of a type are a type of the grammar (`Entities.isType`), and those of an expression
are an expression of the grammar (**`Expr.derives`**), with one difference between its tree and
that of the program: a listing has no parentheses around an expression with a sign that is the
left operand of a binary one.  For every operator but `**` none are needed, since all others
bind less tightly than the sign.  A power takes the operand of the sign as its own left operand,
which is what `Tree.Expr.signedPower` says.

In front of its operand a sign has parentheses around another sign.  So what stands behind
a sign is always a primary expression with suffixes; these are the `primaryKinds` of an
expression.
-/

namespace TypedImp

open Listing Grammar Grammar.Parser
open TypedImp.Token (Kind numberKinds_of_plain asRead_eq_self)

variable {E : Entities}

/-! ### Types -/

namespace Entities

/-- **The tokens of a type are its type expression.** -/
theorem isType (E : Entities) : ∀ ty : Ty, IsType (E.typeKinds ty) (E.typeTree ty)
  | .number | .string | .bool | .void | .any | .struct _ => .named _
  | .array element => (isType E element).array
  | .function params result => by
    have hparams : ∀ p ∈ params.map fun ty => (E.typeKinds ty, E.typeTree ty), IsType p.1 p.2 := by
      intro p hp
      obtain ⟨ty, hty, rfl⟩ := List.mem_map.mp hp
      exact isType E ty
    have hkinds : Separated ((params.map fun ty => (E.typeKinds ty, E.typeTree ty)).map Prod.fst)
        (commas (params.map E.typeKinds)) := by
      rw [List.map_map]
      exact separated_commas _
    have h := IsType.function hparams hkinds (isType E result)
    rw [List.map_map] at h
    rw [typeKinds, typeTree, typeKindsAll_eq_map, typeTrees_eq_map]
    exact h

end Entities

/-! ### Expressions behind a sign -/

namespace Expr

def primaryKinds (E : Entities) (e : Expr) : List Kind :=
  if e.isUnary then .symbol .leftParen :: (e.kinds E ++ [.symbol .rightParen]) else e.kinds E

theorem kinds_unary (op : UnaryOp) (e : Expr) (ty : Ty) :
    (unary op e ty).kinds E = .symbol op.symbol :: e.primaryKinds E := by
  rw [kinds, primaryKinds]

theorem exists_unary {e : Expr} (h : e.isUnary = true) : ∃ op x ty, e = .unary op x ty := by
  cases e <;> first | exact ⟨_, _, _, rfl⟩ | cases h

/-! ### Derivations -/

def level (e : Expr) : Level := if e.isUnary then .unary else .suffixed

/-- **The tokens of an expression are one of the grammar**, and that has its tree but for signed
powers. -/
def IsDerived (E : Entities) (e : Expr) : Prop :=
  Derives e.level (e.kinds E) (e.tree E Tree.Expr.signedPower)

variable {e l r : Expr}

theorem isDerived_of_suffixed (hu : e.isUnary = false)
    (h : Derives .suffixed (e.kinds E) (e.tree E Tree.Expr.signedPower)) : e.IsDerived E := by
  rwa [IsDerived, level, hu]

/-- An expression may be an operand of every binary operator but `**`. -/
theorem IsDerived.ofLeast (h : e.IsDerived E) (least : Nat) :
    Derives (.ofLeast least) (e.kinds E) (e.tree E Tree.Expr.signedPower) := by
  have hunary : Level.unary.rank ≤ e.level.rank := by
    rw [level]
    split <;> decide
  refine h.loosen (Nat.le_trans ?_ hunary)
  rw [Level.rank_ofLeast, Level.rank]
  omega

theorem IsDerived.suffixed (h : e.IsDerived E) (hu : e.isUnary = false) :
    Derives .suffixed (e.kinds E) (e.tree E Tree.Expr.signedPower) := by
  rwa [IsDerived, level, hu] at h

/-- Behind a sign an expression is primary. -/
theorem IsDerived.primaryKinds (h : e.IsDerived E) :
    Derives .suffixed (e.primaryKinds E) (e.tree E Tree.Expr.signedPower) := by
  rw [Expr.primaryKinds]
  split
  · exact (Derives.parens (h.ofLeast 0)).loosen (by decide)
  · rename_i hu
    exact h.suffixed (Bool.not_eq_true _ ▸ hu)

/-- **Two operands within parentheses** are one expression, in which a sign of the left one
stands in front if the operator is `**`. -/
theorem IsDerived.binary (hl : l.IsDerived E) (hr : r.IsDerived E)
    (hsign : ∀ op x ty, l = .unary op x ty → x.IsDerived E) (op : BinaryOp) (ty : Ty) :
    (Expr.binary op l r ty).IsDerived E := by
  have hinner : Derives .or (l.kinds E ++ .symbol op.symbol :: r.kinds E)
      ((Expr.binary op l r ty).tree E Tree.Expr.signedPower) := by
    by_cases hsigned : (op == .pow && l.isUnary) = true
    · obtain ⟨hpow, hunary⟩ := Bool.and_eq_true_iff.mp hsigned
      obtain rfl := eq_of_beq hpow
      obtain ⟨sign, x, ty', rfl⟩ := exists_unary hunary
      have hpower := Derives.power (hsign sign x ty' rfl).primaryKinds (hr.ofLeast 7)
      rw [tree, if_pos hsigned, tree, Tree.Expr.signedPower, kinds_unary]
      exact (Derives.sign sign hpower).loosen (by decide)
    · have hleft : Derives (.leftOf op) (l.kinds E) (l.tree E Tree.Expr.signedPower) := by
        rw [Level.leftOf]
        split
        · rename_i hpow
          subst hpow
          exact hl.suffixed (by simpa using hsigned)
        · exact hl.ofLeast _
      rw [tree, if_neg hsigned]
      exact (hleft.join (hr.ofLeast _)).loosen (by rw [Level.rank_ofLeast, Level.rank]; omega)
  refine isDerived_of_suffixed rfl ?_
  rw [kinds]
  simpa using hinner.parens.loosen (by decide)

theorem isUnary_of_takesSuffix (h : e.takesSuffix = true) : e.isUnary = false := by
  cases e <;> first | rfl | cases h

/-- What takes a suffix and is no array literal is not a type between brackets. -/
theorem not_isBracketedType (hparts : ∀ part ∈ e.parts, part.IsDerived E)
    (hsuffix : e.takesSuffix = true) (harray : e.isArray = false) :
    ¬ IsBracketedType (e.kinds E) := by
  have happend (part : Expr) (hp : part ∈ e.parts) (ks : List Kind) (hks : ks ≠ []) :
      ¬ IsBracketedType (part.kinds E ++ ks) :=
    not_isBracketedType_append (hparts part hp).balanced (hparts part hp).ne_nil hks
  have hhead (k : Kind) (ks : List Kind) (hk : k ≠ .symbol .leftBracket) :
      ¬ IsBracketedType (k :: ks) := by
    rintro ⟨inner, type, -, heq⟩
    exact hk (List.cons.inj heq).1
  cases e with
  | number | unary => cases hsuffix
  | array => cases harray
  | string | var | func | struct => exact hhead _ _ (by simp)
  | bool value => cases value <;> exact hhead _ _ (by simp)
  | binary => exact hhead _ _ (by simp)
  | call f => exact happend f List.mem_cons_self _ (by simp)
  | member o => exact happend o (by simp [parts]) _ (by simp)
  | subscript a => exact happend a (by simp [parts]) _ (by simp)

/-- Expressions with their tokens and trees. -/
theorem derives_items {es : List Expr} (hes : ∀ e ∈ es, e.IsDerived E) :
    ∃ items : List (List Kind × Tree.Expr),
      items.map Prod.snd = treeAll E Tree.Expr.signedPower es ∧
        Separated (items.map Prod.fst) (commas (kindsAll E es)) ∧
          ∀ p ∈ items, Derives .or p.1 p.2 := by
  refine ⟨es.map fun e => (e.kinds E, e.tree E Tree.Expr.signedPower), ?_, ?_, ?_⟩
  · rw [List.map_map, treeAll_eq_map]
    rfl
  · rw [List.map_map, kindsAll_eq_map]
    exact separated_commas _
  · intro p hp
    obtain ⟨e, he, rfl⟩ := List.mem_map.mp hp
    exact (hes e he).ofLeast 0

/-- The token of a number that is read as it is. -/
theorem ReadsBack.kinds_number {value : Float} {ty : Ty} (h : (number value ty).ReadsBack) :
    (number value ty).kinds E = [.number value] := by
  rw [kinds, numberKinds_of_plain h]

theorem ReadsBack.kinds_string {value : String} {ty : Ty} (h : (string value ty).ReadsBack) :
    (string value ty).kinds E = [.string value] := by
  rw [kinds, asRead_eq_self h]

/-- One step of the induction. -/
theorem isDerived_of_nested (e : Expr) (h : e.Readable E)
    (hnested : ∀ part ∈ e.parts, ∀ x ∈ part.nested, x.IsDerived E) : e.IsDerived E := by
  have hparts (part : Expr) (hp : part ∈ e.parts) : part.IsDerived E :=
    hnested part hp part part.mem_nested_self
  cases e with
  | number value =>
    refine isDerived_of_suffixed rfl ?_
    rw [h.2.kinds_number]
    exact (Derives.number value).loosen (by decide)
  | string value =>
    refine isDerived_of_suffixed rfl ?_
    rw [h.2.kinds_string]
    exact (Derives.string value).loosen (by decide)
  | bool value => exact isDerived_of_suffixed rfl ((Derives.bool value).loosen (by decide))
  | var id | func id | struct id =>
    exact isDerived_of_suffixed rfl ((Derives.name _).loosen (by decide))
  | binary op l r ty =>
    refine (hparts l (by simp [parts])).binary (hparts r (by simp [parts])) ?_ op ty
    rintro sign x ty' rfl
    exact hnested (.unary sign x ty') (by simp [parts]) x
      (mem_nested_of_part (List.mem_singleton_self x) x.mem_nested_self)
  | unary op x ty =>
    have hx : Derives .unary (x.primaryKinds E) (x.tree E Tree.Expr.signedPower) :=
      (hparts x (by simp [parts])).primaryKinds.loosen (by decide)
    rw [IsDerived, kinds_unary, tree]
    exact .sign op hx
  | array es ty =>
    cases es with
    | nil =>
      obtain ⟨element, rfl, -⟩ := h.1
      have hempty := Derives.emptyArray (E.isType element)
      refine isDerived_of_suffixed rfl ?_
      rw [kinds, Entities.typeKinds, tree, Entities.emptyArrayTree]
      simpa using hempty.loosen (by decide)
    | cons e es =>
      obtain ⟨items, hitems, hkinds, hall⟩ := derives_items hparts
      have harray := Derives.array hall hkinds
      rw [hitems] at harray
      exact isDerived_of_suffixed rfl (harray.loosen (by decide))
  | call f args ty =>
    obtain ⟨hsuffix, harray⟩ := h.1
    have hf := (hparts f List.mem_cons_self).suffixed (isUnary_of_takesSuffix hsuffix)
    have hfirst : ¬ IsBracketedType (f.kinds E) :=
      not_isBracketedType (fun part hp => hnested f List.mem_cons_self part
        (mem_nested_of_part hp part.mem_nested_self)) hsuffix harray
    obtain ⟨items, hitems, hkinds, hall⟩ :=
      derives_items fun e he => hparts e (List.mem_cons_of_mem f he)
    have hcall := Derives.call hf hall hkinds fun _ => hfirst
    rw [hitems] at hcall
    exact isDerived_of_suffixed rfl hcall
  | member o field ty =>
    have ho := (hparts o (by simp [parts])).suffixed (isUnary_of_takesSuffix h.1.1)
    exact isDerived_of_suffixed rfl (.member field ho)
  | subscript a i ty =>
    have ha := (hparts a (by simp [parts])).suffixed (isUnary_of_takesSuffix h.1)
    exact isDerived_of_suffixed rfl (.subscript ha ((hparts i (by simp [parts])).ofLeast 0))

/-- **The tokens of every expression are one of the grammar**, as are those of all expressions
within it. -/
theorem derives (e : Expr) (h : ∀ e' ∈ e.nested, e'.Readable E) :
    ∀ x ∈ e.nested, x.IsDerived E := by
  induction e using parts_induction with
  | step e ih =>
    have hnested (part : Expr) (hp : part ∈ e.parts) : ∀ x ∈ part.nested, x.IsDerived E :=
      ih part hp (forall_nested_of_part h part hp)
    intro x hx
    rcases mem_nested_iff.mp hx with rfl | ⟨part, hp, hx⟩
    · exact isDerived_of_nested x (h x x.mem_nested_self) hnested
    · exact hnested part hp x hx

end Expr

end TypedImp
