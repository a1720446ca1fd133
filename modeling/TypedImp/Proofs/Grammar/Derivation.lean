import TypedImp.Proofs.Grammar.Precedence

/-!
# The grammar of expressions

`Derives l ks e` says that the tokens `ks` are an expression of the level `l`, with the tree
`e`.  There is one level for each precedence, and each is built from the next one:

    or       = and ('||' and)*
    and      = equality ('&&' equality)*
    equality = ordering (('==' | '!=') ordering)*
    ordering = sum (('<' | '<=' | '>' | '>=') sum)*
    sum      = product (('+' | '-') product)*
    product  = unary (('*' | '/') unary)*
    unary    = ('-' | '!') unary | suffixed ['**' unary]
    suffixed = primary ('(' args ')' | '.' name | '[' or ']')*
    primary  = number | string | 'true' | 'false' | name | '(' or ')'
             | '[' type ']' '(' ')' | '[' elements ']'
    args     = elements = [ or (',' or)* [','] ]

The operators of the first six levels group to the left: what stands left of one is of the
same level, what stands right of it of the next.  One text has two readings, since `[x]()` is
an array without elements as well as a call of an array literal.  The first one has priority,
and `Derives.call` leaves the second one out.

The rules of the grammar know precedences only as numbers.  `Level.ofLeast` is the level of
the expressions that are read with a least precedence, and `Derives.join` says what an operator
makes of its operands.
-/

namespace TypedImp.Grammar

open TypedImp.Token (Kind)

/-! ### Levels -/

inductive Level where
  | or | and | equality | ordering | sum | product | unary | suffixed | primary
deriving DecidableEq

namespace Level

def next : Level → Level
  | or => and
  | and => equality
  | equality => ordering
  | ordering => sum
  | sum => product
  | product => unary
  | unary => suffixed
  | suffixed | primary => primary

def operators : Level → List BinaryOp
  | or => [.or]
  | and => [.and]
  | equality => [.eq, .ne]
  | ordering => [.lt, .le, .gt, .ge]
  | sum => [.add, .sub]
  | product => [.mul, .div]
  | unary | suffixed | primary => []

def rank : Level → Nat
  | or => 1
  | and => 2
  | equality => 3
  | ordering => 4
  | sum => 5
  | product => 6
  | unary => 7
  | suffixed => 8
  | primary => 9

theorem eq_of_rank_eq {l l' : Level} (h : l.rank = l'.rank) : l = l' := by
  revert h
  cases l <;> cases l' <;> simp [rank]

theorem rank_next {l : Level} (h : l.rank < primary.rank) : l.next.rank = l.rank + 1 := by
  revert h
  cases l <;> simp [rank, next]

/-- The operators of a level have its precedence, and none of them is a power. -/
theorem precedence_of_mem_operators {l : Level} {op : BinaryOp} (h : op ∈ l.operators) :
    op.precedence = l.rank ∧ op.rightPrecedence = l.rank + 1 ∧ l.rank < unary.rank := by
  revert h
  cases l <;> cases op <;> decide

def ofLeast : Nat → Level
  | 0 | 1 => or
  | 2 => and
  | 3 => equality
  | 4 => ordering
  | 5 => sum
  | 6 => product
  | _ => unary

theorem rank_ofLeast (least : Nat) : (ofLeast least).rank = max 1 (min least 7) := by
  match least with
  | 0 | 1 | 2 | 3 | 4 | 5 | 6 => rfl
  | least + 7 =>
    show 7 = _
    omega

def leftOf (op : BinaryOp) : Level :=
  if op = .pow then suffixed else ofLeast op.precedence

/-- What an operator joins can stand left of every operator that its right operand left. -/
theorem rank_leftOf_le {op op' : BinaryOp} (h : op'.precedence < op.rightPrecedence) :
    (leftOf op').rank ≤ (ofLeast op.precedence).rank := by
  have hright : op.rightPrecedence ≤ BinaryOp.pow.precedence := by cases op <;> decide
  have hne : op' ≠ .pow := by
    rintro rfl
    exact absurd h (Nat.not_lt.mpr hright)
  have hle : op'.precedence ≤ op.precedence := by
    revert h
    cases op <;> simp only [BinaryOp.rightPrecedence, BinaryOp.precedence] <;> omega
  rw [leftOf, if_neg hne, rank_ofLeast, rank_ofLeast]
  omega

end Level

/-! ### Derivations -/

/-- **The grammar of expressions.** -/
inductive Derives : Level → List Kind → Tree.Expr → Prop where
  | tighter {l : Level} {ks : List Kind} {e : Tree.Expr} (h : Derives l.next ks e) :
    Derives l ks e
  | binary {l : Level} {ks ks' : List Kind} {left right : Tree.Expr} (op : BinaryOp)
    (hop : op ∈ l.operators) (hleft : Derives l ks left) (hright : Derives l.next ks' right) :
    Derives l (ks ++ .symbol op.symbol :: ks') (.binary op left right default)
  | sign {ks : List Kind} {e : Tree.Expr} (op : UnaryOp) (h : Derives .unary ks e) :
    Derives .unary (.symbol op.symbol :: ks) (.unary op e default)
  | power {ks ks' : List Kind} {left right : Tree.Expr} (hleft : Derives .suffixed ks left)
    (hright : Derives .unary ks' right) :
    Derives .unary (ks ++ .symbol .starStar :: ks') (.binary .pow left right default)
  /-- No empty arguments come behind what could be a type between brackets. -/
  | call {ks inner : List Kind} {callee : Tree.Expr} {args : List (List Kind × Tree.Expr)}
    (hcallee : Derives .suffixed ks callee) (hargs : ∀ p ∈ args, Derives .or p.1 p.2)
    (hinner : Separated (args.map Prod.fst) inner)
    (hfirst : inner = [] → ¬ IsBracketedType ks) :
    Derives .suffixed (ks ++ .symbol .leftParen :: (inner ++ [.symbol .rightParen]))
      (.call callee (args.map Prod.snd) default)
  | member {ks : List Kind} {object : Tree.Expr} (field : String)
    (hobject : Derives .suffixed ks object) :
    Derives .suffixed (ks ++ [.symbol .dot, .name field]) (.member object (.of field) default)
  | subscript {ks ks' : List Kind} {array index : Tree.Expr} (harray : Derives .suffixed ks array)
    (hindex : Derives .or ks' index) :
    Derives .suffixed (ks ++ .symbol .leftBracket :: (ks' ++ [.symbol .rightBracket]))
      (.subscript array index default)
  | number (value : Float) : Derives .primary [.number value] (.number value default)
  | string (value : String) : Derives .primary [.string value] (.string value default)
  | bool (value : Bool) :
    Derives .primary [.symbol (if value then .trueWord else .falseWord)] (.bool value default)
  | name (name : String) : Derives .primary [.name name] (.name (.of name))
  | parens {ks : List Kind} {e : Tree.Expr} (h : Derives .or ks e) :
    Derives .primary (.symbol .leftParen :: (ks ++ [.symbol .rightParen])) e
  | emptyArray {ks : List Kind} {element : Tree.TypeExpr} (h : IsType ks element) :
    Derives .primary (.symbol .leftBracket ::
      (ks ++ [.symbol .rightBracket, .symbol .leftParen, .symbol .rightParen]))
      (.emptyArray element default)
  | array {inner : List Kind} {elements : List (List Kind × Tree.Expr)}
    (helements : ∀ p ∈ elements, Derives .or p.1 p.2)
    (hinner : Separated (elements.map Prod.fst) inner) :
    Derives .primary (.symbol .leftBracket :: (inner ++ [.symbol .rightBracket]))
      (.array (elements.map Prod.snd) default)

namespace Derives

variable {l l' : Level} {ks ks' : List Kind} {e left right : Tree.Expr}

/-- **An expression of a level is one of every looser level.** -/
theorem loosen (h : Derives l ks e) (hle : l'.rank ≤ l.rank) : Derives l' ks e := by
  induction hn : l.rank - l'.rank generalizing l' with
  | zero => rwa [Level.eq_of_rank_eq (show l'.rank = l.rank by omega)]
  | succ n ih =>
    have hprimary : l.rank ≤ Level.primary.rank := by cases l <;> decide
    have hnext := Level.rank_next (show l'.rank < Level.primary.rank by omega)
    exact .tighter (ih (by omega) (by omega))

/-- **What an operator makes of its operands.** -/
theorem join {op : BinaryOp} (hleft : Derives (Level.leftOf op) ks left)
    (hright : Derives (.ofLeast op.rightPrecedence) ks' right) :
    Derives (.ofLeast op.precedence) (ks ++ .symbol op.symbol :: ks')
      (.binary op left right default) := by
  cases op with
  | pow => exact .power hleft hright
  | _ => exact .binary _ (by decide) hleft hright

/-- The first token of an expression; one that is not unary begins with no operator. -/
theorem eq_cons (h : Derives l ks e) : ∃ k others, ks = k :: others ∧
    Expr.startsExpr k = true ∧ (Level.unary.rank < l.rank → k.unary? = none) := by
  induction h with
  | @tighter l ks e h ih =>
    obtain ⟨k, others, hks, hstart, hunary⟩ := ih
    refine ⟨k, others, hks, hstart, fun hl => hunary (Nat.lt_of_lt_of_le hl ?_)⟩
    cases l <;> decide
  | @binary l ks ks' left right op hop hleft hright ihleft ihright =>
    obtain ⟨k, others, rfl, hstart, -⟩ := ihleft
    refine ⟨k, _, rfl, hstart, fun hl => ?_⟩
    have hlt := (Level.precedence_of_mem_operators hop).2.2
    omega
  | sign op h ih =>
    refine ⟨_, _, rfl, ?_, fun hl => absurd hl (Nat.lt_irrefl _)⟩
    cases op <;> rfl
  | power hleft hright ihleft ihright =>
    obtain ⟨k, others, rfl, hstart, -⟩ := ihleft
    exact ⟨k, _, rfl, hstart, fun hl => absurd hl (Nat.lt_irrefl _)⟩
  | call hcallee hargs hinner hfirst ihcallee ihargs =>
    obtain ⟨k, others, rfl, hstart, hunary⟩ := ihcallee
    exact ⟨k, _, rfl, hstart, hunary⟩
  | member field hobject ih =>
    obtain ⟨k, others, rfl, hstart, hunary⟩ := ih
    exact ⟨k, _, rfl, hstart, hunary⟩
  | subscript harray hindex iharray ihindex =>
    obtain ⟨k, others, rfl, hstart, hunary⟩ := iharray
    exact ⟨k, _, rfl, hstart, hunary⟩
  | bool value => cases value <;> exact ⟨_, _, rfl, rfl, fun _ => rfl⟩
  | _ => exact ⟨_, _, rfl, rfl, fun _ => rfl⟩

theorem ne_nil (h : Derives l ks e) : ks ≠ [] := by
  obtain ⟨k, others, rfl, -, -⟩ := h.eq_cons
  exact List.cons_ne_nil k others

/-- **Expressions close all brackets that they open.** -/
theorem balanced (h : Derives l ks e) : Balanced ks := by
  have hitems {items : List (List Kind × Tree.Expr)} {inner : List Kind}
      (hall : ∀ p ∈ items, Balanced p.1) (h : Separated (items.map Prod.fst) inner) :
      Balanced inner :=
    h.balanced fun ks hks => by
      obtain ⟨p, hp, rfl⟩ := List.mem_map.mp hks
      exact hall p hp
  induction h with
  | tighter h ih => exact ih
  | @binary l ks ks' left right op hop hleft hright ihleft ihright =>
    have hbehind : Balanced (.symbol op.symbol :: ks') := by cases op <;> exact ihright.cons rfl rfl
    exact ihleft.append hbehind
  | sign op h ih => cases op <;> exact ih.cons rfl rfl
  | power hleft hright ihleft ihright => exact ihleft.append (ihright.cons rfl rfl)
  | call hcallee hargs hinner hfirst ihcallee ihargs =>
    exact ihcallee.append ((hitems ihargs hinner).within rfl rfl rfl)
  | member field hobject ih =>
    have hname : Balanced [.name field] := balanced_singleton rfl rfl
    exact ih.append (hname.cons rfl rfl)
  | subscript harray hindex iharray ihindex =>
    exact iharray.append (ihindex.within rfl rfl rfl)
  | bool value => cases value <;> exact balanced_singleton rfl rfl
  | number | string | name => exact balanced_singleton rfl rfl
  | parens h ih => exact ih.within rfl rfl rfl
  | @emptyArray ks element h =>
    have hbrackets : Balanced (.symbol .leftBracket :: (ks ++ [.symbol .rightBracket])) :=
      h.balanced.within rfl rfl rfl
    have hparens : Balanced [.symbol .leftParen, .symbol .rightParen] :=
      balanced_nil.within rfl rfl rfl
    simpa using hbrackets.append hparens
  | array helements hinner ih => exact (hitems ih hinner).within rfl rfl rfl

end Derives

end TypedImp.Grammar
