import TypedImp.Proofs.Simplify.Value

/-!
# Simplified programs are normal

A *redex* is a node to which a rule applies as it stands, its parts being what they
are: an operator between foldable operands, a conditional whose test is a literal, a
loop that never runs, an `else if` behind which there is no conditional, a variable
assigned to itself.  An expression or a statement is *normal* if no redex is left
within it, at any depth.

Normal trees are those that simplifying leaves alone without applying a rule
(`Expr.Normal.simplify_eq`, `Stmt.Normal.simplify_eq`), and what simplifying yields is
normal (`Expr.normal_simplify`, `Stmt.normal_simplify`).  The second one is where the
order of the rules matters.  A rule may leave an operand in place of a node, so the node
above sees that operand; but that node is looked at after its parts, and what a rule
yields is an operand that is normal already, a literal, or the negation of an operand
that is no literal.  Likewise the branch that replaces a conditional is a list of normal
statements, and `joinElse` looks at the list that an `else if` has become before it
picks a form for it.
-/

namespace TypedImp

theorem Counted.pure_bind {α β : Type} (a : α) (f : α → Counted β) :
    (pure a : Counted α) >>= f = f a := by
  show (⟨(f a).value, 0 + (f a).count⟩ : Counted β) = f a
  rw [Nat.zero_add]

/-! ### Expressions -/

/-- Only literals of numbers are folded by the sign. -/
theorem UnaryOp.fold?_eq_none_of_number? {e : Expr} (h : e.number? = none) :
    UnaryOp.neg.fold? e = none := by
  rw [fold?_neg, h]
  rfl

namespace Expr

/-- Whether a rule applies to the node at the root. -/
def isRedex : Expr → Bool
  | binary op l r _ => (op.simplify? l r).isSome
  | unary op e _ => (op.fold? e).isSome
  | _ => false

def Normal (e : Expr) : Prop := ∀ e' ∈ e.nested, e'.isRedex = false

theorem normal_iff {e : Expr} : e.Normal ↔ e.isRedex = false ∧ ∀ part ∈ e.parts, part.Normal := by
  constructor
  · intro h
    refine ⟨h e e.mem_nested_self, fun part hp e' he' => ?_⟩
    exact h e' (mem_nested_of_part hp he')
  · rintro ⟨hself, hparts⟩ e' he'
    rcases mem_nested_iff.mp he' with rfl | ⟨part, hp, he'⟩
    · exact hself
    · exact hparts part hp e' he'

theorem Normal.of_part {e part : Expr} (h : e.Normal) (hp : part ∈ e.parts) : part.Normal :=
  (normal_iff.mp h).2 part hp

/-- A node without parts to which no rule applies. -/
theorem normal_of_parts_nil {e : Expr} (hparts : e.parts = []) (hself : e.isRedex = false) :
    e.Normal := normal_iff.mpr ⟨hself, by simp [hparts]⟩

theorem simplifyAll_eq_of_forall {es : List Expr} (h : ∀ e ∈ es, e.simplify = pure e) :
    simplifyAll es = pure es := by
  induction es with
  | nil => rfl
  | cons e es ih =>
    have hfirst := h e List.mem_cons_self
    have hothers := ih fun x hx => h x (List.mem_cons_of_mem e hx)
    rw [simplifyAll, hfirst, hothers]
    rfl

/-- **A normal expression is left alone** and no rule is applied to it. -/
theorem Normal.simplify_eq {e : Expr} (h : e.Normal) : e.simplify = pure e := by
  induction e using parts_induction with
  | step e ih =>
    have hself := (normal_iff.mp h).1
    have hparts : ∀ part ∈ e.parts, part.simplify = pure part :=
      fun part hp => ih part hp (h.of_part hp)
    cases e with
    | number | string | bool | var | func | struct => rfl
    | binary op l r ty =>
      have hl := hparts l (by simp [parts])
      have hr := hparts r (by simp [parts])
      have hnone : op.simplify? l r = none := by simpa [isRedex] using hself
      simp only [simplify, hl, hr, Counted.pure_bind, hnone]
      rfl
    | unary op e ty =>
      have he := hparts e (by simp [parts])
      have hnone : op.fold? e = none := by simpa [isRedex] using hself
      simp only [simplify, he, Counted.pure_bind, hnone]
      rfl
    | array es ty =>
      have hes : simplifyAll es = pure es := simplifyAll_eq_of_forall hparts
      rw [simplify, hes]
      rfl
    | call f args ty =>
      have hf := hparts f List.mem_cons_self
      have hargs := simplifyAll_eq_of_forall fun e he => hparts e (List.mem_cons_of_mem f he)
      rw [simplify, hf, hargs]
      rfl
    | member o field ty =>
      have ho := hparts o (by simp [parts])
      rw [simplify, ho]
      rfl
    | subscript a i ty =>
      have ha := hparts a (by simp [parts])
      have hi := hparts i (by simp [parts])
      rw [simplify, ha, hi]
      rfl

theorem normal_ofNumber (x : Float) : (ofNumber x).Normal := normal_of_parts_nil rfl rfl

theorem normal_ofBool (b : Bool) : (ofBool b).Normal := normal_of_parts_nil rfl rfl

end Expr

/-! ### What the rules yield -/

namespace BinaryOp

variable {op : BinaryOp} {l r e : Expr}

theorem normal_of_fold? (h : op.fold? l r = some e) : e.Normal := by
  rcases fold?_cases h with ⟨x, rfl⟩ | ⟨b, rfl⟩
  · exact Expr.normal_ofNumber x
  · exact Expr.normal_ofBool b

theorem normal_of_absorb? (hl : l.Normal) (hr : r.Normal) (h : op.absorb? l r = some e) :
    e.Normal := by
  rcases absorb?_cases h with rfl | rfl
  · exact hl
  · exact hr

/-- Only `0 - x` yields a new node with an operand.  Were `x` a literal, the two literals
would have been folded. -/
theorem normal_of_identity? (hl : l.Normal) (hr : r.Normal) (hf : op.fold? l r = none)
    (h : op.identity? l r = some e) : e.Normal := by
  cases op with
  | add =>
    simp only [identity?] at h
    split at h
    · cases h; exact hl
    · split at h
      · cases h; exact hr
      · cases h
  | sub =>
    simp only [identity?] at h
    split at h
    · cases h; exact hl
    · split at h
      · rename_i hzero
        cases h
        have hnone : r.number? = none := by
          cases hx : l.number? with
          | none => simp [Expr.isLiteral, hx] at hzero
          | some x =>
            cases hy : r.number? with
            | none => rfl
            | some y => simp [fold?, hx, hy, onNumbers?] at hf
        refine Expr.normal_iff.mpr ⟨?_, fun part hp => ?_⟩
        · rw [Expr.isRedex, UnaryOp.fold?_eq_none_of_number? hnone]
          rfl
        · rw [List.mem_singleton.mp hp]
          exact hr
      · cases h
  | mul =>
    simp only [identity?] at h
    split at h
    · cases h; exact hl
    · split at h
      · cases h; exact hr
      · split at h
        · cases h; exact Expr.normal_ofNumber 0
        · cases h
  | div =>
    simp only [identity?] at h
    split at h
    · cases h; exact Expr.normal_ofNumber 0
    · split at h
      · cases h; exact hl
      · cases h
  | pow =>
    simp only [identity?] at h
    split at h
    · cases h; exact Expr.normal_ofNumber 1
    · split at h
      · cases h; exact Expr.normal_ofNumber 1
      · cases h
  | _ => cases h

/-- **A binary node is normal once it has been looked at**, if its operands are. -/
theorem normal_simplify? (op : BinaryOp) (hl : l.Normal) (hr : r.Normal) (ty : Ty) :
    ((op.simplify? l r).getD (.binary op l r ty)).Normal := by
  cases hs : op.simplify? l r with
  | none =>
    show (Expr.binary op l r ty).Normal
    refine Expr.normal_iff.mpr ⟨?_, fun part hp => ?_⟩
    · show (op.simplify? l r).isSome = false
      rw [hs]
      rfl
    · simp only [Expr.parts, List.mem_cons, List.not_mem_nil, or_false] at hp
      rcases hp with rfl | rfl
      · exact hl
      · exact hr
  | some e =>
    show e.Normal
    rw [simplify?, Option.or_eq_some_iff, Option.or_eq_some_iff] at hs
    rcases hs with h | ⟨hf, h | ⟨_, h⟩⟩
    · exact normal_of_fold? h
    · exact normal_of_absorb? hl hr h
    · exact normal_of_identity? hl hr hf h

end BinaryOp

theorem UnaryOp.normal_fold? (op : UnaryOp) {e : Expr} (he : e.Normal) (ty : Ty) :
    ((op.fold? e).getD (.unary op e ty)).Normal := by
  cases hs : op.fold? e with
  | none =>
    show (Expr.unary op e ty).Normal
    refine Expr.normal_iff.mpr ⟨?_, fun part hp => ?_⟩
    · show (op.fold? e).isSome = false
      rw [hs]
      rfl
    · rw [List.mem_singleton.mp hp]
      exact he
  | some x =>
    show x.Normal
    rcases fold?_cases hs with ⟨y, rfl⟩ | ⟨b, rfl⟩
    · exact Expr.normal_ofNumber y
    · exact Expr.normal_ofBool b

/-- **A simplified expression is normal.** -/
theorem Expr.normal_simplify (e : Expr) : e.simplify.value.Normal := by
  have all : ∀ {es : List Expr}, (∀ e ∈ es, e.simplify.value.Normal) →
      ∀ part ∈ es.map (·.simplify.value), part.Normal := by
    intro es h part hp
    obtain ⟨e, he, rfl⟩ := List.mem_map.mp hp
    exact h e he
  induction e with
  | number | string | bool | var | func | struct => exact normal_of_parts_nil rfl rfl
  | binary op l r ty hl hr =>
    rw [value_simplify_binary]
    exact BinaryOp.normal_simplify? op hl hr ty
  | unary op e ty ih =>
    rw [value_simplify_unary]
    exact UnaryOp.normal_fold? op ih ty
  | array es ty ih =>
    rw [value_simplify_array]
    exact normal_iff.mpr ⟨rfl, all ih⟩
  | call f args ty hf hargs =>
    rw [value_simplify_call]
    refine normal_iff.mpr ⟨rfl, fun part hp => ?_⟩
    rcases List.mem_cons.mp hp with rfl | hp
    · exact hf
    · exact all hargs part hp
  | member o field ty ih =>
    refine normal_iff.mpr ⟨rfl, fun part hp => ?_⟩
    rw [List.mem_singleton.mp hp]
    exact ih
  | subscript a i ty ha hi =>
    refine normal_iff.mpr ⟨rfl, fun part hp => ?_⟩
    simp only [value_simplify_subscript, parts, List.mem_cons, List.not_mem_nil, or_false] at hp
    rcases hp with rfl | rfl
    · exact ha
    · exact hi

/-! ### Statements -/

namespace Stmt

/-- Whether a rule applies to the statement itself. -/
def isRedex : Stmt → Bool
  | ifThen test _ | ifElse test _ _ => test.bool?.isSome
  | ifElseIf test _ a => test.bool?.isSome || !a.isConditional
  | whileLoop test _ => test.bool? == some false
  | rangeLoop _ low _ high _ => isEmptyRange low high
  | collectionLoop _ e _ => e.isEmptyArray
  | assign t e => isSelfAssignment t e
  | _ => false

def Normal (s : Stmt) : Prop :=
  ∀ s' ∈ s.nested, s'.isRedex = false ∧ ∀ e ∈ s'.exprs, e.Normal

theorem normal_iff {s : Stmt} : s.Normal ↔
    s.isRedex = false ∧ (∀ e ∈ s.exprs, e.Normal) ∧ ∀ part ∈ s.parts, part.Normal := by
  constructor
  · intro h
    have hself := h s s.mem_nested_self
    exact ⟨hself.1, hself.2, fun part hp s' hs' => h s' (mem_nested_of_part hp hs')⟩
  · rintro ⟨hself, hexprs, hparts⟩ s' hs'
    rcases mem_nested_iff.mp hs' with rfl | ⟨part, hp, hs'⟩
    · exact ⟨hself, hexprs⟩
    · exact hparts part hp s' hs'

theorem Normal.of_part {s part : Stmt} (h : s.Normal) (hp : part ∈ s.parts) : part.Normal :=
  (normal_iff.mp h).2.2 part hp

theorem Normal.simplify_exprs {s : Stmt} (h : s.Normal) {e : Expr} (he : e ∈ s.exprs) :
    e.simplify = pure e := ((normal_iff.mp h).2.1 e he).simplify_eq

theorem simplifyAll_eq_of_forall {ss : List Stmt} (h : ∀ s ∈ ss, s.simplify = pure [s]) :
    simplifyAll ss = pure ss := by
  induction ss with
  | nil => rfl
  | cons s ss ih =>
    have hfirst := h s List.mem_cons_self
    have hothers := ih fun x hx => h x (List.mem_cons_of_mem s hx)
    rw [simplifyAll, hfirst, hothers]
    rfl

theorem simplifyOption_eq {e : Option Expr} (h : ∀ x ∈ e.toList, x.simplify = pure x) :
    Expr.simplifyOption e = pure e := by
  cases e with
  | none => rfl
  | some e =>
    rw [Expr.simplifyOption, h e (List.mem_singleton_self e)]
    rfl

/-- **A normal statement is left alone** and no rule is applied to it. -/
theorem Normal.simplify_eq {s : Stmt} (h : s.Normal) : s.simplify = pure [s] := by
  induction s using parts_induction with
  | step s ih =>
    have hself := (normal_iff.mp h).1
    have hparts : ∀ part ∈ s.parts, part.simplify = pure [part] :=
      fun part hp => ih part hp (h.of_part hp)
    have hexprs : ∀ e ∈ s.exprs, e.simplify = pure e := fun e he => h.simplify_exprs he
    cases s with
    | declareStruct | declareClass | breakLoop | continueLoop => rfl
    | declareVariable id e | ret e =>
      rw [simplify, simplifyOption_eq hexprs]
      rfl
    | declareFunction id params body =>
      have hbody : simplifyAll body = pure body := simplifyAll_eq_of_forall hparts
      rw [simplify, hbody]
      rfl
    | ifThen test c =>
      have ht := hexprs test (List.mem_singleton_self test)
      have hnone : test.bool? = none := by simpa [isRedex] using hself
      have hc : simplifyAll c = pure c := simplifyAll_eq_of_forall hparts
      simp only [simplify, ht, hc, Counted.pure_bind, choose, hnone]
    | ifElse test c a =>
      have ht := hexprs test (List.mem_singleton_self test)
      have hnone : test.bool? = none := by simpa [isRedex] using hself
      have hc := simplifyAll_eq_of_forall fun x hx => hparts x (List.mem_append_left a hx)
      have ha := simplifyAll_eq_of_forall fun x hx => hparts x (List.mem_append_right c hx)
      simp only [simplify, ht, hc, ha, Counted.pure_bind, choose, hnone]
    | ifElseIf test c a =>
      have ht := hexprs test (List.mem_singleton_self test)
      have hnone : test.bool? = none ∧ a.isConditional = true := by simpa [isRedex] using hself
      have hc := simplifyAll_eq_of_forall fun x hx => hparts x (List.mem_append_left [a] hx)
      have ha := hparts a (List.mem_append_right c (List.mem_singleton_self a))
      simp only [simplify, ht, hc, ha, Counted.pure_bind, choose, hnone.1]
      rw [joinElse, if_pos hnone.2]
    | whileLoop test body =>
      have ht := hexprs test (List.mem_singleton_self test)
      have hbody : simplifyAll body = pure body := simplifyAll_eq_of_forall hparts
      have hidle : (test.bool? == some false) = false := hself
      simp only [simplify, ht, hbody, Counted.pure_bind, hidle]
      rfl
    | rangeLoop id low op high body =>
      have hl := hexprs low List.mem_cons_self
      have hh := hexprs high (by simp [exprs])
      have hbody : simplifyAll body = pure body := simplifyAll_eq_of_forall hparts
      have hidle : isEmptyRange low high = false := hself
      simp only [simplify, hl, hh, hbody, Counted.pure_bind, hidle]
      rfl
    | collectionLoop id e body =>
      have he := hexprs e (List.mem_singleton_self e)
      have hbody : simplifyAll body = pure body := simplifyAll_eq_of_forall hparts
      have hidle : e.isEmptyArray = false := hself
      simp only [simplify, he, hbody, Counted.pure_bind, hidle]
      rfl
    | tryCatch body error handler =>
      have hb := simplifyAll_eq_of_forall fun x hx => hparts x (List.mem_append_left handler hx)
      have hh := simplifyAll_eq_of_forall fun x hx => hparts x (List.mem_append_right body hx)
      rw [simplify, hb, hh]
      rfl
    | print e | increment e | decrement e | call e =>
      have he := hexprs e (List.mem_singleton_self e)
      rw [simplify, he]
      rfl
    | assign t e =>
      have ht := hexprs t List.mem_cons_self
      have he := hexprs e (by simp [exprs])
      have hidle : isSelfAssignment t e = false := hself
      simp only [simplify, ht, he, Counted.pure_bind, hidle]
      rfl

theorem simplifyAll_eq_of_normal {ss : List Stmt} (h : ∀ s ∈ ss, s.Normal) :
    simplifyAll ss = pure ss := simplifyAll_eq_of_forall fun s hs => (h s hs).simplify_eq

/-! ### What takes the place of a statement -/

/-- Where no side is picked the test is no literal. -/
theorem normal_choose {test : Expr} {c a : List Stmt} {k : Counted (List Stmt)}
    (hc : ∀ s ∈ c, s.Normal) (ha : ∀ s ∈ a, s.Normal)
    (hk : test.bool? = none → ∀ s ∈ k.value, s.Normal) :
    ∀ s ∈ (choose test c a k).value, s.Normal := by
  rw [value_choose]
  cases hb : test.bool? with
  | none => exact hk hb
  | some b =>
    cases b with
    | true => exact hc
    | false => exact ha

/-- Each form that `joinElse` picks is one to which no rule applies. -/
theorem normal_joinElse {test : Expr} {c a : List Stmt} (ht : test.Normal)
    (hb : test.bool? = none) (hc : ∀ s ∈ c, s.Normal) (ha : ∀ s ∈ a, s.Normal) :
    ∀ s ∈ (joinElse test c a).value, s.Normal := by
  have htest : ∀ e ∈ [test], e.Normal := fun e he => by
    rw [List.mem_singleton.mp he]
    exact ht
  have hca : ∀ part ∈ c ++ a, part.Normal := fun part hp =>
    (List.mem_append.mp hp).elim (hc part) (ha part)
  refine forall_joinElse (fun _ => ?_) (fun x hx hcond => ?_) ?_
  · exact normal_iff.mpr ⟨by simp [isRedex, hb], htest, hc⟩
  · rw [hx] at hca
    exact normal_iff.mpr ⟨by simp [isRedex, hb, hcond], htest, hca⟩
  · exact normal_iff.mpr ⟨by simp [isRedex, hb], htest, hca⟩

theorem normal_dropIf {idle : Bool} {s : Stmt} (h : idle = false → s.Normal) :
    ∀ s' ∈ (dropIf idle s).value, s'.Normal := by
  rw [value_dropIf]
  cases idle with
  | true => simp
  | false =>
    intro s' hs'
    rw [List.mem_singleton.mp hs']
    exact h rfl

/-- **The statements that take the place of a statement are normal.** -/
theorem normal_simplify (s : Stmt) : ∀ s' ∈ s.simplify.value, s'.Normal := by
  have one : ∀ {s : Stmt}, s.Normal → ∀ s' ∈ [s], s'.Normal := by
    intro s h s' hs'
    rw [List.mem_singleton.mp hs']
    exact h
  have single : ∀ e : Expr, ∀ x ∈ [e.simplify.value], x.Normal := by
    intro e x hx
    rw [List.mem_singleton.mp hx]
    exact e.normal_simplify
  have pair : ∀ e f : Expr, ∀ x ∈ [e.simplify.value, f.simplify.value], x.Normal := by
    intro e f x hx
    simp only [List.mem_cons, List.not_mem_nil, or_false] at hx
    rcases hx with rfl | rfl
    · exact e.normal_simplify
    · exact f.normal_simplify
  have optional : ∀ e : Option Expr, ∀ x ∈ (Expr.simplifyOption e).value.toList, x.Normal := by
    intro e x hx
    rw [Expr.value_simplifyOption] at hx
    cases e with
    | none => simp at hx
    | some e => exact single e x hx
  induction s with
  | declareStruct | declareClass | breakLoop | continueLoop =>
    exact one (normal_iff.mpr ⟨rfl, by simp [exprs], by simp [parts]⟩)
  | declareVariable id e => exact one (normal_iff.mpr ⟨rfl, optional e, by simp [parts]⟩)
  | ret e => exact one (normal_iff.mpr ⟨rfl, optional e, by simp [parts]⟩)
  | declareFunction id params body ih =>
    exact one (normal_iff.mpr ⟨rfl, by simp [exprs], forall_simplifyAll ih⟩)
  | ifThen test c ih =>
    have hc := forall_simplifyAll ih
    refine normal_choose hc (by simp) fun hb => one (normal_iff.mpr ⟨?_, single test, hc⟩)
    simp [isRedex, hb]
  | ifElse test c a ihc iha =>
    have hc := forall_simplifyAll ihc
    have ha := forall_simplifyAll iha
    refine normal_choose hc ha fun hb => one (normal_iff.mpr ⟨?_, single test, fun part hp => ?_⟩)
    · simp [isRedex, hb]
    · exact (List.mem_append.mp hp).elim (hc part) (ha part)
  | ifElseIf test c a ihc iha =>
    have hc := forall_simplifyAll ihc
    exact normal_choose hc iha fun hb => normal_joinElse test.normal_simplify hb hc iha
  | whileLoop test body ih =>
    exact normal_dropIf fun hidle =>
      normal_iff.mpr ⟨hidle, single test, forall_simplifyAll ih⟩
  | rangeLoop id low op high body ih =>
    exact normal_dropIf fun hidle =>
      normal_iff.mpr ⟨hidle, pair low high, forall_simplifyAll ih⟩
  | collectionLoop id e body ih =>
    exact normal_dropIf fun hidle =>
      normal_iff.mpr ⟨hidle, single e, forall_simplifyAll ih⟩
  | tryCatch body error handler ihb ihh =>
    have hb := forall_simplifyAll ihb
    have hh := forall_simplifyAll ihh
    refine one (normal_iff.mpr ⟨rfl, by simp [exprs], fun part hp => ?_⟩)
    exact (List.mem_append.mp hp).elim (hb part) (hh part)
  | print e => exact one (normal_iff.mpr ⟨rfl, single e, by simp [parts]⟩)
  | increment e => exact one (normal_iff.mpr ⟨rfl, single e, by simp [parts]⟩)
  | decrement e => exact one (normal_iff.mpr ⟨rfl, single e, by simp [parts]⟩)
  | assign t e =>
    exact normal_dropIf fun hidle => normal_iff.mpr ⟨hidle, pair t e, by simp [parts]⟩
  | call e => exact one (normal_iff.mpr ⟨rfl, single e, by simp [parts]⟩)

theorem normal_simplifyAll (ss : List Stmt) : ∀ s ∈ (simplifyAll ss).value, s.Normal :=
  forall_simplifyAll fun s _ => s.normal_simplify

end Stmt

/-- **One pass reaches a fixed point.**  What simplifying yields is normal, whatever it was
made from: no rule applies anywhere within it.  So simplifying it again applies no rule and
yields the same tree, for expressions, for statements and for lists of them. -/
theorem simplify_fixed_point :
    (∀ e : Expr, e.simplify.value.Normal ∧ e.simplify.value.simplify = ⟨e.simplify.value, 0⟩) ∧
    (∀ s : Stmt, (∀ s' ∈ s.simplify.value, s'.Normal ∧ s'.simplify = ⟨[s'], 0⟩) ∧
      Stmt.simplifyAll s.simplify.value = ⟨s.simplify.value, 0⟩) ∧
    ∀ ss : List Stmt, (∀ s ∈ (Stmt.simplifyAll ss).value, s.Normal) ∧
      Stmt.simplifyAll (Stmt.simplifyAll ss).value = ⟨(Stmt.simplifyAll ss).value, 0⟩ := by
  refine ⟨fun e => ?_, fun s => ?_, fun ss => ?_⟩
  · have h := e.normal_simplify
    exact ⟨h, h.simplify_eq⟩
  · have h := s.normal_simplify
    exact ⟨fun s' hs' => ⟨h s' hs', (h s' hs').simplify_eq⟩, Stmt.simplifyAll_eq_of_normal h⟩
  · have h := Stmt.normal_simplifyAll ss
    exact ⟨h, Stmt.simplifyAll_eq_of_normal h⟩

end TypedImp
