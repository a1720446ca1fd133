import TypedImp.Proofs.Scoping.Simplify
import TypedImp.Proofs.Simplify.Identity
import TypedImp.Proofs.Simplify.Typing

/-!
# Simplifying and putting numbers in the place of variables

`e.subst x v` is the expression `e` with the number `v` in the place of the variable `x`.
Two ways lead to a simplified form of it: to simplify `e.subst x v`, or to simplify `e`
first, and once more what is left when `v` has taken the place of `x`.  On the first way
operands are literals that on the second one are not literals yet, so nodes are folded
on which an identity acts on the second way.

`Expr.Typed.simplify_subst`: **both ways lead to the same expression** if no identity
contradicts folding on the way (`Expr.AgreesAt`).  The proof goes from the inside out:
when the two ways agree on the operands, the rule that the second way applies to a node
is looked at, in the order in which the rules are tried.
-/

namespace TypedImp

open Binary64

namespace Expr

mutual

def subst (x : VariableId) (v : Float) : Expr → Expr
  | var id ty => if id = x then .ofNumber v else .var id ty
  | number value ty => .number value ty
  | string value ty => .string value ty
  | bool value ty => .bool value ty
  | func id ty => .func id ty
  | struct id ty => .struct id ty
  | binary op l r ty => .binary op (l.subst x v) (r.subst x v) ty
  | unary op e ty => .unary op (e.subst x v) ty
  | array es ty => .array (substAll x v es) ty
  | call f args ty => .call (f.subst x v) (substAll x v args) ty
  | member o field ty => .member (o.subst x v) field ty
  | subscript a i ty => .subscript (a.subst x v) (i.subst x v) ty

def substAll (x : VariableId) (v : Float) : List Expr → List Expr
  | [] => []
  | e :: es => e.subst x v :: substAll x v es

end

variable {x : VariableId} {v : Float}

theorem substAll_eq_map (es : List Expr) : substAll x v es = es.map (subst x v) := by
  induction es with
  | nil => rfl
  | cons e es ih => rw [substAll, ih, List.map_cons]

/-- The simplified form once the number has taken the place of the variable. -/
def simplifyAt (x : VariableId) (v : Float) (e : Expr) : Expr := (e.subst x v).simplify.value

theorem simplifyAt_binary (op : BinaryOp) (l r : Expr) (ty : Ty) :
    (binary op l r ty).simplifyAt x v =
      (op.simplify? (l.simplifyAt x v) (r.simplifyAt x v)).getD
        (.binary op (l.simplifyAt x v) (r.simplifyAt x v) ty) := by
  rw [simplifyAt, subst, value_simplify_binary]
  rfl

theorem simplifyAt_unary (op : UnaryOp) (e : Expr) (ty : Ty) :
    (unary op e ty).simplifyAt x v =
      (op.fold? (e.simplifyAt x v)).getD (.unary op (e.simplifyAt x v) ty) := by
  rw [simplifyAt, subst, value_simplify_unary]
  rfl

theorem simplifyAt_array (es : List Expr) (ty : Ty) :
    (array es ty).simplifyAt x v = .array (es.map (simplifyAt x v)) ty := by
  rw [simplifyAt, subst, value_simplify_array, substAll_eq_map, List.map_map]
  rfl

theorem simplifyAt_call (f : Expr) (args : List Expr) (ty : Ty) :
    (call f args ty).simplifyAt x v =
      .call (f.simplifyAt x v) (args.map (simplifyAt x v)) ty := by
  rw [simplifyAt, subst, value_simplify_call, substAll_eq_map, List.map_map]
  rfl

theorem simplifyAt_member (o : Expr) (field : String) (ty : Ty) :
    (member o field ty).simplifyAt x v = .member (o.simplifyAt x v) field ty := rfl

theorem simplifyAt_subscript (a i : Expr) (ty : Ty) :
    (subscript a i ty).simplifyAt x v =
      .subscript (a.simplifyAt x v) (i.simplifyAt x v) ty := rfl

theorem simplifyAt_of_number? {e : Expr} {c : Float} (h : e.number? = some c) :
    e.simplifyAt x v = e := by
  cases e with
  | number => rfl
  | _ => cases h

theorem simplifyAt_of_bool? {e : Expr} {b : Bool} (h : e.bool? = some b) :
    e.simplifyAt x v = e := by
  cases e with
  | bool => rfl
  | _ => cases h

/-! ### Types -/

variable {E : Entities}

theorem Typed.subst (hx : E.HasVariable x .number) {e : Expr} (h : e.Typed E) :
    (e.subst x v).Typed E ∧ (e.subst x v).ty = e.ty := by
  induction h with
  | number => exact ⟨.number, rfl⟩
  | string => exact ⟨.string, rfl⟩
  | bool => exact ⟨.bool, rfl⟩
  | @var id ty hv =>
    rw [Expr.subst]
    split
    · rename_i heq
      subst heq
      exact ⟨.number, hx.unique hv⟩
    · exact ⟨.var hv, rfl⟩
  | func hf => exact ⟨.func hf, rfl⟩
  | struct hs => exact ⟨.struct hs, rfl⟩
  | binary _ _ hj ihl ihr =>
    rw [← ihl.2, ← ihr.2] at hj
    exact ⟨.binary ihl.1 ihr.1 hj, rfl⟩
  | neg _ ht ih => exact ⟨.neg ih.1 (ih.2.trans ht), rfl⟩
  | not _ ht ih => exact ⟨.not ih.1 (ih.2.trans ht), rfl⟩
  | array _ ht ih =>
    rw [Expr.subst, substAll_eq_map]
    refine ⟨.array (fun y hy => ?_) (fun y hy => ?_), rfl⟩ <;>
      obtain ⟨e, he, rfl⟩ := List.mem_map.mp hy
    · exact (ih e he).1
    · exact (ih e he).2.trans (ht e he)
  | @call f args signature _ _ ht hp ihf ihargs =>
    rw [Expr.subst, substAll_eq_map]
    refine ⟨.call ihf.1 (fun y hy => ?_) (ihf.2.trans ht) ?_, rfl⟩
    · obtain ⟨e, he, rfl⟩ := List.mem_map.mp hy
      exact (ihargs e he).1
    · rw [List.forall₂_map_left_iff]
      have hsame : ∀ e ∈ args, (e.subst x v).ty = e.ty := fun e he => (ihargs e he).2
      refine ((List.forall₂_and_left _ _).mpr ⟨hsame, hp⟩).imp fun e param he => ?_
      rw [Fits, he.1]
      exact he.2
  | member _ ht hf ih => exact ⟨.member ih.1 (ih.2.trans ht) hf, rfl⟩
  | subscript _ _ ha hi iha ihi =>
    exact ⟨.subscript iha.1 ihi.1 (iha.2.trans ha) (ihi.2.trans hi), rfl⟩

theorem Typed.simplifyAt (hx : E.HasVariable x .number) {e : Expr} (h : e.Typed E) :
    (e.simplifyAt x v).Typed E := (h.subst hx).1.simplify.1

theorem Typed.eq_ofNumber {e : Expr} (h : e.Typed E) {c : Float} (hc : e.number? = some c) :
    e = .ofNumber c := by
  cases h with
  | number => cases hc; rfl
  | _ => cases hc

theorem Typed.eq_ofBool {e : Expr} (h : e.Typed E) {b : Bool} (hb : e.bool? = some b) :
    e = .ofBool b := by
  cases h with
  | bool => cases hb; rfl
  | _ => cases hb

end Expr

/-! ### Nodes -/

namespace Identity

variable {x : VariableId} {v : Float} {e : Expr}

/-- An identity leaves room for what the other operand becomes. -/
theorem simplifyAt_apply_of_none (k : Identity) (h : (e.simplifyAt x v).number? = none) :
    (k.apply e).simplifyAt x v = k.apply (e.simplifyAt x v) := by
  cases k with
  | operand => rfl
  | constant value => rfl
  | negated =>
    rw [apply, Expr.simplifyAt_unary, UnaryOp.fold?_neg, h]
    rfl

theorem simplifyAt_apply_of_some (k : Identity) {a : Float} (h : e.simplifyAt x v = .ofNumber a) :
    (k.apply e).simplifyAt x v = .ofNumber (k.onNumber a) := by
  cases k with
  | operand => exact h
  | constant value => rfl
  | negated =>
    rw [apply, Expr.simplifyAt_unary, UnaryOp.fold?_neg, h]
    rfl

end Identity

namespace BinaryOp

variable {x : VariableId} {v : Float} {E : Entities} {op : BinaryOp} {l r w : Expr}

/-- At a node, no identity contradicts folding: if one operand is the literal `c`, and the
other one is not a literal but becomes `a`, these do not clash. -/
def AgreesAt (x : VariableId) (v : Float) (op : BinaryOp) (l r : Expr) : Prop :=
  (∀ a c, l.number? = none → (l.simplifyAt x v).number? = some a → r.number? = some c →
    ¬ op.ClashesRight a c) ∧
  (∀ c a, l.number? = some c → r.number? = none → (r.simplifyAt x v).number? = some a →
    ¬ op.ClashesLeft c a)

theorem fold?_of_none_left (op : BinaryOp) (hl : l.number? = none) : op.fold? l r = none := by
  rw [fold?, hl]

theorem fold?_of_none_right (op : BinaryOp) (hr : r.number? = none) : op.fold? l r = none := by
  rw [fold?, hr]
  cases l.number? <;> rfl

theorem simplify?_of_fold? (h : op.fold? l r = some w) : op.simplify? l r = some w := by
  rw [simplify?, h, Option.some_or]

theorem simplify?_of_absorb? (hf : op.fold? l r = none) (h : op.absorb? l r = some w) :
    op.simplify? l r = some w := by
  rw [simplify?, hf, h, Option.none_or, Option.some_or]

theorem number?_of_bool? {e : Expr} {b : Bool} (h : e.bool? = some b) : e.number? = none := by
  cases e with
  | bool => rfl
  | _ => cases h

/-- Folding takes no notice of what becomes of variables. -/
theorem simplify?_simplifyAt_of_fold? (h : op.fold? l r = some w) :
    op.simplify? (l.simplifyAt x v) (r.simplifyAt x v) = some (w.simplifyAt x v) := by
  have hw : w.simplifyAt x v = w := by
    rcases fold?_cases h with ⟨y, rfl⟩ | ⟨b, rfl⟩ <;> rfl
  obtain ⟨a, c, ha, hc, -⟩ := exists_onNumbers?_of_fold? h
  rw [Expr.simplifyAt_of_number? ha, Expr.simplifyAt_of_number? hc, hw]
  exact simplify?_of_fold? h

/-- The literal that is left out may have become equal to the operand that is left. -/
theorem simplify?_simplifyAt_of_absorb? (hx : E.HasVariable x .number) (hl : l.Typed E)
    (hr : r.Typed E) (h : op.absorb? l r = some w) :
    op.simplify? (l.simplifyAt x v) (r.simplifyAt x v) = some (w.simplifyAt x v) := by
  cases op with
  | or | and =>
    simp only [absorb?] at h
    split at h
    · rename_i hlit
      cases h
      rw [Expr.simplifyAt_of_bool? hlit]
      apply simplify?_of_absorb? (fold?_of_none_left _ (number?_of_bool? hlit))
      simp only [absorb?, hlit, if_true]
    · split at h
      · rename_i hlit
        cases h
        rw [Expr.simplifyAt_of_bool? hlit]
        apply simplify?_of_absorb? (fold?_of_none_right _ (number?_of_bool? hlit))
        simp only [absorb?, hlit, if_true]
        split
        · rename_i hsame
          rw [(hl.simplifyAt hx).eq_ofBool hsame, hr.eq_ofBool hlit]
        · rfl
      · cases h
  | _ => cases h

theorem simplify?_of_identity? (hf : op.fold? l r = none) (ha : op.absorb? l r = none)
    (h : op.identity? l r = some w) : op.simplify? l r = some w := by
  rw [simplify?, hf, ha, h, Option.none_or, Option.none_or]

theorem absorb?_of_rightIdentity? {c : Float} {k : Identity} (h : op.rightIdentity? c = some k)
    (l r : Expr) : op.absorb? l r = none := by
  cases op with
  | or | and => cases h
  | _ => rfl

theorem absorb?_of_leftIdentity? {c : Float} {k : Identity} (h : op.leftIdentity? c = some k)
    (l r : Expr) : op.absorb? l r = none := by
  cases op with
  | or | and => cases h
  | _ => rfl

/-- With an operand that is no literal an identity does the same, and with one that has
become a literal folding comes to the same. -/
theorem simplify?_simplifyAt_of_identity? (hx : E.HasVariable x .number) (hl : l.Typed E)
    (hr : r.Typed E) (hagree : op.AgreesAt x v l r) (hf : op.fold? l r = none)
    (h : op.identity? l r = some w) :
    op.simplify? (l.simplifyAt x v) (r.simplifyAt x v) = some (w.simplifyAt x v) := by
  rcases literal_of_identity? hf h with ⟨c, hnone, hc⟩ | ⟨c, hc, hnone⟩
  · rw [identity?_right op hnone hc, Option.map_eq_some_iff] at h
    obtain ⟨k, hk, rfl⟩ := h
    rw [Expr.simplifyAt_of_number? hc]
    cases ha : (l.simplifyAt x v).number? with
    | none =>
      rw [k.simplifyAt_apply_of_none ha]
      apply simplify?_of_identity? (fold?_of_none_left op ha) (absorb?_of_rightIdentity? hk _ _)
      rw [identity?_right op ha hc, hk, Option.map_some]
    | some a =>
      rw [k.simplifyAt_apply_of_some ((hl.simplifyAt hx).eq_ofNumber ha)]
      apply simplify?_of_fold?
      rw [fold?, ha, hc]
      exact (onNumbers?_eq_iff_right hk a).mpr (hagree.1 a c hnone ha hc)
  · rw [identity?_left op hc hnone, Option.map_eq_some_iff] at h
    obtain ⟨k, hk, rfl⟩ := h
    rw [Expr.simplifyAt_of_number? hc]
    cases ha : (r.simplifyAt x v).number? with
    | none =>
      rw [k.simplifyAt_apply_of_none ha]
      apply simplify?_of_identity? (fold?_of_none_right op ha) (absorb?_of_leftIdentity? hk _ _)
      rw [identity?_left op hc ha, hk, Option.map_some]
    | some a =>
      rw [k.simplifyAt_apply_of_some ((hr.simplifyAt hx).eq_ofNumber ha)]
      apply simplify?_of_fold?
      rw [fold?, hc, ha]
      exact (onNumbers?_eq_iff_left hk a).mpr (hagree.2 c a hc hnone ha)

/-- **A rule on a binary node agrees** with the one that is applied once the number has
taken the place of the variable. -/
theorem simplify?_simplifyAt (hx : E.HasVariable x .number) (hl : l.Typed E) (hr : r.Typed E)
    (hagree : op.AgreesAt x v l r) (h : op.simplify? l r = some w) :
    op.simplify? (l.simplifyAt x v) (r.simplifyAt x v) = some (w.simplifyAt x v) := by
  rw [simplify?, Option.or_eq_some_iff, Option.or_eq_some_iff] at h
  rcases h with h | ⟨hf, h | ⟨_, h⟩⟩
  · exact simplify?_simplifyAt_of_fold? h
  · exact simplify?_simplifyAt_of_absorb? hx hl hr h
  · exact simplify?_simplifyAt_of_identity? hx hl hr hagree hf h

end BinaryOp

/-! ### Expressions -/

namespace Expr

variable {x : VariableId} {v : Float} {E : Entities}

/-- **No identity contradicts folding** within an expression, at any node. -/
def AgreesAt (x : VariableId) (v : Float) (e : Expr) : Prop :=
  ∀ op l r ty, binary op l r ty ∈ e.nested →
    op.AgreesAt x v l.simplify.value r.simplify.value

theorem AgreesAt.of_part {e part : Expr} (h : e.AgreesAt x v) (hp : part ∈ e.parts) :
    part.AgreesAt x v :=
  fun op l r ty hn => h op l r ty (mem_nested_of_part hp hn)

/-- **Both ways lead to the same expression.** -/
theorem Typed.simplify_simplifyAt (hx : E.HasVariable x .number) {e : Expr} (h : e.Typed E)
    (hagree : e.AgreesAt x v) : e.simplifyAt x v = e.simplify.value.simplifyAt x v := by
  induction h with
  | number | string | bool | var | func | struct => rfl
  | @binary op l r ty hl hr hj ihl ihr =>
    have hleft := ihl (hagree.of_part (by simp [parts]))
    have hright := ihr (hagree.of_part (by simp [parts]))
    have hnode := hagree op l r ty (mem_nested_self _)
    rw [simplifyAt_binary, hleft, hright, value_simplify_binary]
    cases hs : op.simplify? l.simplify.value r.simplify.value with
    | none => rw [Option.getD_none, simplifyAt_binary]
    | some w =>
      rw [BinaryOp.simplify?_simplifyAt hx hl.simplify.1 hr.simplify.1 hnode hs]
      rfl
  | @neg e he ht ih =>
    have hsame := ih (hagree.of_part (by simp [parts]))
    rw [simplifyAt_unary, hsame, value_simplify_unary, UnaryOp.fold?_neg e.simplify.value]
    cases hn : e.simplify.value.number? with
    | none => exact (simplifyAt_unary _ _ _).symm
    | some c =>
      rw [simplifyAt_of_number? hn, UnaryOp.fold?_neg, hn]
      rfl
  | @not e he ht ih =>
    have hsame := ih (hagree.of_part (by simp [parts]))
    rw [simplifyAt_unary, hsame, value_simplify_unary, UnaryOp.fold?_not e.simplify.value]
    cases hb : e.simplify.value.bool? with
    | none => exact (simplifyAt_unary _ _ _).symm
    | some b =>
      rw [simplifyAt_of_bool? hb, UnaryOp.fold?_not, hb]
      rfl
  | @array es ty _ _ ih =>
    rw [simplifyAt_array, value_simplify_array, simplifyAt_array, List.map_map]
    congr 1
    exact List.map_congr_left fun e he => ih e he (hagree.of_part he)
  | @call f args signature _ _ _ _ ihf ihargs =>
    have hf := ihf (hagree.of_part List.mem_cons_self)
    rw [simplifyAt_call, value_simplify_call, simplifyAt_call, List.map_map, hf]
    congr 1
    exact List.map_congr_left fun e he => ihargs e he (hagree.of_part (List.mem_cons_of_mem f he))
  | member _ _ _ ih =>
    have ho := ih (hagree.of_part (by simp [parts]))
    rw [simplifyAt_member, value_simplify_member, simplifyAt_member, ho]
  | subscript _ _ _ _ iha ihi =>
    have ha := iha (hagree.of_part (by simp [parts]))
    have hi := ihi (hagree.of_part (by simp [parts]))
    rw [simplifyAt_subscript, value_simplify_subscript, simplifyAt_subscript, ha, hi]

end Expr

/-- **Simplifying commutes with putting a number in the place of a variable**, as far as
the identities agree with folding.  For one operator with the variable on one side and a
literal on the other, which the number clashes with or not, this is the exact condition.
Within a larger expression it has to hold of no node. -/
theorem simplify_subst (x : VariableId) (v : Float) :
    (∀ (op : BinaryOp) (c : Float) (w : Expr),
      op.identity? (.var x .number) (.ofNumber c) = some w →
        (op.onNumbers? v c = some (w.subst x v).simplify.value ↔ ¬ op.ClashesRight v c)) ∧
    (∀ (op : BinaryOp) (c : Float) (w : Expr),
      op.identity? (.ofNumber c) (.var x .number) = some w →
        (op.onNumbers? c v = some (w.subst x v).simplify.value ↔ ¬ op.ClashesLeft c v)) ∧
    ∀ (E : Entities) (e : Expr), e.Typed E → E.HasVariable x .number → e.AgreesAt x v →
      (e.subst x v).simplify.value = (e.simplify.value.subst x v).simplify.value := by
  have hvar : (Expr.var x .number).simplifyAt x v = .ofNumber v := by
    rw [Expr.simplifyAt, Expr.subst, if_pos rfl]
    rfl
  refine ⟨fun op c w h => ?_, fun op c w h => ?_, fun E e he hx hagree => ?_⟩
  · rw [BinaryOp.identity?_right op rfl (c := c) rfl, Option.map_eq_some_iff] at h
    obtain ⟨k, hk, rfl⟩ := h
    have hbecomes := k.simplifyAt_apply_of_some hvar
    rw [Expr.simplifyAt] at hbecomes
    rw [hbecomes]
    exact BinaryOp.onNumbers?_eq_iff_right hk v
  · rw [BinaryOp.identity?_left op (c := c) rfl rfl, Option.map_eq_some_iff] at h
    obtain ⟨k, hk, rfl⟩ := h
    have hbecomes := k.simplifyAt_apply_of_some hvar
    rw [Expr.simplifyAt] at hbecomes
    rw [hbecomes]
    exact BinaryOp.onNumbers?_eq_iff_left hk v
  · exact he.simplify_simplifyAt hx hagree

def oneNumber : Entities := ({} : Entities).addVariable ⟨"x", false, .number⟩

theorem oneNumber_hasVariable : oneNumber.HasVariable ⟨0⟩ .number := ⟨_, rfl, rfl⟩

/-- It does not commute where they contradict it: `0 / x` is replaced by `0`, and `0 / 0`
is no number. -/
theorem simplify_subst_ne_zero_div :
    (Expr.binary .div (.ofNumber 0) (.var ⟨0⟩ .number) .number).Typed oneNumber ∧
      oneNumber.HasVariable ⟨0⟩ .number ∧
      ((Expr.binary .div (.ofNumber 0) (.var ⟨0⟩ .number) .number).subst ⟨0⟩ 0).simplify.value ≠
        ((Expr.binary .div (.ofNumber 0) (.var ⟨0⟩ .number) .number).simplify.value.subst ⟨0⟩
          0).simplify.value := by
  refine ⟨.binary .number (.var oneNumber_hasVariable) ⟨rfl, rfl, rfl⟩, oneNumber_hasVariable, ?_⟩
  intro h
  have hfolded : some ((0 : Float) / 0) = some 0 := congrArg Expr.number? h
  have hclash := (zero_div_eq_iff parts_zero).mp (Option.some.inj hfolded)
  rw [parts_zero] at hclash
  exact Bool.noConfusion hclash.2

theorem simplify_subst_sum_times_one :
    ((Expr.binary .mul (.binary .add (.var ⟨0⟩ .number) (.ofNumber 0) .number) (.ofNumber 1)
      .number).subst ⟨0⟩ 2).simplify.value =
    ((Expr.binary .mul (.binary .add (.var ⟨0⟩ .number) (.ofNumber 0) .number) (.ofNumber 1)
      .number).simplify.value.subst ⟨0⟩ 2).simplify.value := by
  refine (simplify_subst ⟨0⟩ 2).2.2 oneNumber _ ?_ oneNumber_hasVariable ?_
  · have hsum : (Expr.binary .add (.var ⟨0⟩ .number) (.ofNumber 0) .number).Typed oneNumber :=
      .binary (.var oneNumber_hasVariable) .number ⟨.inl rfl, rfl, rfl⟩
    exact .binary hsum .number ⟨rfl, rfl, rfl⟩
  · intro op l r ty hnode
    simp only [Expr.nested, Expr.ofNumber, List.mem_cons, List.mem_append, Expr.binary.injEq,
      reduceCtorEq, List.not_mem_nil, or_false] at hnode
    rcases hnode with ⟨rfl, rfl, rfl, rfl⟩ | ⟨rfl, rfl, rfl, rfl⟩
    · refine ⟨fun a c _ _ hc => ?_, fun c a hc _ _ => ?_⟩
      · cases hc
        intro hclash
        have hone : ((1 : Float) == 0) = false := rfl
        exact Bool.noConfusion (hone.symm.trans hclash.1)
      · cases hc
    · refine ⟨fun a c _ ha hc => ?_, fun c a hc _ _ => ?_⟩
      · cases ha
        intro hclash
        have htwo : parts 2 = .finite .positive (2 ^ 52) (-51) (by decide) := rfl
        rw [BinaryOp.ClashesRight, htwo] at hclash
        cases hclash.1
      · cases hc

end TypedImp
