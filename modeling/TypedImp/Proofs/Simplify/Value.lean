import TypedImp.Proofs.Parts
import TypedImp.Simplify.Stmt

/-!
# Simplified forms

`Expr.simplify` and `Stmt.simplify` count the rules they apply.  What they yield
apart from the count is stated here node by node: a list of expressions is
simplified member by member, and a list of statements is the simplified forms of
its members laid end to end.

An expression that is neither binary nor unary keeps its form and its type.  What a rule
yields is an operand, perhaps with a sign in front, or a literal (`BinaryOp.simplify?_cases`).
-/

namespace TypedImp

@[simp] theorem Counted.value_orElse {α : Type} (outcome : Option α) (node : α) :
    (Counted.orElse outcome node).value = outcome.getD node := by
  cases outcome <;> rfl

theorem UnaryOp.fold?_neg (e : Expr) :
    UnaryOp.neg.fold? e = e.number?.map fun x => .ofNumber (-x) := by
  cases e <;> rfl

theorem UnaryOp.fold?_not (e : Expr) :
    UnaryOp.not.fold? e = e.bool?.map fun b => .ofBool (!b) := by
  cases e <;> rfl

/-- The outcome of a rule on a unary node is a literal. -/
theorem UnaryOp.fold?_cases {op : UnaryOp} {e x : Expr} (h : op.fold? e = some x) :
    (∃ y, x = .ofNumber y) ∨ ∃ b, x = .ofBool b := by
  cases op with
  | neg =>
    rw [fold?_neg] at h
    obtain ⟨y, _, rfl⟩ := Option.map_eq_some_iff.mp h
    exact .inl ⟨_, rfl⟩
  | not =>
    rw [fold?_not] at h
    obtain ⟨b, _, rfl⟩ := Option.map_eq_some_iff.mp h
    exact .inr ⟨_, rfl⟩

namespace BinaryOp

variable {op : BinaryOp} {l r e : Expr}

/-- Two literals are folded. -/
theorem exists_onNumbers?_of_fold? (h : op.fold? l r = some e) :
    ∃ a c, l.number? = some a ∧ r.number? = some c ∧ op.onNumbers? a c = some e := by
  rw [fold?] at h
  cases ha : l.number? with
  | none => rw [ha] at h; cases h
  | some a =>
    cases hc : r.number? with
    | none => rw [ha, hc] at h; cases h
    | some c =>
      rw [ha, hc] at h
      exact ⟨a, c, rfl, rfl, h⟩

theorem fold?_cases (h : op.fold? l r = some e) :
    (∃ x, e = .ofNumber x) ∨ ∃ b, e = .ofBool b := by
  obtain ⟨a, c, _, _, h⟩ := exists_onNumbers?_of_fold? h
  cases op with
  | or | and => cases h
  | add | sub | mul | div | pow => cases h; exact .inl ⟨_, rfl⟩
  | lt | le | eq | ne | ge | gt => cases h; exact .inr ⟨_, rfl⟩

theorem absorb?_cases (h : op.absorb? l r = some e) : e = l ∨ e = r := by
  cases op with
  | or | and =>
    simp only [absorb?] at h
    split at h
    · cases h; exact .inr rfl
    · split at h
      · cases h; exact .inl rfl
      · cases h
  | _ => cases h

theorem identity?_cases (h : op.identity? l r = some e) :
    e = l ∨ e = r ∨ e = .unary .neg r .number ∨ ∃ x, e = .ofNumber x := by
  cases op with
  | add | sub | mul | div | pow =>
    simp only [identity?] at h
    grind
  | _ => cases h

/-- **What a rule on a binary node leaves**: an operand, the negated right operand or a
literal. -/
theorem simplify?_cases (h : op.simplify? l r = some e) :
    e = l ∨ e = r ∨ e = .unary .neg r .number ∨ (∃ x, e = .ofNumber x) ∨ ∃ b, e = .ofBool b := by
  rw [simplify?, Option.or_eq_some_iff, Option.or_eq_some_iff] at h
  rcases h with h | ⟨_, h | ⟨_, h⟩⟩
  · exact .inr (.inr (.inr (fold?_cases h)))
  · rcases absorb?_cases h with h | h
    · exact .inl h
    · exact .inr (.inl h)
  · rcases identity?_cases h with h | h | h | h
    · exact .inl h
    · exact .inr (.inl h)
    · exact .inr (.inr (.inl h))
    · exact .inr (.inr (.inr (.inl h)))

end BinaryOp

namespace Expr

@[simp] theorem value_simplify_number (x : Float) (ty : Ty) :
    (number x ty).simplify.value = .number x ty := rfl

@[simp] theorem value_simplify_string (s : String) (ty : Ty) :
    (string s ty).simplify.value = .string s ty := rfl

@[simp] theorem value_simplify_bool (b : Bool) (ty : Ty) :
    (bool b ty).simplify.value = .bool b ty := rfl

@[simp] theorem value_simplify_var (id : VariableId) (ty : Ty) :
    (var id ty).simplify.value = .var id ty := rfl

@[simp] theorem value_simplify_func (id : FunctionId) (ty : Ty) :
    (func id ty).simplify.value = .func id ty := rfl

@[simp] theorem value_simplify_struct (id : StructId) (ty : Ty) :
    (struct id ty).simplify.value = .struct id ty := rfl

@[simp] theorem value_simplify_binary (op : BinaryOp) (l r : Expr) (ty : Ty) :
    (binary op l r ty).simplify.value =
      (op.simplify? l.simplify.value r.simplify.value).getD
        (.binary op l.simplify.value r.simplify.value ty) := by
  simp [simplify]

@[simp] theorem value_simplify_unary (op : UnaryOp) (e : Expr) (ty : Ty) :
    (unary op e ty).simplify.value =
      (op.fold? e.simplify.value).getD (.unary op e.simplify.value ty) := by
  simp [simplify]

@[simp] theorem value_simplifyAll (es : List Expr) :
    (simplifyAll es).value = es.map (·.simplify.value) := by
  induction es with
  | nil => rfl
  | cons e es ih => simp [simplifyAll, ih]

@[simp] theorem value_simplify_array (es : List Expr) (ty : Ty) :
    (array es ty).simplify.value = .array (es.map (·.simplify.value)) ty := by
  simp [simplify]

@[simp] theorem value_simplify_call (f : Expr) (args : List Expr) (ty : Ty) :
    (call f args ty).simplify.value =
      .call f.simplify.value (args.map (·.simplify.value)) ty := by
  simp [simplify]

@[simp] theorem value_simplify_member (o : Expr) (field : String) (ty : Ty) :
    (member o field ty).simplify.value = .member o.simplify.value field ty := rfl

@[simp] theorem value_simplify_subscript (a i : Expr) (ty : Ty) :
    (subscript a i ty).simplify.value = .subscript a.simplify.value i.simplify.value ty := rfl

@[simp] theorem value_simplifyOption (e : Option Expr) :
    (simplifyOption e).value = e.map (·.simplify.value) := by
  cases e <;> rfl

end Expr

namespace Stmt

theorem value_choose (test : Expr) (c a : List Stmt) (k : Counted (List Stmt)) :
    (choose test c a k).value =
      match test.bool? with
      | some true => c
      | some false => a
      | none => k.value := by
  unfold choose
  cases test.bool? with
  | none => rfl
  | some b => cases b <;> rfl

@[simp] theorem value_dropIf (idle : Bool) (s : Stmt) :
    (dropIf idle s).value = if idle then [] else [s] := by
  cases idle <;> rfl

@[simp] theorem value_simplifyAll (ss : List Stmt) :
    (simplifyAll ss).value = ss.flatMap (·.simplify.value) := by
  induction ss with
  | nil => rfl
  | cons s ss ih => simp [simplifyAll, ih]

theorem mem_simplifyAll {s : Stmt} {ss : List Stmt} :
    s ∈ (simplifyAll ss).value ↔ ∃ s₀ ∈ ss, s ∈ s₀.simplify.value := by
  rw [value_simplifyAll, List.mem_flatMap]

/-- What the simplified forms of the members of a list share, the simplified list has. -/
theorem forall_simplifyAll {P : Stmt → Prop} {ss : List Stmt}
    (h : ∀ s ∈ ss, ∀ s' ∈ s.simplify.value, P s') : ∀ s' ∈ (simplifyAll ss).value, P s' := by
  intro s' hs'
  obtain ⟨s, hs, hs'⟩ := mem_simplifyAll.mp hs'
  exact h s hs s' hs'

/-- The side that is chosen is one of the three. -/
theorem choose_cases {P : List Stmt → Prop} {test : Expr} {c a : List Stmt}
    {k : Counted (List Stmt)} (hc : P c) (ha : P a) (hk : P k.value) :
    P (choose test c a k).value := by
  rw [value_choose]
  cases test.bool? with
  | none => exact hk
  | some b =>
    cases b with
    | true => exact hc
    | false => exact ha

theorem forall_choose {P : Stmt → Prop} {test : Expr} {c a : List Stmt}
    {k : Counted (List Stmt)} (hc : ∀ s ∈ c, P s) (ha : ∀ s ∈ a, P s) (hk : ∀ s ∈ k.value, P s) :
    ∀ s ∈ (choose test c a k).value, P s :=
  choose_cases (P := fun ss => ∀ s ∈ ss, P s) hc ha hk

/-- The three forms of a conditional behind whose `else` there is a list. -/
theorem forall_joinElse {P : Stmt → Prop} {test : Expr} {c a : List Stmt}
    (none : a = [] → P (.ifThen test c))
    (one : ∀ s, a = [s] → s.isConditional = true → P (.ifElseIf test c s))
    (many : P (.ifElse test c a)) : ∀ s ∈ (joinElse test c a).value, P s := by
  intro s hs
  match a with
  | [] =>
    rw [List.mem_singleton.mp hs]
    exact none rfl
  | [x] =>
    simp only [joinElse] at hs
    split at hs
    · rename_i hx
      rw [List.mem_singleton.mp hs]
      exact one x rfl hx
    · rw [List.mem_singleton.mp hs]
      exact many
  | x :: y :: zs =>
    rw [List.mem_singleton.mp hs]
    exact many

theorem forall_dropIf {P : Stmt → Prop} {idle : Bool} {s : Stmt} (h : P s) :
    ∀ s' ∈ (dropIf idle s).value, P s' := by
  rw [value_dropIf]
  cases idle with
  | true => simp
  | false => simpa using h

end Stmt

end TypedImp
