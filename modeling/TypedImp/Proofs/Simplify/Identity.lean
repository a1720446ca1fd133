import TypedImp.Proofs.Binary64.Arithmetic
import TypedImp.Proofs.Simplify.Value

/-!
# Identities and folding

`identity?` looks at one operand, a literal, and takes no notice of the other one;
`fold?` looks at two literals.  What an identity does with the other operand is an
`Identity`: leave it, negate it, or put a literal in the place of the whole node.
`rightIdentity?` and `leftIdentity?` say which one a literal brings about, and
`identity?_eq_some_iff` that there are no others.

If the other operand turns out to be a literal as well, an identity may contradict
folding: `x * 0` is replaced by `0`, but `-1 * 0` is the negative zero and an infinite
number times zero is no number.  `ClashesRight` and `ClashesLeft` list the numbers of
which this is so, and `onNumbers?_eq_iff_right` and `onNumbers?_eq_iff_left` show that
**these are all there are**.  The identities of powers contradict nothing, since `x ** 0`
and `1 ** x` are one for every number (`power_zero`, `one_power`).
-/

namespace TypedImp

open Binary64

/-- What becomes of a node when one operand is a literal without influence. -/
inductive Identity where
  | operand
  | negated
  | constant (value : Float)

namespace Identity

def apply : Identity → Expr → Expr
  | operand, e => e
  | negated, e => .unary .neg e .number
  | constant value, _ => .ofNumber value

def onNumber : Identity → Float → Float
  | operand, x => x
  | negated, x => -x
  | constant value, _ => value

end Identity

namespace BinaryOp

def rightIdentity? (op : BinaryOp) (c : Float) : Option Identity :=
  match op with
  | add | sub => if c == 0 then some .operand else none
  | mul => if c == 1 then some .operand else if c == 0 then some (.constant 0) else none
  | div => if c == 1 then some .operand else none
  | pow => if c == 0 then some (.constant 1) else none
  | _ => none

def leftIdentity? (op : BinaryOp) (c : Float) : Option Identity :=
  match op with
  | add => if c == 0 then some .operand else none
  | sub => if c == 0 then some .negated else none
  | mul => if c == 1 then some .operand else if c == 0 then some (.constant 0) else none
  | div => if c == 0 then some (.constant 0) else none
  | pow => if c == 1 then some (.constant 1) else none
  | _ => none

variable {op : BinaryOp} {l r w : Expr} {c : Float}

theorem isLiteral_of_some {e : Expr} (h : e.number? = some c) (value : Float) :
    e.isLiteral value = (c == value) := by rw [Expr.isLiteral, h, Option.any_some]

theorem isLiteral_of_none {e : Expr} (h : e.number? = none) (value : Float) :
    e.isLiteral value = false := by rw [Expr.isLiteral, h, Option.any_none]

/-- **The identities with a literal on the right.** -/
theorem identity?_right (op : BinaryOp) (hl : l.number? = none) (hr : r.number? = some c) :
    op.identity? l r = (op.rightIdentity? c).map (·.apply l) := by
  have hright := isLiteral_of_some hr
  have hleft := isLiteral_of_none hl
  cases op with
  | add | sub | pow =>
    by_cases h0 : (c == 0) = true <;>
      simp [identity?, rightIdentity?, hright, hleft, h0, Identity.apply]
  | mul =>
    by_cases h1 : (c == 1) = true <;> by_cases h0 : (c == 0) = true <;>
      simp [identity?, rightIdentity?, hright, hleft, h1, h0, Identity.apply]
  | div =>
    by_cases h1 : (c == 1) = true <;>
      simp [identity?, rightIdentity?, hright, hleft, h1, Identity.apply]
  | _ => rfl

/-- **The identities with a literal on the left.** -/
theorem identity?_left (op : BinaryOp) (hl : l.number? = some c) (hr : r.number? = none) :
    op.identity? l r = (op.leftIdentity? c).map (·.apply r) := by
  have hright := isLiteral_of_none hr
  have hleft := isLiteral_of_some hl
  cases op with
  | add | sub | div =>
    by_cases h0 : (c == 0) = true <;>
      simp [identity?, leftIdentity?, hright, hleft, h0, Identity.apply]
  | mul =>
    by_cases h1 : (c == 1) = true <;> by_cases h0 : (c == 0) = true <;>
      simp [identity?, leftIdentity?, hright, hleft, h1, h0, Identity.apply]
  | pow =>
    by_cases h1 : (c == 1) = true <;>
      simp [identity?, leftIdentity?, hright, hleft, h1, Identity.apply]
  | _ => rfl

/-- An identity needs a literal, and only one if the node is not folded. -/
theorem literal_of_identity? {w : Expr} (hf : op.fold? l r = none) (h : op.identity? l r = some w) :
    (∃ c, l.number? = none ∧ r.number? = some c) ∨ ∃ c, l.number? = some c ∧ r.number? = none := by
  cases hl : l.number? with
  | none =>
    cases hr : r.number? with
    | none =>
      have hleft := isLiteral_of_none hl
      have hright := isLiteral_of_none hr
      cases op <;> simp [identity?, hleft, hright] at h
    | some c => exact .inl ⟨c, rfl, rfl⟩
  | some a =>
    cases hr : r.number? with
    | none => exact .inr ⟨a, rfl, rfl⟩
    | some c =>
      rw [fold?, hl, hr] at hf
      cases op with
      | or | and => cases h
      | _ => cases hf

/-! ### Where they contradict folding -/

/-- A number `a` with which the literal `c` on its right contradicts the identity. -/
def ClashesRight (op : BinaryOp) (a c : Float) : Prop :=
  match op with
  | add => parts a = .zero .negative ∧ parts c = .zero .positive
  | sub => parts a = .zero .negative ∧ parts c = .zero .negative
  | mul => (c == 0) = true ∧ ¬ (sign? (parts a) = sign? (parts c) ∧ isInfinite (parts a) = false)
  | _ => False

/-- A number `a` with which the literal `c` on its left contradicts the identity. -/
def ClashesLeft (op : BinaryOp) (c a : Float) : Prop :=
  match op with
  | add => parts a = .zero .negative ∧ parts c = .zero .positive
  | sub => parts a = .zero .positive ∧ parts c = .zero .positive
  | mul => (c == 0) = true ∧ ¬ (sign? (parts a) = sign? (parts c) ∧ isInfinite (parts a) = false)
  | div => (c == 0) = true ∧ ¬ (sign? (parts a) = sign? (parts c) ∧ isZero (parts a) = false)
  | _ => False

theorem ofNumber_eq_iff {x y : Float} :
    some (Expr.ofNumber x) = some (Expr.ofNumber y) ↔ x = y := by
  simp [Expr.ofNumber]

theorem zero_bne_one {c : Float} (h : (c == 0) = true) : (c == 1) = false := by
  obtain ⟨s, hs⟩ := beq_zero_iff.mp h
  rw [Bool.eq_false_iff]
  intro h1
  rw [beq_one_iff.mp h1, parts_one] at hs
  cases hs

theorem power_zero (a : Float) {c : Float} (h : (c == 0) = true) : power a c = 1 := by
  rw [power, h, Bool.true_or, if_pos rfl]

theorem one_power {c : Float} (h : (c == 1) = true) (a : Float) : power c a = 1 := by
  rw [power, h, Bool.or_true, if_pos rfl]

/-- **Powers are those of floats**, which obey the same two laws. -/
theorem power_eq_pow (hzero : ∀ a c : Float, (c == 0) = true → a ^ c = 1)
    (hone : ∀ c a : Float, (c == 1) = true → c ^ a = 1) (a c : Float) : power a c = a ^ c := by
  rw [power]
  split
  case isTrue h =>
    rcases Bool.or_eq_true_iff.mp h with h0 | h1
    · exact (hzero a c h0).symm
    · exact (hone a c h1).symm
  case isFalse => rfl

variable {k : Identity}

/-- **An identity on the right agrees with folding** unless the numbers clash. -/
theorem onNumbers?_eq_iff_right (h : op.rightIdentity? c = some k) (a : Float) :
    op.onNumbers? a c = some (.ofNumber (k.onNumber a)) ↔ ¬ op.ClashesRight a c := by
  cases op with
  | add =>
    simp only [rightIdentity?, Option.ite_none_right_eq_some] at h
    obtain ⟨h0, hk⟩ := h
    obtain ⟨s, hs⟩ := beq_zero_iff.mp h0
    cases hk
    rw [onNumbers?, ofNumber_eq_iff, Identity.onNumber, add_zero_eq_iff hs, ClashesRight, hs]
    simp
  | sub =>
    simp only [rightIdentity?, Option.ite_none_right_eq_some] at h
    obtain ⟨h0, hk⟩ := h
    obtain ⟨s, hs⟩ := beq_zero_iff.mp h0
    cases hk
    rw [onNumbers?, ofNumber_eq_iff, Identity.onNumber, sub_zero_eq_iff hs, ClashesRight, hs]
    simp
  | mul =>
    rw [onNumbers?, ofNumber_eq_iff, ClashesRight]
    by_cases h1 : (c == 1) = true
    · rw [rightIdentity?, if_pos h1] at h
      cases h
      have hzero : ¬ (c == 0) = true := fun h0 => by simp [zero_bne_one h0] at h1
      rw [beq_one_iff.mp h1, Identity.onNumber] at *
      exact iff_of_true (mul_one_eq a) (fun h => hzero h.1)
    · simp only [rightIdentity?, if_neg h1, Option.ite_none_right_eq_some] at h
      obtain ⟨h0, hk⟩ := h
      obtain ⟨s, hs⟩ := beq_zero_iff.mp h0
      cases hk
      rw [Identity.onNumber, mul_zero_eq_iff hs, hs]
      simp [h0, sign?]
  | div =>
    simp only [rightIdentity?, Option.ite_none_right_eq_some] at h
    obtain ⟨h1, hk⟩ := h
    cases hk
    rw [onNumbers?, ofNumber_eq_iff, beq_one_iff.mp h1]
    exact iff_of_true (div_one_eq a) id
  | pow =>
    simp only [rightIdentity?, Option.ite_none_right_eq_some] at h
    obtain ⟨h0, hk⟩ := h
    cases hk
    rw [onNumbers?, ofNumber_eq_iff, Identity.onNumber, power_zero a h0]
    exact iff_of_true rfl id
  | _ => cases h

/-- **An identity on the left agrees with folding** unless the numbers clash. -/
theorem onNumbers?_eq_iff_left (h : op.leftIdentity? c = some k) (a : Float) :
    op.onNumbers? c a = some (.ofNumber (k.onNumber a)) ↔ ¬ op.ClashesLeft c a := by
  cases op with
  | add =>
    simp only [leftIdentity?, Option.ite_none_right_eq_some] at h
    obtain ⟨h0, hk⟩ := h
    obtain ⟨s, hs⟩ := beq_zero_iff.mp h0
    cases hk
    rw [onNumbers?, ofNumber_eq_iff, Identity.onNumber, add_comm_zero hs, add_zero_eq_iff hs,
      ClashesLeft, hs]
    simp
  | sub =>
    simp only [leftIdentity?, Option.ite_none_right_eq_some] at h
    obtain ⟨h0, hk⟩ := h
    obtain ⟨s, hs⟩ := beq_zero_iff.mp h0
    cases hk
    rw [onNumbers?, ofNumber_eq_iff, Identity.onNumber, zero_sub_eq_iff hs, ClashesLeft, hs]
    simp
  | mul =>
    rw [onNumbers?, ofNumber_eq_iff, ClashesLeft]
    by_cases h1 : (c == 1) = true
    · rw [leftIdentity?, if_pos h1] at h
      cases h
      have hzero : ¬ (c == 0) = true := fun h0 => by simp [zero_bne_one h0] at h1
      rw [beq_one_iff.mp h1, Identity.onNumber] at *
      exact iff_of_true (one_mul_eq a) (fun h => hzero h.1)
    · simp only [leftIdentity?, if_neg h1, Option.ite_none_right_eq_some] at h
      obtain ⟨h0, hk⟩ := h
      obtain ⟨s, hs⟩ := beq_zero_iff.mp h0
      cases hk
      rw [Identity.onNumber, mul_comm_zero hs, mul_zero_eq_iff hs, hs]
      simp [h0, sign?]
  | div =>
    simp only [leftIdentity?, Option.ite_none_right_eq_some] at h
    obtain ⟨h0, hk⟩ := h
    obtain ⟨s, hs⟩ := beq_zero_iff.mp h0
    cases hk
    rw [onNumbers?, ofNumber_eq_iff, Identity.onNumber, zero_div_eq_iff hs, ClashesLeft, hs]
    simp [h0, sign?]
  | pow =>
    simp only [leftIdentity?, Option.ite_none_right_eq_some] at h
    obtain ⟨h1, hk⟩ := h
    cases hk
    rw [onNumbers?, ofNumber_eq_iff, Identity.onNumber, one_power h1 a]
    exact iff_of_true rfl id
  | _ => cases h

end BinaryOp

end TypedImp
