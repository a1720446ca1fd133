import Mathlib
import TypedImp.Proofs.Binary64.Rounding

/-!
# Arithmetic on parts

An operation on floats is one on their parts, packed again.  A product, a quotient and a
whole number are known as soon as it is known which float the exact result reads back as
(`mul_finite`, `div_finite`, `round_finite`).

From this follow the laws that the operators on numbers have with `0` and `1`.  A one
has no influence on a product, nor below the line: `mul_one_eq`, `one_mul_eq`,
`div_one_eq`.  With a zero, signs matter: `x + 0` is `x` unless `x` is the negative zero
(`add_zero_eq_iff`), and a product with zero is the positive zero only if the signs
agree and the other factor is finite (`mul_zero_eq_iff`).
-/

namespace TypedImp.Binary64

open Float.Model Float.Model.UnpackedFloat

/-! ### Exact results -/

/-- A mantissa as long as that of a float has an exponent that is not above the target. -/
theorem le_targetExponent {M : Nat} (hM : 2 ^ 52 ≤ M) (E : Int) :
    E ≤ Format.binary64.targetExponent (totalExponent M E) := by
  have hlog := (Nat.le_log2 (by omega)).mpr hM
  rw [targetExponent_eq, totalExponent]
  omega

/-- A float reads back as itself. -/
theorem covers_self {m : Nat} {e : Int} (hc : Canonical m e) :
    (Decimal.Magnitude.reading ⟨m, e⟩).Covers (m * 2 ^ e) := by
  have hpos := two_zpow_pos e
  have hm := hc.pos
  simp only [Decimal.Reading.Covers, Decimal.Magnitude.reading, div_two_zpow_sub_two]
  rw [mul_div_cancel_right₀ _ hpos.ne']
  have hbelow : ((4 * m - if m = Nat.pow 2 52 ∧ -1074 < e then 1 else 2 : ℕ) : ℚ) < 4 * m := by
    have : (4 * m - if m = Nat.pow 2 52 ∧ -1074 < e then 1 else 2) < 4 * m := by
      split <;> omega
    exact_mod_cast this
  have habove : (4 * m : ℚ) < ((4 * m + 2 : ℕ) : ℚ) := by
    push_cast
    linarith
  split
  · exact ⟨hbelow.le, habove.le⟩
  · exact ⟨hbelow, habove⟩

section

variable {s₁ s₂ : Sign} {m₁ m₂ m : Nat} {e₁ e₂ e : Int} {h₁ : 0 < m₁} {h₂ : 0 < m₂}

/-- **A product** is the float that the exact product reads back as. -/
theorem mul_finite (hc : Canonical m e) (hlong : 2 ^ 52 ≤ m₁ * m₂)
    (hq : (Decimal.Magnitude.reading ⟨m, e⟩).Covers (m₁ * 2 ^ e₁ * (m₂ * 2 ^ e₂))) :
    UnpackedFloat.mul .binary64 (.finite s₁ m₁ e₁ h₁) (.finite s₂ m₂ e₂ h₂) =
      .finite (s₁ * s₂) m e hc.pos := by
  apply roundWithAccuracy_eq _ hc hq
  · have hexact : (m₁ : ℚ) * 2 ^ e₁ * (m₂ * 2 ^ e₂) / 2 ^ (e₁ + e₂) = (m₁ * m₂ : ℕ) := by
      rw [zpow_add₀ (by norm_num)]
      have := two_zpow_pos e₁
      have := two_zpow_pos e₂
      push_cast
      field_simp
    rw [hexact]
    exact holds_exact _
  · exact le_targetExponent hlong _

/-- What is left of a division says how far the quotient is below the next whole number. -/
theorem holds_accuracyOfFraction (a : Nat) {b : Nat} (hb : 0 < b) :
    Holds (ExtendedMantissa.ofMantissaAndAccuracy (a / b) (accuracyOfFraction (a % b) b))
      (a / b) := by
  have hbpos : (0 : ℚ) < b := by exact_mod_cast hb
  have hlt : ((a % b : ℕ) : ℚ) < b := by exact_mod_cast Nat.mod_lt a hb
  have hsum : (a : ℚ) / b = (a / b : ℕ) + (a % b : ℕ) / b := by
    have hmod : (b : ℚ) * (a / b : ℕ) + (a % b : ℕ) = a := by
      exact_mod_cast Nat.div_add_mod a b
    rw [div_eq_iff hbpos.ne', add_mul, div_mul_cancel₀ _ hbpos.ne']
    linarith
  rw [hsum, accuracyOfFraction]
  by_cases hzero : a % b = 0
  · rw [if_pos hzero, hzero]
    simp [Holds, base, ExtendedMantissa.ofMantissaAndAccuracy]
  · rw [if_neg hzero]
    have hpos : (0 : ℚ) < (a % b : ℕ) / b := by
      apply div_pos _ hbpos
      exact_mod_cast Nat.pos_of_ne_zero hzero
    have hone : ((a % b : ℕ) : ℚ) / b < 1 := (div_lt_one hbpos).mpr hlt
    -- Whether it is less than a half, a half, or more.
    rcases lt_trichotomy (2 * (a % b)) b with h | h | h
    · have hhalf : ((a % b : ℕ) : ℚ) / b < 1 / 2 := by
        rw [div_lt_div_iff₀ hbpos (by norm_num)]
        have : ((2 * (a % b) : ℕ) : ℚ) < b := by exact_mod_cast h
        push_cast at this ⊢
        linarith
      rw [compare_lt_iff_lt.mpr h]
      simp only [Holds, base, ExtendedMantissa.ofMantissaAndAccuracy, if_true, Bool.false_eq_true,
        if_false]
      constructor <;> linarith
    · have hhalf : ((a % b : ℕ) : ℚ) / b = 1 / 2 := by
        rw [div_eq_div_iff hbpos.ne' (by norm_num)]
        have : ((2 * (a % b) : ℕ) : ℚ) = b := by exact_mod_cast h
        push_cast at this ⊢
        linarith
      rw [compare_eq_iff_eq.mpr h]
      simp only [Holds, base, ExtendedMantissa.ofMantissaAndAccuracy, if_true, Bool.false_eq_true,
        if_false]
      linarith
    · have hhalf : 1 / 2 < ((a % b : ℕ) : ℚ) / b := by
        rw [div_lt_div_iff₀ (by norm_num) hbpos]
        have : (b : ℚ) < ((2 * (a % b) : ℕ) : ℚ) := by exact_mod_cast h
        push_cast at this ⊢
        linarith
      rw [compare_gt_iff_gt.mpr h]
      simp only [Holds, base, ExtendedMantissa.ofMantissaAndAccuracy, if_true]
      constructor <;> linarith

/-- **A quotient** is the float that the exact quotient reads back as. -/
theorem div_finite (hc : Canonical m e)
    (hq : (Decimal.Magnitude.reading ⟨m, e⟩).Covers (m₁ * 2 ^ e₁ / (m₂ * 2 ^ e₂))) :
    UnpackedFloat.div .binary64 (.finite s₁ m₁ e₁ h₁) (.finite s₂ m₂ e₂ h₂) =
      .finite (s₁ / s₂) m e hc.pos := by
  obtain ⟨E, hE⟩ : ∃ E, E = min (e₁ - e₂)
      (Format.binary64.targetExponent (totalExponent m₁ e₁ - totalExponent m₂ e₂)) := ⟨_, rfl⟩
  obtain ⟨k, hk⟩ : ∃ k : Nat, (e₁ - e₂ - E).toNat = k := ⟨_, rfl⟩
  have hsum : e₁ - e₂ = E + k := by omega
  have hrep : Holds (ExtendedMantissa.ofMantissaAndAccuracy ((m₁ <<< k) / m₂)
      (accuracyOfFraction ((m₁ <<< k) % m₂) m₂)) (m₁ * 2 ^ e₁ / (m₂ * 2 ^ e₂) / 2 ^ E) := by
    have hshift : (m₁ : ℚ) * 2 ^ e₁ / (m₂ * 2 ^ e₂) / 2 ^ E = (m₁ <<< k : ℕ) / m₂ := by
      have he : e₁ = E + k + e₂ := by omega
      have := two_zpow_pos E
      have := two_zpow_pos e₂
      rw [he, zpow_add₀ (by norm_num), zpow_add₀ (by norm_num), Nat.shiftLeft_eq]
      push_cast
      field_simp
      norm_num
    rw [hshift]
    exact holds_accuracyOfFraction _ h₂
  have hle : E ≤ Format.binary64.targetExponent (totalExponent ((m₁ <<< k) / m₂) E) := by
    have hbounds := hrep.bounds
    rw [mantissa_ofMantissaAndAccuracy] at hbounds
    have hbelow := lt_two_zpow_totalExponent hbounds.2
    have hm₁ : (m₁ : ℚ) ≤ m₁ * 2 ^ e₁ / 2 ^ e₁ := by
      rw [mul_div_cancel_right₀ _ (two_zpow_pos e₁).ne']
    have hm₂ : (m₂ : ℚ) * 2 ^ e₂ / 2 ^ e₂ < m₂ + 1 := by
      rw [mul_div_cancel_right₀ _ (two_zpow_pos e₂).ne']
      linarith
    have hfirst := two_zpow_totalExponent_le h₁.ne' hm₁
    have hsecond := lt_two_zpow_totalExponent hm₂
    have hpos : (0 : ℚ) < m₂ * 2 ^ e₂ := mul_pos (by exact_mod_cast h₂) (two_zpow_pos e₂)
    have hlow : (2 : ℚ) ^ (totalExponent m₁ e₁ - totalExponent m₂ e₂ - 1) ≤
        m₁ * 2 ^ e₁ / (m₂ * 2 ^ e₂) := by
      rw [le_div_iff₀ hpos]
      calc (2 : ℚ) ^ (totalExponent m₁ e₁ - totalExponent m₂ e₂ - 1) * (m₂ * 2 ^ e₂) ≤
            2 ^ (totalExponent m₁ e₁ - totalExponent m₂ e₂ - 1) * 2 ^ totalExponent m₂ e₂ := by
            gcongr
        _ = 2 ^ (totalExponent m₁ e₁ - 1) := by
            rw [← zpow_add₀ (by norm_num)]
            congr 1
            ring
        _ ≤ m₁ * 2 ^ e₁ := hfirst
    have := lt_of_two_zpow_lt hlow hbelow
    rw [targetExponent_eq] at hE ⊢
    omega
  have hround := roundWithAccuracy_eq (s₁ / s₂) hc hq hrep hle
  rw [← hround, UnpackedFloat.div, divCore, ← hE, hk]

theorem log2_shiftLeft {M : Nat} (hM : M ≠ 0) (k : Nat) : (M <<< k).log2 = M.log2 + k := by
  induction k with
  | zero => rfl
  | succ k ih =>
    have hne : M <<< k ≠ 0 := by
      rw [Nat.shiftLeft_eq]
      exact Nat.mul_ne_zero hM (Nat.two_pow_pos k).ne'
    rw [Nat.shiftLeft_succ, Nat.log2_two_mul hne, ih, Nat.add_assoc]

/-- **A whole number times a power of two** is the float that it reads back as. -/
theorem round_finite (s : Sign) {M : Nat} {E : Int} (hM : M ≠ 0) (hc : Canonical m e)
    (hq : (Decimal.Magnitude.reading ⟨m, e⟩).Covers (M * 2 ^ E)) :
    UnpackedFloat.round .binary64 s M E = .finite s m e hc.pos := by
  obtain ⟨k, hk⟩ : ∃ k : Nat,
      (E - Format.binary64.targetExponent (totalExponent M E)).toNat = k := ⟨_, rfl⟩
  have htotal : totalExponent (M <<< k) (E - k) = totalExponent M E := by
    rw [totalExponent, totalExponent, log2_shiftLeft hM]
    push_cast
    ring
  have hrep : Holds (ExtendedMantissa.ofMantissaAndAccuracy (M <<< k) .exact)
      (M * 2 ^ E / 2 ^ (E - k)) := by
    have hshift : (M : ℚ) * 2 ^ E / 2 ^ (E - k) = (M <<< k : ℕ) := by
      have := two_zpow_pos E
      rw [zpow_sub₀ (by norm_num), Nat.shiftLeft_eq]
      push_cast
      field_simp
      norm_num
    rw [hshift]
    exact holds_exact _
  have hle : E - k ≤ Format.binary64.targetExponent (totalExponent (M <<< k) (E - k)) := by
    rw [htotal]
    omega
  have hround := roundWithAccuracy_eq s hc hq hrep hle
  rw [← hround, UnpackedFloat.round, decreaseExponent, hk]

end

/-! ### Operations on floats -/

theorem parts_zero : parts 0 = .zero .positive := rfl

theorem parts_one : parts 1 = .finite .positive (2 ^ 52) (-52) (by decide) := rfl

section

variable {x y : Float}

theorem parts_neg (x : Float) : parts (-x) = (parts x).neg := by
  apply parts_pack
  have := fits_parts x
  show Fits (parts x).neg
  cases hx : parts x with
  | finite s m e hm => exact Canonical.of_parts hx
  | _ => trivial

theorem parts_add (h : Fits (UnpackedFloat.add .binary64 (parts x) (parts y))) :
    parts (x + y) = UnpackedFloat.add .binary64 (parts x) (parts y) := parts_pack h

theorem parts_sub (h : Fits (UnpackedFloat.sub .binary64 (parts x) (parts y))) :
    parts (x - y) = UnpackedFloat.sub .binary64 (parts x) (parts y) := parts_pack h

theorem parts_mul (h : Fits (UnpackedFloat.mul .binary64 (parts x) (parts y))) :
    parts (x * y) = UnpackedFloat.mul .binary64 (parts x) (parts y) := parts_pack h

theorem parts_div (h : Fits (UnpackedFloat.div .binary64 (parts x) (parts y))) :
    parts (x / y) = UnpackedFloat.div .binary64 (parts x) (parts y) := parts_pack h

/-- A float equals zero if it is one of the two zeros. -/
theorem beq_zero_iff : (x == 0) = true ↔ ∃ s, parts x = .zero s := by
  show (UnpackedFloat.compare (parts x) (parts 0) == some .eq) = true ↔ _
  rw [parts_zero]
  cases parts x with
  | zero s => simp [UnpackedFloat.compare]
  | notANumber => simp [UnpackedFloat.compare]
  | infinity s => cases s <;> simp [UnpackedFloat.compare]
  | finite s m e hm => cases s <;> simp [UnpackedFloat.compare]

/-- A float equals one only if it is one. -/
theorem beq_one_iff : (x == 1) = true ↔ x = 1 := by
  rw [← parts_inj]
  show (UnpackedFloat.compare (parts x) (parts 1) == some .eq) = true ↔ _
  rw [parts_one]
  cases parts x with
  | zero s => simp [UnpackedFloat.compare]
  | notANumber => simp [UnpackedFloat.compare]
  | infinity s => cases s <;> simp [UnpackedFloat.compare]
  | finite s m e hm =>
    cases s
    · simp [UnpackedFloat.compare]
    · simp [UnpackedFloat.compare, Ordering.then_eq_eq, and_comm]

end

/-! ### Laws of one -/

/-- A one: the mantissa of `1` is a power of two that its exponent takes back. -/
theorem mul_one_value (q : ℚ) : q * ((2 ^ 52 : ℕ) * 2 ^ (-52 : Int)) = q := by
  norm_num

theorem mul_one_parts (u : UnpackedFloat) (hu : Fits u) :
    UnpackedFloat.mul .binary64 u (parts 1) = u := by
  rw [parts_one]
  cases u with
  | notANumber => rfl
  | infinity s => cases s <;> rfl
  | zero s => cases s <;> rfl
  | finite s m e hm =>
    have hlong : 2 ^ 52 ≤ m * 2 ^ 52 := Nat.le_mul_of_pos_left _ hm
    rw [mul_finite hu hlong (by rw [mul_one_value]; exact covers_self hu)]
    cases s <;> rfl

theorem one_mul_parts (u : UnpackedFloat) (hu : Fits u) :
    UnpackedFloat.mul .binary64 (parts 1) u = u := by
  rw [parts_one]
  cases u with
  | notANumber => rfl
  | infinity s => cases s <;> rfl
  | zero s => cases s <;> rfl
  | finite s m e hm =>
    have hlong : 2 ^ 52 ≤ 2 ^ 52 * m := Nat.le_mul_of_pos_right _ hm
    rw [mul_finite hu hlong (by rw [mul_comm, mul_one_value]; exact covers_self hu)]
    cases s <;> rfl

theorem div_one_parts (u : UnpackedFloat) (hu : Fits u) :
    UnpackedFloat.div .binary64 u (parts 1) = u := by
  rw [parts_one]
  cases u with
  | notANumber => rfl
  | infinity s => cases s <;> rfl
  | zero s => cases s <;> rfl
  | finite s m e hm =>
    have hone : ((2 ^ 52 : ℕ) : ℚ) * 2 ^ (-52 : Int) = 1 := by norm_num
    rw [div_finite hu (by rw [hone, div_one]; exact covers_self hu)]
    cases s <;> rfl

theorem mul_one_eq (x : Float) : x * 1 = x := by
  have h := mul_one_parts (parts x) (fits_parts x)
  have hfits : Fits (UnpackedFloat.mul .binary64 (parts x) (parts 1)) := by
    rw [h]
    exact fits_parts x
  exact parts_injective ((parts_mul hfits).trans h)

theorem one_mul_eq (x : Float) : 1 * x = x := by
  have h := one_mul_parts (parts x) (fits_parts x)
  have hfits : Fits (UnpackedFloat.mul .binary64 (parts 1) (parts x)) := by
    rw [h]
    exact fits_parts x
  exact parts_injective ((parts_mul hfits).trans h)

theorem div_one_eq (x : Float) : x / 1 = x := by
  have h := div_one_parts (parts x) (fits_parts x)
  have hfits : Fits (UnpackedFloat.div .binary64 (parts x) (parts 1)) := by
    rw [h]
    exact fits_parts x
  exact parts_injective ((parts_div hfits).trans h)

/-! ### Laws of zero -/

section

variable {x z : Float} {s : Sign}

@[simp] theorem neg_negative : -Sign.negative = .positive := rfl

@[simp] theorem neg_positive : -Sign.positive = .negative := rfl

theorem mul_eq_positive_iff {a b : Sign} : a * b = .positive ↔ a = b := by
  cases a <;> cases b <;>
    first | exact iff_of_true rfl rfl | exact iff_of_false Sign.noConfusion Sign.noConfusion

theorem div_eq_positive_iff {a b : Sign} : a / b = .positive ↔ b = a := by
  cases a <;> cases b <;>
    first | exact iff_of_true rfl rfl | exact iff_of_false Sign.noConfusion Sign.noConfusion

/-- A sum of two zeros is negative only if both are. -/
def both : Sign → Sign → Sign
  | .negative, .negative => .negative
  | _, _ => .positive

theorem zero_add_zero (a b : Sign) :
    UnpackedFloat.add .binary64 (.zero a) (.zero b) = .zero (both a b) := by
  cases a <;> cases b <;> rfl

theorem zero_sub_zero (a b : Sign) :
    UnpackedFloat.sub .binary64 (.zero a) (.zero b) = .zero (both a (-b)) := by
  cases a <;> cases b <;> rfl

/-- A sum with a zero is the other operand, unless that is the negative zero and the
zero positive. -/
theorem add_zero_eq_iff (hz : parts z = .zero s) :
    x + z = x ↔ ¬ (parts x = .zero .negative ∧ s = .positive) := by
  have hfits := fits_parts x
  have hsum : Fits (UnpackedFloat.add .binary64 (parts x) (parts z)) := by
    rw [hz]
    cases hx : parts x with
    | zero s' => cases s <;> cases s' <;> trivial
    | _ =>
      rw [hx] at hfits
      exact hfits
  rw [← parts_inj, parts_add hsum, hz]
  cases parts x with
  | zero s' =>
    rw [zero_add_zero]
    cases s <;> cases s' <;> simp [both]
  | _ => simp [UnpackedFloat.add]

theorem add_comm_zero (hz : parts z = .zero s) (x : Float) : z + x = x + z := by
  have hsum : UnpackedFloat.add .binary64 (parts z) (parts x) =
      UnpackedFloat.add .binary64 (parts x) (parts z) := by
    rw [hz]
    cases parts x with
    | zero s' => cases s <;> cases s' <;> rfl
    | _ => rfl
  show Float.ofModel (.pack _) = Float.ofModel (.pack _)
  exact congrArg (fun u => Float.ofModel (.pack u)) hsum

theorem sub_zero_eq_iff (hz : parts z = .zero s) :
    x - z = x ↔ ¬ (parts x = .zero .negative ∧ s = .negative) := by
  have hfits := fits_parts x
  have hsum : Fits (UnpackedFloat.sub .binary64 (parts x) (parts z)) := by
    rw [hz]
    cases hx : parts x with
    | zero s' => cases s <;> cases s' <;> trivial
    | _ =>
      rw [hx] at hfits
      exact hfits
  rw [← parts_inj, parts_sub hsum, hz]
  cases parts x with
  | zero s' =>
    rw [zero_sub_zero]
    cases s <;> cases s' <;> simp [both]
  | _ => simp [UnpackedFloat.sub]

/-- What is subtracted from a zero is negated, unless both are the positive zero. -/
theorem zero_sub_eq_iff (hz : parts z = .zero s) :
    z - x = -x ↔ ¬ (parts x = .zero .positive ∧ s = .positive) := by
  have hfits := fits_parts (-x)
  rw [parts_neg] at hfits
  have hsum : Fits (UnpackedFloat.sub .binary64 (parts z) (parts x)) := by
    rw [hz]
    cases hx : parts x with
    | zero s' => cases s <;> cases s' <;> trivial
    | _ =>
      rw [hx] at hfits
      exact hfits
  rw [← parts_inj, parts_sub hsum, hz, parts_neg]
  cases parts x with
  | zero s' =>
    rw [zero_sub_zero]
    cases s <;> cases s' <;> simp [both, UnpackedFloat.neg]
  | _ => simp [UnpackedFloat.sub, UnpackedFloat.neg]

def sign? : UnpackedFloat → Option Sign
  | .notANumber => none
  | .infinity s | .zero s | .finite s _ _ _ => some s

def isInfinite : UnpackedFloat → Bool
  | .infinity _ => true
  | _ => false

def isZero : UnpackedFloat → Bool
  | .zero _ => true
  | _ => false

/-- A product with a zero is the positive zero if the other factor is finite and has the
same sign. -/
theorem mul_zero_eq_iff (hz : parts z = .zero s) :
    x * z = 0 ↔ sign? (parts x) = some s ∧ isInfinite (parts x) = false := by
  have hfits : Fits (UnpackedFloat.mul .binary64 (parts x) (parts z)) := by
    rw [hz]
    cases parts x <;> trivial
  rw [← parts_inj, parts_mul hfits, hz, parts_zero]
  cases parts x with
  | notANumber => simp [UnpackedFloat.mul, sign?]
  | infinity s' => simp [UnpackedFloat.mul, isInfinite]
  | zero s' => simp [UnpackedFloat.mul, sign?, isInfinite, mul_eq_positive_iff]
  | finite s' => simp [UnpackedFloat.mul, sign?, isInfinite, mul_eq_positive_iff]

theorem mul_comm_zero (hz : parts z = .zero s) (x : Float) : z * x = x * z := by
  have hproduct : UnpackedFloat.mul .binary64 (parts z) (parts x) =
      UnpackedFloat.mul .binary64 (parts x) (parts z) := by
    rw [hz]
    cases parts x with
    | zero s' => cases s <;> cases s' <;> rfl
    | finite s' => cases s <;> cases s' <;> rfl
    | _ => rfl
  show Float.ofModel (.pack _) = Float.ofModel (.pack _)
  exact congrArg (fun u => Float.ofModel (.pack u)) hproduct

/-- A zero divided by a number is the positive zero if that is no zero and has the same
sign. -/
theorem zero_div_eq_iff (hz : parts z = .zero s) :
    z / x = 0 ↔ sign? (parts x) = some s ∧ isZero (parts x) = false := by
  have hfits : Fits (UnpackedFloat.div .binary64 (parts z) (parts x)) := by
    rw [hz]
    cases parts x <;> trivial
  rw [← parts_inj, parts_div hfits, hz, parts_zero]
  cases parts x with
  | notANumber => simp [UnpackedFloat.div, sign?]
  | zero s' => simp [UnpackedFloat.div, isZero]
  | infinity s' => simp [UnpackedFloat.div, sign?, isZero, div_eq_positive_iff]
  | finite s' => simp [UnpackedFloat.div, sign?, isZero, div_eq_positive_iff]

end

end TypedImp.Binary64
