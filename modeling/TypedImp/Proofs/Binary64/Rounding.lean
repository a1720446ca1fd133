import Mathlib.Algebra.Order.Field.Power
import Mathlib.Data.Rat.Cast.Order
import Mathlib.Tactic.FieldSimp
import Mathlib.Tactic.Linarith
import Mathlib.Tactic.Positivity
import TypedImp.Proofs.Binary64.Parts

/-!
# Rounding

An operation on floats computes a mantissa and an exponent, of which it drops bits until
the mantissa fits.  Two more bits say how much was dropped: `Holds em y` is what a
mantissa with these two bits says of the number `y` it stands for.  Dropping a bit keeps
it (`Holds.shift`), and rounding yields the whole number nearest to `y`, of two the even
one (`Holds.roundedMantissa`).

`Covers r q` says that the number `q` is one of those that read back as a given float.
`roundWithAccuracy_eq`: **a number that reads back as a float is rounded to it.**  There
are two ways.  Mostly the number is as long as the float, and rounding at the exponent of
the float yields its mantissa.  But if the mantissa is a power of two, a number may be
one bit shorter and still read back as it; then rounding yields the next power of two at
the exponent below, and the bit that this is too long is shifted out again.
-/

namespace TypedImp

def Decimal.Reading.Covers (r : Decimal.Reading) (q : ℚ) : Prop :=
  let y := q / 2 ^ r.exponent
  if r.closed then (r.low : ℚ) ≤ y ∧ y ≤ r.high else (r.low : ℚ) < y ∧ y < r.high

namespace Binary64

open Float.Model Float.Model.UnpackedFloat

/-! ### The two bits behind a mantissa -/

def base (em : ExtendedMantissa) : ℚ := em.mantissa + if em.roundBit then 1 / 2 else 0

/-- What a mantissa and the two bits behind it say of the number that they stand for. -/
def Holds (em : ExtendedMantissa) (y : ℚ) : Prop :=
  if em.stickyBit then base em < y ∧ y < base em + 1 / 2 else y = base em

variable {em : ExtendedMantissa} {y : ℚ}

theorem base_shiftRightOne (em : ExtendedMantissa) : base em.shiftRightOne = em.mantissa / 2 := by
  have hm : ((em.mantissa % 2 : ℕ) : ℚ) + 2 * (em.mantissa / 2 : ℕ) = em.mantissa := by
    exact_mod_cast Nat.mod_add_div em.mantissa 2
  rw [base, ExtendedMantissa.shiftRightOne]
  rcases Nat.mod_two_eq_zero_or_one em.mantissa with h | h
  · rw [h] at hm ⊢
    push_cast at hm
    simp only [bne_self_eq_false, Bool.false_eq_true, if_false]
    linarith
  · rw [h] at hm ⊢
    push_cast at hm
    simp only [show (1 != 0) = true from rfl, if_true]
    linarith

theorem Holds.shiftRightOne (h : Holds em y) : Holds em.shiftRightOne (y / 2) := by
  rw [Holds, base_shiftRightOne]
  obtain ⟨m, r, s⟩ := em
  cases r <;> cases s <;> simp [Holds, base, ExtendedMantissa.shiftRightOne] at h ⊢ <;>
    first | constructor <;> linarith | linarith

theorem Holds.shift (h : Holds em y) (n : Nat) : Holds (em >>> n) (y / 2 ^ n) := by
  show Holds (n.repeat ExtendedMantissa.shiftRightOne em) (y / 2 ^ n)
  induction n with
  | zero => simpa [Nat.repeat] using h
  | succ n ih =>
    rw [Nat.repeat, pow_succ, ← div_div]
    exact ih.shiftRightOne

theorem Holds.bounds (h : Holds em y) : (em.mantissa : ℚ) ≤ y ∧ y < em.mantissa + 1 := by
  obtain ⟨m, r, s⟩ := em
  cases r <;> cases s <;> simp [Holds, base] at h ⊢ <;> constructor <;> linarith

/-- The whole number `n` is nearest to `y`, and even if another one is as near. -/
def Nearest (n : ℕ) (y : ℚ) : Prop :=
  if n % 2 = 0 then (n : ℚ) - 1 / 2 ≤ y ∧ y ≤ n + 1 / 2 else (n : ℚ) - 1 / 2 < y ∧ y < n + 1 / 2

theorem Nearest.bounds {n : ℕ} (h : Nearest n y) : (n : ℚ) - 1 / 2 ≤ y ∧ y ≤ n + 1 / 2 := by
  rw [Nearest] at h
  split at h
  · exact h
  · exact ⟨h.1.le, h.2.le⟩

/-- **Rounding yields the nearest whole number.** -/
theorem Holds.roundedMantissa (h : Holds em y) {n : ℕ} (hn : Nearest n y) :
    em.roundedMantissa = n := by
  obtain ⟨hlow, hhigh⟩ := hn.bounds
  obtain ⟨m, r, s⟩ := em
  cases r with
  | false =>
    -- The number is less than half a unit above the mantissa.
    have hy : (m : ℚ) ≤ y ∧ y < m + 1 / 2 := by
      cases s <;> simp [Holds, base] at h <;> constructor <;> linarith
    have h1 : n < m + 1 := by
      have : (n : ℚ) < m + 1 := by linarith
      exact_mod_cast this
    have h2 : m < n + 1 := by
      have : (m : ℚ) < n + 1 := by linarith
      exact_mod_cast this
    have : m = n := by omega
    subst this
    cases s <;> rfl
  | true =>
    have h2 : m ≤ n := by
      have hy : (m : ℚ) + 1 / 2 ≤ y := by
        cases s <;> simp [Holds, base] at h <;> linarith
      have : (m : ℚ) ≤ n := by linarith
      exact_mod_cast this
    cases s with
    | true =>
      -- The number is more than half a unit above the mantissa.
      simp [Holds, base] at h
      have h1 : n < m + 2 := by
        have : (n : ℚ) < m + 2 := by linarith
        exact_mod_cast this
      have h3 : m < n := by
        have : (m : ℚ) < n := by linarith
        exact_mod_cast this
      show m + 1 = n
      omega
    | false =>
      -- The number lies in the middle, so the even neighbour is meant.
      simp [Holds, base] at h
      subst h
      have h1 : n ≤ m + 1 := by
        have : (n : ℚ) ≤ m + 1 := by linarith
        exact_mod_cast this
      have heven : n % 2 = 0 := by
        by_contra hodd
        rw [Nearest, if_neg hodd] at hn
        have h3 : m < n := by
          have : (m : ℚ) < n := by linarith
          exact_mod_cast this
        have h4 : n < m + 1 := by
          have : (n : ℚ) < m + 1 := by linarith
          exact_mod_cast this
        omega
      show m + m % 2 = n
      omega

/-! ### Exponents -/

theorem targetExponent_eq (t : Int) : Format.binary64.targetExponent t = max (t - 53) (-1074) := rfl

/-- A mantissa and an exponent that are canonical are not shifted. -/
theorem Canonical.targetExponent {m : Nat} {e : Int} (h : Canonical m e) :
    Format.binary64.targetExponent (totalExponent m e) = e := by
  rw [targetExponent_eq, totalExponent]
  have hlow := h.low
  have hlt := (Nat.log2_lt h.pos.ne').mpr h.lt
  rcases h.full with hfull | rfl
  · have := (Nat.le_log2 h.pos.ne').mpr hfull
    omega
  · omega

theorem two_zpow_pos (e : Int) : (0 : ℚ) < 2 ^ e := zpow_pos (by norm_num) e

theorem lt_of_two_zpow_lt {a b : Int} {q : ℚ} (ha : (2 : ℚ) ^ a ≤ q) (hb : q < (2 : ℚ) ^ b) :
    a < b := (zpow_lt_zpow_iff_right₀ (by norm_num)).mp (ha.trans_lt hb)

/-- A number is below the power of two that the total exponent names. -/
theorem lt_two_zpow_totalExponent {M : Nat} {E : Int} {q : ℚ} (h : q / 2 ^ E < M + 1) :
    q < 2 ^ totalExponent M E := by
  have hE := two_zpow_pos E
  have hM : (M : ℚ) + 1 ≤ 2 ^ (M.log2 + 1) := by exact_mod_cast Nat.lt_log2_self
  rw [div_lt_iff₀ hE] at h
  calc q < (M + 1) * 2 ^ E := h
    _ ≤ 2 ^ (M.log2 + 1) * 2 ^ E := by gcongr
    _ = 2 ^ totalExponent M E := by
      rw [totalExponent, zpow_add₀ (by norm_num), ← zpow_natCast]
      push_cast
      rfl

/-- It is not below the power of two before it, unless the mantissa is zero. -/
theorem two_zpow_totalExponent_le {M : Nat} {E : Int} {q : ℚ} (hM : M ≠ 0) (h : M ≤ q / 2 ^ E) :
    2 ^ (totalExponent M E - 1) ≤ q := by
  have hE := two_zpow_pos E
  have hlog : (2 : ℚ) ^ M.log2 ≤ M := by exact_mod_cast Nat.log2_self_le hM
  rw [le_div_iff₀ hE] at h
  calc (2 : ℚ) ^ (totalExponent M E - 1) = 2 ^ M.log2 * 2 ^ E := by
        rw [totalExponent, show (M.log2 : ℤ) + 1 + E - 1 = M.log2 + E by ring,
          zpow_add₀ (by norm_num), zpow_natCast]
    _ ≤ M * 2 ^ E := by gcongr
    _ ≤ q := h

/-! ### Numbers that read back -/

section

variable {m : Nat} {e : Int} {q : ℚ}

theorem div_two_zpow_sub_two (q : ℚ) (e : Int) : q / 2 ^ (e - 2) = 4 * (q / 2 ^ e) := by
  rw [zpow_sub₀ (by norm_num), div_div_eq_mul_div, mul_comm, mul_div_assoc]
  norm_num

/-- A number that reads back is nearest to the mantissa. -/
theorem nearest_of_covers (hc : Canonical m e)
    (hq : (Decimal.Magnitude.reading ⟨m, e⟩).Covers q) : Nearest m (q / 2 ^ e) := by
  have hm := hc.pos
  simp only [Decimal.Reading.Covers, Decimal.Magnitude.reading, div_two_zpow_sub_two] at hq
  rw [Nearest]
  by_cases hbound : m = Nat.pow 2 52 ∧ -1074 < e
  · have heven : m % 2 = 0 := by rw [hbound.1]
    rw [if_pos hbound, heven] at hq
    rw [if_pos heven]
    push_cast [show 1 ≤ 4 * m by omega] at hq
    simp only [if_true] at hq
    constructor <;> linarith
  · rw [if_neg hbound] at hq
    push_cast [show 2 ≤ 4 * m by omega] at hq
    by_cases heven : m % 2 = 0
    · simp only [heven, beq_self_eq_true, if_true] at hq
      rw [if_pos heven]
      constructor <;> linarith
    · simp only [heven, beq_iff_eq, if_false] at hq
      rw [if_neg heven]
      constructor <;> linarith

/-- Below a power of two, the neighbour is only half as far away. -/
theorem le_of_covers (hm : m = 2 ^ 52) (he : -1074 < e)
    (hq : (Decimal.Magnitude.reading ⟨m, e⟩).Covers q) : 2 ^ 52 - 1 / 4 ≤ q / 2 ^ e := by
  have heven : m % 2 = 0 := by
    rw [hm]
    rfl
  have hcast : (m : ℚ) = 2 ^ 52 := by exact_mod_cast hm
  have hpos : 0 < m := by omega
  simp only [Decimal.Reading.Covers, Decimal.Magnitude.reading, div_two_zpow_sub_two] at hq
  rw [if_pos (show m = Nat.pow 2 52 ∧ -1074 < e from ⟨hm, he⟩), heven] at hq
  push_cast [show 1 ≤ 4 * m by omega] at hq
  simp only [if_true] at hq
  linarith

/-! ### Rounding to a float -/

variable {M : Nat} {E : Int} {acc : Accuracy}

theorem holds_exact (M : Nat) : Holds (ExtendedMantissa.ofMantissaAndAccuracy M .exact) M := by
  simp [Holds, base, ExtendedMantissa.ofMantissaAndAccuracy]

theorem mantissa_ofMantissaAndAccuracy (M : Nat) (acc : Accuracy) :
    (ExtendedMantissa.ofMantissaAndAccuracy M acc).mantissa = M := by
  rcases acc with _ | order
  · rfl
  · cases order <;> rfl

/-- **The exponent that a number is rounded at** is that of the float it reads back as, or
the one below. -/
theorem targetExponent_of_covers (hc : Canonical m e)
    (hq : (Decimal.Magnitude.reading ⟨m, e⟩).Covers q)
    (hrep : Holds (ExtendedMantissa.ofMantissaAndAccuracy M acc) (q / 2 ^ E))
    (hE : E ≤ Format.binary64.targetExponent (totalExponent M E)) :
    Format.binary64.targetExponent (totalExponent M E) = e ∨
      Format.binary64.targetExponent (totalExponent M E) = e - 1 ∧ -1074 < e ∧ m = 2 ^ 52 ∧
        q / 2 ^ e < 2 ^ 52 := by
  have hlow := hc.low
  have hlt : (m : ℚ) + 1 ≤ 2 ^ 53 := by exact_mod_cast hc.lt
  have hpos := two_zpow_pos e
  have hnear := (nearest_of_covers hc hq).bounds
  have hbounds := hrep.bounds
  rw [mantissa_ofMantissaAndAccuracy] at hbounds
  rw [targetExponent_eq] at hE ⊢
  have hbelow := lt_two_zpow_totalExponent hbounds.2
  -- The exponent is not above that of the float.
  have hupper : totalExponent M E - 53 ≤ e ∨ totalExponent M E - 53 ≤ -1074 := by
    by_cases hM : M = 0
    · subst hM
      right
      have : totalExponent 0 E = E + 1 := by
        rw [totalExponent]
        simp [add_comm]
      omega
    · left
      have habove := two_zpow_totalExponent_le hM hbounds.1
      have hq53 : q < 2 ^ (53 + e) := by
        have : q / 2 ^ e < 2 ^ 53 := by linarith
        rw [div_lt_iff₀ hpos] at this
        rw [zpow_add₀ (by norm_num)]
        exact_mod_cast this
      have := lt_of_two_zpow_lt habove hq53
      omega
  by_cases hleast : e = -1074
  · left
    omega
  · -- The mantissa is full, so the exponent is at most one below.
    have hfull : (2 : ℚ) ^ 52 ≤ m := by exact_mod_cast hc.full.resolve_right hleast
    have hq51 : (2 : ℚ) ^ (51 + e) ≤ q := by
      have : (2 : ℚ) ^ 51 ≤ q / 2 ^ e := by linarith
      rw [le_div_iff₀ hpos] at this
      rw [zpow_add₀ (by norm_num)]
      exact_mod_cast this
    have hlower := lt_of_two_zpow_lt hq51 hbelow
    by_cases heq : totalExponent M E - 53 = e
    · left
      omega
    · right
      have hq52 : q / 2 ^ e < 2 ^ 52 := by
        rw [div_lt_iff₀ hpos]
        calc q < 2 ^ totalExponent M E := hbelow
          _ = 2 ^ (52 + e) := by
            congr 1
            omega
          _ = 2 ^ 52 * 2 ^ e := by
            rw [zpow_add₀ (by norm_num)]
            norm_cast
      have hm : m < 2 ^ 52 + 1 := by
        have : (m : ℚ) < 2 ^ 52 + 1 := by linarith
        exact_mod_cast this
      have := hc.full.resolve_right hleast
      exact ⟨by omega, by omega, by omega, hq52⟩

/-- The first shift leads to the exponent, and what is rounded there to the nearest whole
number. -/
theorem shiftToTargetExponent_of_holds {T : Int} {n : Nat}
    (hrep : Holds (ExtendedMantissa.ofMantissaAndAccuracy M acc) (q / 2 ^ E))
    (hT : Format.binary64.targetExponent (totalExponent M E) = T) (hE : E ≤ T)
    (hn : Nearest n (q / 2 ^ T)) :
    ∃ em : ExtendedMantissa, shiftToTargetExponent .binary64 M E acc = (em, T) ∧
      em.roundedMantissa = n := by
  obtain ⟨k, hk⟩ : ∃ k : Nat, (T - E).toNat = k := ⟨_, rfl⟩
  have hsum : E + k = T := by omega
  have hshift := hrep.shift k
  rw [div_div, ← zpow_natCast, ← zpow_add₀ (by norm_num), hsum] at hshift
  refine ⟨_, ?_, hshift.roundedMantissa hn⟩
  rw [shiftToTargetExponent, hT, shiftToExponent, hk, hsum]

/-- The second shift does nothing to what is canonical. -/
theorem shiftToTargetExponent_of_canonical (hc : Canonical m e) :
    shiftToTargetExponent .binary64 m e .exact =
      (ExtendedMantissa.ofMantissaAndAccuracy m .exact, e) := by
  rw [shiftToTargetExponent, hc.targetExponent, shiftToExponent, sub_self]
  simp only [Int.toNat_zero, Nat.cast_zero, add_zero]
  rfl

/-- The second shift takes the bit away by which a power of two is too long. -/
theorem shiftToTargetExponent_two_pow (he : -1074 < e) :
    shiftToTargetExponent .binary64 (2 ^ 53) (e - 1) .exact =
      (ExtendedMantissa.ofMantissaAndAccuracy (2 ^ 52) .exact, e) := by
  have hT : Format.binary64.targetExponent (totalExponent (2 ^ 53) (e - 1)) = e := by
    rw [targetExponent_eq, totalExponent, Nat.log2_two_pow]
    push_cast
    omega
  rw [shiftToTargetExponent, hT, shiftToExponent]
  simp only [sub_sub_cancel, Int.toNat_one, Nat.cast_one, sub_add_cancel]
  rfl

/-- What is left by two shifts, with the mantissa rounded between them. -/
theorem roundWithAccuracy_of_shifts {s : Sign} {em em' : ExtendedMantissa} {n : Nat} {e₁ e₂ : Int}
    (hfirst : shiftToTargetExponent .binary64 M E acc = (em, e₁)) (hn : em.roundedMantissa = n)
    (hsecond : shiftToTargetExponent .binary64 n e₁ .exact = (em', e₂))
    (hpos : 0 < em'.mantissa) :
    roundWithAccuracy .binary64 s M E acc = .finite s em'.mantissa e₂ hpos := by
  rw [roundWithAccuracy, hfirst]
  dsimp only
  rw [hn, hsecond]
  exact dif_neg hpos.ne'

/-- **A number that reads back as a float is rounded to it.** -/
theorem roundWithAccuracy_eq (s : Sign) (hc : Canonical m e)
    (hq : (Decimal.Magnitude.reading ⟨m, e⟩).Covers q)
    (hrep : Holds (ExtendedMantissa.ofMantissaAndAccuracy M acc) (q / 2 ^ E))
    (hE : E ≤ Format.binary64.targetExponent (totalExponent M E)) :
    roundWithAccuracy .binary64 s M E acc = .finite s m e hc.pos := by
  rcases targetExponent_of_covers hc hq hrep hE with hT | ⟨hT, he, rfl, hy⟩
  · rw [hT] at hE
    obtain ⟨em, hshift, hround⟩ :=
      shiftToTargetExponent_of_holds hrep hT hE (nearest_of_covers hc hq)
    exact roundWithAccuracy_of_shifts hshift hround (shiftToTargetExponent_of_canonical hc) hc.pos
  · have hnear : Nearest (2 ^ 53) (q / 2 ^ (e - 1)) := by
      have hlow := le_of_covers rfl he hq
      rw [Nearest, if_pos (by decide), zpow_sub₀ (by norm_num), zpow_one, div_div_eq_mul_div,
        mul_div_right_comm]
      push_cast
      constructor <;> linarith
    rw [hT] at hE
    obtain ⟨em, hshift, hround⟩ := shiftToTargetExponent_of_holds hrep hT hE hnear
    exact roundWithAccuracy_of_shifts hshift hround (shiftToTargetExponent_two_pow he) hc.pos

end

end Binary64

end TypedImp
