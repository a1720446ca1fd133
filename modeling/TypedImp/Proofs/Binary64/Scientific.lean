import TypedImp.Proofs.Binary64.Arithmetic

/-!
# Whole numbers times powers of ten

`Float.ofScientific` turns a whole number and a power of ten into a float.  There are two
ways.  A number that fits into a mantissa is multiplied with, or divided by, a power of
ten that is a float itself, and larger ones go through numbers with more bits.  On both
ways only one result is rounded, so both yield the float that the exact number reads
back as: `parts_ofScientific` and `parts_ofScientific_neg`.
-/

namespace TypedImp.Binary64

open Float.Model Float.Model.UnpackedFloat

variable {M k m : Nat} {e : Int}

/-! ### Numbers that are floats -/

/-- The mantissa and the exponent of a whole number. -/
theorem canonical_of_lt (hM : 0 < M) (hlt : M < 2 ^ 53) :
    Canonical (M * 2 ^ (52 - M.log2)) ((M.log2 : Int) - 52) := by
  have hlog : M.log2 < 53 := (Nat.log2_lt hM.ne').mpr hlt
  have hlow := Nat.log2_self_le hM.ne'
  have hhigh : M < 2 ^ (M.log2 + 1) := Nat.lt_log2_self
  have hsplit : 2 ^ 52 = 2 ^ M.log2 * 2 ^ (52 - M.log2) := by
    rw [← pow_add]
    congr 1
    omega
  have hpos := Nat.two_pow_pos (52 - M.log2)
  have hfull : 2 ^ 52 ≤ M * 2 ^ (52 - M.log2) := by
    rw [hsplit]
    exact Nat.mul_le_mul_right _ hlow
  refine ⟨by omega, ?_, by omega, by omega, .inl hfull⟩
  calc M * 2 ^ (52 - M.log2) < 2 ^ (M.log2 + 1) * 2 ^ (52 - M.log2) :=
        Nat.mul_lt_mul_of_pos_right hhigh hpos
    _ = 2 ^ 53 := by
      rw [← pow_add]
      congr 1
      omega

theorem value_of_lt (hlt : M < 2 ^ 53) (hM : 0 < M) :
    ((M * 2 ^ (52 - M.log2) : ℕ) : ℚ) * 2 ^ ((M.log2 : Int) - 52) = M := by
  have hlog : M.log2 < 53 := (Nat.log2_lt hM.ne').mpr hlt
  have hexp : (M.log2 : Int) - 52 = -((52 - M.log2 : ℕ) : Int) := by omega
  rw [hexp, zpow_neg, zpow_natCast]
  push_cast
  field_simp

/-- **A whole number of at most 53 bits** is a float. -/
theorem parts_toFloat (hM : 0 < M) (hlt : M < 2 ^ 53) :
    parts M.toUInt64.toFloat =
      .finite .positive (M * 2 ^ (52 - M.log2)) ((M.log2 : Int) - 52)
        (canonical_of_lt hM hlt).pos := by
  have hc := canonical_of_lt hM hlt
  have hround : UnpackedFloat.round .binary64 .positive M 0 =
      .finite .positive (M * 2 ^ (52 - M.log2)) ((M.log2 : Int) - 52) hc.pos := by
    apply round_finite _ hM.ne' hc
    have hself := covers_self hc
    rw [value_of_lt hlt hM] at hself
    rw [zpow_zero, mul_one]
    exact hself
  have hnat : M.toUInt64.toNat = M := by
    rw [Nat.toUInt64_eq, UInt64.toNat_ofNat']
    exact Nat.mod_eq_of_lt (by omega)
  have hof : UnpackedFloat.ofUInt64 .binary64 M.toUInt64 =
      .finite .positive (M * 2 ^ (52 - M.log2)) ((M.log2 : Int) - 52) hc.pos := by
    rw [UnpackedFloat.ofUInt64, hnat, UnpackedFloat.ofNat, UnpackedFloat.ofInt,
      UnpackedFloat.normalize]
    have hcompare : compare (M : Int) 0 = .gt := compare_gt_iff_gt.mpr (by omega)
    rw [hcompare]
    exact hround
  show parts (.ofModel (.pack _)) = _
  rw [hof]
  exact parts_pack hc

def powerMantissa (k : Nat) : Nat := Nat.pow 10 k * Nat.pow 2 52 / Nat.pow 2 (Nat.pow 10 k).log2

theorem ofFloat_powerOfTen : ∀ k : Fin Float.exactlyRepresentablePowersOfTen.size,
    Decimal.Binary.ofFloat Float.exactlyRepresentablePowersOfTen[k] =
        .finite false ⟨powerMantissa k, ((Nat.pow 10 k).log2 : Int) - 52⟩ ∧
      Nat.pow 2 52 ≤ powerMantissa k ∧
      powerMantissa k * Nat.pow 2 (Nat.pow 10 k).log2 = Nat.pow 10 k * Nat.pow 2 52 := by
  decide +kernel

/-- A float whose bits are read as a sign, a mantissa and an exponent has these parts. -/
theorem parts_of_ofFloat {x : Float} (hm : 0 < m)
    (h : Decimal.Binary.ofFloat x = .finite false ⟨m, e⟩) :
    parts x = .finite .positive m e hm := by
  rw [ofFloat_eq] at h
  cases hx : parts x with
  | notANumber => rw [hx] at h; cases h
  | infinity s => rw [hx] at h; cases h
  | zero s =>
    rw [hx] at h
    injection h with _ hmag
    injection hmag with hzero
    omega
  | finite s m' e' hm' =>
    rw [hx] at h
    injection h with hsign hmag
    injection hmag with hman hexp
    subst hman hexp
    cases s with
    | positive => rfl
    | negative => cases hsign

/-- The powers of ten up to the twenty-second are floats. -/
theorem exists_parts_powerOfTen (hk : k < Float.exactlyRepresentablePowersOfTen.size) :
    ∃ (m : Nat) (e : Int) (hm : 0 < m),
      parts Float.exactlyRepresentablePowersOfTen[k] = .finite .positive m e hm ∧
        2 ^ 52 ≤ m ∧ (m : ℚ) * 2 ^ e = 10 ^ k := by
  obtain ⟨hbits, hfull, hvalue⟩ := ofFloat_powerOfTen ⟨k, hk⟩
  have hpos : 0 < powerMantissa k := lt_of_lt_of_le (by decide) hfull
  refine ⟨_, _, hpos, parts_of_ofFloat hpos hbits, hfull, ?_⟩
  have hcast : (powerMantissa k : ℚ) * 2 ^ (Nat.pow 10 k).log2 = 10 ^ k * 2 ^ 52 := by
    exact_mod_cast hvalue
  rw [zpow_sub₀ (by norm_num), zpow_natCast, mul_div_assoc', hcast]
  norm_num

/-! ### Rounding once -/

/-- **A whole number times a power of ten** is the float that it reads back as. -/
theorem parts_ofScientific (hM : 0 < M) (hk : k ≤ 2048) (hc : Canonical m e)
    (hq : (Decimal.Magnitude.reading ⟨m, e⟩).Covers (M * 10 ^ k)) :
    parts (Float.ofScientific M false k) = .finite .positive m e hc.pos := by
  by_cases hsmall : M < 2 ^ 53 ∧ k ≤ 22
  · have hindex : k < Float.exactlyRepresentablePowersOfTen.size := Nat.lt_succ_of_le hsmall.2
    obtain ⟨m', e', hm', hpower, hlong, hvalue⟩ := exists_parts_powerOfTen hindex
    have hwhole := parts_toFloat hM hsmall.1
    have hproduct : UnpackedFloat.mul .binary64 (parts M.toUInt64.toFloat)
        (parts Float.exactlyRepresentablePowersOfTen[k]) = .finite .positive m e hc.pos := by
      rw [hwhole, hpower]
      show _ = UnpackedFloat.finite (.positive * .positive) m e hc.pos
      apply mul_finite hc
      · exact hlong.trans (Nat.le_mul_of_pos_left _ (canonical_of_lt hM hsmall.1).pos)
      · rw [value_of_lt hsmall.1 hM, hvalue]
        exact hq
    rw [Float.ofScientific, dif_pos hsmall]
    exact (parts_mul (by rw [hproduct]; exact hc)).trans hproduct
  · have hproduct : UnpackedFloat.ofScientific .binary64 M k = .finite .positive m e hc.pos := by
      have hlarge : ¬ (k : Int) > 2 ^ Format.binary64.exponentBits := by
        show ¬ (k : Int) > 2 ^ 11
        omega
      have hsmall : ¬ (k : Int) < -(2 ^ Format.binary64.exponentBits + M.log2) := by
        show ¬ (k : Int) < -(2 ^ 11 + M.log2)
        omega
      rw [UnpackedFloat.ofScientific, dif_neg hM.ne', if_neg hlarge, if_neg hsmall,
        if_pos (Int.natCast_nonneg k)]
      show _ = UnpackedFloat.finite (.positive * .positive) m e hc.pos
      apply mul_finite hc
      · rw [Nat.shiftLeft_eq]
        have hfirst : 2 ^ 53 ≤ M * 2 ^ 53 := Nat.le_mul_of_pos_left _ hM
        have hsecond : M * 2 ^ 53 ≤ M * 2 ^ 53 * 10 ^ (k : Int).toNat :=
          Nat.le_mul_of_pos_right _ (Nat.pow_pos (by omega))
        exact le_trans (by omega) (hfirst.trans hsecond)
      · have hbits : ((M <<< 53 : ℕ) : ℚ) * 2 ^ (-53 : Int) = M := by
          rw [Nat.shiftLeft_eq]
          push_cast
          norm_num
          ring
        rw [show (Format.binary64.mantissaBits : Int) = 53 from rfl, Int.toNat_natCast, zpow_zero,
          mul_one]
        push_cast
        rw [show Format.binary64.mantissaBits = 53 from rfl, hbits]
        exact hq
    rw [Float.ofScientific, dif_neg hsmall]
    show unpack _ (UnpackedFloat.pack _ (UnpackedFloat.ofScientific .binary64 M k)) = _
    rw [hproduct]
    exact unpack_pack hc

/-- **A whole number divided by a power of ten** is the float that it reads back as. -/
theorem parts_ofScientific_neg (hM : 0 < M) (hpos : 0 < k) (hk : k ≤ 2048 + M.log2)
    (hc : Canonical m e)
    (hq : (Decimal.Magnitude.reading ⟨m, e⟩).Covers (M / 10 ^ k)) :
    parts (Float.ofScientific M true k) = .finite .positive m e hc.pos := by
  by_cases hsmall : M < 2 ^ 53 ∧ k ≤ 22
  · have hindex : k < Float.exactlyRepresentablePowersOfTen.size := Nat.lt_succ_of_le hsmall.2
    obtain ⟨m', e', hm', hpower, -, hvalue⟩ := exists_parts_powerOfTen hindex
    have hwhole := parts_toFloat hM hsmall.1
    have hquotient : UnpackedFloat.div .binary64 (parts M.toUInt64.toFloat)
        (parts Float.exactlyRepresentablePowersOfTen[k]) = .finite .positive m e hc.pos := by
      rw [hwhole, hpower]
      show _ = UnpackedFloat.finite (.positive / .positive) m e hc.pos
      apply div_finite hc
      rw [value_of_lt hsmall.1 hM, hvalue]
      exact hq
    rw [Float.ofScientific, dif_pos hsmall]
    exact (parts_div (by rw [hquotient]; exact hc)).trans hquotient
  · have hquotient : UnpackedFloat.ofScientific .binary64 M (Int.negOfNat k) =
        .finite .positive m e hc.pos := by
      have hneg : Int.negOfNat k = -(k : Int) := Int.negOfNat_eq
      have hlarge : ¬ -(k : Int) > 2 ^ Format.binary64.exponentBits := by
        show ¬ -(k : Int) > 2 ^ 11
        omega
      have htiny : ¬ -(k : Int) < -(2 ^ Format.binary64.exponentBits + M.log2) := by
        show ¬ -(k : Int) < -(2 ^ 11 + M.log2)
        omega
      rw [hneg, UnpackedFloat.ofScientific, dif_neg hM.ne', if_neg hlarge, if_neg htiny,
        if_neg (by omega)]
      show _ = UnpackedFloat.finite (.positive / .positive) m e hc.pos
      apply div_finite hc
      rw [neg_neg, Int.toNat_natCast, zpow_zero, mul_one, mul_one]
      push_cast
      exact hq
    rw [Float.ofScientific, dif_neg hsmall]
    show unpack _ (UnpackedFloat.pack _ (UnpackedFloat.ofScientific .binary64 M _)) = _
    rw [if_pos rfl, hquotient]
    exact unpack_pack hc

end TypedImp.Binary64
