import TypedImp.Proofs.Binary64.Scientific

/-!
# The sign of a numeral

A sign passes through rounding and packing as it is, whether what is rounded stays a number
in the range of floats or becomes a zero or an infinity (`sign?_roundWithAccuracy`,
`NotNegative.unpack_pack`).  A whole number and a power of ten have no sign, so neither has
what `Float.ofScientific` makes of them: **`notNegative_ofScientific`**.
-/

namespace TypedImp.Binary64

open Float.Model Float.Model.UnpackedFloat

def NotNegative (u : UnpackedFloat) : Prop := ∀ s ∈ sign? u, s = .positive

theorem notNegative_iff {u : UnpackedFloat} (h : sign? u = some .positive) : NotNegative u := by
  intro s hs
  rw [h] at hs
  exact (Option.some.inj hs).symm

/-! ### Packing -/

theorem sign?_unpack (b : BitVec Format.binary64.numBits) {s : Sign}
    (h : sign? (UnpackedFloat.unpack .binary64 b) = some s) :
    s = Sign.ofBitVec (unpackSign b) := by
  rcases unpack_cases b with ⟨_, _, hb⟩ | ⟨_, _, hb⟩ | ⟨_, _, hb⟩ | ⟨_, _, hb⟩ | ⟨_, _, _, hb⟩
  · rw [hb] at h
    exact (Option.some.inj h).symm
  · rw [hb] at h
    cases h
  · rw [hb] at h
    exact (Option.some.inj h).symm
  · rw [hb] at h
    exact (Option.some.inj h).symm
  · rw [hb] at h
    exact (Option.some.inj h).symm

theorem unpackSign_pack {u : UnpackedFloat} {s : Sign} (h : sign? u = some s) :
    unpackSign (UnpackedFloat.pack .binary64 u) = s.toBitVec := by
  cases u with
  | notANumber => cases h
  | infinity s' | zero s' =>
    cases h
    exact unpackSign_packComponents s _ _
  | finite s' m e hm =>
    cases h
    delta UnpackedFloat.pack
    dsimp only
    split
    · exact unpackSign_packComponents s _ _
    · split <;> exact unpackSign_packComponents s _ _

/-- **Packing keeps the sign**, also of what is out of range. -/
theorem NotNegative.unpack_pack {u : UnpackedFloat} (h : NotNegative u) :
    NotNegative (UnpackedFloat.unpack .binary64 (UnpackedFloat.pack .binary64 u)) := by
  intro s hs
  have hbits := sign?_unpack _ hs
  cases hu : sign? u with
  | none =>
    cases u with
    | notANumber => cases hs
    | _ => cases hu
  | some s' =>
    rw [unpackSign_pack hu, ofBitVec_toBitVec] at hbits
    rw [hbits]
    exact h s' hu

/-! ### Rounding -/

theorem sign?_roundWithAccuracy (s : Sign) (m : Nat) (e : Int) (a : Accuracy) :
    sign? (roundWithAccuracy .binary64 s m e a) = some s := by
  rw [roundWithAccuracy]
  simp only
  split <;> rfl

section

variable {m₁ m₂ : Nat} {e₁ e₂ : Int} {h₁ : 0 < m₁} {h₂ : 0 < m₂}

theorem notNegative_mul : NotNegative (UnpackedFloat.mul .binary64
    (.finite .positive m₁ e₁ h₁) (.finite .positive m₂ e₂ h₂)) :=
  notNegative_iff (sign?_roundWithAccuracy .positive _ _ _)

theorem notNegative_div : NotNegative (UnpackedFloat.div .binary64
    (.finite .positive m₁ e₁ h₁) (.finite .positive m₂ e₂ h₂)) :=
  notNegative_iff (sign?_roundWithAccuracy .positive _ _ _)

end

/-! ### Numerals -/

/-- The sign of what is not a quotient or a product of two floats. -/
theorem notNegative_unpacked_ofScientific (M : Nat) (k : Int) :
    NotNegative (UnpackedFloat.ofScientific .binary64 M k) := by
  rw [UnpackedFloat.ofScientific]
  split
  · exact notNegative_iff rfl
  split
  · exact notNegative_iff rfl
  split
  · exact notNegative_iff rfl
  split
  · exact notNegative_mul
  · exact notNegative_div

/-- **A numeral has no sign.** -/
theorem notNegative_ofScientific {M : Nat} (hM : 0 < M) (s : Bool) (k : Nat) :
    NotNegative (parts (Float.ofScientific M s k)) := by
  by_cases hsmall : M < 2 ^ 53 ∧ k ≤ 22
  · have hindex : k < Float.exactlyRepresentablePowersOfTen.size := Nat.lt_succ_of_le hsmall.2
    obtain ⟨m, e, hm, hpower, -, -⟩ := exists_parts_powerOfTen hindex
    have hwhole := parts_toFloat hM hsmall.1
    rw [Float.ofScientific, dif_pos hsmall]
    cases s with
    | true =>
      have hquotient : NotNegative (UnpackedFloat.div .binary64 (parts M.toUInt64.toFloat)
          (parts Float.exactlyRepresentablePowersOfTen[k])) := by
        rw [hwhole, hpower]
        exact notNegative_div
      exact hquotient.unpack_pack
    | false =>
      have hproduct : NotNegative (UnpackedFloat.mul .binary64 (parts M.toUInt64.toFloat)
          (parts Float.exactlyRepresentablePowersOfTen[k])) := by
        rw [hwhole, hpower]
        exact notNegative_mul
      exact hproduct.unpack_pack
  · rw [Float.ofScientific, dif_neg hsmall]
    exact (notNegative_unpacked_ofScientific M _).unpack_pack

end TypedImp.Binary64
