import TypedImp.Decimal.Shortest
import TypedImp.Proofs.Binary64.Rounding

/-!
# The digits that are found read back

`Reading.holds` compares whole numbers, scaled so that there are no fractions;
`Reading.holds_iff` says what it means for the number `d * 10 ^ k`.  The search yields
a number that reads back as soon as one of the grids it looks at has one
(`Reading.covers_search`).  A grid that is finer than the distance to the next float has
one, and the last grid that is looked at is so fine (`ten_zpow_lt_two_zpow`), whatever
the float.  Hence `Magnitude.covers_shortest`: **the digits of a float read back as
it**.
-/

namespace TypedImp.Decimal

open TypedImp.Binary64

def Scientific.value (s : Scientific) : ℚ := s.digits * 10 ^ s.exponent

namespace Reading

variable {r : Reading} {k : Int} {d : Nat}

/-! ### Grids -/

theorem scale_pos (e k : Int) : 0 < (scale e k).1 ∧ 0 < (scale e k).2 := by
  have htwo (n : Nat) : 0 < Nat.pow 2 n := Nat.pow_pos (by omega)
  have hten (n : Nat) : 0 < Nat.pow 10 n := Nat.pow_pos (by omega)
  exact ⟨Nat.mul_pos (htwo _) (hten _), Nat.mul_pos (htwo _) (hten _)⟩

theorem zpow_eq_div {b : ℚ} (hb : b ≠ 0) (e : Int) : b ^ e = b ^ e.toNat / b ^ (-e).toNat := by
  rw [← zpow_natCast, ← zpow_natCast, ← zpow_sub₀ hb]
  congr 1
  omega

/-- The two factors are in the ratio of the units. -/
theorem scale_ratio (e k : Int) : ((scale e k).2 : ℚ) / (scale e k).1 = 10 ^ k / 2 ^ e := by
  have hpow (b n : Nat) : ((Nat.pow b n : ℕ) : ℚ) = b ^ n := by exact_mod_cast rfl
  rw [zpow_eq_div (by norm_num : (10 : ℚ) ≠ 0), zpow_eq_div (by norm_num : (2 : ℚ) ≠ 0), scale]
  push_cast [hpow]
  field_simp

/-- Comparing with a bound of a reading. -/
theorem le_iff (n d : Nat) (e k : Int) :
    n * (scale e k).1 ≤ d * (scale e k).2 ↔ (n : ℚ) ≤ d * 10 ^ k / 2 ^ e := by
  have hpos : (0 : ℚ) < (scale e k).1 := by exact_mod_cast (scale_pos e k).1
  rw [mul_div_assoc, ← scale_ratio, ← mul_div_assoc, le_div_iff₀ hpos]
  exact_mod_cast Iff.rfl

theorem ge_iff (n d : Nat) (e k : Int) :
    d * (scale e k).2 ≤ n * (scale e k).1 ↔ d * 10 ^ k / 2 ^ e ≤ (n : ℚ) := by
  have hpos : (0 : ℚ) < (scale e k).1 := by exact_mod_cast (scale_pos e k).1
  rw [mul_div_assoc, ← scale_ratio, ← mul_div_assoc, div_le_iff₀ hpos]
  exact_mod_cast Iff.rfl

/-- **What the comparison of whole numbers means.** -/
theorem holds_iff : r.holds k d = true ↔ r.Covers (d * 10 ^ k) := by
  rw [holds, Covers]
  cases r.closed with
  | true => simp [le_iff, ge_iff]
  | false =>
    have hlow := not_congr (ge_iff r.low d r.exponent k)
    have hhigh := not_congr (le_iff r.high d r.exponent k)
    rw [Nat.not_le, not_le] at hlow hhigh
    simp [hlow, hhigh]

/-! ### The search -/

variable {tie : Tie}

/-- What is taken of a grid reads back. -/
theorem holds_of_nearest? (h : r.nearest? tie k = some d) : r.holds k d = true := by
  simp only [nearest?] at h
  split at h
  · cases h
  · cases h
    assumption
  · cases h
    assumption
  · split at h
    · cases h
      assumption
    · split at h
      · cases h
        assumption
      · split at h
        · cases h
          assumption
        · cases h
          assumption

/-- A grid has a number that reads back if the one behind the value does. -/
theorem exists_nearest? (h : r.holds k (r.value * (scale r.exponent k).1 /
    (scale r.exponent k).2 + 1) = true) : ∃ d, r.nearest? tie k = some d := by
  simp only [nearest?]
  split
  · rename_i hnot
    rw [h] at hnot
    cases hnot
  · exact ⟨_, rfl⟩
  · exact ⟨_, rfl⟩
  · split
    · exact ⟨_, rfl⟩
    · split
      · exact ⟨_, rfl⟩
      · split
        · exact ⟨_, rfl⟩
        · exact ⟨_, rfl⟩

/-- **The search finds a number that reads back**, if one of its grids has one. -/
theorem covers_search {fuel n : Nat} (hn : n < fuel)
    (h : ∃ d, r.nearest? tie (k - n) = some d) : r.Covers (r.search tie fuel k).value := by
  induction fuel generalizing k n with
  | zero => omega
  | succ fuel ih =>
    rw [search]
    cases hk : r.nearest? tie k with
    | some d => exact holds_iff.mp (holds_of_nearest? hk)
    | none =>
      cases n with
      | zero =>
        obtain ⟨d, hd⟩ := h
        rw [Nat.cast_zero, sub_zero, hk] at hd
        cases hd
      | succ n =>
        apply ih (n := n) (by omega)
        have hstep : k - 1 - (n : Int) = k - (n + 1 : ℕ) := by
          push_cast
          omega
        rw [hstep]
        exact h

/-- A grid that is finer than half the distance to the next float has a number that reads
back: the first one behind the value. -/
theorem exists_nearest?_of_fine (hlow : r.low ≤ r.value) (hhigh : r.high = r.value + 2)
    (hfine : (10 : ℚ) ^ k < 2 * 2 ^ r.exponent) : ∃ d, r.nearest? tie k = some d := by
  apply exists_nearest?
  obtain ⟨a, ha⟩ : ∃ a, a = (scale r.exponent k).1 := ⟨_, rfl⟩
  obtain ⟨b, hb⟩ : ∃ b, b = (scale r.exponent k).2 := ⟨_, rfl⟩
  obtain ⟨hapos, hbpos⟩ := scale_pos r.exponent k
  have hratio := scale_ratio r.exponent k
  rw [← ha] at hapos
  rw [← hb] at hbpos
  rw [← ha, ← hb] at hratio ⊢
  have hagrid : (0 : ℚ) < a := by exact_mod_cast hapos
  -- The grid is counted in units of the reading.
  have hgrid : (b : ℚ) / a < 2 := by
    rw [hratio, div_lt_iff₀ (two_zpow_pos _)]
    exact hfine
  rw [holds_iff, Covers, mul_div_assoc, ← hratio, hhigh]
  obtain ⟨n, hn⟩ : ∃ n, n = r.value * a / b := ⟨_, rfl⟩
  have hfloor : n * b ≤ r.value * a := by
    rw [hn]
    exact Nat.div_mul_le_self _ _
  have hnext : r.value * a < (n + 1) * b := by
    rw [hn]
    exact Nat.lt_mul_of_div_lt (Nat.lt_succ_self _) hbpos
  have habove : (r.value : ℚ) < (n + 1 : ℕ) * (b / a) := by
    rw [mul_div_assoc', lt_div_iff₀ hagrid]
    exact_mod_cast hnext
  have hbelow : ((n + 1 : ℕ) : ℚ) * (b / a) < r.value + 2 := by
    have : (n : ℚ) * (b / a) ≤ r.value := by
      rw [mul_div_assoc', div_le_iff₀ hagrid]
      exact_mod_cast hfloor
    push_cast
    linarith
  have hlowcast : (r.low : ℚ) ≤ r.value := by exact_mod_cast hlow
  rw [← hn]
  push_cast at habove hbelow ⊢
  split
  · constructor <;> linarith
  · constructor <;> linarith

end Reading

/-! ### The last grid -/

/-- A power of ten is less than a power of two if it is so by the number of their digits;
the slack makes up for taking one third of ten and a twenty-eighth of ninety-three for
the logarithm of ten. -/
theorem ten_zpow_lt_two_zpow {K N : Int} (hpos : 0 ≤ K → 10 * K < 3 * N)
    (hneg : K < 0 → 93 * K < 28 * N) : (10 : ℚ) ^ K < 2 ^ N := by
  by_cases hK : 0 ≤ K
  · have hcube : ((10 : ℚ) ^ K) ^ 3 < (2 ^ N) ^ 3 := by
      calc ((10 : ℚ) ^ K) ^ 3 = (10 ^ 3 : ℚ) ^ K := by
            rw [← zpow_natCast, zpow_comm, zpow_natCast]
        _ ≤ (2 ^ 10 : ℚ) ^ K := zpow_le_zpow_left₀ hK (by norm_num) (by norm_num)
        _ = 2 ^ (10 * K) := by
            rw [zpow_mul]
            norm_cast
        _ < 2 ^ (3 * N) := zpow_lt_zpow_right₀ (by norm_num) (hpos hK)
        _ = (2 ^ N) ^ 3 := by
            rw [mul_comm, zpow_mul]
            norm_cast
    exact lt_of_pow_lt_pow_left₀ 3 (two_zpow_pos N).le hcube
  · have hbase : (10 ^ 28 : ℚ) ^ K ≤ (2 ^ 93 : ℚ) ^ K := by
      obtain ⟨j, rfl⟩ : ∃ j : Nat, K = -j := ⟨K.natAbs, by omega⟩
      rw [zpow_neg, zpow_neg, zpow_natCast, zpow_natCast]
      exact inv_anti₀ (by positivity) (pow_le_pow_left₀ (by norm_num) (by norm_num) j)
    have hpower : ((10 : ℚ) ^ K) ^ 28 < (2 ^ N) ^ 28 := by
      calc ((10 : ℚ) ^ K) ^ 28 = (10 ^ 28 : ℚ) ^ K := by
            rw [← zpow_natCast, zpow_comm, zpow_natCast]
        _ ≤ (2 ^ 93 : ℚ) ^ K := hbase
        _ = 2 ^ (93 * K) := by
            rw [zpow_mul]
            norm_cast
        _ < 2 ^ (28 * N) := zpow_lt_zpow_right₀ (by norm_num) (hneg (by omega))
        _ = (2 ^ N) ^ 28 := by
            rw [mul_comm, zpow_mul]
            norm_cast
    exact lt_of_pow_lt_pow_left₀ 28 (two_zpow_pos N).le hpower

variable {m : Nat} {e : Int}

/-- The last grid is finer than half the distance to the next float. -/
theorem ten_zpow_last_lt (hc : Canonical m e) :
    (10 : ℚ) ^ ((Magnitude.reading ⟨m, e⟩).top - (20 : Nat)) < 2 * 2 ^ (e - 2) := by
  have hm := hc.pos
  have hlog : (4 * m).log2 = m.log2 + 2 := by
    rw [show 4 * m = 2 * (2 * m) by ring, Nat.log2_two_mul (by omega), Nat.log2_two_mul hm.ne']
  have hlt := (Nat.log2_lt hm.ne').mpr hc.lt
  have hlow := hc.low
  have hhigh := hc.high
  have htop : (Magnitude.reading ⟨m, e⟩).top = ((m.log2 : Int) + 1 + e) * 30103 / 100000 + 2 := by
    rw [Reading.top]
    show (((4 * m).log2 : Int) + 1 + (e - 2)) * 30103 / 100000 + 2 = _
    rw [hlog]
    push_cast
    ring_nf
  have hunit : 2 * (2 : ℚ) ^ (e - 2) = 2 ^ (e - 1) := by
    rw [show e - 1 = (e - 2) + 1 by ring, zpow_add₀ (by norm_num), zpow_one, mul_comm]
  rw [hunit, htop]
  push_cast
  apply ten_zpow_lt_two_zpow
  · intro _
    omega
  · intro _
    omega

/-- **The digits of a float read back as it.** -/
theorem Magnitude.covers_shortest (hc : Canonical m e) (tie : Tie) :
    (Magnitude.reading ⟨m, e⟩).Covers (Magnitude.shortest ⟨m, e⟩ tie).value := by
  rw [shortest, if_neg hc.pos.ne']
  apply Reading.covers_search (n := 20) (by omega)
  apply Reading.exists_nearest?_of_fine
  · exact Nat.sub_le _ _
  · rfl
  · exact ten_zpow_last_lt hc

end TypedImp.Decimal
