import Mathlib.Tactic.Ring
import TypedImp.Decimal.Binary

/-!
# The parts of a float

`parts x` takes a float apart into what its operations are defined on: a sign with a
mantissa and an exponent, or a zero, an infinity, or no number at all.  The mantissa
and the exponent of a float are *canonical* (`Canonical`): the mantissa fills its 53
bits, or the exponent is the least one.

No two floats have the same parts (`parts_injective`), and what is packed from
canonical parts has these parts (`unpack_pack`).  So the outcome of an operation on
floats is known as soon as its parts are.  `ofFloat_eq` says the same of the parts that
are read off the bits when a float is written in digits.
-/

namespace TypedImp.Binary64

open Float.Model Float.Model.UnpackedFloat

def parts (x : Float) : UnpackedFloat := x.toModel.unpack

/-- **The mantissa and the exponent of a float that is neither zero nor infinite.** -/
structure Canonical (m : Nat) (e : Int) : Prop where
  pos : 0 < m
  lt : m < 2 ^ 53
  low : -1074 ≤ e
  high : e ≤ 971
  full : 2 ^ 52 ≤ m ∨ e = -1074

/-- **What the parts of a float can be.** -/
def Fits : UnpackedFloat → Prop
  | .finite _ m e _ => Canonical m e
  | _ => True

/-! ### Bits -/

theorem toNat_packComponents (s : Sign) (e : BitVec 11) (m : BitVec 52) :
    (packComponents .binary64 s e m).toNat =
      s.toBitVec.toNat * 2 ^ 63 + e.toNat * 2 ^ 52 + m.toNat := by
  rw [packComponents, BitVec.toNat_append, ← Nat.shiftLeft_add_eq_or_of_lt m.isLt,
    BitVec.toNat_append, ← Nat.shiftLeft_add_eq_or_of_lt e.isLt, Nat.shiftLeft_eq,
    Nat.shiftLeft_eq]
  ring

theorem toNat_unpackMantissa (b : BitVec Format.binary64.numBits) :
    (unpackMantissa b).toNat = b.toNat % 2 ^ 52 := by
  simp [unpackMantissa, BitVec.extractLsb_toNat]

theorem toNat_unpackExponent (b : BitVec Format.binary64.numBits) :
    (unpackExponent b).toNat = b.toNat / 2 ^ 52 % 2 ^ 11 := by
  simp [unpackExponent, BitVec.extractLsb_toNat, Nat.shiftRight_eq_div_pow]

theorem toNat_unpackSign (b : BitVec Format.binary64.numBits) :
    (unpackSign b).toNat = b.toNat / 2 ^ 63 := by
  have hb : b.toNat < 2 ^ 64 := b.isLt
  delta unpackSign
  simp only [BitVec.toNat_cast, BitVec.extractLsb_toNat, Nat.shiftRight_eq_div_pow]
  omega

theorem toNat_toBitVec_ofBitVec (b : BitVec 1) : (Sign.ofBitVec b).toBitVec = b := by
  revert b
  decide

theorem ofBitVec_toBitVec (s : Sign) : Sign.ofBitVec s.toBitVec = s := by
  cases s <;> rfl

@[simp] theorem unpackSign_packComponents (s : Sign) (e : BitVec 11) (m : BitVec 52) :
    unpackSign (packComponents .binary64 s e m) = s.toBitVec := by
  have he := e.isLt
  have hm := m.isLt
  rw [← BitVec.toNat_inj, toNat_unpackSign, toNat_packComponents]
  omega

/-- A float is its three fields. -/
theorem packComponents_unpack (b : BitVec Format.binary64.numBits) :
    packComponents .binary64 (Sign.ofBitVec (unpackSign b)) (unpackExponent b)
      (unpackMantissa b) = b := by
  rw [← BitVec.toNat_inj, toNat_packComponents, toNat_toBitVec_ofBitVec, toNat_unpackMantissa,
    toNat_unpackSign, toNat_unpackExponent]
  omega

/-! ### Unpacking -/

theorem log2_of_lt {m k : Nat} (hlow : 2 ^ k ≤ m) (hhigh : m < 2 ^ (k + 1)) : m.log2 = k := by
  have hm : m ≠ 0 := by
    have := Nat.two_pow_pos k
    omega
  have hge := (Nat.le_log2 hm).mpr hlow
  have hlt := (Nat.log2_lt hm).mpr hhigh
  omega

theorem toNat_append_one (m : BitVec 52) : (1#1 ++ m).toNat = 2 ^ 52 + m.toNat := by
  rw [BitVec.toNat_append, ← Nat.shiftLeft_add_eq_or_of_lt m.isLt, Nat.shiftLeft_eq]
  rfl

/-- A mantissa of 53 bits, of which the first is not stored. -/
theorem pack_normal (s : Sign) {m k : Nat} (hlow : 2 ^ 52 ≤ m) (hhigh : m < 2 ^ 53) (hk : k ≤ 2046)
    {e : Int} (he : e = (k : Int) - 1075) (hm : 0 < m) :
    UnpackedFloat.pack .binary64 (.finite s m e hm) =
      packComponents .binary64 s (BitVec.ofNat 11 k) (BitVec.ofNat 52 m) := by
  have hlog : m.log2 = 52 := log2_of_lt hlow hhigh
  have hexp : (e + Format.binary64.exponentBias + (52 : Nat)).toNat = k := by
    rw [show Format.binary64.exponentBias = 1023 from rfl]
    omega
  delta UnpackedFloat.pack
  dsimp only
  rw [hexp, hlog, if_neg (show ¬ 2 ^ 11 ≤ k + 1 by omega), if_pos (by rfl)]

/-- A mantissa that is not full, which only the least exponent has. -/
theorem pack_subnormal (s : Sign) {m : Nat} (hhigh : m < 2 ^ 52) (hm : 0 < m) :
    UnpackedFloat.pack .binary64 (.finite s m (-1074) hm) =
      packComponents .binary64 s 0#11 (BitVec.ofNat 52 m) := by
  have hlog : m.log2 < 52 := (Nat.log2_lt (by omega)).mpr hhigh
  have hexp : ((-1074 : Int) + Format.binary64.exponentBias + (52 : Nat)).toNat = 1 := rfl
  delta UnpackedFloat.pack
  dsimp only
  rw [hexp]
  have hnot : ¬ m.log2 + 1 = Format.binary64.mantissaBits := by
    rw [show Format.binary64.mantissaBits = 53 from rfl]
    omega
  rw [if_neg (by decide), if_neg hnot]

/-! The fields of a float say which of five forms it has. -/

section

variable {b : BitVec Format.binary64.numBits}

theorem unpack_infinity (hexp : unpackExponent b = -1#11) (hman : unpackMantissa b = 0#52) :
    UnpackedFloat.unpack .binary64 b = .infinity (Sign.ofBitVec (unpackSign b)) := by
  delta UnpackedFloat.unpack
  exact (if_pos hexp).trans (if_pos hman)

theorem unpack_notANumber (hexp : unpackExponent b = -1#11) (hman : unpackMantissa b ≠ 0#52) :
    UnpackedFloat.unpack .binary64 b = .notANumber := by
  delta UnpackedFloat.unpack
  exact (if_pos hexp).trans (if_neg hman)

theorem unpack_zero (hexp : unpackExponent b = 0#11) (hman : unpackMantissa b = 0#52) :
    UnpackedFloat.unpack .binary64 b = .zero (Sign.ofBitVec (unpackSign b)) := by
  have hinf : unpackExponent b ≠ -1#11 := by
    rw [hexp]
    decide
  delta UnpackedFloat.unpack
  exact (if_neg hinf).trans ((if_pos hexp).trans (dif_pos hman))

/-- A mantissa that is not full. -/
theorem unpack_subnormal (hexp : unpackExponent b = 0#11) (hman : unpackMantissa b ≠ 0#52) :
    ∃ hpos, UnpackedFloat.unpack .binary64 b =
      .finite (Sign.ofBitVec (unpackSign b)) (unpackMantissa b).toNat (-1074) hpos := by
  have hinf : unpackExponent b ≠ -1#11 := by
    rw [hexp]
    decide
  have hpos : 0 < (unpackMantissa b).toNat :=
    Nat.pos_of_ne_zero fun h => hman (BitVec.eq_of_toNat_eq (h.trans (by rfl)))
  refine ⟨hpos, ?_⟩
  delta UnpackedFloat.unpack
  refine (if_neg hinf).trans ((if_pos hexp).trans ((dif_neg hman).trans ?_))
  refine (finite.injEq ..).mpr ⟨rfl, rfl, ?_⟩
  rw [hexp]
  rfl

/-- A full mantissa, of which the first bit is not stored. -/
theorem unpack_normal (hinf : unpackExponent b ≠ -1#11) (hexp : unpackExponent b ≠ 0#11) :
    ∃ hpos, UnpackedFloat.unpack .binary64 b =
      .finite (Sign.ofBitVec (unpackSign b)) (2 ^ 52 + (unpackMantissa b).toNat)
        ((unpackExponent b).toNat - 1075) hpos := by
  refine ⟨by omega, ?_⟩
  delta UnpackedFloat.unpack
  refine (if_neg hinf).trans ((if_neg hexp).trans ?_)
  exact (finite.injEq ..).mpr ⟨rfl, toNat_append_one _, rfl⟩

/-- **The five forms of a float.** -/
theorem unpack_cases (b : BitVec Format.binary64.numBits) :
    (unpackExponent b = -1#11 ∧ unpackMantissa b = 0#52 ∧
      UnpackedFloat.unpack .binary64 b = .infinity (Sign.ofBitVec (unpackSign b))) ∨
    (unpackExponent b = -1#11 ∧ unpackMantissa b ≠ 0#52 ∧
      UnpackedFloat.unpack .binary64 b = .notANumber) ∨
    (unpackExponent b = 0#11 ∧ unpackMantissa b = 0#52 ∧
      UnpackedFloat.unpack .binary64 b = .zero (Sign.ofBitVec (unpackSign b))) ∨
    (unpackExponent b = 0#11 ∧ ∃ hpos, UnpackedFloat.unpack .binary64 b =
      .finite (Sign.ofBitVec (unpackSign b)) (unpackMantissa b).toNat (-1074) hpos) ∨
    (unpackExponent b).toNat ≠ 0 ∧ (unpackExponent b).toNat < 2047 ∧
      ∃ hpos, UnpackedFloat.unpack .binary64 b =
        .finite (Sign.ofBitVec (unpackSign b)) (2 ^ 52 + (unpackMantissa b).toNat)
          ((unpackExponent b).toNat - 1075) hpos := by
  by_cases hinf : unpackExponent b = -1#11
  · by_cases hman : unpackMantissa b = 0#52
    · exact .inl ⟨hinf, hman, unpack_infinity hinf hman⟩
    · exact .inr (.inl ⟨hinf, hman, unpack_notANumber hinf hman⟩)
  · by_cases hexp : unpackExponent b = 0#11
    · by_cases hman : unpackMantissa b = 0#52
      · exact .inr (.inr (.inl ⟨hexp, hman, unpack_zero hexp hman⟩))
      · exact .inr (.inr (.inr (.inl ⟨hexp, unpack_subnormal hexp hman⟩)))
    · have hlt : (unpackExponent b).toNat < 2 ^ 11 := (unpackExponent b).isLt
      have hlast : (unpackExponent b).toNat ≠ 2047 :=
        fun h => hinf (BitVec.eq_of_toNat_eq (h.trans (by rfl)))
      have hleast : (unpackExponent b).toNat ≠ 0 :=
        fun h => hexp (BitVec.eq_of_toNat_eq (h.trans (by rfl)))
      exact .inr (.inr (.inr (.inr ⟨hleast, by omega, unpack_normal hinf hexp⟩)))

/-- **Packing what was unpacked** gives the same bits, unless it is a float that is not a
number; of these only one is valid. -/
theorem pack_unpack (hb : Format.binary64.Valid b) :
    UnpackedFloat.pack .binary64 (UnpackedFloat.unpack .binary64 b) = b := by
  have hself := packComponents_unpack b
  have hm : (unpackMantissa b).toNat < 2 ^ 52 := (unpackMantissa b).isLt
  rcases unpack_cases b with ⟨hexp, hman, h⟩ | ⟨hexp, hman, h⟩ | ⟨hexp, hman, h⟩ | ⟨hexp, _, h⟩ |
    ⟨_, hexp, _, h⟩
  · rw [h]
    rw [hexp, hman] at hself
    exact hself
  · rw [h]
    exact (hb.eq_packedNaN hexp hman).symm
  · rw [h]
    rw [hexp, hman] at hself
    exact hself
  · rw [h, pack_subnormal _ hm, BitVec.ofNat_toNat, BitVec.setWidth_eq]
    rw [hexp] at hself
    exact hself
  · have hman : BitVec.ofNat 52 (2 ^ 52 + (unpackMantissa b).toNat) = unpackMantissa b := by
      apply BitVec.eq_of_toNat_eq
      rw [BitVec.toNat_ofNat]
      omega
    rw [h, pack_normal (k := (unpackExponent b).toNat) _ (by omega) (by omega) (by omega)
      (by rfl), hman, BitVec.ofNat_toNat, BitVec.setWidth_eq]
    exact hself

end

/-- What is unpacked is canonical. -/
theorem fits_unpack (b : BitVec Format.binary64.numBits) :
    Fits (UnpackedFloat.unpack .binary64 b) := by
  have hm : (unpackMantissa b).toNat < 2 ^ 52 := (unpackMantissa b).isLt
  rcases unpack_cases b with ⟨_, _, h⟩ | ⟨_, _, h⟩ | ⟨_, _, h⟩ | ⟨_, hpos, h⟩ |
    ⟨hleast, hlast, hpos, h⟩
  · rw [h]
    trivial
  · rw [h]
    trivial
  · rw [h]
    trivial
  · rw [h]
    exact ⟨hpos, by omega, by omega, by omega, .inr rfl⟩
  · rw [h]
    exact ⟨hpos, by omega, by omega, by omega, .inl (by omega)⟩

/-- **Unpacking what was packed** gives the same parts, if they are canonical. -/
theorem unpack_pack {u : UnpackedFloat} (hu : Fits u) :
    UnpackedFloat.unpack .binary64 (UnpackedFloat.pack .binary64 u) = u := by
  cases u with
  | notANumber => rfl
  | infinity s => cases s <;> rfl
  | zero s => cases s <;> rfl
  | finite s m e hm =>
    have hlow := hu.low
    have hhigh := hu.high
    have hlt := hu.lt
    by_cases hfull : 2 ^ 52 ≤ m
    · obtain ⟨k, hk⟩ : ∃ k : Nat, e = (k : Int) - 1075 := ⟨(e + 1075).toNat, by omega⟩
      have hexp : (BitVec.ofNat 11 k).toNat = k := by
        rw [BitVec.toNat_ofNat]
        omega
      have hman : 2 ^ 52 + (BitVec.ofNat 52 m).toNat = m := by
        rw [BitVec.toNat_ofNat]
        omega
      have hinf : BitVec.ofNat 11 k ≠ -1#11 := by
        intro h
        rw [h, show (-1#11).toNat = 2047 from rfl] at hexp
        omega
      have hzero : BitVec.ofNat 11 k ≠ 0#11 := by
        intro h
        rw [h, show (0#11).toNat = 0 from rfl] at hexp
        omega
      rw [pack_normal s hfull hlt (by omega) hk]
      obtain ⟨hpos, hunpack⟩ := unpack_normal
        (b := packComponents .binary64 s (BitVec.ofNat 11 k) (BitVec.ofNat 52 m))
        (by rwa [unpackExponent_packComponents]) (by rwa [unpackExponent_packComponents])
      rw [hunpack, finite.injEq, unpackSign_packComponents, ofBitVec_toBitVec,
        unpackMantissa_packComponents, unpackExponent_packComponents]
      exact ⟨rfl, hman, by rw [hexp, hk]⟩
    · have hleast : e = -1074 := hu.full.resolve_left hfull
      subst hleast
      have hman : (BitVec.ofNat 52 m).toNat = m := by
        rw [BitVec.toNat_ofNat]
        omega
      have hzero : BitVec.ofNat 52 m ≠ 0#52 := by
        intro h
        rw [h, show (0#52).toNat = 0 from rfl] at hman
        omega
      rw [pack_subnormal s (by omega)]
      obtain ⟨hpos, hunpack⟩ := unpack_subnormal
        (b := packComponents .binary64 s 0#11 (BitVec.ofNat 52 m))
        (unpackExponent_packComponents ..) (by rwa [unpackMantissa_packComponents])
      rw [hunpack, finite.injEq, unpackSign_packComponents, ofBitVec_toBitVec,
        unpackMantissa_packComponents]
      exact ⟨rfl, hman, rfl⟩

/-! ### Floats -/

theorem fits_parts (x : Float) : Fits (parts x) := fits_unpack _

/-- **A float with the given parts.** -/
theorem parts_pack {u : UnpackedFloat} (hu : Fits u) : parts (.ofModel (.pack u)) = u :=
  unpack_pack hu

/-- **A float is known by its parts.** -/
theorem parts_injective {x y : Float} (h : parts x = parts y) : x = y := by
  obtain ⟨⟨a, ha⟩⟩ := x
  obtain ⟨⟨b, hb⟩⟩ := y
  have hab : a.toBitVec = b.toBitVec := by
    rw [← pack_unpack ha, ← pack_unpack hb]
    exact congrArg (UnpackedFloat.pack .binary64) h
  have : a = b := UInt64.toBitVec_inj.mp hab
  subst this
  rfl

theorem parts_inj {x y : Float} : parts x = parts y ↔ x = y :=
  ⟨parts_injective, congrArg parts⟩

theorem Canonical.of_parts {x : Float} {s : Sign} {m : Nat} {e : Int} {hm : 0 < m}
    (h : parts x = .finite s m e hm) : Canonical m e := by
  have := fits_parts x
  rw [h] at this
  exact this

/-! ### Reading the bits -/

/-- What is read off the bits of a float, in terms of its parts. -/
def ofParts : UnpackedFloat → Decimal.Binary
  | .notANumber => .nan
  | .infinity s => .infinite (s == .negative)
  | .zero s => .finite (s == .negative) ⟨0, -1074⟩
  | .finite s m e _ => .finite (s == .negative) ⟨m, e⟩

/-- **The bits of a float are read as its parts.** -/
theorem ofFloat_eq (x : Float) : Decimal.Binary.ofFloat x = ofParts (parts x) := by
  obtain ⟨b, hb⟩ : ∃ b : BitVec Format.binary64.numBits, b = x.toModel.toBits.toBitVec := ⟨_, rfl⟩
  have hbits : x.toBits.toNat = b.toNat := by
    rw [hb]
    rfl
  have hsign : (b.toNat / 2 ^ 63 == 1) = (Sign.ofBitVec (unpackSign b) == .negative) := by
    rw [← toNat_unpackSign]
    generalize unpackSign b = s
    revert s
    decide
  have hparts : parts x = UnpackedFloat.unpack .binary64 b := by
    rw [hb]
    rfl
  have hinf : (unpackExponent b).toNat = 2047 ↔ unpackExponent b = -1#11 := by
    rw [← BitVec.toNat_inj]
    rfl
  have hleast : (unpackExponent b).toNat = 0 ↔ unpackExponent b = 0#11 := by
    rw [← BitVec.toNat_inj]
    rfl
  have hman : (unpackMantissa b).toNat = 0 ↔ unpackMantissa b = 0#52 := by
    rw [← BitVec.toNat_inj]
    rfl
  rw [Decimal.Binary.ofFloat, hbits, hparts]
  simp only [Nat.pow_eq, hsign, ← toNat_unpackExponent, ← toNat_unpackMantissa, hinf, hleast, hman]
  rcases unpack_cases b with ⟨hexp, hman, h⟩ | ⟨hexp, hman, h⟩ | ⟨hexp, hman, h⟩ | ⟨hexp, _, h⟩ |
    ⟨hleast, hlast, _, h⟩
  · rw [h, if_pos hexp, if_pos hman]
    rfl
  · rw [h, if_pos hexp, if_neg hman]
    rfl
  · rw [h, hexp, hman]
    rfl
  · rw [h, hexp]
    rfl
  · have hne : unpackExponent b ≠ -1#11 := by
      intro hexp
      rw [hexp, show (-1#11).toNat = 2047 from rfl] at hlast
      omega
    have hzero : unpackExponent b ≠ 0#11 := by
      intro hexp
      rw [hexp] at hleast
      exact hleast rfl
    rw [h, if_neg hne, if_neg hzero]
    rfl

end TypedImp.Binary64
