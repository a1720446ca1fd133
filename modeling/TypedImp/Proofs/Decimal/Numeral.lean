import Mathlib.Data.List.TakeWhile
import TypedImp.Decimal.Layout
import TypedImp.Decimal.Numeral
import TypedImp.Proofs.Binary64.Signs
import TypedImp.Proofs.Decimal.Shortest

/-!
# Numerals read back

A float is shown as digits with a point at most: `pointed whole fraction`.  Its value is
that of all digits, divided by a power of ten (`plainDigits_eq_pointed`); and this is the
number that `unsigned?` hands to `nearestFloat`.  `parts_nearestFloat`: **what reads back
as a float is read as it**, since the two guards in `nearestFloat` are far outside the
range of floats.

With what is known of the digits themselves this gives `exists_pointed_text`: **a float
that is not negative is read as it was shown.**  A sign stands in front of the number without
it (`text_of_isSigned`), and a float that is not finite is shown as a word.
-/

namespace TypedImp.Decimal

open TypedImp.Binary64

/-! ### Digits -/

theorem digitsValue_eq (digits : List Char) : digitsValue digits = Nat.ofDigitChars 10 digits 0 :=
  rfl

theorem digitsValue_append (as bs : List Char) :
    digitsValue (as ++ bs) = digitsValue as * 10 ^ bs.length + digitsValue bs := by
  rw [digitsValue_eq, Nat.ofDigitChars_append, Nat.ofDigitChars_eq_ofDigitChars_zero, mul_comm]
  rfl

theorem digitsValue_zeros (n : Nat) : digitsValue (List.replicate n '0') = 0 := by
  rw [digitsValue_eq, Nat.ofDigitChars_replicate_zero, mul_zero]

theorem digitsValue_digitsOf (n : Nat) : digitsValue (digitsOf n) = n :=
  Nat.ofDigitChars_toDigits (by omega) (by omega)

theorem isDigit_digitsOf {n : Nat} {c : Char} (h : c ∈ digitsOf n) : c.isDigit = true :=
  Nat.isDigit_of_mem_toDigits (by omega) (by omega) h

theorem digitsOf_ne_nil (n : Nat) : digitsOf n ≠ [] := Nat.toDigits_ne_nil

/-! ### A point among digits -/

def pointed (whole fraction : List Char) : List Char :=
  if fraction.isEmpty then whole else whole ++ '.' :: fraction

structure Pointed (whole fraction : List Char) : Prop where
  whole_ne_nil : whole ≠ []
  whole : ∀ c ∈ whole, c.isDigit = true
  fraction : ∀ c ∈ fraction, c.isDigit = true

def pointedValue (whole fraction : List Char) : ℚ :=
  digitsValue (whole ++ fraction) * 10 ^ (-(fraction.length : Int))

theorem pointed_nil (whole : List Char) : pointed whole [] = whole := rfl

theorem pointed_of_ne_nil (whole : List Char) {fraction : List Char} (h : fraction ≠ []) :
    pointed whole fraction = whole ++ '.' :: fraction := by
  rw [pointed, if_neg (by simpa using h)]

/-- **Where the point is put** among digits, their value times a power of ten stays the
same.  With `.0` on whole numbers there is always a point. -/
theorem plainDigits_eq_pointed {digits : List Char} (hne : digits ≠ [])
    (hdigits : ∀ c ∈ digits, c.isDigit = true) (k : Int) (point : Bool) :
    ∃ whole fraction, plainDigits digits k point = pointed whole fraction ∧
      Pointed whole fraction ∧ pointedValue whole fraction = digitsValue digits * 10 ^ k ∧
      (point = true → fraction ≠ []) := by
  have hzeros (n : Nat) : ∀ c ∈ List.replicate n '0', c.isDigit = true := by
    intro c hc
    rw [List.eq_of_mem_replicate hc]
    rfl
  rw [plainDigits]
  by_cases hk : 0 ≤ k
  · rw [if_pos hk]
    obtain ⟨n, rfl⟩ : ∃ n : Nat, k = n := ⟨k.toNat, by omega⟩
    have hwhole : ∀ c ∈ digits ++ List.replicate n '0', c.isDigit = true := by
      intro c hc
      rcases List.mem_append.mp hc with hc | hc
      · exact hdigits c hc
      · exact hzeros _ c hc
    rw [Int.toNat_natCast]
    cases point with
    | false =>
      refine ⟨digits ++ List.replicate n '0', [], by simp [pointed_nil],
        ⟨by simp [hne], hwhole, by simp⟩, ?_, Bool.noConfusion⟩
      rw [pointedValue, List.append_nil, digitsValue_append, digitsValue_zeros]
      simp
    | true =>
      refine ⟨digits ++ List.replicate n '0', ['0'], rfl, ⟨by simp [hne], hwhole, by simp⟩, ?_,
        fun _ => List.cons_ne_nil _ _⟩
      have hzero : digitsValue ['0'] = 0 := rfl
      rw [pointedValue, digitsValue_append, digitsValue_append, digitsValue_zeros, hzero]
      simp
  · rw [if_neg hk]
    by_cases hplaces : 0 < digits.length + k
    · rw [if_pos hplaces]
      obtain ⟨n, hn⟩ : ∃ n : Nat, (digits.length + k : Int).toNat = n := ⟨_, rfl⟩
      have hlt : n < digits.length := by omega
      have hdrop : digits.drop n ≠ [] := by simp; omega
      rw [hn]
      refine ⟨digits.take n, digits.drop n, (pointed_of_ne_nil _ hdrop).symm, ⟨?_, ?_, ?_⟩, ?_,
        fun _ => hdrop⟩
      · rw [Ne, List.take_eq_nil_iff]
        rintro (h | h)
        · omega
        · exact hne h
      · exact fun c hc => hdigits c (List.mem_of_mem_take hc)
      · exact fun c hc => hdigits c (List.mem_of_mem_drop hc)
      · rw [pointedValue, List.take_append_drop, List.length_drop]
        congr 2
        omega
    · rw [if_neg hplaces]
      obtain ⟨n, hn⟩ : ∃ n : Nat, (-(digits.length + k : Int)).toNat = n := ⟨_, rfl⟩
      rw [hn]
      have hfraction : List.replicate n '0' ++ digits ≠ [] := by simp [hne]
      refine ⟨['0'], List.replicate n '0' ++ digits, ?_, ⟨by simp, ?_, ?_⟩, ?_, fun _ => hfraction⟩
      · rw [pointed_of_ne_nil _ hfraction]
        rfl
      · intro c hc
        rw [List.mem_singleton.mp hc]
        rfl
      · intro c hc
        rcases List.mem_append.mp hc with hc | hc
        · exact hzeros _ c hc
        · exact hdigits c hc
      · have hzero : digitsValue ['0'] = 0 := rfl
        rw [pointedValue, digitsValue_append, digitsValue_append, digitsValue_zeros, hzero,
          List.length_append, List.length_replicate]
        simp only [zero_mul, zero_add]
        congr 2
        push_cast
        omega

/-! ### Reading digits -/

/-- Digits are taken up to what is no digit. -/
theorem takeWhile_append_digits {digits : List Char} (hd : ∀ c ∈ digits, c.isDigit = true)
    {cs : List Char} (h : ∀ c ∈ cs.head?, c.isDigit = false) :
    (digits ++ cs).takeWhile Char.isDigit = digits ∧
      (digits ++ cs).dropWhile Char.isDigit = cs := by
  rw [List.takeWhile_append_of_pos hd, List.dropWhile_append_of_pos hd]
  cases cs with
  | nil => simp
  | cons c cs => simp [h c rfl]

/-- **An exponent** with its value.  Where there is none, it is zero. -/
inductive IsExponent : List Char → Int → Prop where
  | none : IsExponent [] 0
  | unsigned {e : Char} {digits : List Char} (he : e = 'e' ∨ e = 'E') (hne : digits ≠ [])
    (hdigits : ∀ c ∈ digits, c.isDigit = true) : IsExponent (e :: digits) (digitsValue digits)
  | plus {e : Char} {digits : List Char} (he : e = 'e' ∨ e = 'E') (hne : digits ≠ [])
    (hdigits : ∀ c ∈ digits, c.isDigit = true) :
    IsExponent (e :: '+' :: digits) (digitsValue digits)
  | minus {e : Char} {digits : List Char} (he : e = 'e' ∨ e = 'E') (hne : digits ≠ [])
    (hdigits : ∀ c ∈ digits, c.isDigit = true) :
    IsExponent (e :: '-' :: digits) (-(digitsValue digits : Int))

variable {whole fraction exponent : List Char} {value : Int}

/-- An exponent goes on neither with the digits nor with the point in front of it. -/
theorem IsExponent.head (h : IsExponent exponent value) :
    ∀ c ∈ exponent.head?, c.isDigit = false ∧ c ≠ '.' := by
  have hletter {e : Char} (he : e = 'e' ∨ e = 'E') : e.isDigit = false ∧ e ≠ '.' := by
    rcases he with rfl | rfl <;> decide
  cases h with
  | none => simp
  | unsigned he | plus he | minus he => simpa using hletter he

theorem IsExponent.exponentOf?_eq (h : IsExponent exponent value) :
    exponentOf? exponent = some value := by
  have hall {digits : List Char} (hne : digits ≠ []) (hdigits : ∀ c ∈ digits, c.isDigit = true) :
      (digits.isEmpty || !digits.all Char.isDigit) = false := by
    rw [List.all_eq_true.mpr hdigits, Bool.not_true, Bool.or_false]
    simpa using hne
  cases h with
  | none => rfl
  | @unsigned e digits he hne hdigits =>
    obtain ⟨d, digits, rfl⟩ := List.exists_cons_of_ne_nil hne
    have hd := hdigits d List.mem_cons_self
    rw [exponentOf?, if_pos he]
    · simp only [hall hne hdigits]
      rfl
    · rintro digits' heq
      cases heq
      cases hd
    · rintro digits' heq
      cases heq
      cases hd
  | plus he hne hdigits =>
    rw [exponentOf?, if_pos he]
    simp only [hall hne hdigits]
    rfl
  | minus he hne hdigits =>
    rw [exponentOf?, if_pos he]
    simp only [hall hne hdigits]
    rfl

/-- **Digits with a point and an exponent** are read as a whole number times a power of ten. -/
theorem unsigned?_pointed (h : Pointed whole fraction) (he : IsExponent exponent value) :
    unsigned? (pointed whole fraction ++ exponent) =
      some (nearestFloat (digitsValue (whole ++ fraction)) (value - fraction.length)) := by
  have hwhole : whole.isEmpty = false := by simpa using h.whole_ne_nil
  have hexponent := takeWhile_append_digits h.whole fun c hc => (he.head c hc).1
  by_cases hnil : fraction = []
  · subst hnil
    rw [unsigned?, pointed_nil, hexponent.1, hexponent.2]
    split
    rename_i fraction rest hsplit
    split at hsplit
    · exact absurd rfl (he.head '.' rfl).2
    · cases hsplit
      simp [hwhole, he.exponentOf?_eq]
  · have hfraction := takeWhile_append_digits h.fraction fun c hc => (he.head c hc).1
    have hdot : ∀ c ∈ ('.' :: (fraction ++ exponent)).head?, c.isDigit = false := by simp
    have hpoint := takeWhile_append_digits h.whole hdot
    rw [pointed_of_ne_nil _ hnil, List.append_assoc, List.cons_append, unsigned?, hpoint.1,
      hpoint.2]
    simp [hwhole, hfraction.1, hfraction.2, he.exponentOf?_eq]

/-! ### Far outside the range of floats -/

/-- The power of ten of the first digit of a number. -/
theorem ten_zpow_digits_le {M : Nat} (hM : 0 < M) (E : Int) :
    (10 : ℚ) ^ ((Nat.toDigits 10 M).length + E - 1) ≤ M * 10 ^ E ∧
      (M : ℚ) * 10 ^ E < 10 ^ ((Nat.toDigits 10 M).length + E) := by
  have hlen : 0 < (Nat.toDigits 10 M).length := Nat.length_toDigits_pos
  obtain ⟨n, hn⟩ : ∃ n, (Nat.toDigits 10 M).length = n + 1 := ⟨_, (Nat.succ_pred hlen.ne').symm⟩
  have hlow : 10 ^ n ≤ M := by
    rcases Nat.eq_zero_or_pos n with rfl | hpos
    · exact hM
    · have := not_congr (Nat.length_toDigits_le_iff (b := 10) (n := M) (k := n) (by omega) hpos)
      omega
  have hhigh : M < 10 ^ (n + 1) := by
    rw [← Nat.length_toDigits_le_iff (by omega) (by omega), hn]
  have hpos : (0 : ℚ) < 10 ^ E := zpow_pos (by norm_num) E
  rw [hn]
  constructor
  · have hsplit : ((n + 1 : ℕ) : Int) + E - 1 = n + E := by omega
    rw [hsplit, zpow_add₀ (by norm_num), zpow_natCast]
    have : (10 : ℚ) ^ n ≤ M := by exact_mod_cast hlow
    gcongr
  · rw [zpow_add₀ (by norm_num), zpow_natCast]
    have : (M : ℚ) < 10 ^ (n + 1) := by exact_mod_cast hhigh
    gcongr

variable {m : Nat} {e : Int} {q : ℚ}

/-- A number that reads back as a float is in the range of floats. -/
theorem range_of_covers (hc : Canonical m e) (hq : (Magnitude.reading ⟨m, e⟩).Covers q) :
    (10 : ℚ) ^ (-331 : Int) < q ∧ q < 10 ^ (309 : Int) := by
  have hpos := two_zpow_pos e
  have hnear := (nearest_of_covers hc hq).bounds
  have hm : (1 : ℚ) ≤ m := by exact_mod_cast hc.pos
  have hlt : (m : ℚ) + 1 ≤ 2 ^ (53 : Int) := by exact_mod_cast hc.lt
  have hq' : q = q / 2 ^ e * 2 ^ e := by rw [div_mul_cancel₀ _ hpos.ne']
  constructor
  · calc (10 : ℚ) ^ (-331 : Int) < 2 ^ (-1075 : Int) :=
          ten_zpow_lt_two_zpow (by omega) (by omega)
      _ = 2 ^ (-1 : Int) * 2 ^ (-1074 : Int) := by rw [← zpow_add₀ (by norm_num)]; norm_num
      _ ≤ 2 ^ (-1 : Int) * 2 ^ e := by
        gcongr
        · norm_num
        · exact hc.low
      _ ≤ q / 2 ^ e * 2 ^ e := by
        gcongr
        norm_num
        linarith
      _ = q := hq'.symm
  · calc q = q / 2 ^ e * 2 ^ e := hq'
      _ ≤ 2 ^ (53 : Int) * 2 ^ e := by
        gcongr
        linarith
      _ ≤ 2 ^ (53 : Int) * 2 ^ (971 : Int) := by
        gcongr
        · norm_num
        · exact hc.high
      _ = 2 ^ (1024 : Int) := by rw [← zpow_add₀ (by norm_num)]; norm_num
      _ < 10 ^ (309 : Int) := by
        have hinverse : (10 : ℚ) ^ (-309 : Int) < 2 ^ (-1024 : Int) :=
          ten_zpow_lt_two_zpow (by omega) (by omega)
        rw [zpow_neg, zpow_neg] at hinverse
        exact (inv_lt_inv₀ (zpow_pos (by norm_num) _) (two_zpow_pos _)).mp hinverse

theorem lt_of_ten_zpow_lt {a b : Int} (h : (10 : ℚ) ^ a < 10 ^ b) : a < b :=
  (zpow_lt_zpow_iff_right₀ (by norm_num)).mp h

/-- It is not zero. -/
theorem pos_of_covers (hc : Canonical m e) {M : Nat} {E : Int}
    (hq : (Magnitude.reading ⟨m, e⟩).Covers (M * 10 ^ E)) : 0 < M := by
  have hlow := (range_of_covers hc hq).1
  by_contra hzero
  rw [Nat.not_lt, Nat.le_zero] at hzero
  rw [hzero, Nat.cast_zero, zero_mul] at hlow
  exact absurd hlow (not_lt.mpr (zpow_nonneg (by norm_num) _))

/-- **A number that reads back as a float** is read as it. -/
theorem parts_nearestFloat (hc : Canonical m e) {M : Nat} {E : Int}
    (hq : (Magnitude.reading ⟨m, e⟩).Covers (M * 10 ^ E)) :
    parts (nearestFloat M E) = .finite .positive m e hc.pos := by
  have hM := pos_of_covers hc hq
  obtain ⟨hfirst, hbehind⟩ := ten_zpow_digits_le hM E
  obtain ⟨hlow, hhigh⟩ := range_of_covers hc hq
  have habove := lt_of_ten_zpow_lt (hfirst.trans_lt hhigh)
  have hbelow := lt_of_ten_zpow_lt (hlow.trans hbehind)
  rw [nearestFloat, if_neg hM.ne']
  simp only
  rw [if_neg (by omega), if_neg (by omega)]
  by_cases hneg : E < 0
  · obtain ⟨k, rfl⟩ : ∃ k : Nat, E = -k := ⟨E.natAbs, by omega⟩
    have hlen : (Nat.toDigits 10 M).length ≤ M.log2 + 1 := by
      rw [Nat.length_toDigits_le_iff (by omega) (by omega)]
      calc M < 2 ^ (M.log2 + 1) := Nat.lt_log2_self
        _ ≤ 10 ^ (M.log2 + 1) := Nat.pow_le_pow_left (by omega) _
    rw [if_pos hneg, Int.natAbs_neg, Int.natAbs_natCast]
    apply parts_ofScientific_neg hM (by omega) (by omega) hc
    rw [zpow_neg, zpow_natCast, ← div_eq_mul_inv] at hq
    exact hq
  · obtain ⟨k, rfl⟩ : ∃ k : Nat, E = k := ⟨E.natAbs, by omega⟩
    rw [if_neg hneg, Int.natAbs_natCast]
    apply parts_ofScientific hM _ hc
    · rw [zpow_natCast] at hq
      exact hq
    · have : 0 < (Nat.toDigits 10 M).length := Nat.length_toDigits_pos
      omega

/-! ### Reading what was shown -/

/-- Digits are read without a sign. -/
theorem ofText?_pointed (h : Pointed whole fraction) (he : IsExponent exponent value) :
    ofText? (pointed whole fraction ++ exponent) =
      some (nearestFloat (digitsValue (whole ++ fraction)) (value - fraction.length)) := by
  obtain ⟨c, cs, rfl⟩ := List.exists_cons_of_ne_nil h.whole_ne_nil
  have hc := h.whole c List.mem_cons_self
  have hread := unsigned?_pointed h he
  obtain ⟨tail, htail⟩ : ∃ tail, pointed (c :: cs) fraction = c :: tail := by
    rw [pointed]
    split <;> exact ⟨_, rfl⟩
  rw [htail, List.cons_append] at hread ⊢
  have hminus : c ≠ '-' := by
    rintro rfl
    cases hc
  have hplus : c ≠ '+' := by
    rintro rfl
    cases hc
  rw [ofText?]
  · simp only [hread, Option.some_or]
  · rintro rest heq
    cases heq
    exact hminus rfl
  · rintro rest heq
    cases heq
    exact hplus rfl

def Plain (x : Float) : Prop :=
  parts x = .zero .positive ∨ ∃ m e hm, parts x = .finite .positive m e hm

/-- **A float that is not negative is read as it was shown.** -/
theorem exists_pointed_text {x : Float} (h : Plain x) :
    ∃ whole fraction, (text x).toList = pointed whole fraction ∧ Pointed whole fraction ∧
      ofText? (pointed whole fraction) = some x := by
  rcases h with h | ⟨m, e, hm, h⟩
  · have hx : x = 0 := parts_injective (h.trans parts_zero.symm)
    subst hx
    exact ⟨['0'], [], rfl, ⟨by simp, by simp, by simp⟩, rfl⟩
  · have hc := Canonical.of_parts h
    have hcovers := Magnitude.covers_shortest hc .up
    obtain ⟨s, hs⟩ : ∃ s, s = Magnitude.shortest ⟨m, e⟩ .up := ⟨_, rfl⟩
    rw [← hs] at hcovers
    obtain ⟨whole, fraction, hplain, hpointed, hvalue, -⟩ :=
      plainDigits_eq_pointed (digitsOf_ne_nil s.digits) (fun _ => isDigit_digitsOf) s.exponent false
    have htext : (text x).toList = pointed whole fraction := by
      rw [text, ofFloat_eq, h]
      show (sourceLayout.signed false ⟨m, e⟩).toList = _
      rw [Layout.signed, String.toList_ofList, ← hplain, hs]
      rfl
    refine ⟨whole, fraction, htext, hpointed, ?_⟩
    rw [digitsValue_digitsOf] at hvalue
    have hread : (Magnitude.reading ⟨m, e⟩).Covers (pointedValue whole fraction) := by
      rw [hvalue]
      exact hcovers
    have hvalue := ofText?_pointed hpointed .none
    rw [List.append_nil, Int.zero_sub] at hvalue
    rw [hvalue, Option.some_inj]
    exact parts_injective ((parts_nearestFloat hc hread).trans h.symm)

/-- A float that is finite and not negative. -/
theorem plain_of_isFinite {x : Float} (h : NotNegative (parts x)) (hx : x.isFinite = true) :
    Plain x := by
  have hfinite : (parts x).isFinite = true := hx
  rw [Plain]
  cases hparts : parts x with
  | notANumber | infinity =>
    rw [hparts] at hfinite
    cases hfinite
  | zero s =>
    rw [hparts] at h
    rw [h s rfl]
    exact .inl rfl
  | finite s m e hm =>
    rw [hparts] at h
    rw [h s rfl]
    exact .inr ⟨m, e, hm, rfl⟩

theorem Plain.isFinite {x : Float} (h : Plain x) : x.isFinite = true := by
  show (parts x).isFinite = true
  rcases h with h | ⟨m, e, hm, h⟩ <;> rw [h] <;> rfl

/-! ### Signs and words -/

def isSigned (x : Float) : Bool := sign? (parts x) == some .negative

theorem isSigned_eq_false_iff {x : Float} : isSigned x = false ↔ NotNegative (parts x) := by
  rw [isSigned]
  constructor
  · intro h s hs
    rw [hs] at h
    cases s with
    | positive => rfl
    | negative => cases h
  · intro h
    cases hs : sign? (parts x) with
    | none => rfl
    | some s =>
      rw [h s hs]
      rfl

theorem Plain.isSigned {x : Float} (h : Plain x) : isSigned x = false := by
  rw [Decimal.isSigned]
  rcases h with h | ⟨m, e, hm, h⟩ <;> rw [h] <;> rfl

/-- A sign goes where the number is negated. -/
theorem isSigned_neg {x : Float} (h : isSigned x = true) : isSigned (-x) = false := by
  rw [isSigned] at h ⊢
  rw [parts_neg]
  cases hx : parts x with
  | notANumber =>
    rw [hx] at h
    cases h
  | infinity s | zero s | finite s =>
    rw [hx] at h
    cases s with
    | positive => cases h
    | negative => rfl

/-- **A sign stands in front of the number without it.** -/
theorem text_of_isSigned {x : Float} (h : isSigned x = true) :
    (text x).toList = '-' :: (text (-x)).toList := by
  rw [isSigned] at h
  rw [text, text, ofFloat_eq, ofFloat_eq, parts_neg]
  cases hx : parts x with
  | notANumber =>
    rw [hx] at h
    cases h
  | infinity s | zero s =>
    rw [hx] at h
    cases s with
    | positive => cases h
    | negative => rfl
  | finite s m e hm =>
    rw [hx] at h
    cases s with
    | positive => cases h
    | negative =>
      show (sourceLayout.signed true ⟨m, e⟩).toList =
        '-' :: (sourceLayout.signed false ⟨m, e⟩).toList
      rw [Layout.signed, Layout.signed, String.toList_ofList, String.toList_ofList]
      rfl

/-- **A float that is not finite is shown as a word**, apart from its sign. -/
theorem text_of_not_isFinite {x : Float} (h : isSigned x = false) (hx : x.isFinite = false) :
    text x = "inf" ∨ text x = "NaN" := by
  have hfinite : (parts x).isFinite = false := hx
  rw [isSigned] at h
  rw [text, ofFloat_eq]
  cases hparts : parts x with
  | notANumber => exact .inr rfl
  | infinity s =>
    rw [hparts] at h
    cases s with
    | positive => exact .inl rfl
    | negative => cases h
  | zero s | finite s =>
    rw [hparts] at hfinite
    cases hfinite

end TypedImp.Decimal
