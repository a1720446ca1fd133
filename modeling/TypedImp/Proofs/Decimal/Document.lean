import TypedImp.Proofs.Decimal.Numeral

/-!
# The numbers of a document read back

In a document a finite float is written with a point or with an exponent
(`exists_pointed_magnitude`); its digits are as many as are needed to read it back.  Hence
**a number of a document is read as the float it was written for** (`ofText?_dumpText?`), and
two floats with one text are the same float.  The two zeros are no exception, since the negative
one has its sign.
-/

namespace TypedImp.Decimal

open TypedImp.Binary64

/-! ### Digits with an exponent -/

theorem isExponent_sign (power : Int) :
    IsExponent ('e' :: (if power < 0 then '-' else '+') :: digitsOf power.natAbs) power := by
  have hvalue := digitsValue_digitsOf power.natAbs
  by_cases hneg : power < 0
  · have h := IsExponent.minus (.inl rfl) (digitsOf_ne_nil power.natAbs)
      (fun _ => isDigit_digitsOf)
    have hpower : -(power.natAbs : Int) = power := by omega
    rw [hvalue, hpower] at h
    rw [if_pos hneg]
    exact h
  · have h := IsExponent.plus (.inl rfl) (digitsOf_ne_nil power.natAbs)
      (fun _ => isDigit_digitsOf)
    have hpower : (power.natAbs : Int) = power := by omega
    rw [hvalue, hpower] at h
    rw [if_neg hneg]
    exact h

theorem exponentDigits_cons (d : Char) (ds : List Char) (power : Int) :
    exponentDigits (d :: ds) power =
      pointed [d] ds ++ 'e' :: (if power < 0 then '-' else '+') :: digitsOf power.natAbs := by
  rw [exponentDigits, pointed]
  cases ds <;> rfl

/-- **How a magnitude is written**: with a point or an exponent, and as a number that reads
back. -/
theorem exists_pointed_magnitude (m : Magnitude) :
    ∃ whole fraction exponent power, dumpLayout.magnitude m = pointed whole fraction ++ exponent ∧
      Pointed whole fraction ∧ IsExponent exponent power ∧ (fraction ≠ [] ∨ exponent ≠ []) ∧
      (digitsValue (whole ++ fraction) : ℚ) * 10 ^ (power - fraction.length) =
        (m.shortest .even).value := by
  obtain ⟨s, hs⟩ : ∃ s, s = m.shortest .even := ⟨_, rfl⟩
  rw [← hs, Scientific.value, Layout.magnitude, show dumpLayout.tie = .even from rfl, ← hs]
  split
  · obtain ⟨whole, fraction, hplain, hpointed, hvalue, hfraction⟩ :=
      plainDigits_eq_pointed (digitsOf_ne_nil s.digits) (fun _ => isDigit_digitsOf) s.exponent true
    refine ⟨whole, fraction, [], 0, ?_, hpointed, .none, .inl (hfraction rfl), ?_⟩
    · rw [List.append_nil, ← hplain]
      rfl
    · rw [digitsValue_digitsOf, pointedValue] at hvalue
      rw [Int.zero_sub, hvalue]
  · obtain ⟨d, ds, hdigits⟩ := List.exists_cons_of_ne_nil (digitsOf_ne_nil s.digits)
    have hall (c : Char) (hc : c ∈ d :: ds) : c.isDigit = true :=
      isDigit_digitsOf (hdigits ▸ hc)
    have hvalue := digitsValue_digitsOf s.digits
    rw [hdigits] at hvalue ⊢
    refine ⟨[d], ds, _, _, exponentDigits_cons d ds _, ⟨by simp, ?_, ?_⟩, isExponent_sign _,
      .inr (List.cons_ne_nil _ _), ?_⟩
    · exact fun c hc => hall c (List.mem_cons.mpr (.inl (List.mem_singleton.mp hc)))
    · exact fun c hc => hall c (List.mem_cons_of_mem d hc)
    · rw [List.singleton_append, hvalue, List.length_cons]
      congr 2
      push_cast
      omega

/-! ### Reading back -/

variable {whole fraction exponent : List Char} {power : Int}

/-- Digits behind a minus sign are read as the number below zero. -/
theorem ofText?_minus_pointed (h : Pointed whole fraction) (he : IsExponent exponent power) :
    ofText? ('-' :: (pointed whole fraction ++ exponent)) =
      some (-nearestFloat (digitsValue (whole ++ fraction)) (power - fraction.length)) := by
  show ((unsigned? _).or (word? _)).map Float.neg = _
  rw [unsigned?_pointed h he]
  rfl

theorem neg_zero_eq {x : Float} (h : parts x = .zero .negative) : -0 = x :=
  parts_injective ((parts_neg 0).trans (parts_zero ▸ h.symm))

variable {x : Float} {text : String}

/-- **A number of a document is read as the float it was written for.** -/
theorem ofText?_dumpText? (h : dumpText? x = some text) : ofText? text.toList = some x := by
  rw [dumpText?, ofFloat_eq] at h
  cases hx : parts x with
  | notANumber | infinity s =>
    rw [hx] at h
    cases h
  | zero s =>
    rw [hx] at h
    cases s with
    | positive =>
      have hzero : x = 0 := parts_injective (hx.trans parts_zero.symm)
      have htext : text = "0.0" := (Option.some.inj h).symm
      rw [hzero, htext]
      rfl
    | negative =>
      have htext : text = "-0.0" := (Option.some.inj h).symm
      rw [← neg_zero_eq hx, htext]
      rfl
  | finite s m e hm =>
    rw [hx] at h
    have hc := Canonical.of_parts hx
    obtain ⟨whole, fraction, exponent, power, hmagnitude, hpointed, hexponent, -, hvalue⟩ :=
      exists_pointed_magnitude ⟨m, e⟩
    have hread := parts_nearestFloat hc (hvalue ▸ Magnitude.covers_shortest hc .even)
    have htext : text = dumpLayout.signed (s == .negative) ⟨m, e⟩ := (Option.some.inj h).symm
    rw [htext, Layout.signed, String.toList_ofList, hmagnitude]
    cases s with
    | positive =>
      refine (ofText?_pointed hpointed hexponent).trans (congrArg some (parts_injective ?_))
      exact hread.trans hx.symm
    | negative =>
      refine (ofText?_minus_pointed hpointed hexponent).trans (congrArg some (parts_injective ?_))
      rw [parts_neg, hread, hx]
      rfl

/-- **The floats that have no text** are those that are not finite. -/
theorem dumpText?_eq_none_iff : dumpText? x = none ↔ x.isFinite = false := by
  show _ ↔ (parts x).isFinite = false
  rw [dumpText?, ofFloat_eq]
  cases parts x with
  | notANumber | infinity => exact ⟨fun _ => rfl, fun _ => rfl⟩
  | zero | finite =>
    constructor
    · intro h
      cases h
    · intro h
      cases h

/-! ### The characters of a number -/

def IsNumeric (c : Char) : Prop := c.isDigit = true ∨ c ∈ ['.', 'e', 'E', '+', '-']

theorem isNumeric_pointed (h : Pointed whole fraction) :
    ∀ c ∈ pointed whole fraction, IsNumeric c := by
  intro c hc
  rw [pointed] at hc
  split at hc
  · exact .inl (h.whole c hc)
  · rcases List.mem_append.mp hc with hc | hc
    · exact .inl (h.whole c hc)
    · rcases List.mem_cons.mp hc with rfl | hc
      · exact .inr (by decide)
      · exact .inl (h.fraction c hc)

theorem isNumeric_exponent (h : IsExponent exponent power) : ∀ c ∈ exponent, IsNumeric c := by
  have hletter {e : Char} (he : e = 'e' ∨ e = 'E') : IsNumeric e := by
    rcases he with rfl | rfl <;> exact .inr (by decide)
  intro c hc
  cases h with
  | none => cases hc
  | unsigned he _ hdigits =>
    rcases List.mem_cons.mp hc with rfl | hc
    · exact hletter he
    · exact .inl (hdigits c hc)
  | plus he _ hdigits | minus he _ hdigits =>
    rcases List.mem_cons.mp hc with rfl | hc
    · exact hletter he
    · rcases List.mem_cons.mp hc with rfl | hc
      · exact .inr (by decide)
      · exact .inl (hdigits c hc)

/-- A point or an exponent is no digit. -/
theorem exists_not_isDigit (whole : List Char) (h : IsExponent exponent power)
    (hmark : fraction ≠ [] ∨ exponent ≠ []) :
    ∃ c ∈ pointed whole fraction ++ exponent, c.isDigit = false := by
  rcases hmark with hfraction | hexponent
  · refine ⟨'.', ?_, by decide⟩
    rw [pointed_of_ne_nil _ hfraction]
    simp
  · obtain ⟨e, tail, rfl⟩ := List.exists_cons_of_ne_nil hexponent
    exact ⟨e, by simp, (h.head e rfl).1⟩

/-- **What a number of a document looks like**: it has no other characters than those of
numbers, and it is not a whole number in digits. -/
theorem dumpText?_chars (h : dumpText? x = some text) :
    (∀ c ∈ text.toList, IsNumeric c) ∧ ∃ c ∈ text.toList, c.isDigit = false := by
  rw [dumpText?] at h
  split at h
  · rename_i negative m _
    obtain ⟨whole, fraction, exponent, power, hmagnitude, hpointed, hexponent, hmark, -⟩ :=
      exists_pointed_magnitude m
    have hnumeric : ∀ c ∈ dumpLayout.magnitude m, IsNumeric c := by
      intro c hc
      rw [hmagnitude] at hc
      rcases List.mem_append.mp hc with hc | hc
      · exact isNumeric_pointed hpointed c hc
      · exact isNumeric_exponent hexponent c hc
    obtain ⟨c, hc, hdigit⟩ := exists_not_isDigit whole hexponent hmark
    rw [← hmagnitude] at hc
    have htext : text = dumpLayout.signed negative m := (Option.some.inj h).symm
    rw [htext, Layout.signed, String.toList_ofList]
    cases negative with
    | false => exact ⟨hnumeric, c, hc, hdigit⟩
    | true =>
      refine ⟨?_, c, List.mem_cons_of_mem _ hc, hdigit⟩
      intro d hd
      rcases List.mem_cons.mp hd with rfl | hd
      · exact .inr (by decide)
      · exact hnumeric d hd
  · cases h

end TypedImp.Decimal
