import TypedImp.Proofs.Token.Blanks

/-!
# A token alone

What is cut off a text as a token does not depend on the text behind it any more: it is that
token alone (**`kinds_lexeme`**).  Each sort of token ends where it does because of what it
holds itself, once it is known how far it goes.  A sign is the longest that fits, so it is found
again in its own characters.  A string that is not closed ends with its line or with the source,
and alone with its own end.

What is cut off as a number has the form of one, digits with a point and an exponent
(`exists_pointed_splitNumber`), and so it always has a value (**`exists_lexNumber_kind`**).
-/

namespace TypedImp.Token

/-! ### Numbers -/

theorem splitFraction_cases (cs : List Char) : (splitFraction cs).1 = [] ∨
    ∃ digits, digits ≠ [] ∧ (∀ c ∈ digits, c.isDigit = true) ∧
      (splitFraction cs).1 = '.' :: digits := by
  rw [splitFraction.eq_def]
  split
  · rename_i cs'
    split
    · rename_i hd
      refine .inr ⟨cs'.takeWhile Char.isDigit, ?_, fun c => List.mem_takeWhile_imp, rfl⟩
      cases cs' with
      | nil => cases hd
      | cons c cs' => simp [show c.isDigit = true from hd]
    · exact .inl rfl
  · exact .inl rfl

theorem exists_isExponent (cs : List Char) :
    ∃ value, Decimal.IsExponent (splitExponent cs).1 value := by
  cases cs with
  | nil => exact ⟨0, .none⟩
  | cons e cs =>
    have hdigits {digits : List Char} (h : digits.head?.any Char.isDigit = true) :
        digits.takeWhile Char.isDigit ≠ [] ∧
          ∀ c ∈ digits.takeWhile Char.isDigit, c.isDigit = true := by
      refine ⟨?_, fun c => List.mem_takeWhile_imp⟩
      cases digits with
      | nil => cases h
      | cons c digits => simp [show c.isDigit = true from h]
    rw [splitExponent, splitSign.eq_def]
    split
    rename_i sign digits hsign
    split
    · rename_i h
      obtain ⟨he, hd⟩ := h
      obtain ⟨hne, hall⟩ := hdigits hd
      split at hsign
      · cases hsign
        exact ⟨_, .plus he hne hall⟩
      · cases hsign
        exact ⟨_, .minus he hne hall⟩
      · cases hsign
        exact ⟨_, .unsigned he hne hall⟩
    · exact ⟨0, .none⟩

/-- **What is cut off as a number** is digits with a point and an exponent. -/
theorem exists_pointed_splitNumber {c : Char} (hc : c.isDigit = true) (cs : List Char) :
    ∃ whole fraction exponent value, Decimal.Pointed (c :: whole) fraction ∧
      Decimal.IsExponent exponent value ∧
        Decimal.pointed (c :: whole) fraction ++ exponent = c :: (splitNumber cs).1 := by
  have hwhole : ∀ d ∈ c :: cs.takeWhile Char.isDigit, d.isDigit = true := by
    intro d hd
    rcases List.mem_cons.mp hd with rfl | hd
    · exact hc
    · exact List.mem_takeWhile_imp hd
  obtain ⟨value, hvalue⟩ := exists_isExponent (splitFraction (cs.dropWhile Char.isDigit)).2
  rw [splitNumber]
  dsimp only
  rcases splitFraction_cases (cs.dropWhile Char.isDigit) with h | ⟨digits, hne, hdigits, h⟩
  · refine ⟨_, [], _, value, ⟨List.cons_ne_nil _ _, hwhole, by simp⟩, hvalue, ?_⟩
    rw [h, List.append_nil]
    rfl
  · refine ⟨_, digits, _, value, ⟨List.cons_ne_nil _ _, hwhole, hdigits⟩, hvalue, ?_⟩
    rw [h, Decimal.pointed_of_ne_nil _ hne]
    rfl

/-- **Every number has a value.** -/
theorem exists_lexNumber_kind {c : Char} (hc : c.isDigit = true) (cs : List Char) :
    ∃ x, (lexNumber c cs).kind = .number x := by
  obtain ⟨whole, fraction, exponent, value, hpointed, he, htext⟩ :=
    exists_pointed_splitNumber hc cs
  obtain ⟨x, hx⟩ : ∃ x, Decimal.ofText? (c :: (splitNumber cs).1) = some x := by
    rw [← htext]
    exact ⟨_, Decimal.ofText?_pointed hpointed he⟩
  refine ⟨x, ?_⟩
  show Kind.ofNumeral c (splitNumber cs).1 = _
  rw [Kind.ofNumeral, hx]

/-! ### A token alone -/

theorem splitString_tail (cs : List Char) :
    splitString (splitString cs).2.1 = ((splitString cs).1, (splitString cs).2.1, []) := by
  fun_induction splitString cs with
  | case1 => rfl
  | case2 cs => rfl
  | case3 => rfl
  | case4 c cs value tail rest hsplit ih =>
    rw [hsplit] at ih
    rw [splitString, ih]
  | case5 cs => rfl
  | case6 c cs hquote hlast hbackslash hline value tail rest hsplit ih =>
    have hbackslash : c ≠ '\\' := by
      intro hc
      cases cs with
      | nil => exact hlast hc rfl
      | cons d cs => exact hbackslash d cs hc rfl
    rw [hsplit] at ih
    rw [splitString_other hquote hbackslash hline, ih]

theorem splitNumber_tail {c : Char} (hc : c.isDigit = true) (cs : List Char) :
    splitNumber (splitNumber cs).1 = ((splitNumber cs).1, []) := by
  obtain ⟨whole, fraction, exponent, value, hpointed, he, htext⟩ :=
    exists_pointed_splitNumber hc cs
  obtain ⟨tail, htail, hsplit⟩ := splitNumber_pointed hpointed he ⟨apart_nil, by simp⟩
  rw [htext] at htail
  cases htail
  rwa [List.append_nil] at hsplit

theorem lexWord_tail (c : Char) (cs : List Char) :
    lexWord c (lexWord c cs).tail = ⟨(lexWord c cs).kind, (lexWord c cs).tail, []⟩ := by
  have hpart : ∀ d ∈ cs.takeWhile isNamePart, isNamePart d = true := fun d =>
    List.mem_takeWhile_imp
  obtain ⟨htake, hdrop⟩ := takeWhile_append_apart hpart apart_nil
  rw [List.append_nil] at htake hdrop
  simp only [lexWord, htake, hdrop]

theorem lexSign_tail (c : Char) (cs : List Char) :
    lexSign c (lexSign c cs).tail = ⟨(lexSign c cs).kind, (lexSign c cs).tail, []⟩ := by
  cases hscan : Symbol.scan? (c :: cs) with
  | none =>
    have halone : Symbol.scan? [c] = none := by
      rw [Symbol.scan?, List.find?_eq_none] at hscan ⊢
      intro s hs hprefix
      refine hscan s hs ?_
      rw [List.isPrefixOf_iff_prefix] at hprefix ⊢
      exact hprefix.trans (List.prefix_append [c] cs)
    simp only [lexSign, hscan, halone]
  | some s =>
    have hprefix := List.isPrefixOf_iff_prefix.mp (Symbol.isPrefixOf_of_scan? hscan)
    have htext : c :: cs.take (s.spelling.toList.length - 1) = s.spelling.toList := by
      have h := List.prefix_iff_eq_take.mp hprefix
      obtain ⟨first, tail, hs⟩ := List.exists_cons_of_ne_nil s.spelling_ne_empty
      rw [hs, List.length_cons, List.take_succ_cons] at h
      rw [hs, List.length_cons, Nat.add_sub_cancel, h]
    have hmem : s ∈ Symbol.signs := List.mem_of_find?_eq_some hscan
    have hlength := congrArg List.length htext
    rw [List.length_cons] at hlength
    have halone : Symbol.scan? (c :: cs.take (s.spelling.toList.length - 1)) = some s := by
      rw [htext]
      exact Symbol.scan?_spelling hmem
    simp only [lexSign, hscan, halone]
    rw [List.take_of_length_le (by omega), List.drop_of_length_le (by omega)]

/-- **What is cut off as a token is that token alone.** -/
theorem lexeme_tail (c : Char) (cs : List Char) :
    lexeme c (lexeme c cs).tail = ⟨(lexeme c cs).kind, (lexeme c cs).tail, []⟩ := by
  by_cases hstart : isNameStart c = true
  · simp only [lexeme, if_pos hstart]
    exact lexWord_tail c cs
  by_cases hdigit : c.isDigit = true
  · simp only [lexeme, if_neg hstart, if_pos hdigit, lexNumber, splitNumber_tail hdigit]
  by_cases hquote : c = '"'
  · simp only [lexeme, if_neg hstart, if_neg hdigit, if_pos hquote, lexString, splitString_tail]
  · simp only [lexeme, if_neg hstart, if_neg hdigit, if_neg hquote]
    exact lexSign_tail c cs

theorem kinds_lexeme {c : Char} {cs : List Char} (h : BeginsToken c cs) :
    kinds (c :: (lexeme c cs).tail) = [(lexeme c cs).kind, .eof] := by
  have hcomment (hc : c = '/') : (lexeme c cs).tail.head? ≠ some '/' := by
    intro hhead
    refine h.2 hc ?_
    obtain ⟨tail, htail⟩ := List.head?_eq_some_iff.mp hhead
    rw [← tail_append_rest c cs, htail]
    rfl
  rw [kinds_cons h.1 hcomment, lexeme_tail, kinds_nil]

/-- No token is the end of the input. -/
theorem lexeme_kind_ne_eof (c : Char) (cs : List Char) : (lexeme c cs).kind ≠ .eof := by
  rw [lexeme]
  split
  · rw [lexWord, Kind.ofWord]
    split <;> simp
  split
  · rename_i hc
    obtain ⟨x, hx⟩ := exists_lexNumber_kind hc cs
    rw [hx]
    simp
  split
  · rw [lexString]
    simp only [Kind.ofString]
    split <;> simp
  · rw [lexSign]
    split <;> simp

end TypedImp.Token
