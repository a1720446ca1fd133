import TypedImp.Proofs.Decimal.Numeral
import TypedImp.Text.Quoted
import TypedImp.Token.Lexer

/-!
# The tokens of a text

`Token.kinds` lists the kinds of the tokens of a text and leaves out where they stand.
What a text begins with is one token, whatever comes behind, as long as the text behind
does not make it a longer one: **`kinds_sign`**, **`kinds_keyword`**, **`kinds_name`**,
**`kinds_number`** and **`kinds_string`** say this of each sort of token, and `kinds_blank`
passes what stands between them.  So the tokens of a text that was put together from
pieces are found by rewriting, piece by piece.

A number has two tokens if it is shown with a sign, and one that is not finite has a name for
its token (`numberKinds`).  Of a string, all is read but not all is read as it was: an escape
is a backslash in front of one character, so `asRead` is what the string becomes.
-/

namespace TypedImp

/-- A character that comes back when a string that holds it is shown and read: one that is
shown as itself, or as one of the escapes `\n`, `\t`, `\\` and `\"`. -/
def Text.ReadsBack (c : Char) : Prop :=
  Text.escape c = [c] ∨ c = '\n' ∨ c = '\t' ∨ c = '\\' ∨ c = '"'

instance (c : Char) : Decidable (Text.ReadsBack c) :=
  inferInstanceAs (Decidable (_ ∨ _ ∨ _ ∨ _ ∨ _))

namespace Symbol

/-- The text behind a sign does not make it a longer one, nor a comment. -/
def EndsBefore (s : Symbol) (cs : List Char) : Prop :=
  ∀ c ∈ cs.head?, (∀ t ∈ signs, ¬ (s.spelling.toList ++ [c]) <+: t.spelling.toList) ∧
    ¬ (s = .slash ∧ c = '/')

/-- The signs that no longer sign begins with. -/
def closed : List Symbol :=
  [plusPlus, minusMinus, arrow, leftParen, rightParen, leftBrace, rightBrace, leftBracket,
    rightBracket, comma, colon, semicolon]

theorem mem_signs_of_closed {s : Symbol} (hs : s ∈ closed) : s ∈ signs := by
  revert s
  decide

theorem endsBefore_of_closed {s : Symbol} (hs : s ∈ closed) (cs : List Char) :
    s.EndsBefore cs := by
  have honly : ∀ s ∈ closed, s ≠ slash ∧
      ∀ t ∈ signs, s.spelling.toList <+: t.spelling.toList → t = s := by decide
  obtain ⟨hslash, honly⟩ := honly s hs
  refine fun c _ => ⟨fun t ht hprefix => ?_, fun h => hslash h.1⟩
  have hts := honly t ht ((List.prefix_append _ _).trans hprefix)
  subst hts
  have hle := hprefix.length_le
  rw [List.length_append, List.length_singleton] at hle
  omega

/-- The characters that a sign may go on with, the end of `//` among them. -/
def further : List Char := '/' :: signs.flatMap fun s => s.spelling.toList.tail

theorem endsBefore_cons (s : Symbol) {c : Char} (hc : c ∉ further) (cs : List Char) :
    s.EndsBefore (c :: cs) := by
  rintro d hd
  cases hd
  refine ⟨fun t ht hprefix => ?_, ?_⟩
  · -- The character stands behind the first one of the longer sign.
    obtain ⟨rest, hrest⟩ := hprefix
    obtain ⟨first, tail, hs⟩ := List.exists_cons_of_ne_nil s.spelling_ne_empty
    refine hc (List.mem_cons_of_mem _ (List.mem_flatMap.mpr ⟨t, ht, ?_⟩))
    rw [← hrest, hs]
    simp
  · rintro ⟨-, rfl⟩
    exact hc List.mem_cons_self

theorem notMem_further_of_isDigit {c : Char} (hc : c.isDigit = true) : c ∉ further := by
  intro hmem
  have hall : further.all (fun c => !c.isDigit) = true := by decide
  have hnot := List.all_eq_true.mp hall c hmem
  rw [hc] at hnot
  cases hnot

theorem notMem_further_of_isNameStart {c : Char} (hc : Token.isNameStart c = true) :
    c ∉ further := by
  intro hmem
  have hall : further.all (fun c => !Token.isNameStart c) = true := by decide
  have hnot := List.all_eq_true.mp hall c hmem
  rw [hc] at hnot
  cases hnot

end Symbol

namespace Token

/-- The kinds of the tokens of a text, up to the end of the input. -/
def kinds (cs : List Char) : List Kind := (tokensFrom .start cs).map Token.kind

/-! ### One token after the other -/

/-- What the tokens are does not depend on the place of the text. -/
theorem map_kind_tokensFrom (place : Position) (cs : List Char) :
    (tokensFrom place cs).map Token.kind = kinds cs := by
  obtain ⟨n, hn⟩ : ∃ n, cs.length = n := ⟨_, rfl⟩
  rw [kinds]
  generalize Position.start = start
  induction n using Nat.strongRecOn generalizing cs place start with
  | ind n ih =>
    have hblank := splitBlank_length_le cs
    rw [tokensFrom, tokensFrom]
    split
    · rfl
    · rename_i c cs' hrest
      have hle := rest_length_le c cs'
      rw [hrest, List.length_cons] at hblank
      simp only [List.map_cons]
      rw [ih _ (by omega) _ _ rfl]

theorem kinds_nil : kinds [] = [.eof] := by
  rw [kinds, tokensFrom]
  rfl

theorem kinds_of_splitBlank {cs ds : List Char} (h : (splitBlank cs).2 = (splitBlank ds).2) :
    kinds cs = kinds ds := by
  rw [kinds, kinds, tokensFrom, tokensFrom, h]
  split
  · rfl
  · simp only [List.map_cons, map_kind_tokensFrom]

theorem kinds_blank {c : Char} (h : isBlank c = true) (cs : List Char) :
    kinds (c :: cs) = kinds cs := by
  apply kinds_of_splitBlank
  rw [splitBlank, if_pos h]

theorem kinds_blanks {blanks : List Char} (h : ∀ c ∈ blanks, isBlank c = true) (cs : List Char) :
    kinds (blanks ++ cs) = kinds cs := by
  induction blanks with
  | nil => rfl
  | cons c blanks ih =>
    rw [List.cons_append, kinds_blank (h c List.mem_cons_self),
      ih fun d hd => h d (List.mem_cons_of_mem c hd)]

/-- A text that begins with neither a blank nor a comment begins with a token. -/
theorem kinds_cons {c : Char} {cs : List Char} (hblank : isBlank c = false)
    (hcomment : c = '/' → cs.head? ≠ some '/') :
    kinds (c :: cs) = (lexeme c cs).kind :: kinds (lexeme c cs).rest := by
  have hsplit : (splitBlank (c :: cs)).2 = c :: cs := by
    rw [splitBlank, if_neg (by simp [hblank]), if_neg (fun h => hcomment h.1 h.2)]
  rw [kinds, tokensFrom]
  split
  · rename_i hrest
    rw [hsplit] at hrest
    cases hrest
  · rename_i c' cs' hrest
    rw [hsplit] at hrest
    cases hrest
    simp only [List.map_cons, map_kind_tokensFrom]

/-! ### Signs -/

/-- The longest sign at the head of a text is the one that was put there. -/
theorem scan?_append {s : Symbol} (hs : s ∈ Symbol.signs) {cs : List Char}
    (h : s.EndsBefore cs) : Symbol.scan? (s.spelling.toList ++ cs) = some s := by
  have halone := Symbol.scan?_spelling hs
  rw [Symbol.scan?, List.find?_eq_some_iff_append] at halone ⊢
  obtain ⟨-, longer, others, hsplit, hlonger⟩ := halone
  refine ⟨by simp, longer, others, hsplit, fun t ht => ?_⟩
  have hmem : t ∈ Symbol.signs := by
    rw [hsplit]
    exact List.mem_append_left _ ht
  have hno := hlonger t ht
  simp only [Bool.not_eq_true', Bool.eq_false_iff, ne_eq, List.isPrefixOf_iff_prefix] at hno ⊢
  intro hprefix
  rcases List.prefix_or_prefix_of_prefix hprefix (List.prefix_append s.spelling.toList cs) with
    hshort | hlong
  · exact hno hshort
  · -- A longer sign would go on with the first character behind this one.
    obtain ⟨further, hfurther⟩ := hlong
    rw [← hfurther] at hprefix
    have hrest := (List.prefix_append_right_inj _).mp hprefix
    cases further with
    | nil =>
      rw [List.append_nil] at hfurther
      exact hno (by rw [hfurther])
    | cons c further =>
      obtain ⟨cs', rfl⟩ := hrest
      refine (h c rfl).1 t hmem ⟨further, ?_⟩
      rw [List.append_assoc, ← hfurther]
      rfl

/-- No sign looks like something else. -/
theorem head_of_mem_signs {s : Symbol} (hs : s ∈ Symbol.signs) :
    ∃ c tail, s.spelling.toList = c :: tail ∧ isBlank c = false ∧ isNameStart c = false ∧
      c.isDigit = false ∧ c ≠ '"' := by
  have hall : ∀ s ∈ Symbol.signs, s.spelling.toList.head?.all
      (fun c => !isBlank c && !isNameStart c && !c.isDigit && c != '"') = true := by decide
  obtain ⟨c, tail, htext⟩ := List.exists_cons_of_ne_nil s.spelling_ne_empty
  have hc := hall s hs
  rw [htext, List.head?_cons, Option.all_some] at hc
  simp only [Bool.and_eq_true, Bool.not_eq_true', bne_iff_ne] at hc
  obtain ⟨⟨⟨hblank, hstart⟩, hdigit⟩, hquote⟩ := hc
  exact ⟨c, tail, htext, hblank, hstart, hdigit, hquote⟩

/-- **A sign** is the first token of a text that begins with it. -/
theorem kinds_sign {s : Symbol} (hs : s ∈ Symbol.signs) {cs : List Char}
    (h : s.EndsBefore cs) : kinds (s.spelling.toList ++ cs) = .symbol s :: kinds cs := by
  have hscan := scan?_append hs h
  obtain ⟨c, tail, htext, hblank, hstart, hdigit, hquote⟩ := head_of_mem_signs hs
  have hlength : s.spelling.toList.length - 1 = tail.length := by
    rw [htext, List.length_cons, Nat.add_sub_cancel]
  have hlexeme : lexeme c (tail ++ cs) = ⟨.symbol s, tail, cs⟩ := by
    rw [lexeme, if_neg (by simp [hstart]), if_neg (by simp [hdigit]), if_neg hquote, lexSign,
      ← List.cons_append, ← htext, hscan]
    simp only [hlength, List.take_left', List.drop_left']
  rw [htext, List.cons_append, kinds_cons hblank, hlexeme]
  -- Only the sign `/` begins with the character that a comment begins with.
  rintro rfl
  have honly : ∀ s ∈ Symbol.signs, s.spelling.toList.head? = some '/' → s = .slash := by decide
  have hslash := honly s hs (by rw [htext]; rfl)
  subst hslash
  cases htext
  intro hcomment
  exact (h '/' hcomment).2 ⟨rfl, rfl⟩

/-- A sign that no longer one begins with needs nothing of the text behind it. -/
theorem kinds_closed {s : Symbol} (hs : s ∈ Symbol.closed) (cs : List Char) :
    kinds (s.spelling.toList ++ cs) = .symbol s :: kinds cs :=
  kinds_sign (Symbol.mem_signs_of_closed hs) (Symbol.endsBefore_of_closed hs cs)

/-! ### Words -/

/-- The text behind a word does not make it a longer one. -/
def Apart (cs : List Char) : Prop := ∀ c ∈ cs.head?, isNamePart c = false

theorem apart_cons {c : Char} (h : isNamePart c = false) (cs : List Char) : Apart (c :: cs) := by
  rintro d hd
  cases hd
  exact h

theorem apart_nil : Apart [] := by
  intro c hc
  cases hc

theorem takeWhile_append_apart {word : List Char} (hword : ∀ c ∈ word, isNamePart c = true)
    {cs : List Char} (h : Apart cs) :
    (word ++ cs).takeWhile isNamePart = word ∧ (word ++ cs).dropWhile isNamePart = cs := by
  rw [List.takeWhile_append_of_pos hword, List.dropWhile_append_of_pos hword]
  cases cs with
  | nil => simp
  | cons c cs => simp [h c rfl]

/-- A word begins no other kind of token. -/
theorem kinds_word {c : Char} (hc : isNameStart c = true) {tail : List Char}
    (htail : ∀ d ∈ tail, isNamePart d = true) {cs : List Char} (h : Apart cs) :
    kinds (c :: tail ++ cs) = .ofWord (String.ofList (c :: tail)) :: kinds cs := by
  have hblank : isBlank c = false := by
    rw [Bool.eq_false_iff]
    intro hb
    simp only [isBlank, Bool.or_eq_true, beq_iff_eq] at hb
    rcases hb with ((rfl | rfl) | rfl) | rfl <;> cases hc
  have hslash : c ≠ '/' := by
    rintro rfl
    cases hc
  obtain ⟨htake, hdrop⟩ := takeWhile_append_apart htail h
  rw [List.cons_append, kinds_cons hblank (fun hs => absurd hs hslash), lexeme, if_pos hc, lexWord,
    htake, hdrop]

/-- **A keyword** is the first token of a text that begins with it. -/
theorem kinds_keyword {s : Symbol} (hs : s ∈ Symbol.keywords) {cs : List Char} (h : Apart cs) :
    kinds (s.spelling.toList ++ cs) = .symbol s :: kinds cs := by
  have hall : ∀ s ∈ Symbol.keywords, s.spelling.toList.head?.all isNameStart = true ∧
      s.spelling.toList.tail.all isNamePart = true := by decide
  obtain ⟨hhead, htail⟩ := hall s hs
  obtain ⟨c, tail, htext⟩ := List.exists_cons_of_ne_nil s.spelling_ne_empty
  rw [htext, List.head?_cons, Option.all_some] at hhead
  rw [htext, List.tail_cons, List.all_eq_true] at htail
  rw [htext, kinds_word hhead htail h, ← htext, String.ofList_toList, Kind.ofWord,
    Symbol.ofWord?_spelling hs]

structure IsName (text : String) : Prop where
  word : ∃ c tail, text.toList = c :: tail ∧ isNameStart c = true ∧ ∀ d ∈ tail, isNamePart d = true
  free : Symbol.ofWord? text = none

theorem isName_iff {text : String} : IsName text ↔
    text.toList ≠ [] ∧ text.toList.head?.all isNameStart = true ∧
      text.toList.tail.all isNamePart = true ∧ Symbol.ofWord? text = none := by
  constructor
  · rintro ⟨⟨c, tail, htext, hc, htail⟩, hfree⟩
    rw [htext, List.all_eq_true]
    exact ⟨List.cons_ne_nil c tail, hc, htail, hfree⟩
  · rintro ⟨hne, hhead, htail, hfree⟩
    obtain ⟨c, tail, htext⟩ := List.exists_cons_of_ne_nil hne
    rw [htext] at hhead htail
    exact ⟨⟨c, tail, htext, hhead, List.all_eq_true.mp htail⟩, hfree⟩

instance (text : String) : Decidable (IsName text) := decidable_of_iff _ isName_iff.symm

/-- **A name** is the first token of a text that begins with it. -/
theorem kinds_name {text : String} (ht : IsName text) {cs : List Char} (h : Apart cs) :
    kinds (text.toList ++ cs) = .name text :: kinds cs := by
  obtain ⟨c, tail, htext, hc, htail⟩ := ht.word
  rw [htext, kinds_word hc htail h, ← htext, String.ofList_toList, Kind.ofWord, ht.free]

/-! ### Numbers -/

theorem toNat_of_isDigit {c : Char} (h : c.isDigit = true) : 48 ≤ c.toNat ∧ c.toNat ≤ 57 := by
  simp only [Char.isDigit, Bool.and_eq_true, decide_eq_true_eq] at h
  exact ⟨UInt32.le_iff_toNat_le.mp h.1, UInt32.le_iff_toNat_le.mp h.2⟩

theorem isNamePart_of_isDigit {c : Char} (h : c.isDigit = true) : isNamePart c = true := by
  have hc := toNat_of_isDigit h
  rw [isNamePart, Unicode.isNumeric_of_ascii (by omega), h, Bool.or_true, Bool.true_or]

theorem not_isNameStart_of_isDigit {c : Char} (h : c.isDigit = true) : isNameStart c = false := by
  have hall : ∀ i < 10, isNameStart (Char.ofNat (48 + i)) = false := by decide
  obtain ⟨hlow, hhigh⟩ := toNat_of_isDigit h
  have hc : Char.ofNat (48 + (c.toNat - 48)) = c := by
    rw [Nat.add_sub_cancel' hlow, Char.ofNat_toNat]
  rw [← hc]
  exact hall _ (by omega)

/-- The text behind a number does not make it a longer one. -/
def EndsNumber (cs : List Char) : Prop := Apart cs ∧ cs.head? ≠ some '.'

theorem EndsNumber.not_isDigit {cs : List Char} (h : EndsNumber cs) :
    ∀ c ∈ cs.head?, c.isDigit = false := by
  intro c hc
  rw [Bool.eq_false_iff]
  intro hd
  have hpart := h.1 c hc
  rw [isNamePart_of_isDigit hd] at hpart
  cases hpart

/-- An exponent begins with a letter. -/
theorem EndsNumber.splitExponent {cs : List Char} (h : EndsNumber cs) :
    splitExponent cs = ([], cs) := by
  cases cs with
  | nil => rfl
  | cons e cs =>
    rw [Token.splitExponent]
    have he : ¬ (e = 'e' ∨ e = 'E') := by
      rintro (rfl | rfl) <;> exact absurd (h.1 _ rfl) (by decide)
    simp only [he, false_and, if_false]

/-- An exponent is read to its end. -/
theorem splitExponent_append_exponent {exponent : List Char} {value : Int}
    (he : Decimal.IsExponent exponent value) {cs : List Char} (hcs : EndsNumber cs) :
    splitExponent (exponent ++ cs) = (exponent, cs) := by
  have hsome {e : Char} {digits : List Char} (sign : List Char) (he : e = 'e' ∨ e = 'E')
      (hne : digits ≠ []) (hdigits : ∀ c ∈ digits, c.isDigit = true)
      (hsign : splitSign (sign ++ (digits ++ cs)) = (sign, digits ++ cs)) :
      splitExponent (e :: (sign ++ digits) ++ cs) = (e :: (sign ++ digits), cs) := by
    obtain ⟨htake, hdrop⟩ := Decimal.takeWhile_append_digits hdigits hcs.not_isDigit
    obtain ⟨d, digits', rfl⟩ := List.exists_cons_of_ne_nil hne
    have hd : ((d :: digits' ++ cs).head?.any Char.isDigit) = true := hdigits d List.mem_cons_self
    rw [List.cons_append, List.append_assoc, splitExponent, hsign]
    dsimp only
    rw [if_pos ⟨he, hd⟩, htake, hdrop]
    rfl
  cases he with
  | none => exact hcs.splitExponent
  | unsigned he hne hdigits =>
    refine hsome [] he hne hdigits ?_
    obtain ⟨d, digits, rfl⟩ := List.exists_cons_of_ne_nil hne
    have hd := hdigits d List.mem_cons_self
    rw [List.nil_append, List.cons_append, splitSign.eq_def]
    split
    · rename_i heq
      cases heq
      cases hd
    · rename_i heq
      cases heq
      cases hd
    · rfl
  | plus he hne hdigits => exact hsome ['+'] he hne hdigits rfl
  | minus he hne hdigits => exact hsome ['-'] he hne hdigits rfl

theorem splitFraction_of_head {cs : List Char} (h : cs.head? ≠ some '.') :
    splitFraction cs = ([], cs) := by
  rw [splitFraction.eq_def]
  split
  · exact absurd rfl h
  · rfl

/-- Digits, a point among them and an exponent behind them, are read to their end. -/
theorem splitNumber_pointed {c : Char} {whole fraction exponent : List Char} {value : Int}
    (h : Decimal.Pointed (c :: whole) fraction) (he : Decimal.IsExponent exponent value)
    {cs : List Char} (hcs : EndsNumber cs) :
    ∃ tail, Decimal.pointed (c :: whole) fraction ++ exponent = c :: tail ∧
      splitNumber (tail ++ cs) = (tail, cs) := by
  have hw : ∀ d ∈ whole, d.isDigit = true := fun d hd => h.whole d (List.mem_cons_of_mem c hd)
  have hexponent := splitExponent_append_exponent he hcs
  -- What comes behind the digits is neither one of them nor a point.
  have hbehind : (∀ c ∈ (exponent ++ cs).head?, c.isDigit = false) ∧
      (exponent ++ cs).head? ≠ some '.' := by
    cases exponent with
    | nil => exact ⟨hcs.not_isDigit, hcs.2⟩
    | cons e exponent =>
      have hhead := he.head e rfl
      refine ⟨fun c hc => ?_, fun hpoint => hhead.2 (Option.some.inj hpoint)⟩
      cases hc
      exact hhead.1
  by_cases hnil : fraction = []
  · subst hnil
    obtain ⟨htake, hdrop⟩ := Decimal.takeWhile_append_digits hw hbehind.1
    refine ⟨whole ++ exponent, rfl, ?_⟩
    rw [List.append_assoc, splitNumber, htake, hdrop, splitFraction_of_head hbehind.2]
    simp only [hexponent, List.append_nil]
  · obtain ⟨d, ds, rfl⟩ := List.exists_cons_of_ne_nil hnil
    have hpoint : ∀ c ∈ ('.' :: (d :: ds ++ (exponent ++ cs))).head?, c.isDigit = false := by
      rintro c hc
      cases hc
      rfl
    obtain ⟨htake, hdrop⟩ := Decimal.takeWhile_append_digits hw hpoint
    obtain ⟨hftake, hfdrop⟩ := Decimal.takeWhile_append_digits h.fraction hbehind.1
    have hfraction : splitFraction ('.' :: (d :: ds ++ (exponent ++ cs))) =
        ('.' :: d :: ds, exponent ++ cs) := by
      have hd : ((d :: ds ++ (exponent ++ cs)).head?.any Char.isDigit) = true :=
        h.fraction d List.mem_cons_self
      rw [splitFraction, if_pos hd, hftake, hfdrop]
    refine ⟨whole ++ '.' :: d :: ds ++ exponent, ?_, ?_⟩
    · rw [Decimal.pointed_of_ne_nil _ hnil]
      rfl
    · rw [List.append_assoc, List.append_assoc]
      show splitNumber (whole ++ '.' :: (d :: ds ++ (exponent ++ cs))) = _
      rw [splitNumber, htake, hdrop, hfraction]
      simp only [hexponent]

/-- **A number** is the first token of a text that begins with its digits. -/
theorem kinds_pointed {whole fraction exponent : List Char} {value : Int} {x : Float}
    (h : Decimal.Pointed whole fraction) (he : Decimal.IsExponent exponent value)
    (hx : Decimal.ofText? (Decimal.pointed whole fraction ++ exponent) = some x)
    {cs : List Char} (hcs : EndsNumber cs) :
    kinds (Decimal.pointed whole fraction ++ exponent ++ cs) = .number x :: kinds cs := by
  obtain ⟨c, whole, rfl⟩ := List.exists_cons_of_ne_nil h.whole_ne_nil
  obtain ⟨tail, htail, hsplit⟩ := splitNumber_pointed h he hcs
  have hc := h.whole c List.mem_cons_self
  have hblank : isBlank c = false := by
    rw [Bool.eq_false_iff]
    intro hb
    simp only [isBlank, Bool.or_eq_true, beq_iff_eq] at hb
    rcases hb with ((rfl | rfl) | rfl) | rfl <;> cases hc
  have hslash : c ≠ '/' := by
    rintro rfl
    cases hc
  rw [htail] at hx
  rw [htail, List.cons_append, kinds_cons hblank (fun hs => absurd hs hslash), lexeme,
    if_neg (by simp [not_isNameStart_of_isDigit hc]), if_pos hc, lexNumber, hsplit]
  simp only [Kind.ofNumeral, hx]

/-- A number that is finite and not negative is the first token of a text that begins with
it. -/
theorem kinds_plain {x : Float} (hx : Decimal.Plain x) {cs : List Char} (h : EndsNumber cs) :
    kinds ((Decimal.text x).toList ++ cs) = .number x :: kinds cs := by
  obtain ⟨whole, fraction, htext, hpointed, hread⟩ := Decimal.exists_pointed_text hx
  rw [← List.append_nil (Decimal.pointed whole fraction)] at htext hread
  rw [htext]
  exact kinds_pointed hpointed .none hread h

def unsignedKind (x : Float) : Kind :=
  if x.isFinite then .number x else .name (Decimal.text x)

/-- The tokens of a number: that of its sign, if it has one, and that of what is behind it. -/
def numberKinds (x : Float) : List Kind :=
  if Decimal.isSigned x then [.symbol .minus, unsignedKind (-x)] else [unsignedKind x]

theorem unsignedKind_of_plain {x : Float} (hx : Decimal.Plain x) : unsignedKind x = .number x := by
  rw [unsignedKind, if_pos hx.isFinite]

theorem numberKinds_of_plain {x : Float} (hx : Decimal.Plain x) : numberKinds x = [.number x] := by
  rw [numberKinds, hx.isSigned, if_neg Bool.false_ne_true, unsignedKind_of_plain hx]

/-- The words for numbers that are not finite are names. -/
theorem isName_text {x : Float} (hx : Decimal.isSigned x = false) (hfinite : x.isFinite = false) :
    IsName (Decimal.text x) := by
  have hwords : IsName "inf" ∧ IsName "NaN" := by decide
  rcases Decimal.text_of_not_isFinite hx hfinite with h | h
  · rw [h]
    exact hwords.1
  · rw [h]
    exact hwords.2

/-- A number without a sign begins with none. -/
theorem head_text {x : Float} (hx : Decimal.isSigned x = false) :
    ∃ c, (Decimal.text x).toList.head? = some c ∧ c ∉ Symbol.further := by
  by_cases hfinite : x.isFinite = true
  · have hplain := Decimal.plain_of_isFinite (Decimal.isSigned_eq_false_iff.mp hx) hfinite
    obtain ⟨whole, fraction, htext, hpointed, -⟩ := Decimal.exists_pointed_text hplain
    obtain ⟨c, whole, rfl⟩ := List.exists_cons_of_ne_nil hpointed.whole_ne_nil
    obtain ⟨tail, htail, -⟩ := splitNumber_pointed hpointed .none ⟨apart_nil, by simp⟩
    rw [List.append_nil] at htail
    have hc := hpointed.whole c List.mem_cons_self
    exact ⟨c, by rw [htext, htail, List.head?_cons], Symbol.notMem_further_of_isDigit hc⟩
  · rw [Bool.not_eq_true] at hfinite
    rcases Decimal.text_of_not_isFinite hx hfinite with h | h
    · exact ⟨'i', by rw [h]; rfl, by decide⟩
    · exact ⟨'N', by rw [h]; rfl, by decide⟩

theorem kinds_unsigned {x : Float} (hx : Decimal.isSigned x = false) {cs : List Char}
    (h : EndsNumber cs) : kinds ((Decimal.text x).toList ++ cs) = unsignedKind x :: kinds cs := by
  rw [unsignedKind]
  split
  · rename_i hfinite
    exact kinds_plain (Decimal.plain_of_isFinite (Decimal.isSigned_eq_false_iff.mp hx) hfinite) h
  · rename_i hfinite
    exact kinds_name (isName_text hx (Bool.not_eq_true _ ▸ hfinite)) h.1

/-- **A number**, negative or infinite or none at all, is the first token of a text that begins
with it, or the first two. -/
theorem kinds_number (x : Float) {cs : List Char} (h : EndsNumber cs) :
    kinds ((Decimal.text x).toList ++ cs) = numberKinds x ++ kinds cs := by
  rw [numberKinds]
  by_cases hx : Decimal.isSigned x = true
  · have hunsigned := Decimal.isSigned_neg hx
    obtain ⟨c, hhead, hc⟩ := head_text hunsigned
    obtain ⟨tail, htail⟩ := List.head?_eq_some_iff.mp hhead
    have hminus : Symbol.minus.EndsBefore ((Decimal.text (-x)).toList ++ cs) := by
      rw [htail, List.cons_append]
      exact Symbol.minus.endsBefore_cons hc _
    have hsign := kinds_sign (s := .minus) (by decide) hminus
    rw [if_pos hx, Decimal.text_of_isSigned hx]
    show kinds (Symbol.minus.spelling.toList ++ ((Decimal.text (-x)).toList ++ cs)) = _
    rw [hsign, kinds_unsigned hunsigned h]
    rfl
  · rw [if_neg hx, kinds_unsigned (Bool.not_eq_true _ ▸ hx) h]
    rfl

/-! ### Strings -/

/-- A character that a string may hold as it is, and that is shown as itself. -/
def IsPlainChar (c : Char) : Prop :=
  0x20 ≤ c.toNat ∧ c.toNat < 0x7F ∧ c ≠ '"' ∧ c ≠ '\\'

instance (c : Char) : Decidable (IsPlainChar c) := inferInstanceAs (Decidable (_ ∧ _ ∧ _ ∧ _))

theorem IsPlainChar.escape {c : Char} (h : IsPlainChar c) : Text.escape c = [c] :=
  Text.escape_of_plain h.1 h.2.1 h.2.2.1 h.2.2.2

/-- The hexadecimal digits of a code point are such characters. -/
theorem isPlainChar_of_mem_toDigits {n : Nat} {c : Char} (h : c ∈ Nat.toDigits 16 n) :
    IsPlainChar c := by
  have hdigit : ∀ d < 16, IsPlainChar (Nat.digitChar d) := by decide
  induction n using Nat.strongRecOn with
  | ind n ih =>
    rw [Nat.toDigits_eq_if (by omega)] at h
    by_cases hn : n < 16
    · rw [if_pos hn, List.mem_singleton] at h
      rw [h]
      exact hdigit n hn
    · rw [if_neg hn, List.mem_append, List.mem_singleton] at h
      rcases h with h | rfl
      · exact ih (n / 16) (by omega) h
      · exact hdigit (n % 16) (by omega)

/-- **The two ways in which a character is shown**: as itself, or behind a backslash. -/
theorem escape_cases (c : Char) : Text.escape c = [c] ∨
    ∃ d tail, Text.escape c = '\\' :: d :: tail ∧ Text.ReadsBack (unescape d) ∧
      ∀ e ∈ tail, IsPlainChar e := by
  rw [Text.escape]
  split
  · exact .inr ⟨'0', [], rfl, by decide, by simp⟩
  split
  · exact .inr ⟨'t', [], rfl, by decide, by simp⟩
  split
  · exact .inr ⟨'r', [], rfl, by decide, by simp⟩
  split
  · exact .inr ⟨'n', [], rfl, by decide, by simp⟩
  split
  · exact .inr ⟨'\\', [], rfl, by decide, by simp⟩
  split
  · exact .inr ⟨'"', [], rfl, by decide, by simp⟩
  split
  · exact .inl rfl
  · refine .inr ⟨'u', _, rfl, by decide, fun e he => ?_⟩
    rcases List.mem_cons.mp he with rfl | he
    · decide
    rcases List.mem_append.mp he with he | he
    · exact isPlainChar_of_mem_toDigits he
    · rw [List.mem_singleton.mp he]
      decide

/-- A character that a string neither goes on nor ends with stands for itself. -/
theorem splitString_other {c : Char} (hquote : c ≠ '"') (hbackslash : c ≠ '\\')
    (hline : c ≠ '\n') (cs : List Char) :
    splitString (c :: cs) = ((splitString cs).1.map (c :: ·), c :: (splitString cs).2.1,
      (splitString cs).2.2) := by
  rw [splitString.eq_def]
  split
  · rename_i heq
    cases heq
  · rename_i heq
    cases heq
    exact absurd rfl hquote
  · rename_i heq
    cases heq
    exact absurd rfl hbackslash
  · rename_i heq
    cases heq
    exact absurd rfl hbackslash
  · rename_i heq
    cases heq
    rw [if_neg hline]

/-- So does a character that is shown as itself. -/
theorem splitString_cons {c : Char} (hc : Text.escape c = [c]) (cs : List Char) :
    (splitString (c :: cs)).1 = (splitString cs).1.map (c :: ·) ∧
      (splitString (c :: cs)).2.2 = (splitString cs).2.2 := by
  have hquote : c ≠ '"' := by
    rintro rfl
    cases hc
  have hbackslash : c ≠ '\\' := by
    rintro rfl
    cases hc
  have hline : c ≠ '\n' := by
    rintro rfl
    cases hc
  rw [splitString_other hquote hbackslash hline]
  exact ⟨rfl, rfl⟩

theorem splitString_plain {tail : List Char} (h : ∀ e ∈ tail, IsPlainChar e) (cs : List Char) :
    (splitString (tail ++ cs)).1 = (splitString cs).1.map (tail ++ ·) ∧
      (splitString (tail ++ cs)).2.2 = (splitString cs).2.2 := by
  induction tail with
  | nil => simp
  | cons e tail ih =>
    obtain ⟨hvalue, hrest⟩ := ih fun d hd => h d (List.mem_cons_of_mem e hd)
    obtain ⟨hfirst, hbehind⟩ := splitString_cons (h e List.mem_cons_self).escape (tail ++ cs)
    rw [List.cons_append, hfirst, hbehind, hvalue, hrest, Option.map_map]
    exact ⟨rfl, rfl⟩

/-- What a character of a string is read as once it was shown.  A backslash takes only the
character behind it, so the rest of a code point is read as it stands. -/
def readBack (c : Char) : List Char :=
  match Text.escape c with
  | '\\' :: d :: tail => unescape d :: tail
  | shown => shown

theorem readBack_of_escape {c : Char} (h : Text.escape c = [c]) : readBack c = [c] := by
  rw [readBack, h]
  split
  · rename_i heq
    cases heq
  · rfl

theorem readBack_of_backslash {c d : Char} {tail : List Char}
    (h : Text.escape c = '\\' :: d :: tail) : readBack c = unescape d :: tail := by
  simp only [readBack, h]

theorem readBack_of_readsBack {c : Char} (h : Text.ReadsBack c) : readBack c = [c] := by
  rcases h with h | rfl | rfl | rfl | rfl
  · exact readBack_of_escape h
  all_goals rfl

/-- What is read as part of a string comes back from then on. -/
theorem readsBack_of_mem_readBack {c d : Char} (h : d ∈ readBack c) : Text.ReadsBack d := by
  rcases escape_cases c with hc | ⟨e, tail, hc, he, htail⟩
  · rw [readBack_of_escape hc, List.mem_singleton] at h
    exact .inl (h ▸ hc)
  · rw [readBack_of_backslash hc, List.mem_cons] at h
    rcases h with rfl | h
    · exact he
    · exact .inl (htail d h).escape

theorem splitString_escape (c : Char) (cs : List Char) :
    (splitString (Text.escape c ++ cs)).1 = (splitString cs).1.map (readBack c ++ ·) ∧
      (splitString (Text.escape c ++ cs)).2.2 = (splitString cs).2.2 := by
  rcases escape_cases c with hc | ⟨d, tail, hc, -, htail⟩
  · rw [readBack_of_escape hc, hc]
    exact splitString_cons hc cs
  · obtain ⟨hvalue, hrest⟩ := splitString_plain htail cs
    have hsplit : splitString ('\\' :: d :: (tail ++ cs)) =
        ((splitString (tail ++ cs)).1.map (unescape d :: ·),
          '\\' :: d :: (splitString (tail ++ cs)).2.1, (splitString (tail ++ cs)).2.2) := rfl
    rw [readBack_of_backslash hc, hc, List.cons_append, List.cons_append, hsplit, hvalue, hrest,
      Option.map_map]
    exact ⟨rfl, rfl⟩

/-- **A string between quotes is read to its closing quote**, whatever it holds. -/
theorem splitString_quoted (value cs : List Char) :
    (splitString (value.flatMap Text.escape ++ '"' :: cs)).1 = some (value.flatMap readBack) ∧
      (splitString (value.flatMap Text.escape ++ '"' :: cs)).2.2 = cs := by
  induction value with
  | nil => exact ⟨rfl, rfl⟩
  | cons c value ih =>
    obtain ⟨hvalue, hrest⟩ := ih
    obtain ⟨hfirst, hbehind⟩ := splitString_escape c (value.flatMap Text.escape ++ '"' :: cs)
    rw [List.flatMap_cons, List.append_assoc, hfirst, hbehind, hvalue, hrest]
    exact ⟨rfl, rfl⟩

def asRead (value : String) : String := String.ofList (value.toList.flatMap readBack)

theorem readsBack_asRead (value : String) : ∀ c ∈ (asRead value).toList, Text.ReadsBack c := by
  intro c hc
  rw [asRead, String.toList_ofList, List.mem_flatMap] at hc
  obtain ⟨d, -, hd⟩ := hc
  exact readsBack_of_mem_readBack hd

/-- **A string is read as itself** if all its characters come back. -/
theorem asRead_eq_self {value : String} (h : ∀ c ∈ value.toList, Text.ReadsBack c) :
    asRead value = value := by
  have hall : ∀ cs : List Char, (∀ c ∈ cs, Text.ReadsBack c) → cs.flatMap readBack = cs := by
    intro cs hcs
    induction cs with
    | nil => rfl
    | cons c cs ih =>
      rw [List.flatMap_cons, readBack_of_readsBack (hcs c List.mem_cons_self),
        ih fun d hd => hcs d (List.mem_cons_of_mem c hd)]
      rfl
  rw [asRead, hall value.toList h, String.ofList_toList]

/-- **A string** is the first token of a text that begins with it. -/
theorem kinds_string (value : String) (cs : List Char) :
    kinds ((Text.quote value).toList ++ cs) = .string (asRead value) :: kinds cs := by
  obtain ⟨hvalue, hrest⟩ := splitString_quoted value.toList cs
  have htext : (Text.quote value).toList ++ cs =
      '"' :: (value.toList.flatMap Text.escape ++ '"' :: cs) := by
    rw [Text.quote, String.toList_ofList]
    simp
  rw [htext, kinds_cons rfl (fun hs => absurd hs (by decide))]
  show Kind.ofString (splitString _).1 :: kinds (splitString _).2.2 = _
  rw [hvalue, hrest, Kind.ofString, asRead]

end Token

end TypedImp
