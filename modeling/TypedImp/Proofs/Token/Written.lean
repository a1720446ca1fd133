import TypedImp.Proofs.Token.Alone
import TypedImp.Proofs.Token.Source

/-!
# Tokens as they are written

`IsWritten k text` says that the token `k` can be written as `text`: a symbol as it is spelled, a
name as it is, a number as any numeral that is read as it, and a string between quotes, with a
backslash in front of those characters that would end it.  Written one after the other, with
blanks between them, tokens make a text (`IsText`).  **`ofSource_of_isText`**: the tokens of this
text are the ones that were written.

That a token ends where it was written to end is known for each sort of token on its own, as long
as the text behind does not make it a longer one.  No token goes on with a blank, so one blank
is enough, whatever comes behind that.
-/

namespace TypedImp.Token

/-! ### Writing -/

def writeChar (c : Char) : List Char :=
  if c = '\\' then ['\\', '\\']
  else if c = '"' then ['\\', '"']
  else if c = '\n' then ['\\', 'n']
  else [c]

/-- **A token can be written like this.** -/
inductive IsWritten : Kind → List Char → Prop where
  | symbol (s : Symbol) : IsWritten (.symbol s) s.spelling.toList
  | name {text : String} (h : IsName text) : IsWritten (.name text) text.toList
  | number {whole fraction exponent : List Char} {value : Int} {x : Float}
    (h : Decimal.Pointed whole fraction) (he : Decimal.IsExponent exponent value)
    (hx : Decimal.ofText? (Decimal.pointed whole fraction ++ exponent) = some x) :
    IsWritten (.number x) (Decimal.pointed whole fraction ++ exponent)
  | string (value : String) :
    IsWritten (.string value) ('"' :: (value.toList.flatMap writeChar ++ ['"']))

/-- What stands between two tokens that are written: blanks and comments, a blank first. -/
inductive IsSeparator : List Char → Prop where
  | of {c : Char} {blanks : List Char} (hc : isBlank c = true) (h : Blanks blanks) :
    IsSeparator (c :: blanks)

/-- **A text of tokens**, with a separator between any two. -/
inductive IsText : List Kind → List Char → Prop where
  | nil : IsText [] []
  | last {k : Kind} {text : List Char} (h : IsWritten k text) : IsText [k] text
  | cons {k : Kind} {ks : List Kind} {text separator others : List Char} (h : IsWritten k text)
    (hseparator : IsSeparator separator) (hothers : IsText ks others) :
    IsText (k :: ks) (text ++ (separator ++ others))

/-! ### Where a token ends -/

def EndsToken (cs : List Char) : Prop := ∀ c ∈ cs.head?, isBlank c = true

theorem eq_of_isBlank {c : Char} (h : isBlank c = true) :
    c = ' ' ∨ c = '\t' ∨ c = '\r' ∨ c = '\n' := by
  simpa [isBlank, or_assoc] using h

theorem EndsToken.apart {cs : List Char} (h : EndsToken cs) : Apart cs := by
  intro c hc
  rcases eq_of_isBlank (h c hc) with rfl | rfl | rfl | rfl <;> decide

theorem EndsToken.endsNumber {cs : List Char} (h : EndsToken cs) : EndsNumber cs := by
  refine ⟨h.apart, fun hc => ?_⟩
  exact absurd (h '.' hc) (by decide)

theorem EndsToken.endsBefore {cs : List Char} (h : EndsToken cs) (s : Symbol) :
    s.EndsBefore cs := by
  cases cs with
  | nil =>
    intro c hc
    cases hc
  | cons c cs =>
    refine s.endsBefore_cons ?_ cs
    rcases eq_of_isBlank (h c rfl) with rfl | rfl | rfl | rfl <;> decide

/-- A written character is read as the character. -/
theorem splitString_writeChar (c : Char) (cs : List Char) :
    (splitString (writeChar c ++ cs)).1 = (splitString cs).1.map (c :: ·) ∧
      (splitString (writeChar c ++ cs)).2.2 = (splitString cs).2.2 := by
  rw [writeChar]
  split
  · rename_i hc
    rw [hc]
    exact ⟨rfl, rfl⟩
  split
  · rename_i hc
    rw [hc]
    exact ⟨rfl, rfl⟩
  split
  · rename_i hc
    rw [hc]
    exact ⟨rfl, rfl⟩
  · rename_i hbackslash hquote hline
    rw [List.singleton_append, splitString_other hquote hbackslash hline]
    exact ⟨rfl, rfl⟩

theorem splitString_written (value cs : List Char) :
    (splitString (value.flatMap writeChar ++ '"' :: cs)).1 = some value ∧
      (splitString (value.flatMap writeChar ++ '"' :: cs)).2.2 = cs := by
  induction value with
  | nil => exact ⟨rfl, rfl⟩
  | cons c value ih =>
    obtain ⟨hvalue, hrest⟩ := ih
    obtain ⟨hfirst, hbehind⟩ := splitString_writeChar c (value.flatMap writeChar ++ '"' :: cs)
    rw [List.flatMap_cons, List.append_assoc, hfirst, hbehind, hvalue, hrest]
    exact ⟨rfl, rfl⟩

/-- **A written token** is the first one of a text that begins with it. -/
theorem IsWritten.kinds_append {k : Kind} {text : List Char} (h : IsWritten k text)
    {cs : List Char} (hcs : EndsToken cs) : kinds (text ++ cs) = k :: kinds cs := by
  cases h with
  | symbol s =>
    rcases s.mem_keywords_or_signs with hs | hs
    · exact kinds_keyword hs hcs.apart
    · exact kinds_sign hs (hcs.endsBefore s)
  | name h => exact kinds_name h hcs.apart
  | number h he hx => exact kinds_pointed h he hx hcs.endsNumber
  | string value =>
    obtain ⟨hvalue, hrest⟩ := splitString_written value.toList cs
    rw [List.cons_append, List.append_assoc, kinds_cons rfl (fun hs => absurd hs (by decide))]
    show Kind.ofString (splitString _).1 :: kinds (splitString _).2.2 = _
    rw [List.singleton_append, hvalue, hrest, Kind.ofString, String.ofList_toList]

/-- **The tokens of a text of tokens** are those. -/
theorem IsText.kinds_eq {ks : List Kind} {text : List Char} (h : IsText ks text) :
    kinds text = ks ++ [.eof] := by
  induction h with
  | nil => exact kinds_nil
  | @last k text h =>
    have hnil : EndsToken [] := by
      intro c hc
      cases hc
    have hkinds := h.kinds_append hnil
    rwa [List.append_nil, kinds_nil] at hkinds
  | @cons k ks text separator others h hseparator hothers ih =>
    obtain ⟨hc, hblanks⟩ := hseparator
    rw [h.kinds_append (fun d hd => by cases hd; exact hc), List.cons_append, kinds_blank hc,
      hblanks.kinds_append, ih, List.cons_append]

/-! ### Numbers -/

/-- No digit begins an unknown token. -/
theorem isDigit_of_lexeme_unknown (c : Char) (cs : List Char) :
    ∀ d, (lexeme c cs).kind = .unknown d → d.isDigit = false := by
  intro d hd
  rw [lexeme] at hd
  split at hd
  · rw [lexWord, Kind.ofWord] at hd
    split at hd <;> cases hd
  split at hd
  · rename_i hc
    obtain ⟨x, hx⟩ := exists_lexNumber_kind hc cs
    rw [hx] at hd
    cases hd
  split at hd
  · rw [lexString] at hd
    simp only [Kind.ofString] at hd
    split at hd <;> cases hd
  · rename_i hdigit _
    rw [lexSign] at hd
    split at hd
    · cases hd
    · cases hd
      exact Bool.not_eq_true _ ▸ hdigit

/-- **Tokens are read as they were written.**  Every numeral has a value, so that no source has
an unknown token that begins with a digit. -/
theorem ofSource_of_isText :
    (∀ ks text, IsText ks text →
      (ofSource (String.ofList text)).map Token.kind = ks ++ [.eof]) ∧
    (∀ whole fraction exponent value, Decimal.Pointed whole fraction →
      Decimal.IsExponent exponent value →
        ∃ x, Decimal.ofText? (Decimal.pointed whole fraction ++ exponent) = some x) ∧
    ∀ source, ∀ t ∈ ofSource source, ∀ c, t.kind = .unknown c → c.isDigit = false := by
  refine ⟨fun ks text h => ?_, fun whole fraction exponent value h he => ?_, fun source t ht => ?_⟩
  · rw [ofSource, String.toList_ofList]
    exact h.kinds_eq
  · exact ⟨_, Decimal.ofText?_pointed h he⟩
  · exact forall_tokensFrom (P := fun k => ∀ c, k = .unknown c → c.isDigit = false) (by simp)
      isDigit_of_lexeme_unknown .start source.toList t ht

/-- A name, a comment, a sign, a numeral with an exponent and a string. -/
theorem ofSource_of_isText_power : ∃ text,
    IsText [.name "x", .symbol .starStar, .number (Decimal.nearestFloat 25 (-2)), .string "\n"]
      text ∧
    (ofSource (String.ofList text)).map Token.kind = [.name "x", .symbol .starStar,
      .number (Decimal.nearestFloat 25 (-2)), .string "\n", .eof] := by
  have hname : IsName "x" := by decide
  have hcomment : IsSeparator (' ' :: '/' :: '/' :: ("base".toList ++ '\n' :: [])) :=
    .of rfl (.comment (by decide) .nil)
  have hblank : IsSeparator [' '] := .of rfl .nil
  have hpointed : Decimal.Pointed ['2'] ['5'] := ⟨by simp, by simp, by simp⟩
  have hexponent : Decimal.IsExponent ['e', '-', '1'] (-1) :=
    .minus (.inl rfl) (List.cons_ne_nil '1' []) (by simp)
  have htext := IsText.cons (.name hname) hcomment (.cons (.symbol .starStar) hblank
    (.cons (.number hpointed hexponent (Decimal.ofText?_pointed hpointed hexponent)) hblank
      (.last (.string "\n"))))
  exact ⟨_, htext, ofSource_of_isText.1 _ _ htext⟩

end TypedImp.Token
