import TypedImp.Decimal.Numeral
import TypedImp.Token.Basic
import TypedImp.Unicode.Alphabetic
import TypedImp.Unicode.Numeric

/-!
# From characters to tokens

`Token.ofSource` splits a source text into its tokens.  Between two tokens stand
blanks: spaces, tabs, carriage returns, newlines, and comments, which run from
`//` to the end of their line.  `splitBlank` cuts the blanks off the front of a
text and `lexeme` the token behind them.  Both lose nothing, as
`splitBlank_append` and `tail_append_rest` say: what they cut off and what they
leave, laid end to end, are the text they were given.  Positions are walked over
the same characters, so each token stands where its characters do.

A token is as long as it can be.  A name is a letter or `_` and all letters,
numbers and `_` behind it; a name that spells a keyword is that keyword.  A
number is digits, with a fraction and an exponent only where a digit follows the
point or the `e` and its sign.  A string ends at the next quote that no backslash
stands in front of, and never goes past the end of its line unless a backslash
carries it over.
-/

namespace TypedImp

namespace Token

/-! ### Blanks -/

def isBlank (c : Char) : Bool := c == ' ' || c == '\t' || c == '\r' || c == '\n'

mutual

/-- The blanks in front of a text, and the text behind them. -/
def splitBlank : List Char → List Char × List Char
  | [] => ([], [])
  | c :: cs =>
    if isBlank c then
      let (blank, rest) := splitBlank cs
      (c :: blank, rest)
    else if c = '/' ∧ cs.head? = some '/' then
      let (blank, rest) := splitComment cs
      (c :: blank, rest)
    else ([], c :: cs)

/-- The same within a comment, which ends with its line. -/
def splitComment : List Char → List Char × List Char
  | [] => ([], [])
  | c :: cs =>
    let (blank, rest) := if c = '\n' then splitBlank cs else splitComment cs
    (c :: blank, rest)

end

/-! ### Tokens -/

/-- The token at the front of a text: its kind, its characters after the first
one, and the text behind it. -/
structure Lexeme where
  kind : Kind
  tail : List Char
  rest : List Char

def isNameStart (c : Char) : Bool := Unicode.isAlphabetic c || c == '_'

def isNamePart (c : Char) : Bool := Unicode.isAlphabetic c || Unicode.isNumeric c || c == '_'

/-- A word is a keyword if it spells one and a name otherwise. -/
def Kind.ofWord (word : String) : Kind :=
  match Symbol.ofWord? word with
  | some keyword => .symbol keyword
  | none => .name word

def lexWord (c : Char) (cs : List Char) : Lexeme :=
  let tail := cs.takeWhile isNamePart
  ⟨.ofWord (String.ofList (c :: tail)), tail, cs.dropWhile isNamePart⟩

/-- The fraction in front of a text: a point and the digits behind it. -/
def splitFraction : List Char → List Char × List Char
  | '.' :: cs =>
    if (cs.head?.any Char.isDigit) then
      ('.' :: cs.takeWhile Char.isDigit, cs.dropWhile Char.isDigit)
    else ([], '.' :: cs)
  | cs => ([], cs)

/-- The sign in front of a text. -/
def splitSign : List Char → List Char × List Char
  | '+' :: cs => (['+'], cs)
  | '-' :: cs => (['-'], cs)
  | cs => ([], cs)

/-- The exponent in front of a text: an `e`, a sign perhaps, and digits. -/
def splitExponent : List Char → List Char × List Char
  | [] => ([], [])
  | e :: cs =>
    let (sign, digits) := splitSign cs
    if (e = 'e' ∨ e = 'E') ∧ digits.head?.any Char.isDigit then
      (e :: sign ++ digits.takeWhile Char.isDigit, digits.dropWhile Char.isDigit)
    else ([], e :: cs)

/-- The characters of a number after its first digit. -/
def splitNumber (cs : List Char) : List Char × List Char :=
  let (fraction, behindFraction) := splitFraction (cs.dropWhile Char.isDigit)
  let (exponent, rest) := splitExponent behindFraction
  (cs.takeWhile Char.isDigit ++ fraction ++ exponent, rest)

/-- A numeral stands for the float nearest to it. -/
def Kind.ofNumeral (c : Char) (tail : List Char) : Kind :=
  match Decimal.ofText? (c :: tail) with
  | some value => .number value
  | none => .unknown c

def lexNumber (c : Char) (cs : List Char) : Lexeme :=
  let (tail, rest) := splitNumber cs
  ⟨.ofNumeral c tail, tail, rest⟩

/-- The character that a backslash and the given one stand for. -/
def unescape (c : Char) : Char := if c = 'n' then '\n' else if c = 't' then '\t' else c

/-- The rest of a string, behind its opening quote: its value, if it is closed, its
characters, and the text behind them. -/
def splitString : List Char → Option (List Char) × List Char × List Char
  | [] => (none, [], [])
  | '"' :: cs => (some [], ['"'], cs)
  | ['\\'] => (none, ['\\'], [])
  | '\\' :: c :: cs =>
    let (value, tail, rest) := splitString cs
    (value.map (unescape c :: ·), '\\' :: c :: tail, rest)
  | c :: cs =>
    if c = '\n' then (none, [], c :: cs)
    else
      let (value, tail, rest) := splitString cs
      (value.map (c :: ·), c :: tail, rest)

/-- A string that is closed has a value. -/
def Kind.ofString : Option (List Char) → Kind
  | some value => .string (String.ofList value)
  | none => .unterminated

def lexString (cs : List Char) : Lexeme :=
  let (value, tail, rest) := splitString cs
  ⟨.ofString value, tail, rest⟩

def lexSign (c : Char) (cs : List Char) : Lexeme :=
  match Symbol.scan? (c :: cs) with
  | some s =>
    let further := s.spelling.toList.length - 1
    ⟨.symbol s, cs.take further, cs.drop further⟩
  | none => ⟨.unknown c, [], cs⟩

/-- The token that begins with the character `c` in front of `cs`. -/
def lexeme (c : Char) (cs : List Char) : Lexeme :=
  if isNameStart c then lexWord c cs
  else if c.isDigit then lexNumber c cs
  else if c = '"' then lexString cs
  else lexSign c cs

/-! ### Nothing is lost -/

mutual

theorem splitBlank_append : ∀ cs : List Char, (splitBlank cs).1 ++ (splitBlank cs).2 = cs
  | [] => rfl
  | c :: cs => by
    unfold splitBlank
    split
    · simp [splitBlank_append cs]
    · split
      · simp [splitComment_append cs]
      · rfl

theorem splitComment_append : ∀ cs : List Char, (splitComment cs).1 ++ (splitComment cs).2 = cs
  | [] => rfl
  | c :: cs => by
    unfold splitComment
    by_cases h : c = '\n'
    · simp [h, splitBlank_append cs]
    · simp [h, splitComment_append cs]

end

theorem splitFraction_append (cs : List Char) :
    (splitFraction cs).1 ++ (splitFraction cs).2 = cs := by
  unfold splitFraction
  split
  · split
    · simp [List.takeWhile_append_dropWhile]
    · rfl
  · rfl

theorem splitSign_append (cs : List Char) : (splitSign cs).1 ++ (splitSign cs).2 = cs := by
  unfold splitSign
  split <;> rfl

theorem splitExponent_append (cs : List Char) :
    (splitExponent cs).1 ++ (splitExponent cs).2 = cs := by
  cases cs with
  | nil => rfl
  | cons e cs =>
    have hSign := splitSign_append cs
    simp only [splitExponent]
    split
    · simpa [List.takeWhile_append_dropWhile] using hSign
    · rfl

theorem splitNumber_append (cs : List Char) : (splitNumber cs).1 ++ (splitNumber cs).2 = cs := by
  simp only [splitNumber, List.append_assoc]
  rw [splitExponent_append, splitFraction_append, List.takeWhile_append_dropWhile]

theorem splitString_append (cs : List Char) :
    (splitString cs).2.1 ++ (splitString cs).2.2 = cs := by
  fun_induction splitString cs <;> simp_all

theorem lexSign_append (c : Char) (cs : List Char) :
    (lexSign c cs).tail ++ (lexSign c cs).rest = cs := by
  unfold lexSign
  split
  · exact List.take_append_drop _ cs
  · rfl

/-- **A token and the text behind it are the whole text.** -/
theorem tail_append_rest (c : Char) (cs : List Char) :
    (lexeme c cs).tail ++ (lexeme c cs).rest = cs := by
  unfold lexeme
  split
  · exact List.takeWhile_append_dropWhile
  · split
    · exact splitNumber_append cs
    · split
      · exact splitString_append cs
      · exact lexSign_append c cs

theorem rest_length_le (c : Char) (cs : List Char) : (lexeme c cs).rest.length ≤ cs.length := by
  have h := congrArg List.length (tail_append_rest c cs)
  rw [List.length_append] at h
  omega

theorem splitBlank_length_le (cs : List Char) : (splitBlank cs).2.length ≤ cs.length := by
  have h := congrArg List.length (splitBlank_append cs)
  rw [List.length_append] at h
  omega

/-! ### The tokens of a source -/

/-- The tokens of a text that stands at the given place, up to the end of the input. -/
def tokensFrom (place : Position) (cs : List Char) : List Token :=
  let place := place.advance (splitBlank cs).1
  match _hRest : (splitBlank cs).2 with
  | [] => [⟨.eof, .between place place⟩]
  | c :: cs' =>
    let found := lexeme c cs'
    let behind := (place.next c).advance found.tail
    ⟨found.kind, .between place behind⟩ :: tokensFrom behind found.rest
termination_by cs.length
decreasing_by
  have h₁ := rest_length_le c cs'
  have h₂ := splitBlank_length_le cs
  rw [_hRest, List.length_cons] at h₂
  omega

/-- The tokens of a source text.  The last one is the end of the input. -/
def ofSource (source : String) : List Token := tokensFrom .start source.toList

end Token

end TypedImp
