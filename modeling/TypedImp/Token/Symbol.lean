/-!
# Words and signs of the language

A `Symbol` is a token with one spelling: a keyword, or a sign made of punctuation
characters.  `Symbol.ofWord?` finds the keyword spelled by a word, and
`Symbol.scan?` the sign at the head of a text.  Several signs begin alike, as
`*` and `**`; the longest one that fits is meant, so `Symbol.signs` lists them
with the longer ones in front.
-/

namespace TypedImp

/-- A keyword or a sign. -/
inductive Symbol where
  | letWord | constWord | fnWord | structWord | classWord | ifWord | elseWord | whileWord | forWord
  | inWord | returnWord | breakWord | continueWord | tryWord | catchWord | printWord | trueWord
  | falseWord
  | plus | plusPlus | minus | minusMinus | star | starStar | slash
  | assign | equal | notEqual | less | lessEqual | greater | greaterEqual
  | andAnd | orOr | bang | arrow | dot | dotDotDot | dotDotLess
  | leftParen | rightParen | leftBrace | rightBrace | leftBracket | rightBracket
  | comma | colon | semicolon
deriving DecidableEq, Repr

namespace Symbol

/-- How a symbol is written. -/
def spelling : Symbol → String
  | letWord => "let"
  | constWord => "const"
  | fnWord => "fn"
  | structWord => "struct"
  | classWord => "class"
  | ifWord => "if"
  | elseWord => "else"
  | whileWord => "while"
  | forWord => "for"
  | inWord => "in"
  | returnWord => "return"
  | breakWord => "break"
  | continueWord => "continue"
  | tryWord => "try"
  | catchWord => "catch"
  | printWord => "print"
  | trueWord => "true"
  | falseWord => "false"
  | plus => "+"
  | plusPlus => "++"
  | minus => "-"
  | minusMinus => "--"
  | star => "*"
  | starStar => "**"
  | slash => "/"
  | assign => "="
  | equal => "=="
  | notEqual => "!="
  | less => "<"
  | lessEqual => "<="
  | greater => ">"
  | greaterEqual => ">="
  | andAnd => "&&"
  | orOr => "||"
  | bang => "!"
  | arrow => "->"
  | dot => "."
  | dotDotDot => "..."
  | dotDotLess => "..<"
  | leftParen => "("
  | rightParen => ")"
  | leftBrace => "\x7b"
  | rightBrace => "\x7d"
  | leftBracket => "["
  | rightBracket => "]"
  | comma => ","
  | colon => ":"
  | semicolon => ";"

/-- The keywords. -/
def keywords : List Symbol :=
  [letWord, constWord, fnWord, structWord, classWord, ifWord, elseWord, whileWord, forWord, inWord,
    returnWord, breakWord, continueWord, tryWord, catchWord, printWord, trueWord, falseWord]

/-- The signs, the longer ones in front. -/
def signs : List Symbol :=
  [dotDotDot, dotDotLess,
    plusPlus, minusMinus, arrow, starStar, equal, notEqual, lessEqual, greaterEqual, andAnd, orOr,
    plus, minus, star, slash, assign, bang, less, greater, dot, leftParen, rightParen, leftBrace,
    rightBrace, leftBracket, rightBracket, comma, colon, semicolon]

/-- The keyword that a word spells. -/
def ofWord? (word : String) : Option Symbol := keywords.find? (·.spelling == word)

/-- The longest sign at the head of a text. -/
def scan? (text : List Char) : Option Symbol := signs.find? (·.spelling.toList.isPrefixOf text)

theorem mem_keywords_or_signs (s : Symbol) : s ∈ keywords ∨ s ∈ signs := by
  cases s <;> decide

theorem spelling_ne_empty (s : Symbol) : s.spelling.toList ≠ [] := by
  cases s <;> decide

theorem ofWord?_spelling {s : Symbol} (h : s ∈ keywords) : ofWord? s.spelling = some s := by
  revert s; decide

theorem scan?_spelling {s : Symbol} (h : s ∈ signs) : scan? s.spelling.toList = some s := by
  revert s; decide

theorem isPrefixOf_of_scan? {text : List Char} {s : Symbol} (h : scan? text = some s) :
    s.spelling.toList.isPrefixOf text = true := by
  unfold scan? at h
  have hFound := List.find?_some h
  exact hFound

end Symbol

end TypedImp
