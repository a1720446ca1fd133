import TypedImp.Unicode.GraphemeExtend
import TypedImp.Unicode.Ignorable
import TypedImp.Unicode.Printable

/-!
# Quoted strings

A string is shown between double quotes.  The quote, the backslash and the four
control characters NUL, tab, carriage return and newline are written as a
backslash and a sign; every other character that would not be seen, or that
would melt into the one in front of it, is written as its code point in
hexadecimal digits between braces.  All else stands for itself.
-/

namespace TypedImp.Text

/-- A code point in hexadecimal digits, written `\u{…}`. -/
def codePoint (c : Char) : List Char :=
  '\\' :: 'u' :: '\x7b' :: Nat.toDigits 16 c.toNat ++ ['\x7d']

/-- Whether a character is seen, and seen apart from the one in front of it. -/
def isVisible (c : Char) : Bool :=
  Unicode.isPrintable c && !Unicode.isIgnorable c && !Unicode.isCombining c

/-- A character as it is written inside the quotes. -/
def escape (c : Char) : List Char :=
  if c = '\x00' then ['\\', '0']
  else if c = '\t' then ['\\', 't']
  else if c = '\r' then ['\\', 'r']
  else if c = '\n' then ['\\', 'n']
  else if c = '\\' then ['\\', '\\']
  else if c = '"' then ['\\', '"']
  else if isVisible c then [c]
  else codePoint c

/-- A string between quotes. -/
def quote (s : String) : String :=
  String.ofList ('"' :: s.toList.flatMap escape ++ ['"'])

/-- Below U+0080 a character is visible from the space up to the tilde. -/
theorem isVisible_of_ascii {c : Char} (h : c.toNat < 0x80) :
    isVisible c = (decide (0x20 ≤ c.toNat) && decide (c.toNat < 0x7F)) := by
  simp [isVisible, Unicode.isPrintable_of_ascii h, Unicode.isIgnorable_of_ascii h,
    Unicode.isCombining_of_ascii h]

/-- Visible characters below U+0080 other than the quote and the backslash stand for themselves. -/
theorem escape_of_plain {c : Char} (hLow : 0x20 ≤ c.toNat) (hHigh : c.toNat < 0x7F)
    (hQuote : c ≠ '"') (hBackslash : c ≠ '\\') : escape c = [c] := by
  have hne : ∀ d : Char, d.toNat < 0x20 → c ≠ d := by
    rintro d hd rfl; omega
  simp [escape, hne '\x00' (by decide), hne '\t' (by decide), hne '\r' (by decide),
    hne '\n' (by decide), hQuote, hBackslash, isVisible_of_ascii (Nat.lt_succ_of_lt hHigh),
    hLow, hHigh]

end TypedImp.Text
