/-!
# Reading numerals

`ofText?` reads a decimal numeral as the nearest float: an optional sign, digits
with an optional point, at least one digit on either side of it, and an optional
exponent; or, in any case, one of the words `inf`, `infinity` and `nan`.

The value of the digits is a whole number times a power of ten, which
`Float.ofScientific` rounds correctly.  Far outside the range of floats the
answer is known without that number, and is given directly: a numeral whose
first digit stands above `10 ^ 310` is infinite, one whose first digit stands
below `10 ^ -330` is zero.
-/

namespace TypedImp.Decimal

/-- The whole number that digits stand for. -/
def digitsValue (digits : List Char) : Nat :=
  digits.foldl (fun n c => 10 * n + (c.toNat - '0'.toNat)) 0

/-- The float nearest to `mantissa * 10 ^ exponent`. -/
def nearestFloat (mantissa : Nat) (exponent : Int) : Float :=
  if mantissa = 0 then 0
  else
    let power := (Nat.toDigits 10 mantissa).length + exponent
    if 310 < power then 1 / 0
    else if power < -330 then 0
    else if exponent < 0 then Float.ofScientific mantissa true exponent.natAbs
    else Float.ofScientific mantissa false exponent.natAbs

/-- An exponent part that takes up the whole text: its value, zero if there is none. -/
def exponentOf? : List Char → Option Int
  | [] => some 0
  | e :: rest =>
    if e = 'e' ∨ e = 'E' then
      let (negative, digits) := match rest with
        | '-' :: digits => (true, digits)
        | '+' :: digits => (false, digits)
        | digits => (false, digits)
      if digits.isEmpty || !digits.all Char.isDigit then none
      else some (if negative then -(digitsValue digits : Int) else digitsValue digits)
    else none

/-- A numeral without a sign. -/
def unsigned? (text : List Char) : Option Float :=
  let whole := text.takeWhile Char.isDigit
  let rest := text.dropWhile Char.isDigit
  let (fraction, rest) := match rest with
    | '.' :: rest => (rest.takeWhile Char.isDigit, rest.dropWhile Char.isDigit)
    | rest => ([], rest)
  if whole.isEmpty && fraction.isEmpty then none
  else (exponentOf? rest).map fun exponent =>
    nearestFloat (digitsValue (whole ++ fraction)) (exponent - fraction.length)

/-- One of the words for a float that is not finite. -/
def word? (text : List Char) : Option Float :=
  let lower := text.map Char.toLower
  if lower = "inf".toList ∨ lower = "infinity".toList then some (1 / 0)
  else if lower = "nan".toList then some (0 / 0)
  else none

/-- Reads a decimal numeral as the nearest float. -/
def ofText? (text : List Char) : Option Float :=
  let magnitude? (rest : List Char) := (unsigned? rest).or (word? rest)
  match text with
  | '-' :: rest => (magnitude? rest).map Float.neg
  | '+' :: rest => magnitude? rest
  | rest => magnitude? rest

end TypedImp.Decimal
