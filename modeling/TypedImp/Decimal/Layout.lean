import TypedImp.Decimal.Shortest

/-!
# Laying out decimal digits

The digits of a number are written plainly, `0.001` or `1200`, or with an
exponent, `1.2e+30`.  A `Layout` says which, for the decimal exponent of the
number, that is, the power of ten of its first digit; whether a whole number
ends in `.0`; and which of two equally near numbers is meant.

There are two layouts.  `sourceLayout` is how the language itself shows numbers,
always plainly.  `dumpLayout` is that of a JSON document.
-/

namespace TypedImp.Decimal

/-- How the digits of a finite float are arranged. -/
structure Layout where
  tie : Tie
  /-- Whether a number with this power of ten at its first digit is written plainly. -/
  plain : Int → Bool
  /-- Whether a whole number that is written plainly ends in `.0`. -/
  point : Bool

/-- The digits of a natural number. -/
def digitsOf (n : Nat) : List Char := Nat.toDigits 10 n

/-- The digits with the point `exponent` places behind the last one. -/
def plainDigits (digits : List Char) (exponent : Int) (point : Bool) : List Char :=
  let places := digits.length + exponent
  if 0 ≤ exponent then
    digits ++ List.replicate exponent.toNat '0' ++ (if point then ['.', '0'] else [])
  else if 0 < places then
    digits.take places.toNat ++ '.' :: digits.drop places.toNat
  else '0' :: '.' :: List.replicate (-places).toNat '0' ++ digits

/-- One digit in front of the point, and the power of ten with its sign. -/
def exponentDigits (digits : List Char) (power : Int) : List Char :=
  let fraction := digits.drop 1
  digits.take 1 ++ (if fraction.isEmpty then [] else '.' :: fraction) ++
    'e' :: (if power < 0 then '-' else '+') :: digitsOf power.natAbs

/-- The digits of a magnitude, arranged as the layout says. -/
def Layout.magnitude (layout : Layout) (m : Magnitude) : List Char :=
  let shortest := m.shortest layout.tie
  let digits := digitsOf shortest.digits
  let power := digits.length + shortest.exponent - 1
  if layout.plain power then plainDigits digits shortest.exponent layout.point
  else exponentDigits digits power

/-- A finite float; a negative one, the negative zero too, has a minus sign. -/
def Layout.signed (layout : Layout) (negative : Bool) (m : Magnitude) : String :=
  String.ofList (if negative then '-' :: layout.magnitude m else layout.magnitude m)

/-- Numbers in the language: never an exponent, no `.0`, ties away from zero. -/
def sourceLayout : Layout := ⟨.up, fun _ => true, false⟩

/-- Numbers in a JSON document: plain from `0.00001` up to sixteen digits, with `.0`
on whole numbers, and an exponent otherwise. -/
def dumpLayout : Layout := ⟨.even, fun power => -5 ≤ power && power ≤ 15, true⟩

/-- A float as the language shows it. -/
def text (x : Float) : String :=
  match Binary.ofFloat x with
  | .nan => "NaN"
  | .infinite negative => if negative then "-inf" else "inf"
  | .finite negative m => sourceLayout.signed negative m

/-- A float as a JSON number; a float that is not finite has none. -/
def dumpText? (x : Float) : Option String :=
  match Binary.ofFloat x with
  | .finite negative m => some (dumpLayout.signed negative m)
  | _ => none

end TypedImp.Decimal
