/-!
# The value of a float

A 64-bit float is a sign, eleven bits of exponent and fifty-two bits of
fraction.  `Binary.ofFloat` takes the bits apart: a float is not a number, or
infinite, or a sign and a whole number times a power of two.  Everything that
writes a float in digits starts from these whole numbers.

`Magnitude.reading` is the set of reals that read back as a given positive
float: those no further away than half the distance to its neighbours.  The ends
belong to it exactly when the mantissa is even, because a real half way between
two floats is read as the one with the even mantissa.
-/

namespace TypedImp.Decimal

/-- The number `mantissa * 2 ^ exponent`. -/
structure Magnitude where
  mantissa : Nat
  exponent : Int
deriving DecidableEq, Repr

/-- What a float stands for. -/
inductive Binary where
  | nan
  | infinite (negative : Bool)
  | finite (negative : Bool) (magnitude : Magnitude)
deriving DecidableEq, Repr

/-- The parts of a float: the sign bit, the exponent and the fraction. -/
def Binary.ofFloat (x : Float) : Binary :=
  let bits := x.toBits.toNat
  let negative := bits / Nat.pow 2 63 == 1
  let exponent : Nat := bits / Nat.pow 2 52 % Nat.pow 2 11
  let fraction : Nat := bits % Nat.pow 2 52
  if exponent = 2047 then
    if fraction = 0 then .infinite negative else .nan
  else if exponent = 0 then .finite negative ⟨fraction, -1074⟩
  else .finite negative ⟨Nat.pow 2 52 + fraction, (exponent : Int) - 1075⟩

/-- The reals between `low` and `high`, counted in units of `2 ^ exponent`, around `value`. -/
structure Reading where
  low : Nat
  value : Nat
  high : Nat
  exponent : Int
  /-- Whether the two ends belong to it. -/
  closed : Bool
deriving Repr

/-- The reals that read back as a positive float.  The neighbour below is only
half as far away where the exponent changes. -/
def Magnitude.reading (m : Magnitude) : Reading :=
  let value := 4 * m.mantissa
  let below := if m.mantissa = Nat.pow 2 52 ∧ -1074 < m.exponent then 1 else 2
  ⟨value - below, value, value + 2, m.exponent - 2, m.mantissa % 2 == 0⟩

end TypedImp.Decimal
