import TypedImp.Decimal.Binary

/-!
# The fewest digits that read back

A positive float is written as `digits * 10 ^ exponent` with as few digits as
will still be read as the same float, and among those as the number nearest to
it.  The search walks down the powers of ten.  On the grid of the multiples of
one power it looks only at the two neighbours of the value: if any point of a
grid reads back, so does one of these two.  The first grid with a hit is the
coarsest one, so its digits are the fewest and the last of them is not zero.

Two hits can be equally far away.  Which of them is taken is a matter of the
format that is written, so it is a parameter.
-/

namespace TypedImp.Decimal

/-- Which of two equally near numbers is written. -/
inductive Tie where
  | up
  | even
deriving DecidableEq, Repr

/-- The number `digits * 10 ^ exponent`. -/
structure Scientific where
  digits : Nat
  exponent : Int
deriving DecidableEq, Repr

namespace Reading

/-- The factors that turn `n * 2 ^ e` into the fraction `n * a / b` of units of `10 ^ k`. -/
def scale (e k : Int) : Nat × Nat :=
  (Nat.pow 2 e.toNat * Nat.pow 10 (-k).toNat, Nat.pow 2 (-e).toNat * Nat.pow 10 k.toNat)

/-- Whether the `d`-th multiple of `10 ^ k` reads back. -/
def holds (r : Reading) (k : Int) (d : Nat) : Bool :=
  let (a, b) := scale r.exponent k
  if r.closed then r.low * a ≤ d * b && d * b ≤ r.high * a
  else r.low * a < d * b && d * b < r.high * a

/-- The multiple of `10 ^ k` nearest to the value among the ones that read back. -/
def nearest? (r : Reading) (tie : Tie) (k : Int) : Option Nat :=
  let (a, b) := scale r.exponent k
  let below := r.value * a / b
  match r.holds k below, r.holds k (below + 1) with
  | false, false => none
  | true, false => some below
  | false, true => some (below + 1)
  | true, true =>
    let twice := 2 * (r.value * a % b)
    if twice < b then some below
    else if b < twice then some (below + 1)
    else if tie = .up || below % 2 == 1 then some (below + 1)
    else some below

/-- The first hit on the grids of `10 ^ k`, `10 ^ (k - 1)` and so on, `fuel` of them. -/
def search (r : Reading) (tie : Tie) : Nat → Int → Scientific
  | 0, k => let (a, b) := scale r.exponent k; ⟨r.value * a / b, k⟩
  | fuel + 1, k =>
    match r.nearest? tie k with
    | some d => ⟨d, k⟩
    | none => search r tie fuel (k - 1)

/-- An exponent `k` with the value below `10 ^ k`. -/
def top (r : Reading) : Int :=
  ((r.value.log2 : Int) + 1 + r.exponent) * 30103 / 100000 + 2

end Reading

/-- The shortest form of a float.  Seventeen digits always suffice, and the search
starts at most three powers of ten above the first of them. -/
def Magnitude.shortest (m : Magnitude) (tie : Tie) : Scientific :=
  if m.mantissa = 0 then ⟨0, 0⟩ else m.reading.search tie 21 m.reading.top

end TypedImp.Decimal
