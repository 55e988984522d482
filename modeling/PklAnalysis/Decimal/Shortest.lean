import PklAnalysis.Decimal.Binary

/-!
# The shortest decimal of a double

The numbers that round to a given double form an interval; its ends belong to it when the mantissa
is even. Among the decimals in the interval the one with the fewest digits is taken, and of several
of that length the one nearest to the double.
-/

namespace PklAnalysis.Decimal

/-- Decimal digits `d₁ d₂ …` with the point before them and a power of ten, so
`0.d₁d₂… · 10 ^ point`. -/
structure Digits where
  digits : List Nat
  point : Int
  deriving Repr, DecidableEq, Inhabited

/-- The interval of the numbers that round to `m · 2 ^ e`. The gap below a power of two is half as
wide as the gap above it. -/
structure Rounding where
  low : Ratio
  high : Ratio
  closed : Bool
  deriving Repr, Inhabited

def Rounding.around (m : Nat) (e : Int) : Rounding :=
  let narrow := m == implicitBit && -1074 < e
  { low := .scaled (4 * m - (if narrow then 1 else 2)) (e - 2)
    high := .scaled (4 * m + 2) (e - 2)
    closed := m % 2 == 0 }

def Rounding.contains (r : Rounding) (x : Ratio) : Bool :=
  if r.closed then r.low.le x && x.le r.high else r.low.lt x && x.lt r.high

/-- The decimal digits of a natural number, least first, at most `n` of them. -/
def digitsUpTo : Nat → Nat → List Nat
  | 0, _ => []
  | n + 1, x => if x < 10 then [x] else x % 10 :: digitsUpTo n (x / 10)

/-- The decimal digits of a natural number, most significant first. -/
def digitsOf (x : Nat) : List Nat := (digitsUpTo (x + 1) x).reverse

/-- The least number of tenfold steps, at most `n`, that bring the fraction to one or more. -/
def stepsToOne : Nat → Ratio → Nat
  | 0, _ => 0
  | n + 1, a => if a.den ≤ a.num then 0 else stepsToOne n ⟨a.num * 10, a.den⟩ + 1

/-- The power of ten just above a positive number: `10 ^ (k - 1) ≤ a < 10 ^ k`. -/
def magnitude (a : Ratio) : Int :=
  if a.den ≤ a.num then Int.ofNat (digitsOf (a.num / a.den)).length
  else 1 - Int.ofNat (stepsToOne 400 a)

/-- The decimal with the unit `10 ^ p` that is nearest to `a` among those in the interval. -/
def nearestAt (a : Ratio) (r : Rounding) (p : Int) : Option Nat :=
  let below := a.floorAt p
  let above := below + 1
  let fits (c : Nat) := r.contains (.decimal c p)
  if fits below then
    if fits above && a.distance (.decimal above p) < a.distance (.decimal below p) then some above
    else some below
  else if fits above then some above
  else none

/-- Drop zeros at the end. -/
def trimZeros (ds : List Nat) : List Nat := (ds.reverse.dropWhile (· == 0)).reverse

/-- The shortest digits of `m · 2 ^ e`, with between `n` and 17 of them. -/
def shortestFrom (a : Ratio) (r : Rounding) (k : Int) : Nat → Nat → Digits
  | 0, _ => ⟨digitsOf (a.floorAt (k - 17)), k⟩
  | tries + 1, n =>
    match nearestAt a r (k - n) with
    | some c =>
      let ds := digitsOf c
      ⟨trimZeros ds, k + (Int.ofNat ds.length - Int.ofNat n)⟩
    | none => shortestFrom a r k tries (n + 1)

/-- The shortest digits that read back as `m · 2 ^ e`, for positive `m`. -/
def shortest (m : Nat) (e : Int) : Digits :=
  let a := Ratio.scaled m e
  shortestFrom a (.around m e) (magnitude a) 17 1

end PklAnalysis.Decimal
