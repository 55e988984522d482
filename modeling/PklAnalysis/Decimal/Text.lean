import PklAnalysis.Decimal.Shortest

/-!
# Decimal text of numbers

How the digits of a double are laid out. A style says for which powers of ten the positional form is
used and how many places it has at least.
-/

namespace PklAnalysis.Decimal

/-- The layout of a number: `positional k` decides whether `0.d₁d₂… · 10 ^ k` is written without an
exponent, and `leastPlaces` is the least number of digits after the point. -/
structure FloatStyle where
  positional : Int → Bool
  leastPlaces : Nat

def digitChar (d : Nat) : Char := Char.ofNat (48 + d)

def digitText (ds : List Nat) : List Char := ds.map digitChar

/-- A number without an exponent. -/
def Digits.positional (d : Digits) (leastPlaces : Nat) : List Char :=
  let whole := digitText (d.digits.take d.point.toNat)
  let zeros := List.replicate (d.point.toNat - d.digits.length) '0'
  let lead := if d.point ≤ 0 then ['0'] else []
  let places := List.replicate (-d.point).toNat '0' ++ digitText (d.digits.drop d.point.toNat)
  let padded := places ++ List.replicate (leastPlaces - places.length) '0'
  lead ++ whole ++ zeros ++ (if padded.isEmpty then [] else '.' :: padded)

/-- A number as one digit, the places behind it and a power of ten. -/
def Digits.exponential (d : Digits) : List Char :=
  let places := digitText (d.digits.drop 1)
  digitText (d.digits.take 1) ++ (if places.isEmpty then [] else '.' :: places) ++
    'e' :: (toString (d.point - 1)).toList

def FloatStyle.digits (s : FloatStyle) (d : Digits) : List Char :=
  if s.positional d.point then d.positional s.leastPlaces else d.exponential

/-- The text of a double, with the names of the three special values. -/
def FloatStyle.text (s : FloatStyle) (nan infinite : String) (f : Float) : String :=
  let sign (negative : Bool) := if negative then ['-'] else []
  match Binary.ofFloat f with
  | .nan => nan
  | .infinite negative => String.ofList (sign negative ++ infinite.toList)
  | .finite negative m e =>
    let digits := if m == 0 then ⟨[], 0⟩ else shortest m e
    String.ofList (sign negative ++ s.digits digits)

/-- The exact text of a double that is a whole number, with one place. -/
def wholeText (f : Float) : String :=
  match Binary.ofFloat f with
  | .finite negative m e =>
    let r := Ratio.scaled m e
    (if negative then "-" else "") ++ toString (r.num / r.den) ++ ".0"
  | _ => ""

/-- Whether a finite double has no digits behind the point. -/
def isWhole (f : Float) : Bool :=
  match Binary.ofFloat f with
  | .finite _ m e =>
    let r := Ratio.scaled m e
    r.num % r.den == 0
  | _ => false

end PklAnalysis.Decimal
