/-!
# Binary floating-point numbers

A finite double is `± m · 2 ^ e` with natural `m`. All decimal work is done on `m` and `e` in exact
arithmetic.
-/

namespace PklAnalysis.Decimal

/-- What a double stands for. -/
inductive Binary where
  | nan
  | infinite (negative : Bool)
  | finite (negative : Bool) (mantissa : Nat) (exponent : Int)
  deriving Repr, DecidableEq, Inhabited

/-- The bit above the 52 bits of the fraction; only mantissas of the least exponent lack it. -/
def implicitBit : Nat := 1 <<< 52

/-- The parts of the 64 bits of a double: a sign, 11 bits of exponent, 52 bits of fraction. -/
def Binary.ofBits (bits : UInt64) : Binary :=
  let n := bits.toNat
  let negative := n >>> 63 == 1
  let field := (n >>> 52) % 2048
  let fraction := n % implicitBit
  if field == 2047 then (if fraction == 0 then .infinite negative else .nan)
  else if field == 0 then .finite negative fraction (-1074)
  else .finite negative (implicitBit + fraction) (Int.ofNat field - 1075)

def Binary.ofFloat (f : Float) : Binary := .ofBits f.toBits

/-- The double `± m · 2 ^ e`, for `m < 2 ^ 53` and `-1074 ≤ e` within the range of doubles. -/
def Binary.toFloat (negative : Bool) (m : Nat) (e : Int) : Float :=
  let shift := min (52 - m.log2) (e + 1074).toNat
  let m := m <<< shift
  let field := if m < implicitBit then 0 else (e - shift + 1075).toNat
  Float.ofBits ((if negative then 1 <<< 63 else 0) + field <<< 52 + m % implicitBit).toUInt64

/-- The remainder of a division whose quotient is cut to a whole number. It has the sign of the
dividend and is exact. -/
def remainder (x y : Float) : Float :=
  match Binary.ofFloat x, Binary.ofFloat y with
  | .finite _ _ _, .infinite _ => x
  | .finite negative m e, .finite _ n f =>
    if n = 0 then 0.0 / 0.0
    else if f ≤ e then Binary.toFloat negative (m <<< (e - f).toNat % n) f
    else Binary.toFloat negative (m % n <<< (f - e).toNat) e
  | _, _ => 0.0 / 0.0

/-- The whole part of a finite double. -/
def truncated (f : Float) : Int :=
  match Binary.ofFloat f with
  | .finite negative m e =>
    let whole := if 0 ≤ e then m <<< e.toNat else m >>> (-e).toNat
    if negative then -Int.ofNat whole else Int.ofNat whole
  | _ => 0

/-- A non-negative rational number as a fraction. -/
structure Ratio where
  num : Nat
  den : Nat
  deriving Repr, Inhabited

namespace Ratio

/-- `m · 2 ^ e`. -/
def scaled (m : Nat) (e : Int) : Ratio :=
  if 0 ≤ e then ⟨m <<< e.toNat, 1⟩ else ⟨m, 1 <<< (-e).toNat⟩

/-- `c · 10 ^ p`. -/
def decimal (c : Nat) (p : Int) : Ratio :=
  if 0 ≤ p then ⟨c * Nat.pow 10 p.toNat, 1⟩ else ⟨c, Nat.pow 10 (-p).toNat⟩

def le (a b : Ratio) : Bool := a.num * b.den ≤ b.num * a.den
def lt (a b : Ratio) : Bool := a.num * b.den < b.num * a.den

/-- The largest natural number below or at `a / 10 ^ p`. -/
def floorAt (a : Ratio) (p : Int) : Nat :=
  if 0 ≤ p then a.num / (a.den * Nat.pow 10 p.toNat) else a.num * Nat.pow 10 (-p).toNat / a.den

/-- The distance of two numbers, over the product of their denominators. -/
def distance (a b : Ratio) : Nat :=
  let x := a.num * b.den
  let y := b.num * a.den
  (x - y) + (y - x)

end Ratio

end PklAnalysis.Decimal
