import PklAnalysis.Constant.Value
import PklAnalysis.Syntax.Node

/-!
# Operators on constants

Arithmetic on whole numbers is exact or has no result; as soon as a double takes part, everything is
computed with doubles.
-/

namespace PklAnalysis.Constant

/-- Equality of values of any kind. A whole number equals the double that it converts to. -/
def equal : Constant → Constant → Bool
  | null, null => true
  | bool a, bool b => a == b
  | int a, int b => a == b
  | float a, float b => a == b
  | int a, float b => a.toFloat == b
  | float a, int b => a == b.toFloat
  | string a, string b => a == b
  | regex a, regex b => a == b
  | _, _ => false

def isNull : Constant → Bool
  | null => true
  | _ => false

/-- The order of two doubles, if neither is a NaN. -/
def orderFloat (a b : Float) : Option Ordering :=
  if a < b then some .lt else if a == b then some .eq else if b < a then some .gt else none

/-- The order of two numbers or of two strings. -/
def order : Constant → Constant → Option Ordering
  | int a, int b => some (compare a.toInt b.toInt)
  | string a, string b => some (compare a b)
  | a, b => do orderFloat (← a.asFloat?) (← b.asFloat?)

/-- An operation on doubles. -/
def onFloats (f : Float → Float → Float) (a b : Constant) : Option Constant := do
  let x ← a.asFloat?
  let y ← b.asFloat?
  pure (float (f x y))

/-- The quotient cut to a whole number. It does not fit for the least number and `-1`. -/
def quotient? (a b : Int64) : Option Constant :=
  if b = 0 then none else ofInt? (a.toInt.tdiv b.toInt)

/-- The remainder that belongs to `quotient?`; where there is no quotient there is no remainder. -/
def remainder? (a b : Int64) : Option Constant :=
  if (quotient? a b).isNone then none else ofInt? (a.toInt.tmod b.toInt)

/-- A power with a natural exponent below `2 ^ 32`. -/
def power? (a : Int64) (n : Nat) : Option Constant :=
  if UInt32.size ≤ n then none
  else if a.toInt.natAbs ≤ 1 then ofInt? (a.toInt.pow (if n = 0 then 0 else 2 - n % 2))
  else if 64 ≤ n then none
  else ofInt? (a.toInt.pow n)

def add : Constant → Constant → Option Constant
  | string a, string b => some (string (a ++ b))
  | int a, int b => ofInt? (a.toInt + b.toInt)
  | a, b => onFloats (· + ·) a b

def sub : Constant → Constant → Option Constant
  | int a, int b => ofInt? (a.toInt - b.toInt)
  | a, b => onFloats (· - ·) a b

def mul : Constant → Constant → Option Constant
  | int a, int b => ofInt? (a.toInt * b.toInt)
  | a, b => onFloats (· * ·) a b

/-- Division always gives a double; a whole number is not divided by zero. -/
def div : Constant → Constant → Option Constant
  | int a, int b => if b = 0 then none else onFloats (· / ·) (int a) (int b)
  | a, b => onFloats (· / ·) a b

def intDiv : Constant → Constant → Option Constant
  | int a, int b => quotient? a b
  | _, _ => none

def rem : Constant → Constant → Option Constant
  | int a, int b => remainder? a b
  | a, b => onFloats Decimal.remainder a b

def pow : Constant → Constant → Option Constant
  | int a, int b =>
    if 0 ≤ b.toInt then power? a b.toInt.toNat else onFloats Float.pow (int a) (int b)
  | a, b => onFloats Float.pow a b

/-- The result of a binary operation on two constants. The operators that do not need both operands
are not among them. -/
def binary (op : BinaryOp) (a b : Constant) : Option Constant :=
  match op with
  | .eq => some (bool (equal a b))
  | .notEq => some (bool (!equal a b))
  | .lt => do pure (bool (← order a b).isLT)
  | .le => do pure (bool (← order a b).isLE)
  | .gt => do pure (bool (← order a b).isGT)
  | .ge => do pure (bool (← order a b).isGE)
  | .add => add a b
  | .sub => sub a b
  | .mul => mul a b
  | .div => div a b
  | .intDiv => intDiv a b
  | .rem => rem a b
  | .pow => pow a b
  | .and | .or | .coalesce | .pipe => none

def unary : UnaryOp → Constant → Option Constant
  | .neg, int i => ofInt? (-i.toInt)
  | .neg, float f => some (float (-f))
  | .not, bool b => some (bool !b)
  | _, _ => none

end PklAnalysis.Constant
