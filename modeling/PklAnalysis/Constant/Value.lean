import PklAnalysis.Decimal.Text
import PklAnalysis.Text.Escaped

/-!
# Constants

The values that expressions can be evaluated to without running a program, and what is known about a
condition.
-/

namespace PklAnalysis

inductive Constant where
  | null
  | bool (b : Bool)
  | int (i : Int64)
  | float (f : Float)
  | string (s : String)
  /-- A regular expression, by its source. -/
  | regex (source : String)
  deriving Repr, Inhabited

/-- What is known about a condition. -/
inductive Truth where
  | yes
  | no
  | undecided
  deriving DecidableEq, Repr, Inhabited

namespace Truth

def ofBool (b : Bool) : Truth := if b then yes else no

def and : Truth → Truth → Truth
  | no, _ => no
  | _, no => no
  | yes, yes => yes
  | _, _ => undecided

def or : Truth → Truth → Truth
  | yes, _ => yes
  | _, yes => yes
  | no, no => no
  | _, _ => undecided

def not : Truth → Truth
  | yes => no
  | no => yes
  | undecided => undecided

def toBool? : Truth → Option Bool
  | yes => some true
  | no => some false
  | undecided => none

theorem not_and (a b : Truth) : (a.and b).not = a.not.or b.not := by cases a <;> cases b <;> rfl

end Truth

namespace Constant

/-- Numbers in messages have no exponent and as many places as they need. -/
def floatStyle : Decimal.FloatStyle := ⟨fun _ => true, 0⟩

def renderFloat (f : Float) : String :=
  if Decimal.isWhole f then Decimal.wholeText f else floatStyle.text "NaN" "Infinity" f

/-- The constant as it would be written in a module. -/
def render : Constant → String
  | null => "null"
  | bool b => if b then "true" else "false"
  | int i => toString i.toInt
  | float f => renderFloat f
  | string s => Text.escaped s
  | regex source => "Regex(" ++ Text.escaped source ++ ")"

/-- A number as a double. -/
def asFloat? : Constant → Option Float
  | int i => some i.toFloat
  | float f => some f
  | _ => none

/-- A whole number, if it fits into 64 bits. -/
def ofInt? (i : Int) : Option Constant :=
  if Int64.minValue.toInt ≤ i ∧ i ≤ Int64.maxValue.toInt then some (int (Int64.ofInt i)) else none

end Constant

end PklAnalysis
