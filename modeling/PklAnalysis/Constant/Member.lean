import PklAnalysis.Constant.Operator
import PklAnalysis.Pattern.Source

/-!
# Members of constants

The properties and methods of strings, numbers, booleans and regular expressions that are understood
without running a program.
-/

namespace PklAnalysis

/-- Why an evaluation stops altogether. -/
inductive EvalError where
  /-- A repeated text would be longer than any text can be. -/
  | textTooLong
  deriving DecidableEq, Repr, Inhabited

def EvalError.message : EvalError → String
  | textTooLong => "capacity overflow"

/-- An evaluation may have no result. -/
abbrev Eval := OptionT (Except EvalError)

namespace Constant

/-- The greatest number of bytes of a text. -/
def maxTextSize : Nat := Int64.maxValue.toInt.toNat

def repeated (s : String) (count : Nat) : Except EvalError String :=
  if maxTextSize < s.utf8ByteSize * count then .error .textTooLong
  else if s.isEmpty then .ok ""
  else .ok (String.join (List.replicate count s))

/-- Whether a text occurs in another one. -/
def occursIn (part : List Char) : List Char → Bool
  | [] => part.isEmpty
  | c :: cs => part.isPrefixOf (c :: cs) || occursIn part cs

/-- Whether all of a text matches a regular expression, if it is one. -/
def matchesAll? (source s : String) : Option Bool :=
  (Pattern.ofSource? ("^(?:" ++ source ++ ")$")).map (·.isFoundIn s)

def stringProperty (s : String) (name : String) : Option Constant :=
  match name with
  | "length" => ofInt? s.length
  | "isEmpty" => some (bool s.isEmpty)
  | "isBlank" => some (bool (s.toList.all Text.isBlank))
  | "isRegex" => some (bool (Pattern.ofSource? s).isSome)
  | "lastIndex" => ofInt? (s.length - 1)
  | _ => none

def intProperty (i : Int64) (name : String) : Option Constant :=
  match name with
  | "isEven" => some (bool (i.toInt % 2 == 0))
  | "isOdd" => some (bool (i.toInt % 2 != 0))
  | "isPositive" => some (bool (0 ≤ i.toInt))
  | "isNonZero" => some (bool (i.toInt != 0))
  | "isFinite" => some (bool true)
  | "isInfinite" => some (bool false)
  | "isNaN" => some (bool false)
  | "abs" => ofInt? i.toInt.natAbs
  | "sign" => ofInt? i.toInt.sign
  | _ => none

def floatProperty (f : Float) (name : String) : Option Constant :=
  match name with
  | "isPositive" => some (bool (0.0 ≤ f))
  | "isNonZero" => some (bool (f != 0.0))
  | "isFinite" => some (bool f.isFinite)
  | "isInfinite" => some (bool f.isInf)
  | "isNaN" => some (bool f.isNaN)
  | "abs" => some (float f.abs)
  | "sign" =>
    some (float (if f == 0.0 || f.isNaN then f else if f < 0.0 then -1.0 else 1.0))
  | _ => none

/-- The value of a property. -/
def property (value : Constant) (name : String) : Option Constant :=
  match value with
  | string s => stringProperty s name
  | int i => intProperty i name
  | float f => floatProperty f name
  | regex source => if name = "pattern" then some (string source) else none
  | _ => none

def stringMethod (s name : String) (args : List Constant) : Eval Constant :=
  let cs := s.toList
  match name, args with
  | "startsWith", [string p] => pure (bool (p.toList.isPrefixOf cs))
  | "endsWith", [string p] => pure (bool (p.toList.isSuffixOf cs))
  | "contains", [string p] => pure (bool (occursIn p.toList cs))
  | "matches", [regex source] => OptionT.mk (.ok ((matchesAll? source s).map bool))
  | "toUpperCase", [] => pure (string (String.ofList (Text.upperCase cs)))
  | "toLowerCase", [] => pure (string (String.ofList (Text.lowerCase cs)))
  | "trim", [] => pure (string (String.ofList (Text.trim cs)))
  | "reverse", [] => pure (string (String.ofList cs.reverse))
  | "repeat", [int n] =>
    if n.toInt < 0 then failure
    else do
      let text ← OptionT.lift (repeated s n.toInt.toNat)
      pure (string text)
  | _, _ => failure

/-- Whether a number lies between two others; the ends count. -/
def isBetween (value low high : Constant) : Option Constant := do
  let below ← order low value
  let above ← order value high
  pure (bool (below.isLE && above.isLE))

/-- The double cut to a whole number and to the range of 64 bits. -/
def saturated (f : Float) : Option Constant :=
  ofInt? (max Int64.minValue.toInt (min Int64.maxValue.toInt (Decimal.truncated f)))

def numberMethod (value : Constant) (name : String) (args : List Constant) : Option Constant :=
  match value, name, args with
  | _, "isBetween", [low, high] => isBetween value low high
  | int i, "toInt", [] => some (int i)
  | int i, "toFloat", [] => some (float i.toFloat)
  | float f, "toFloat", [] => some (float f)
  | float f, "toInt", [] => if f.isFinite then saturated f else none
  | _, _, _ => none

def boolMethod (a : Bool) (name : String) (args : List Constant) : Option Constant :=
  match name, args with
  | "xor", [bool b] => some (bool (a != b))
  | "implies", [bool b] => some (bool (!a || b))
  | _, _ => none

/-- The result of a method. -/
def method (value : Constant) (name : String) (args : List Constant) : Eval Constant :=
  match value with
  | string s => stringMethod s name args
  | int _ => OptionT.mk (.ok (numberMethod value name args))
  | float _ => OptionT.mk (.ok (numberMethod value name args))
  | bool a => OptionT.mk (.ok (boolMethod a name args))
  | _ => failure

end Constant

end PklAnalysis
