/-!
# Values of JSON texts

A value keeps all that its text says: the members of an object in order and with repetitions, the
digits of a number. `JsonValue.isSound` is what a reader that uses the value asks of it; what a
reader skips need not be sound.
-/

namespace PklAnalysis

/-- A number as it is written. -/
structure JsonNumber where
  negative : Bool
  whole : List Char
  fraction : List Char
  /-- The sign of the exponent and its digits. -/
  exponent : Option (Bool × List Char)
  /-- Whether there is a point. -/
  hasPoint : Bool
  deriving DecidableEq, Repr, Inhabited

namespace JsonNumber

def digits (cs : List Char) : Nat := cs.foldl (fun n c => 10 * n + (c.toNat - '0'.toNat)) 0

/-- The value of a natural number that is written without point and exponent and has 64 bits. -/
def nat? (n : JsonNumber) : Option Nat :=
  let v := digits n.whole
  if n.negative || n.hasPoint || n.exponent.isSome || UInt64.size ≤ v then none else some v

/-- The leading digits of a number that still fit 64 bits, as a number, and how many digits are
left. Each digit that is left makes the number ten times as large. -/
def leading (acc : Nat) : List Char → Nat × Nat
  | [] => (acc, 0)
  | c :: cs =>
    let next := 10 * acc + (c.toNat - '0'.toNat)
    if UInt64.size ≤ next then (acc, cs.length + 1) else leading next cs

/-- Go on with the digits behind the point; those that do not fit are dropped. -/
def trailing (acc : Nat) (taken : Nat) : List Char → Nat × Nat
  | [] => (acc, taken)
  | c :: cs =>
    let next := 10 * acc + (c.toNat - '0'.toNat)
    if UInt64.size ≤ next then (acc, taken) else trailing next (taken + 1) cs

/-- Scale a binary number by a power of ten, in steps of at most 308 places. Four steps bring any
number down to zero. -/
def scale : Nat → Float → Int → Float
  | 0, f, _ => f
  | n + 1, f, e =>
    if e.natAbs < 309 then
      let power := Float.ofScientific 1 false e.natAbs
      if 0 ≤ e then f * power else f / power
    else if f == 0 then f
    else if 0 ≤ e then 1 / 0
    else scale n (f / Float.ofScientific 1 false 308) (e + 308)

/-- Whether a number is not too large for a binary number of 64 bits. -/
def isFinite (n : JsonNumber) : Bool :=
  let (whole, left) := leading 0 n.whole
  let (significand, taken) := trailing whole 0 n.fraction
  let places : Int := (left : Int) - taken
  let value (e : Int) := scale 4 significand.toUInt64.toFloat (places + e)
  match n.exponent with
  | none => (value 0).isFinite
  | some (minus, ds) =>
    let e := digits ds
    if Int32.maxValue.toInt < e then significand == 0 || minus
    else (value (if minus then -e else e)).isFinite

end JsonNumber

/-- Text between quotes; there is none if it holds half of a surrogate pair. -/
abbrev JsonText := Option String

inductive JsonValue where
  | null
  | bool (b : Bool)
  | number (n : JsonNumber)
  | string (text : JsonText)
  | array (items : List JsonValue)
  | object (members : List (JsonText × JsonValue))
  deriving Repr, Inhabited

namespace JsonValue

mutual

/-- Whether all strings in a value are texts, all numbers finite, and at most `depth` arrays and
objects nested. -/
def isSound (depth : Nat) : JsonValue → Bool
  | null => true
  | bool _ => true
  | number n => n.isFinite
  | string text => text.isSome
  | array items => 0 < depth && areSound (depth - 1) items
  | object members => 0 < depth && haveSound (depth - 1) members

def areSound (depth : Nat) : List JsonValue → Bool
  | [] => true
  | v :: vs => isSound depth v && areSound depth vs

def haveSound (depth : Nat) : List (JsonText × JsonValue) → Bool
  | [] => true
  | (key, v) :: rest => key.isSome && isSound depth v && haveSound depth rest

end

end JsonValue

end PklAnalysis
