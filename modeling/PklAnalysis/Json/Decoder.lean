import PklAnalysis.Json.Reader

/-!
# Decoding JSON values

What a value means to the reader of a record. A record is written as an object, or as an array of
its fields in order; an object may have fields besides, and an array may end early. What a reader
skips is not looked at.
-/

namespace PklAnalysis

namespace JsonValue

def toBool? : JsonValue → Option Bool
  | bool b => some b
  | _ => none

def toText? : JsonValue → Option String
  | string text => text
  | _ => none

/-- A natural number below a bound of at most 64 bits. -/
def toNat? (bound : Nat) : JsonValue → Option Nat
  | number n => n.nat?.filter (· < bound)
  | _ => none

/-- The values under a key, in order. -/
def valuesOf (members : List (String × JsonValue)) (key : String) : List JsonValue :=
  (members.filter (·.1 == key)).map (·.2)

/-- Which value of a field counts if it is given several times: the last one, or none is allowed. -/
inductive Repetition where
  | last
  | refused
  deriving DecidableEq, Repr

/-- The value of a field, if there is one; the outer `none` stands for a refused repetition. -/
def field? (repetition : Repetition) (members : List (String × JsonValue)) (key : String) :
    Option (Option JsonValue) :=
  match valuesOf members key with
  | [] => some none
  | [v] => some (some v)
  | v :: vs => match repetition with
    | .last => some (some ((v :: vs).getLastD v))
    | .refused => none

/-- Members whose keys are all texts. -/
def members? (members : List (JsonText × JsonValue)) : Option (List (String × JsonValue)) :=
  members.mapM fun (key, v) => key.map fun k => (k, v)

/-- The fields of a record with the given names, in their order. -/
def fields? (repetition : Repetition) (names : List String) :
    JsonValue → Option (List (Option JsonValue))
  | object members => do
    let members ← members? members
    names.mapM (field? repetition members)
  | array items =>
    if items.length ≤ names.length then
      some (items.map some ++ List.replicate (names.length - items.length) none)
    else none
  | _ => none

/-- The entries of a map. The last entry under a key counts, in the place of the first. -/
def entries? {α : Type} (decode : JsonValue → Option α) : JsonValue → Option (List (String × α))
  | object members => do
    let entries ← (← members? members).mapM fun (key, v) => (decode v).map fun a => (key, a)
    let put (kept : List (String × α)) (e : String × α) : List (String × α) :=
      if kept.any (·.1 == e.1) then kept.map fun k => if k.1 == e.1 then e else k else kept ++ [e]
    some (entries.foldl put [])
  | _ => none

/-- A field that has to be there. -/
def required {α : Type} (decode : JsonValue → Option α) (v : Option JsonValue) : Option α :=
  v.bind decode

/-- A field that may be left out. -/
def orElse {α : Type} (decode : JsonValue → Option α) (absent : α) : Option JsonValue → Option α
  | none => some absent
  | some v => decode v

/-- A field that may be left out or `null`. -/
def optional {α : Type} (decode : JsonValue → Option α) : Option JsonValue → Option (Option α)
  | none => some none
  | some null => some none
  | some v => (decode v).map some

end JsonValue

end PklAnalysis
