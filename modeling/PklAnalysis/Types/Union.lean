import PklAnalysis.Types.Subtype

/-!
# Unions

`Ty.either` builds the union of two types in normal form: `unknown` absorbs, `nothing` disappears,
and a side below the other one disappears as well, unless one of them carries constraints. A string
literal is kept beside `String`, so that it can still be offered.
-/

namespace PklAnalysis.Ty

/-- Whether `narrow` may disappear beside `wide`. -/
def collapsesInto (narrow wide : Ty) : Query Bool :=
  match narrow with
  | .literal s c => if std.isStringClass wide then pure false else (Ty.literal s c).isSubtype wide
  | narrow => narrow.isSubtype wide

/-- The union of two types in normal form. -/
def either (l r : Ty) : Query Ty :=
  if l.isUnknown || r.isUnknown then pure .unknown
  else if l.isNothing then pure r
  else if r.isNothing then pure l
  else if l = r then pure l
  else if l.hasConstraints || r.hasConstraints then pure (.union l r [])
  else do
    if ← l.collapsesInto r then pure r
    else if ← r.collapsesInto l then pure l
    else pure (.union l r [])

/-- The union of a list of types, from the left, on top of `acc`. -/
def anyOfFrom (acc : Ty) : List Ty → Query Ty
  | [] => pure acc
  | t :: ts => do
    let acc ← either acc t
    anyOfFrom acc ts

/-- The union of a list of types, from the left. -/
def anyOf (ts : List Ty) : Query Ty := anyOfFrom .nothing ts

/-! ## Null -/

/-- Whether `null` is a value of the type. -/
def isNullable (t : Ty) : Query Bool := std.nullTy.isSubtype t

/-- `T?` -/
def nullable (t : Ty) : Query Ty := either std.nullTy t

/-- Whether `Null` occurs among the alternatives; `expand` answers for an alias. -/
def mentionsNullWith (expand : Ty → Query Bool) : Ty → Query Bool
  | .cls d _ _ => pure (d == std.null)
  | .union l r _ => do if ← mentionsNullWith expand l then pure true else mentionsNullWith expand r
  | .typeAlias d as c => expand (.typeAlias d as c)
  | _ => pure false

/-- Whether `Null` occurs among the alternatives, with at most `n` aliases expanded one inside the
other. -/
def mentionsNullUpTo : Nat → Ty → Query Bool
  | 0 => mentionsNullWith (fun _ => pure false)
  | n + 1 => mentionsNullWith (fun t => do mentionsNullUpTo n (← t.unaliased))

/-- Whether `Null` occurs among the alternatives. -/
def mentionsNull (t : Ty) : Query Bool := mentionsNullUpTo Limits.aliasNesting t

/-- Remove `Null` from the alternatives; `expand` does it for an alias. -/
def nonNullWith (expand : Ty → Query Ty) : Ty → Query Ty
  | .cls d as c => pure (if d = std.null then .nothing else .cls d as c)
  | .union l r c => do
    let l ← nonNullWith expand l
    let r ← nonNullWith expand r
    let u ← either l r
    pure (u.addConstraints c)
  | .typeAlias d as c => expand (.typeAlias d as c)
  | t => pure t

/-- Remove `Null`, with at most `n` aliases expanded one inside the other. -/
def nonNullUpTo : Nat → Ty → Query Ty
  | 0 => nonNullWith pure
  | n + 1 => nonNullWith (fun t => do
      if ← t.mentionsNull then nonNullUpTo n (← t.unaliased) else pure t)

/-- The type without `Null`. An alias keeps its name unless it mentions `Null`. -/
def nonNull (t : Ty) : Query Ty := nonNullUpTo Limits.aliasNesting t

end PklAnalysis.Ty
