import PklAnalysis.Types.Hierarchy

/-!
# Subtypes

`t.isSubtype u` decides whether every value of `t` is one of `u`; constraints play no part in it.
`unknown` is above and below everything. `t.hasCommonSubtype u` decides whether some refinement of
`t` could satisfy `u`; there `unknown` and `nothing` are no witnesses.
-/

namespace PklAnalysis

namespace Ty

/-! ## Subtyping -/

/-- Whether the arguments of one class type conform to those of another, by the variance of each
parameter. -/
def argsConform (below : Ty → Ty → Query Bool) :
    List (NodeRef × Variance) → List Ty → List Ty → Query Bool
  | (_, v) :: ps, x :: xs, y :: ys => do
    let conforms ← match v with
      | .covariant => below x y
      | .contravariant => below y x
      | .invariant => do if ← below x y then below y x else pure false
    if conforms then argsConform below ps xs ys else pure false
  | _, _, _ => pure true

/-- Subtyping of class types, given subtyping of their arguments. -/
def classBelow (below : Ty → Ty → Query Bool) (a b : ClassTy) : Query Bool := do
  match ← a.projectTo b.decl with
  | some projected => do
    let params ← typeParams b.decl
    argsConform below params projected.args b.args
  | none => pure false

/-- Subtyping, down to `n` nested questions; below that the relation is taken to hold. -/
def isSubtypeUpTo : Nat → Ty → Ty → Query Bool
  | 0, _, _ => pure true
  | n + 1, t, u =>
    if t = u then pure true
    else
      match t, u with
      | _, .unknown => pure true
      | .unknown, _ => pure true
      | .nothing, _ => pure true
      | _, .nothing => pure false
      | .union l r _, u => do if ← isSubtypeUpTo n l u then isSubtypeUpTo n r u else pure false
      | .typeAlias d as c, u => do isSubtypeUpTo n (← (Ty.typeAlias d as c).unaliased) u
      | t, .typeAlias d as c => do isSubtypeUpTo n t (← (Ty.typeAlias d as c).unaliased)
      | t, .union l r _ => do if ← isSubtypeUpTo n t l then pure true else isSubtypeUpTo n t r
      | .var p _, .var q _ => pure (p == q)
      | .var _ _, .cls d _ _ => pure (d == std.any)
      | .var _ _, _ => pure false
      | .literal a _, .literal b _ => pure (a == b)
      | .literal _ _, u => isSubtypeUpTo n std.stringTy u
      | .cls d as c, .cls e bs f => classBelow (isSubtypeUpTo n) ⟨d, as, c⟩ ⟨e, bs, f⟩
      | .module a _ _, .module b _ _ => moduleExtends a b
      | .module _ _ _, .cls d as c => isSubtypeUpTo n std.moduleTy (.cls d as c)
      | .cls _ _ _, _ => pure false
      | .module _ _ _, _ => pure false

/-- Whether every value of `t` is a value of `u`. -/
def isSubtype (t u : Ty) : Query Bool := isSubtypeUpTo (Limits.subtypeDepth + 1) t u

/-- Mutual subtyping. Every type is equivalent to `unknown`. -/
def isEquivalent (t u : Ty) : Query Bool := do
  if ← t.isSubtype u then u.isSubtype t else pure false

/-! ## Common subtypes -/

/-- Whether the arguments overlap pairwise; an unknown argument overlaps with everything. -/
def argsOverlap (overlap : Ty → Ty → Query Bool) : List Ty → List Ty → Query Bool
  | x :: xs, y :: ys => do
    let met ← if x.isUnknown || y.isUnknown then pure true else overlap x y
    if met then argsOverlap overlap xs ys else pure false
  | _, _ => pure true

/-- Two class types overlap if one of the classes is below the other and the arguments overlap. -/
def classesOverlap (overlap : Ty → Ty → Query Bool) (a b : ClassTy) : Query Bool := do
  match ← a.projectTo b.decl with
  | some projected => argsOverlap overlap projected.args b.args
  | none =>
    match ← b.projectTo a.decl with
    | some projected => argsOverlap overlap a.args projected.args
    | none => pure false

/-- Common subtypes, down to `n` nested questions. -/
def hasCommonSubtypeUpTo : Nat → Ty → Ty → Query Bool
  | 0, _, _ => pure true
  | n + 1, t, u =>
    match t, u with
    | .unknown, _ => pure false
    | .nothing, _ => pure false
    | _, .unknown => pure true
    | _, .nothing => pure false
    | .union l r _, u => do
      if ← hasCommonSubtypeUpTo n l u then pure true else hasCommonSubtypeUpTo n r u
    | t, .union l r _ => do
      if ← hasCommonSubtypeUpTo n t l then pure true else hasCommonSubtypeUpTo n t r
    | .typeAlias d as c, u => do hasCommonSubtypeUpTo n (← (Ty.typeAlias d as c).unaliased) u
    | t, .typeAlias d as c => do hasCommonSubtypeUpTo n t (← (Ty.typeAlias d as c).unaliased)
    | .var _ _, _ => pure true
    | _, .var _ _ => pure true
    | .literal s c, u => isSubtypeUpTo n (.literal s c) u
    | t, .literal s c => isSubtypeUpTo n (.literal s c) t
    | .cls d as c, .cls e bs f => classesOverlap (hasCommonSubtypeUpTo n) ⟨d, as, c⟩ ⟨e, bs, f⟩
    | t, u => do if ← isSubtypeUpTo n t u then pure true else isSubtypeUpTo n u t

/-- Whether some refinement of `t` could satisfy `u`. -/
def hasCommonSubtype (t u : Ty) : Query Bool := hasCommonSubtypeUpTo (Limits.subtypeDepth + 1) t u

end Ty

end PklAnalysis
