import PklAnalysis.Constant.Eval
import PklAnalysis.Types.Subtype

/-!
# Conformity

Whether a value of one type, or a constant of that type, satisfies another type with its
constraints. Both types are distributed over aliases and unions, the actual one first: every
alternative of the actual type must conform to some alternative of the expected one. The constraints
of an expected alternative are looked at only if the types fit and there is a constant to evaluate
them on.
-/

namespace PklAnalysis

/-- Queries that may run into an evaluation error. -/
abbrev Check := ExceptT EvalError Query

/-- The constant form of the value that is checked. It is computed only if a constraint needs it. -/
abbrev ValueForm := Thunk (Except EvalError (Option Constant))

/-- The result for one alternative or several: whether they conform, the constraint lists that
failed, and whether the constant was asked for. -/
structure Conformity where
  conforms : Bool
  failed : List Constraints := []
  consulted : Bool := false
  deriving Repr, Inhabited

namespace Conformity

/-- Both alternatives of an actual type must conform. -/
def both (x y : Conformity) : Conformity :=
  ⟨x.conforms && y.conforms, x.failed ++ y.failed, x.consulted || y.consulted⟩

/-- One alternative of an expected type is enough; then the failure of the other one does not
count. -/
def either (x y : Conformity) : Conformity :=
  if x.conforms || y.conforms then ⟨true, [], x.consulted || y.consulted⟩
  else ⟨false, x.failed ++ y.failed, x.consulted || y.consulted⟩

end Conformity

namespace Check

def query {α : Type} (x : Query α) : Check α := ExceptT.lift x

def evaluate {α : Type} (x : Except EvalError α) : Check α := ExceptT.mk (pure x)

/-- Whether a constant satisfies all constraints. A constraint of a module that is gone is passed
over. -/
def satisfiesAll (v : Constant) : Constraints → Check Bool
  | [] => pure true
  | c :: cs => do
    match ← query (Query.tree c.module) with
    | none => satisfiesAll v cs
    | some t => do
      let truth ← evaluate (t.satisfies v c.node)
      if truth = .yes then satisfiesAll v cs else pure false

/-- Conformity of types that are neither aliases nor unions. -/
def conformsLeaf (value : ValueForm) (actual expected : Ty) : Check Conformity := do
  if !(← query (actual.isSubtype expected.withoutConstraints)) then pure ⟨false, [], false⟩
  else if expected.constraints.isEmpty then pure ⟨true, [], false⟩
  else
    match ← evaluate value.get with
    | none => pure ⟨true, [], true⟩
    | some v => do
      if ← satisfiesAll v expected.constraints then pure ⟨true, [], true⟩
      else pure ⟨false, [expected.constraints], true⟩

/-- Conformity of types that nest less than `n` deep; anything deeper is taken to conform. -/
def conformsUpTo (value : ValueForm) : Nat → Ty → Ty → Check Conformity
  | 0, _, _ => pure ⟨true, [], false⟩
  | n + 1, actual, expected =>
    if expected.isUnknown then pure ⟨true, [], false⟩
    else
      match actual, expected with
      | .typeAlias d as c, expected => do
        let actual ← query (Ty.typeAlias d as c).fullyUnaliased
        conformsUpTo value n actual expected
      | .union l r _, expected => do
        let left ← conformsUpTo value n l expected
        let right ← conformsUpTo value n r expected
        pure (left.both right)
      | actual, .typeAlias d as c => do
        let expected ← query (Ty.typeAlias d as c).fullyUnaliased
        conformsUpTo value n actual expected
      | actual, .union l r c => do
        let left ← conformsUpTo value n actual (l.addConstraints c)
        let right ← conformsUpTo value n actual (r.addConstraints c)
        pure (left.either right)
      | actual, expected => conformsLeaf value actual expected

/-- Conformity of two types. -/
def conforms (value : ValueForm) (actual expected : Ty) : Check Conformity :=
  conformsUpTo value (Limits.typeCheckDepth + 1) actual expected

end Check

end PklAnalysis
