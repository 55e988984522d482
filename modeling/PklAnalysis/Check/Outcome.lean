import PklAnalysis.Check.Conformity
import PklAnalysis.Types.Render
import PklAnalysis.Types.Union

/-!
# Outcomes of type checks

What is reported about a value where a type is required. A constraint that failed goes before a
mismatch of the types, and of the mismatches the most certain one is reported.
-/

namespace PklAnalysis

inductive Outcome where
  | pass
  /-- No value of the actual type is one of the expected type. -/
  | mismatch
  /-- The types fit except for `null`. -/
  | nullableMismatch
  /-- The value may fit when the program runs. -/
  | weakMismatch
  /-- The types fit, but a constraint does not hold for the constant. -/
  | violation (required found : String)
  deriving DecidableEq, Repr, Inhabited

/-- The outcome of a check, and whether the constant was asked for. -/
structure CheckResult where
  outcome : Outcome
  consulted : Bool
  deriving DecidableEq, Repr, Inhabited

namespace Check

/-- The text of constraints; one of a module that is gone is left out. -/
def constraintTexts (cs : Constraints) : Query (List String) := do
  let texts ← cs.mapM (fun c => do
    let t ← Query.tree c.module
    pure (t.map (·.print c.node)))
  pure (texts.filterMap id)

/-- The constraint lists of which one would have to hold. -/
def requiredText (failed : List Constraints) : Query String := do
  let lists ← failed.mapM (fun cs => do
    let texts ← constraintTexts cs
    pure (", ".intercalate texts))
  pure (" or ".intercalate lists)

/-- How types that do not conform miss each other. -/
def mismatch (actual expected : Ty) : Query Outcome := do
  let expected := expected.withoutConstraints
  if !(← actual.hasCommonSubtype expected) then pure .mismatch
  else if !(← actual.isNullable) then pure .weakMismatch
  else if ← (← actual.nonNull).isSubtype expected then pure .nullableMismatch
  else pure .weakMismatch

/-- Check a value of the type `actual` where `expected` is required. -/
def checkType (value : ValueForm) (actual expected : Ty) : Check CheckResult := do
  if expected.isUnknown then return ⟨.pass, false⟩
  let result ← conforms value actual expected
  if result.conforms then return ⟨.pass, result.consulted⟩
  if result.failed.isEmpty then
    let outcome ← query (mismatch actual expected)
    return ⟨outcome, result.consulted⟩
  let required ← query (requiredText result.failed)
  let found ← evaluate value.get
  return ⟨.violation required ((found.map Constant.render).getD ""), result.consulted⟩

end Check

end PklAnalysis
