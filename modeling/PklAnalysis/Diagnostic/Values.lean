import PklAnalysis.Check.Outcome
import PklAnalysis.Diagnostic.Catalogue
import PklAnalysis.Typing.Expr

/-!
# Value diagnostics

Expressions whose type or value is not the one required where they stand.
-/

namespace PklAnalysis

/-- Whether a construct requires a type of its part `i`. -/
def requiresTypeOf (i : NodeIndex) : Construct → Bool
  | .property d => d.value == some i
  | .element value => value == i
  | .entry _ value _ => value == some i
  | .method d => d.body == some i
  | .access _ (some args) => args.contains i
  | .memberAccess _ _ (some args) _ => args.contains i
  | _ => false

/-- The problem that an outcome stands for. -/
def Outcome.problem (outcome : Outcome) (span : Span) (required found : String) : List Diagnostic :=
  match outcome with
  | .pass => []
  | .mismatch => [.of span .typeMismatch [required, found]]
  | .nullableMismatch => [.of span .nullableTypeMismatch [required, found]]
  | .weakMismatch => [.of span .weakTypeMismatch [required, found]]
  | .violation required found => [.of span .constraintViolation [required, found]]

/-- The value problems of a node. -/
def checkValue (t : SyntaxTree) (r : NodeRef) : Check (List Diagnostic) := do
  if !(t.parent? r.node).any (fun p => t.holdsAt p (requiresTypeOf r.node)) then return []
  let expected ← Check.query (Query.expected r)
  if expected.isUnknown then return []
  let actual ← Check.query (Query.expr r .empty)
  let result ← Check.checkType ⟨fun _ => t.constant? r.node⟩ actual expected
  let required ← Check.query expected.display
  let found ← Check.query actual.display
  return result.outcome.problem (t.span r.node) required found

end PklAnalysis
