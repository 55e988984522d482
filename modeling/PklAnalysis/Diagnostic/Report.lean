import PklAnalysis.Diagnostic.Modifiers
import PklAnalysis.Diagnostic.References
import PklAnalysis.Diagnostic.Values

/-!
# The diagnostics of a module

All problems of a module, by their place. Each kind of check can be switched off.
-/

namespace PklAnalysis

/-- Which checks are made. -/
structure ReportOptions where
  values : Bool := true
  references : Bool := true
  modifiers : Bool := true
  deriving DecidableEq, Repr, Inhabited

namespace Report

variable (options : ReportOptions) (t : SyntaxTree) (m : ModuleId)

/-- The problems of one node. -/
def ofNode (i : NodeIndex) : Check (List Diagnostic) := do
  let r : NodeRef := ⟨m, i⟩
  let modifiers ← if options.modifiers then Check.query (checkModifiers t r) else pure []
  let references ← if options.references then Check.query (checkReferences t r) else pure []
  let values ← if options.values then checkValue t r else pure []
  return modifiers ++ references ++ values

/-- The problems of several nodes. -/
def ofNodes : List NodeIndex → Check (List Diagnostic)
  | [] => pure []
  | i :: is => do
    let here ← ofNode options t m i
    let further ← ofNodes is
    return here ++ further

end Report

/-- The diagnostics of a module, in order. -/
def diagnostics (options : ReportOptions) (m : ModuleId) : Check (List Diagnostic) := do
  match ← Check.query (Query.tree m) with
  | none => pure []
  | some t => do
    let clause ← if options.references then Check.query (checkClause t m) else pure []
    let nodes ← Report.ofNodes options t m t.indices
    return Diagnostic.sorted (clause ++ nodes)

end PklAnalysis
