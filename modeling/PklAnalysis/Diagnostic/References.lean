import PklAnalysis.Diagnostic.Catalogue
import PklAnalysis.Diagnostic.Definition

/-!
# Reference diagnostics

Names, types and modules that cannot be found. A name is reported only where it is known what could
be found: not behind a value of unknown type, and not on an object that takes any property.
-/

namespace PklAnalysis

/-- Whether a type could be anything: unknown, empty or a type parameter, or a union with one. -/
def isIndeterminate (t : Ty) : Query Bool := do
  let t ← t.fullyUnaliased
  pure (t.members.any (fun
    | .unknown => true
    | .nothing => true
    | .var _ _ => true
    | _ => false))

/-- A member that an open type does not declare may exist all the same. -/
def unresolvedSeverity (t : Ty) : Query Severity := do
  if ← t.isOpen then pure .warning else pure .error

/-- The problem of an access that refers to nothing. -/
def unresolvedAccess (span : Span) (name : String) (isCall : Bool) (severity : Severity) :
    Diagnostic :=
  { Diagnostic.of span (if isCall then .unresolvedMethod else .unresolvedProperty) [name] with
    severity := severity }

/-- The problems of an access to something visible at the place. -/
def checkAccess (t : SyntaxTree) (r : NodeRef) (name : String) (isCall : Bool) :
    Query (List Diagnostic) := do
  if (← resolveAccess r).isSome then return []
  let this ← thisType r
  if this.isUnknown then return []
  if !isCall then
    if ← acceptsAnyProperty this then return []
  let severity ← unresolvedSeverity this
  return [unresolvedAccess (t.span r.node) name isCall severity]

/-- The problems of an access to a member of a value. -/
def checkMemberAccess (t : SyntaxTree) (r : NodeRef) (receiver : NodeIndex) (name : String)
    (isCall : Bool) : Query (List Diagnostic) := do
  let type ← (← Query.expr (r.sibling receiver) .empty).nonNull
  if ← isIndeterminate type then return []
  if !isCall then
    if ← acceptsAnyProperty type then return []
  if (← resolveAccess r).isSome then return []
  let severity ← unresolvedSeverity type
  return [unresolvedAccess (t.span r.node) name isCall severity]

/-- The problem of a reference to a module, if it leads nowhere. -/
def checkReference (m : ModuleId) (span : Span) (uri : String) : Query (List Diagnostic) := do
  let target ← Query.reference m uri
  pure (if target.isSome then [] else [.of span .unresolvedModule [uri]])

/-- The problem of the clause of a module. -/
def checkClause (t : SyntaxTree) (m : ModuleId) : Query (List Diagnostic) :=
  match t.clause? with
  | none => pure []
  | some clause => checkReference m clause.span clause.uri

/-- The reference problems of a node. -/
def checkReferences (t : SyntaxTree) (r : NodeRef) : Query (List Diagnostic) :=
  match t.construct? r.node with
  | some (.access name args) => checkAccess t r name args.isSome
  | some (.memberAccess receiver name args _) => checkMemberAccess t r receiver name args.isSome
  | some (.declaredType qualifier name _) => do
    let found ← resolveType r qualifier name
    let fullName := match qualifier with
      | some q => q ++ "." ++ name
      | none => name
    pure (if found.isSome then [] else [.of (t.span r.node) .unresolvedType [fullName]])
  | some (.importClause d) => checkReference r.module (t.span r.node) d.uri
  | some (.importExpr uri _) => checkReference r.module (t.span r.node) uri
  | some (.property d) => do
    let definition ← definitionOf t r
    pure (if definition = .unresolved then [.of (t.span r.node) .unresolvedProperty [d.name]]
      else [])
  | _ => pure []

end PklAnalysis
