import PklAnalysis.Typing.This

/-!
# Accesses

The declaration an access refers to, and the one a property overrides.
-/

namespace PklAnalysis

/-- The declaration a property access or a call refers to. -/
def resolveAccess (access : NodeRef) : Query (Option Resolved) := do
  match ← Query.construct access with
  | some (_, .access name args) => do
    let this ← thisType access
    (Scope.visible access this (.ofArgs args)).resolve name
  | some (_, .memberAccess receiver name args _) => do
    let receiver ← (← Query.expr (access.sibling receiver) .empty).nonNull
    (Scope.members (.ofArgs args) receiver).resolve name
  | _ => pure none

/-- The type among whose members the property of a container is looked up that it may override. -/
def overriddenIn (t : SyntaxTree) (container : NodeRef) : Query (Option Ty) := do
  match t.construct? container.node with
  | some (.classDecl _) => Query.supertype container
  | some (.module _) =>
    match ← supermodule container.module with
    | none => pure none
    | some m => some <$> Ty.ofModule m none
  | some (.objectBody _ _) => some <$> thisType container
  | _ => pure none

/-- The declaration a property overrides or amends. -/
def overriddenProperty (property : NodeRef) : Query (Option Resolved) := do
  match ← Query.tree property.module with
  | none => pure none
  | some t =>
    match t.name? property.node, t.parent? property.node with
    | some name, some container =>
      match ← overriddenIn t (property.sibling container) with
      | none => pure none
      | some receiver => do
        let found ← (Scope.members .property receiver).resolve name
        pure (found.filter (fun f => f.decl != property))
    | _, _ => pure none

/-- The type a property's value must have: its own annotation, or else the type of the property it
overrides. -/
def requiredType (property : NodeRef) : Query Ty := do
  match ← Query.construct property with
  | some (_, .property { type := some written, .. }) =>
    typeOfNode (property.sibling written) .empty
  | _ =>
    match ← overriddenProperty property with
    | none => pure .unknown
    | some found => do
      let t ← Query.property found.decl
      pure (t.bind found.bindings)

end PklAnalysis
