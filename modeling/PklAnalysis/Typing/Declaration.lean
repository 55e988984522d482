import PklAnalysis.Typing.Expected

/-!
# Types of declarations

The type a declaration has when it is referred to by name, before the type parameters of the class
it belongs to are bound.
-/

namespace PklAnalysis

/-- The type of a parameter: its annotation, or else what the construct that binds it gives it. -/
def paramType (p : NodeRef) : Query Ty := do
  match ← Query.construct p with
  | some (_, .param { type := some written, .. }) => typeOfNode (p.sibling written) .empty
  | _ =>
    match ← Query.tree p.module with
    | none => pure .unknown
    | some t =>
      match t.parent? p.node with
      | none => pure .unknown
      | some owner =>
        match t.construct? owner with
        | some (.letIn _ value _) => Query.expr (p.sibling value) .empty
        | some (.lambda params _) => do
          let types ← lambdaParamTypes (p.sibling owner)
          pure (((params.findIdx? (· == p.node)).bind (fun i => types[i]?)).getD .unknown)
        | some (.forGenerator key _ iterable _) => do
          let iterable ← Query.expr (p.sibling iterable) .empty
          let (keyType, valueType) ← iterationTypes iterable
          pure (if key = some p.node then keyType else valueType)
        | _ => pure .unknown

/-- The type of a declaration over the type parameters in scope where it stands. -/
def declarationType (decl : NodeRef) : Query Ty := do
  match ← Query.construct decl with
  | none => pure .unknown
  | some (_, c) =>
    match c with
    | .property d => do
      let declared ← Query.property decl
      if !declared.isUnknown then pure declared
      else
        match d.value with
        | some value => Query.expr (decl.sibling value) .empty
        | none => pure (if d.bodies.isEmpty then .unknown else std.dynamicTy)
    | .method _ => methodReturnType decl .empty
    | .param _ => paramType decl
    | .classDecl _ => do
      let t ← Ty.ofClass decl []
      pure (std.classTy t)
    | .aliasDecl _ => Ty.ofClass std.typeAlias []
    | .typeParam _ => pure (.var decl [])
    | .importClause d => do
      match ← importedModule decl with
      | some m => Ty.ofModule m (some d.name)
      | none => pure .unknown
    | .module d => Ty.ofModule decl.module d.name
    | _ => pure .unknown

end PklAnalysis
