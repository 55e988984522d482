import PklAnalysis.Typing.Call

/-!
# Expected types

The type that an expression must have because of the place where it stands: as the value of a
property, an element, an entry, the body of a method, an argument, or a branch of one of those.
-/

namespace PklAnalysis

/-- The type an expression is expected to have. Its own type parameters are left open for an
argument of a generic method. -/
def argumentType (call : NodeRef) (position : Nat) : Query Ty := do
  match ← resolveAccess call with
  | none => pure .unknown
  | some found =>
    match ← Query.construct found.decl with
    | some (t, .method d) =>
      match (d.params[position]?).bind t.construct? with
      | some (.param { type := some written, .. }) =>
        let b := found.bindings.extend
          (d.typeParams.map (fun p => (found.decl.sibling p, .unknown)))
        typeOfNode (found.decl.sibling written) b
      | _ => pure .unknown
    | _ => pure .unknown

/-- The type an expression is expected to have from the construct it is part of. -/
def expectedWithin (owner : NodeRef) (i : NodeIndex) : Construct → Query Ty
  | .property d => if d.value = some i then Query.property owner else pure .unknown
  | .element value =>
    if value = i then do
      let container ← thisType owner
      elementType container
    else pure .unknown
  | .entry key value _ => do
    let container ← thisType owner
    let (keyType, valueType) ← entryTypes container
    pure (if key = i then keyType else if value = some i then valueType else .unknown)
  | .method d =>
    match d.body, d.returnType with
    | some body, some type =>
      if body = i then typeOfNode (owner.sibling type) .empty else pure .unknown
    | _, _ => pure .unknown
  | .grouped _ => Query.expected owner
  | .ifElse _ a b => if a = i || b = i then Query.expected owner else pure .unknown
  | .letIn _ _ body => if body = i then Query.expected owner else pure .unknown
  | .lambda _ body =>
    if body = i then do
      let expected ← (← (← Query.expected owner).nonNull).fullyUnaliased
      match expected with
      | .cls d as _ => pure (if std.isFunctionClass d then as.getLastD .unknown else .unknown)
      | _ => pure .unknown
    else pure .unknown
  | .access _ (some args) => argument args
  | .memberAccess _ _ (some args) _ => argument args
  | _ => pure .unknown
where
  argument (args : List NodeIndex) : Query Ty :=
    match args.findIdx? (· == i) with
    | some position => argumentType owner position
    | none => pure .unknown

/-- The type an expression is expected to have from its position. -/
def expectedType (e : NodeRef) : Query Ty := do
  match ← Query.tree e.module with
  | none => pure .unknown
  | some t =>
    match t.parent? e.node with
    | none => pure .unknown
    | some parent =>
      match t.construct? parent with
      | none => pure .unknown
      | some c => expectedWithin (e.sibling parent) e.node c

/-- The types of the parameters of a lambda: its annotations, and else the parameter types of the
function type it is expected to have. -/
def lambdaParamTypes (lambda : NodeRef) : Query (List Ty) := do
  match ← Query.construct lambda with
  | some (t, .lambda params _) => do
    let expected ← (← (← Query.expected lambda).nonNull).fullyUnaliased
    let suggested := match expected with
      | .cls d as _ =>
        if std.functionArity d = some params.length then as.take params.length else []
      | _ => []
    params.zipIdx.mapM (fun (p, i) =>
      match t.construct? p with
      | some (.param { type := some written, .. }) => typeOfNode (lambda.sibling written) .empty
      | _ => pure ((suggested[i]?).getD .unknown))
  | _ => pure []

end PklAnalysis
