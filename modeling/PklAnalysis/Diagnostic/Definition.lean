import PklAnalysis.Typing.Expr

/-!
# Properties in amended objects

What a property in an object body, or in a module that amends another one, does to the object it
amends.
-/

namespace PklAnalysis

inductive Definition where
  /-- The property may be defined freely. -/
  | unrestricted
  /-- It overrides an inherited property. -/
  | overriding
  /-- It is a new property where only local ones may be defined. -/
  | needsLocal
  /-- There is nothing that it could override. -/
  | unresolved
  deriving DecidableEq, Repr, Inhabited

/-- Whether a module declares a local property of the name. -/
def SyntaxTree.hasLocalProperty (t : SyntaxTree) (name : String) : Bool :=
  t.moduleMembers.any (fun m =>
    t.name? m == some name && t.hasModifier m .localKw && t.holdsAt m Construct.isProperty)

/-- Whether one of several modules declares a local property of the name. -/
def isLocalIn (name : String) : List ModuleId → Query Bool
  | [] => pure false
  | m :: ms => do
    let t ← Query.tree m
    if t.any (·.hasLocalProperty name) then pure true else isLocalIn name ms

/-- Whether an object takes properties that its type does not declare. -/
def acceptsAnyProperty (this : Ty) : Query Bool :=
  if this.isUnknown then pure false else this.isSubtype std.dynamicTy

/-- The definition of a property in an object body. -/
def definitionInBody (body : NodeRef) : Query Definition := do
  let this ← thisType body
  if this.isUnknown then pure .unrestricted
  else if ← this.isSubtype std.dynamicTy then pure .unrestricted
  else pure .unresolved

/-- The definition of a property in a module that amends another one. -/
def definitionInModule (m : ModuleId) (name : String) : Query Definition := do
  let chain ← moduleChain m
  if ← isLocalIn name chain.tail then pure .needsLocal else pure .unresolved

/-- What a property does to the object it amends. -/
def definitionOf (t : SyntaxTree) (property : NodeRef) : Query Definition := do
  match t.construct? property.node, t.parent? property.node with
  | some (.property d), some container =>
    if t.hasModifier property.node .localKw then pure .unrestricted
    else
      let inBody := t.holdsAt container Construct.isObjectBody
      let amends := t.holdsAt container Construct.isModule && t.clause?.any (·.kind == .amending)
      if !inBody && !amends then pure .unrestricted
      else if d.type.isSome then pure .needsLocal
      else if (← overriddenProperty property).isSome then pure .overriding
      else if inBody then definitionInBody (property.sibling container)
      else definitionInModule property.module d.name
  | _, _ => pure .unrestricted

end PklAnalysis
