import PklAnalysis.Typing.Annotation

/-!
# The type of `this`

Inside an object body `this` is the object; else it is an instance of the enclosing class, or else
the module. Inside a constraint it is the value that the constraint is about.
-/

namespace PklAnalysis

/-- A type argument of a class found among the superclasses of a type. -/
def typeArgs? (t : Ty) (container : NodeRef) : Query (Option ClassTy) := do
  match t.class? with
  | some c => c.projectTo container
  | none => pure none

/-- The type of the elements of an object. -/
def elementType (container : Ty) : Query Ty := do
  let t ← container.fullyUnaliased
  match ← typeArgs? t std.listing with
  | some listing => pure (listing.arg 0)
  | none => pure .unknown

/-- The key and value types of the entries of an object. -/
def entryTypes (container : Ty) : Query (Ty × Ty) := do
  let t ← container.fullyUnaliased
  match ← typeArgs? t std.mapping with
  | some mapping => pure (mapping.arg 0, mapping.arg 1)
  | none =>
    match ← typeArgs? t std.listing with
    | some listing => pure (std.intTy, listing.arg 0)
    | none => pure (.unknown, .unknown)

/-- The first of several classes found among the superclasses of a type. -/
def firstContainer (t : Ty) : List NodeRef → Query (Option ClassTy)
  | [] => pure none
  | d :: ds => do
    match ← typeArgs? t d with
    | some c => pure (some c)
    | none => firstContainer t ds

/-- The key and value types met when a value is iterated over. -/
def iterationTypes (iterable : Ty) : Query (Ty × Ty) := do
  let t ← (← iterable.nonNull).fullyUnaliased
  if t.classDecl? = some std.intSeq then pure (std.intTy, std.intTy)
  else
    match ← firstContainer t [std.listing, std.collection] with
    | some c => pure (std.intTy, c.arg 0)
    | none =>
      match ← firstContainer t [std.mapping, std.map] with
      | some c => pure (c.arg 0, c.arg 1)
      | none => pure (.unknown, .unknown)

/-- The type of `this` seen from the first of some nested nodes, where `child` is the node before
it. -/
def thisTypeFrom (t : SyntaxTree) (m : ModuleId) : NodeIndex → List NodeIndex → Query Ty
  | _, [] => pure .unknown
  | child, i :: is =>
    match t.construct? i with
    | some (.objectBody _ _) => Query.bodyThis ⟨m, i⟩
    | some (.classDecl d) => Ty.ofClass ⟨m, i⟩ (d.typeParams.map (fun p => .var ⟨m, p⟩ []))
    | some (.module _) => Ty.ofModule m none
    | some (.constrainedType inner cs) =>
      if cs.contains child then typeOfNode ⟨m, inner⟩ .empty else thisTypeFrom t m i is
    | _ => thisTypeFrom t m i is

/-- The type of `this` at a place. -/
def thisType (site : NodeRef) : Query Ty := do
  match ← Query.tree site.module with
  | none => pure .unknown
  | some t => thisTypeFrom t site.module site.node (site.node :: t.ancestors site.node)

/-- The type of the object an object body belongs to. -/
def objectType (body : NodeRef) : Query Ty := do
  match ← Query.tree body.module with
  | none => pure .unknown
  | some t =>
    match t.parent? body.node with
    | none => pure .unknown
    | some parent =>
      let owner := body.sibling parent
      match t.construct? parent with
      | some (.newObject _ _) | some (.amend _ _) => Query.expr owner .empty
      | some (.property _) => do
        let declared ← Query.property owner
        if declared.isUnknown then pure std.dynamicTy else (← declared.nonNull).amending
      | some (.entry _ _ _) => do
        let container ← thisType owner
        let (_, value) ← entryTypes container
        (← value.nonNull).amending
      | some (.forGenerator _ _ _ _) | some (.whenGenerator _ _ _) => thisType owner
      | _ => pure .unknown

/-- The type of `outer`: that of `this` one object further out. -/
def outerType (site : NodeRef) : Query Ty := do
  match ← Query.tree site.module with
  | none => pure .unknown
  | some t =>
    match t.findAncestor site.node Construct.isObjectBody with
    | none => pure .unknown
    | some body =>
      match t.parent? body with
      | some parent => thisType (site.sibling parent)
      | none => pure .unknown

/-- What `super` stands for: the superclass of the enclosing class, or else the module along the
clause. -/
def superType? (site : NodeRef) : Query (Option Ty) := do
  match ← Query.tree site.module with
  | none => pure none
  | some t =>
    match t.enclosingClass site.node with
    | some c => Query.supertype (site.sibling c)
    | none =>
      match ← supermodule site.module with
      | none => pure none
      | some m => some <$> Ty.ofModule m none

end PklAnalysis
