import PklAnalysis.Scope.Lookup
import PklAnalysis.Types.Objects

/-!
# Type annotations

The type that a type node denotes. Type parameters bound by `b` are replaced; others stay variables.
A type node on a path that never repeats has fewer than `size` nodes below it.
-/

namespace PklAnalysis

/-- The type of a declaration applied to arguments. -/
def typeOfTypeDecl (decl : NodeRef) (args : List Ty) (b : Bindings) : Query Ty := do
  match ← Query.construct decl with
  | some (_, .classDecl _) => Ty.ofClass decl args
  | some (_, .aliasDecl _) => Ty.ofAlias decl args
  | some (_, .typeParam _) => pure ((b.get? decl).getD (.var decl []))
  | some (_, .module d) => Ty.ofModule decl.module d.name
  | _ => pure .unknown

/-- The type of a type node, given the types of the nodes it is made of. -/
def typeOfTypeConstruct (b : Bindings) (r : NodeRef) (part : NodeIndex → Query Ty) :
    Construct → Query Ty
  | .declaredType qualifier name args => do
    match ← resolveType r qualifier name with
    | none => pure .unknown
    | some found => do
      let args ← args.mapM part
      typeOfTypeDecl found.decl args b
  | .literalType s => pure (.literal s [])
  | .nullableType i => do
    let inner ← part i
    inner.nullable
  | .unionType l r => do
    let left ← part l
    let right ← part r
    Ty.either left right
  | .constrainedType i cs => do
    let inner ← part i
    pure (inner.addConstraints (cs.map r.sibling))
  | .functionType ps i => do
    let params ← ps.mapM part
    let result ← part i
    pure (std.functionTy params result)
  | .groupedType i => part i
  | .nothingType => pure .nothing
  | .moduleType => Ty.ofModule r.module none
  | _ => pure .unknown

/-- The type of a type node whose parts nest at most `n` deep. -/
def typeOfNodeUpTo (t : SyntaxTree) (b : Bindings) (m : ModuleId) : Nat → NodeIndex → Query Ty
  | 0, _ => pure .unknown
  | n + 1, i =>
    match t.construct? i with
    | none => pure .unknown
    | some c => typeOfTypeConstruct b ⟨m, i⟩ (typeOfNodeUpTo t b m n) c

/-- The type that a type node denotes. -/
def typeOfNode (r : NodeRef) (b : Bindings) : Query Ty := do
  match ← Query.tree r.module with
  | none => pure .unknown
  | some t => typeOfNodeUpTo t b r.module (t.size + 1) r.node

/-- The declared supertype of a class: `Typed` unless it extends something, and none for `Any`. -/
def declaredSupertype (cls : NodeRef) : Query (Option Ty) := do
  if cls = std.any then pure none
  else
    match ← Query.construct cls with
    | some (_, .classDecl d) =>
      match d.superclass with
      | none => pure (some std.typedTy)
      | some clause => Query.superclause cls (cls.sibling clause)
    | _ => pure none

/-- The right-hand side of an alias. -/
def aliasTarget (decl : NodeRef) : Query Ty := do
  match ← Query.construct decl with
  | some (_, .aliasDecl d) => typeOfNode (decl.sibling d.target) .empty
  | _ => pure .unknown

/-- An alias applied to arguments: its right-hand side with the arguments put in and the constraints
of the alias type attached. -/
def expandAlias (decl : NodeRef) (args : List Ty) (c : Constraints) : Query Ty := do
  let target ← Query.aliased decl
  let b ← Bindings.forDeclaration decl args
  pure ((target.bind b).addConstraints c)

end PklAnalysis
