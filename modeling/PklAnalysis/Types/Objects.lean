import PklAnalysis.Types.Union

/-!
# Types of objects

The type an object has that is made by amending a value, by `new T`, or by an object body that
stands where a `T` is expected. `nothing` says that there is no such object. `Ty.isOpen` says
whether an object may have more members than its type declares.
-/

namespace PklAnalysis

/-- Whether the instances of a class are objects. -/
def isObjectClass (decl : NodeRef) : Query Bool := classExtends decl std.object

def isAbstractClass (decl : NodeRef) : Query Bool := do
  match ← Query.construct decl with
  | none => pure false
  | some (_, c) => pure (c.hasModifier .abstractKw)

namespace Ty

def amendedWith (expand : Ty → Query Ty) : Ty → Query Ty
  | .unknown => pure .unknown
  | .var _ _ => pure .unknown
  | .cls d as c => do if ← isObjectClass d then pure (.cls d as c) else pure .nothing
  | .module i n c => pure (.module i n c)
  | .typeAlias d as c => expand (.typeAlias d as c)
  | .union l r _ => do
    let l ← amendedWith expand l
    let r ← amendedWith expand r
    either l r
  | _ => pure .nothing

def amendedUpTo : Nat → Ty → Query Ty
  | 0 => amendedWith (fun _ => pure .unknown)
  | n + 1 => amendedWith (fun t => do amendedUpTo n (← t.unaliased))

/-- The type of `(value) { … }` for a value of the type. -/
def amended (t : Ty) : Query Ty := amendedUpTo Limits.aliasNesting t

def instantiatedUpTo : Nat → Ty → Query Ty
  | n, t =>
    match n, t with
    | _, .unknown => pure .unknown
    | _, .cls d as c => do
      if ← isObjectClass d then
        if ← isAbstractClass d then pure .nothing else pure (Ty.cls d as c).withoutConstraints
      else pure .nothing
    | n + 1, .typeAlias d as c => do instantiatedUpTo n (← (Ty.typeAlias d as c).unaliased)
    | 0, .typeAlias _ _ _ => pure .unknown
    | _, _ => pure .nothing

/-- The type of `new T { … }`: concrete object classes only, without their constraints. -/
def instantiated (t : Ty) : Query Ty := instantiatedUpTo Limits.aliasNesting t

mutual
def amendingWith (expand : Ty → Query Ty) : Ty → Query Ty
  | .unknown => pure .unknown
  | .var _ _ => pure .unknown
  | .cls d as c => do
    if ← isObjectClass d then pure (.cls d as c)
    else if std.functions[1]? = some d then amendingFirst expand as
    else pure .nothing
  | .module i n c => pure (.module i n c)
  | .typeAlias d as c => expand (.typeAlias d as c)
  | .union l r _ => do
    let l ← amendingWith expand l
    let r ← amendingWith expand r
    either l r
  | _ => pure .nothing
/-- A mixin contributes the type it amends. -/
def amendingFirst (expand : Ty → Query Ty) : List Ty → Query Ty
  | [] => pure .unknown
  | a :: _ => amendingWith expand a
end

def amendingUpTo : Nat → Ty → Query Ty
  | 0 => amendingWith (fun _ => pure .unknown)
  | n + 1 => amendingWith (fun t => do amendingUpTo n (← t.unaliased))

/-- The type of an object body where a value of the type is expected. -/
def amending (t : Ty) : Query Ty := amendingUpTo Limits.aliasNesting t

/-! ## Open types -/

/-- Whether a declaration may be extended elsewhere. -/
def isOpenDecl (t : Option SyntaxTree) (i : SyntaxTree → NodeIndex) : Bool :=
  t.any (fun t => t.hasModifier (i t) .openKw || t.hasModifier (i t) .abstractKw)

def isOpenWith (expand : Ty → Query Bool) : Ty → Query Bool
  | .cls d _ _ => do
    let t ← Query.tree d.module
    pure (isOpenDecl t (fun _ => d.node))
  | .module m _ _ => do
    let t ← Query.tree m
    pure (isOpenDecl t (·.root))
  | .union l r _ => do if ← isOpenWith expand l then pure true else isOpenWith expand r
  | .typeAlias d as c => expand (.typeAlias d as c)
  | _ => pure false

def isOpenUpTo : Nat → Ty → Query Bool
  | 0 => isOpenWith (fun _ => pure false)
  | n + 1 => isOpenWith (fun t => do isOpenUpTo n (← t.fullyUnaliased))

/-- Whether values of the type may have members that it does not declare, because it is an `open` or
`abstract` class or module. -/
def isOpen (t : Ty) : Query Bool := isOpenUpTo Limits.aliasNesting t

end Ty

end PklAnalysis
