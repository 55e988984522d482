import PklAnalysis.Syntax.Builder

/-!
# Signatures

Declarations without bodies: the types of properties, the parameter and result types of methods, the
classes that hold them. `TreeBuilder.addClass` and its companions turn a signature into nodes, the
parts before the whole.
-/

namespace PklAnalysis.Standard

/-- A type as a signature writes it. -/
inductive SigType where
  | named (name : String) (args : List SigType)
  | nullable (inner : SigType)
  | union (left right : SigType)
  | function (params : List SigType) (result : SigType)
  | unknown
  deriving Repr, Inhabited

/-- A member of a class: a property with its type, or a method. -/
inductive Member where
  | property (name : String) (type : SigType)
  | method (name : String) (typeParams : List String) (params : List (String × SigType))
      (result : SigType)
  deriving Repr, Inhabited

/-- A class with its type parameters, its superclass and its members. -/
structure ClassSignature where
  modifiers : List Modifier
  name : String
  typeParams : List (String × Variance) := []
  superclass : Option SigType := none
  members : List Member := []
  deriving Repr, Inhabited

/-! ## Adding signatures to a tree -/

/-- Steps that add nodes to a tree. -/
abbrev Build := StateM TreeBuilder

namespace Build

def add (c : Construct) : Build NodeIndex := fun b => b.add c

def modifiers (ms : List Modifier) : Build (List ModifierToken) := fun b => b.placeModifiers ms

mutual
/-- Add the nodes of a type. -/
def type : SigType → Build NodeIndex
  | .named name args => do
    let args ← types args
    add (.declaredType none name args)
  | .nullable inner => do
    let inner ← type inner
    add (.nullableType inner)
  | .union left right => do
    let left ← type left
    let right ← type right
    add (.unionType left right)
  | .function params result => do
    let params ← types params
    let result ← type result
    add (.functionType params result)
  | .unknown => add .unknownType
/-- Add the nodes of several types, in order. -/
def types : List SigType → Build (List NodeIndex)
  | [] => pure []
  | t :: ts => do
    let i ← type t
    let is ← types ts
    pure (i :: is)
end

def typeParam (p : String × Variance) : Build NodeIndex := add (.typeParam ⟨p.1, p.2⟩)

/-- Add a parameter with its type. -/
def param (p : String × SigType) : Build NodeIndex := do
  let t ← type p.2
  add (.param ⟨p.1, some t⟩)

/-- Add a member. Methods of the standard library are written with `external`. -/
def member : Member → Build NodeIndex
  | .property name t => do
    let t ← type t
    add (.property { name := name, type := some t })
  | .method name typeParams params result => do
    let typeParams ← typeParams.mapM (fun p => typeParam (p, .invariant))
    let params ← params.mapM param
    let result ← type result
    let modifiers ← modifiers [.externalKw]
    add (.method { name := name, modifiers := modifiers, typeParams := typeParams,
                   params := params, returnType := some result })

/-- Add a class. -/
def classDecl (c : ClassSignature) : Build NodeIndex := do
  let typeParams ← c.typeParams.mapM typeParam
  let superclass ← match c.superclass with
    | none => pure none
    | some t => do
      let i ← type t
      pure (some i)
  let members ← c.members.mapM member
  let modifiers ← modifiers c.modifiers
  add (.classDecl { name := c.name, modifiers := modifiers, typeParams := typeParams,
                    superclass := superclass, members := members })

/-- Add an alias for a type node that was added before. -/
def aliasDecl (name : String) (typeParams : List NodeIndex) (target : NodeIndex) :
    Build NodeIndex :=
  add (.aliasDecl { name := name, typeParams := typeParams, target := target })

end Build

end PklAnalysis.Standard
