import PklAnalysis.Limits
import PklAnalysis.Syntax.Node

/-!
# Syntax trees

A tree is a table of nodes with a root. Indices come from outside and may point nowhere, at a
shared node or in a circle, so every look-up is partial and every walk is bounded.
-/

namespace PklAnalysis

/-- The syntax tree of one module. -/
structure SyntaxTree where
  uri : String
  module : ModuleId
  nodes : Array Node
  root : NodeIndex
  deriving Repr, Inhabited

namespace SyntaxTree

variable (t : SyntaxTree)

def size : Nat := t.nodes.size

def ref (i : NodeIndex) : NodeRef := ⟨t.module, i⟩

def node? (i : NodeIndex) : Option Node := t.nodes[i]?

def construct? (i : NodeIndex) : Option Construct := (t.node? i).map (·.construct)

/-- Whether the node exists and its construct passes the test. -/
def holdsAt (i : NodeIndex) (p : Construct → Bool) : Bool := (t.construct? i).any p

def span (i : NodeIndex) : Span := ((t.node? i).map (·.span)).getD .nowhere

def parent? (i : NodeIndex) : Option NodeIndex := (t.node? i).bind (·.parent)

def children (i : NodeIndex) : List NodeIndex := ((t.construct? i).map Construct.children).getD []

def name? (i : NodeIndex) : Option String := (t.construct? i).bind Construct.name?

def modifiers (i : NodeIndex) : List Modifier := ((t.construct? i).map Construct.modifiers).getD []

def hasModifier (i : NodeIndex) (m : Modifier) : Bool := (t.modifiers i).contains m

/-! ## Walking up -/

/-- The chain of parents that starts with `i?`, at most `n` long. -/
def chainUp : Nat → Option NodeIndex → List NodeIndex
  | 0, _ => []
  | _, none => []
  | n + 1, some i => i :: chainUp n (t.parent? i)

/-- The nodes that the node is part of, innermost first. -/
def ancestors (i : NodeIndex) : List NodeIndex := t.chainUp Limits.treeWalk (t.parent? i)

/-- The innermost node around `i` whose construct passes the test. -/
def findAncestor (i : NodeIndex) (p : Construct → Bool) : Option NodeIndex :=
  (t.ancestors i).find? (fun a => t.holdsAt a p)

def enclosingClass (i : NodeIndex) : Option NodeIndex := t.findAncestor i Construct.isClass

/-! ## The module -/

def moduleDecl? : Option ModuleDecl :=
  match t.construct? t.root with
  | some (.module d) => some d
  | _ => none

def clause? : Option Clause := t.moduleDecl?.bind (·.clause)

def moduleName? : Option String := t.moduleDecl?.bind (·.name)

def imports : List NodeIndex := (t.moduleDecl?.map (·.imports)).getD []

def moduleMembers : List NodeIndex := (t.moduleDecl?.map (·.members)).getD []

/-! ## Members by name -/

def membersOf (container : NodeIndex) : List NodeIndex :=
  ((t.construct? container).map Construct.members).getD []

/-- The first top-level class or alias of the name. -/
def findTypeDecl (name : String) : Option NodeIndex :=
  t.moduleMembers.find? (fun m =>
    t.holdsAt m (fun c => c.isClass || c.isAlias) && t.name? m == some name)

/-- The first property, or method, of the name that is written directly in the container. -/
def findMember (container : NodeIndex) (name : String) (method : Bool) : Option NodeIndex :=
  (t.membersOf container).find? (fun m =>
    t.holdsAt m (fun c => if method then c.isMethod else c.isProperty) && t.name? m == some name)

/-! ## Walking down -/

/-- From `i`, which contains the offset, step to the first child that contains it, as long as there
is one. -/
def descend (offset : Nat) : Nat → NodeIndex → NodeIndex
  | 0, i => i
  | n + 1, i =>
    match (t.children i).find? (fun c => (t.span c).contains offset) with
    | some c => descend offset n c
    | none => i

/-- The innermost node that contains the offset. -/
def nodeAt (offset : Nat) : Option NodeIndex :=
  if (t.span t.root).contains offset then some (t.descend offset Limits.treeWalk t.root) else none

/-- Every index of the table. -/
def indices : List NodeIndex := List.range t.size

end SyntaxTree

end PklAnalysis
