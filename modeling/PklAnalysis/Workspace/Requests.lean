import PklAnalysis.Completion
import PklAnalysis.Workspace.Analysis

/-!
# Requests about a place in a module

What an editor asks about the text at an offset: how it may go on, where its name is declared, and
what it is. A place outside the text of an open module has no answer.
-/

namespace PklAnalysis

/-- Where something is declared. -/
structure Location where
  uri : String
  span : Span
  deriving DecidableEq, Repr, Inhabited

/-- What is shown about a node. -/
structure Hover where
  contents : String
  span : Span
  deriving DecidableEq, Repr, Inhabited

/-- How the text at a node may go on: with the members of the receiver of a member access, with
types in a type, else with all that can be named. -/
def completeAt (site : NodeRef) : Query (List CompletionItem) := do
  match ← Query.construct site with
  | some (_, .memberAccess receiver _ _ _) => completeQualified (site.sibling receiver)
  | some (_, c) => if c.isType then completeType site else completeUnqualified site
  | none => completeUnqualified site

/-- The root of the module to which a reference leads. -/
def rootOf (m : Option ModuleId) : Query (Option NodeRef) :=
  match m with
  | some m => moduleRoot m
  | none => pure none

/-- The declaration that a node names. -/
def declarationAt (site : NodeRef) : Query (Option NodeRef) := do
  match ← Query.construct site with
  | some (_, .access ..) => do pure ((← resolveAccess site).map (·.decl))
  | some (_, .memberAccess ..) => do pure ((← resolveAccess site).map (·.decl))
  | some (_, .declaredType none name _) => do pure ((← resolveTypeName site name).map (·.decl))
  | some (_, .declaredType (some qualifier) name _) => do
    pure ((← resolveQualifiedType site qualifier name).map (·.decl))
  | some (_, .importClause _) => do rootOf (← importedModule site)
  | some (_, .importExpr uri _) => do rootOf (← Query.reference site.module uri)
  | _ => pure none

/-- Where the declaration stands that a node names. -/
def definitionAt (site : NodeRef) : Query (Option Location) := do
  match ← declarationAt site with
  | none => pure none
  | some decl => do pure ((← Query.tree decl.module).map fun t => ⟨t.uri, t.span decl.node⟩)

/-- What a node is: a declaration with its type, or the type of a type or an expression. -/
def descriptionAt (site : NodeRef) : Query (Option String) := do
  let declared (c : Construct) : Query (Option String) := do
    let t ← (← typeOfDeclaration site .empty).display
    pure (c.name?.map fun name => c.kindName ++ " " ++ name ++ ": " ++ t)
  match ← Query.construct site with
  | none => pure none
  | some (_, c) => match c with
    | .classDecl d => pure (some ("class " ++ d.name))
    | .aliasDecl d => do
      let t ← (← typeOfNode (site.sibling d.target) .empty).display
      pure (some ("typealias " ++ d.name ++ " = " ++ t))
    | .property _ => declared c
    | .method _ => declared c
    | .param _ => declared c
    | c =>
      if c.isType then do some <$> (← typeOfNode site .empty).display
      else if c.isExpression then do some <$> (← Query.expr site .empty).display
      else pure none

namespace Workspace

/-- The innermost node at an offset of an open module, and the module's tree. -/
def nodeAt (w : Workspace) (uri : String) (offset : Nat) : Option (SyntaxTree × NodeIndex) := do
  let t ← w.tree? uri
  let i ← t.nodeAt offset
  pure (t, i)

/-- Answer a query about the node at an offset. -/
def askAt {α : Type} (files : Files) (uri : String) (offset : Nat) (outside : α)
    (x : NodeRef → Query α) : StateM Workspace α := do
  match (← get).nodeAt uri offset with
  | some (t, i) => ask files (x (t.ref i))
  | none => pure outside

/-- How the text at an offset may go on. -/
def completion (files : Files) (uri : String) (offset : Nat) :
    StateM Workspace (List CompletionItem) :=
  askAt files uri offset [] completeAt

/-- Where the name at an offset is declared. -/
def definition (files : Files) (uri : String) (offset : Nat) : StateM Workspace (Option Location) :=
  askAt files uri offset none definitionAt

/-- What stands at an offset. -/
def hover (files : Files) (uri : String) (offset : Nat) : StateM Workspace (Option Hover) := do
  let span := ((← get).nodeAt uri offset).map fun (t, i) => t.span i
  let contents ← askAt files uri offset none descriptionAt
  pure do pure ⟨← contents, ← span⟩

end Workspace

end PklAnalysis
