import PklAnalysis.Types.Hierarchy

/-!
# Scopes

Every look-up of a name follows one walk over candidate declarations. `Scope.visible` offers what is
visible at a place in a module, from the inside out; `Scope.members` offers the members of a type.

Visible at a place are: `let` parameters, lambda parameters and generator variables around it, the
parameters and type parameters of methods, the members of object bodies (the innermost body also
offers the members of `this`), the members of classes and their superclasses, the module with the
modules along its clauses, the imports, and the standard library.
-/

namespace PklAnalysis

/-- Which declarations a look-up is interested in. -/
inductive LookupMode where
  /-- Properties, parameters and imports. -/
  | property
  | method
  /-- Classes, aliases, type parameters and imports. -/
  | type
  deriving DecidableEq, Repr, Inhabited

namespace LookupMode

/-- An access with an argument list looks up a method. -/
def ofArgs {α : Type} (args : Option α) : LookupMode := if args.isSome then method else property

def accepts : LookupMode → Construct → Bool
  | property, .property _ => true
  | property, .param _ => true
  | property, .importClause _ => true
  | method, .method _ => true
  | type, .classDecl _ => true
  | type, .aliasDecl _ => true
  | type, .typeParam _ => true
  | type, .importClause _ => true
  | _, _ => false

end LookupMode

/-- A declaration met by a walk. `bindings` binds the type parameters of the class it belongs to. -/
structure Candidate where
  name : String
  decl : NodeRef
  construct : Construct
  bindings : Bindings
  deriving Inhabited

namespace Scope

/-- The candidate at a node, if its construct is of interest. -/
def candidate? (t : SyntaxTree) (mode : LookupMode) (b : Bindings) (i : NodeIndex) :
    Option Candidate :=
  match t.construct? i with
  | none => none
  | some c => if mode.accepts c then c.name?.map (fun name => ⟨name, t.ref i, c, b⟩) else none

/-- Offer nodes in order, without the local ones if `skipLocal` says so. -/
def offers (t : SyntaxTree) (mode : LookupMode) (b : Bindings) (skipLocal : Bool)
    (is : List NodeIndex) : Walk Candidate :=
  .ofList ((is.filter (fun i => !(skipLocal && t.hasModifier i .localKw))).filterMap
    (candidate? t mode b))

/-! ## Members of types -/

/-- The members of a class and of at most `n - 1` superclasses. Local members of superclasses are
never offered. -/
def classMembersFrom (mode : LookupMode) : Nat → List NodeRef → Bool → ClassTy → Walk Candidate
  | 0, _, _, _ => .done
  | n + 1, seen, skipLocal, c =>
    if seen.contains c.decl then .done
    else
      .after (Query.tree c.decl.module) fun
        | none => .done
        | some t =>
          .after (Bindings.forDeclaration c.decl c.args) fun b =>
            offers t mode b skipLocal (t.membersOf c.decl.node) ++
              .after c.superclass fun
                | none => .done
                | some parent => classMembersFrom mode n (c.decl :: seen) true parent

/-- The members of a class and its superclasses. -/
def classMembers (mode : LookupMode) (skipLocal : Bool) (c : ClassTy) : Walk Candidate :=
  classMembersFrom mode Limits.supertypeChain [] skipLocal c

/-- The members of several modules; local members of all but the first one are left out. -/
def moduleMembersAlong (mode : LookupMode) : Bool → List ModuleId → Walk Candidate
  | _, [] => .done
  | skipLocal, m :: ms =>
    .after (Query.tree m) fun
      | none => moduleMembersAlong mode true ms
      | some t => offers t mode .empty skipLocal t.moduleMembers ++ moduleMembersAlong mode true ms

/-- The members of a module and of the modules along its clauses. -/
def moduleMembers (mode : LookupMode) (skipLocal : Bool) (m : ModuleId) : Walk Candidate :=
  .after (moduleChain m) fun chain =>
    moduleMembersAlong mode skipLocal (chain.take Limits.moduleChain)

/-- The members of a class of the standard library. -/
def standardMembers (mode : LookupMode) (decl : NodeRef) : Walk Candidate :=
  classMembers mode true ⟨decl, [], []⟩

/-- The members of a type; `expand` offers those of an alias. -/
def membersWith (mode : LookupMode) (expand : Ty → Walk Candidate) (skipLocal : Bool) :
    Ty → Walk Candidate
  | .unknown => .done
  | .nothing => .done
  | .var _ _ => standardMembers mode std.any
  | .cls d as c => classMembers mode skipLocal ⟨d, as, c⟩
  | .module m _ _ => moduleMembers mode skipLocal m ++ standardMembers mode std.module
  | .typeAlias d as c => expand (.typeAlias d as c)
  | .literal _ _ => standardMembers mode std.string
  | .union l r _ => membersWith mode expand skipLocal l ++ membersWith mode expand skipLocal r

/-- The members of a type with at most `n` aliases expanded one inside the other. -/
def membersUpTo (mode : LookupMode) (skipLocal : Bool) : Nat → Ty → Walk Candidate
  | 0 => membersWith mode (fun _ => .done) skipLocal
  | n + 1 =>
    membersWith mode (fun t => .after t.fullyUnaliased (membersUpTo mode skipLocal n)) skipLocal

/-- The members of a type. Local declarations are not among them. -/
def members (mode : LookupMode) (t : Ty) : Walk Candidate :=
  membersUpTo mode true Limits.aliasNesting t

/-! ## What is visible at a place -/

/-- What one construct around a place offers. `child` is the part of it that holds the place, and
`this` is the type whose members it offers besides its own. -/
def around (t : SyntaxTree) (mode : LookupMode) (this : Ty) (innermost : Bool)
    (i child : NodeIndex) : Construct → Walk Candidate
  | .letIn p _ body => if body = child then offers t mode .empty false [p] else .done
  | .lambda ps body => if body = child then offers t mode .empty false ps else .done
  | .forGenerator key value _ body =>
    if body = child then offers t mode .empty false (key.toList ++ [value]) else .done
  | .method d => offers t mode .empty false (d.params ++ d.typeParams)
  | .objectBody ps ms =>
    offers t mode .empty false (ps ++ ms) ++ (if innermost then members mode this else .done)
  | .classDecl d =>
    classMembers mode false ⟨t.ref i, d.typeParams.map (fun p => .var (t.ref p) []), []⟩ ++
      offers t mode .empty false d.typeParams
  | .aliasDecl d => offers t mode .empty false d.typeParams
  | .constrainedType _ cs => if cs.contains child then members mode this else .done
  | _ => .done

/-- What the constructs around a place offer, from the inside out, up to the module. -/
def outward (t : SyntaxTree) (mode : LookupMode) (this : Ty) :
    Bool → NodeIndex → List NodeIndex → Walk Candidate
  | _, _, [] => .done
  | innermost, child, i :: is =>
    match t.construct? i with
    | none => .done
    | some c =>
      if c.isModule then .done
      else around t mode this innermost i child c ++
        outward t mode this (innermost && !c.isObjectBody) i is

/-- What every place of a module sees: its members and those along its clauses, its imports, and the
standard library. -/
def moduleLevel (t : SyntaxTree) (mode : LookupMode) (m : ModuleId) : Walk Candidate :=
  moduleMembers mode false m ++
    (offers t mode .empty false t.imports ++
      (if m = ModuleId.base then .done else moduleMembers mode true ModuleId.base))

/-- Everything visible at a place, closest first, where `this` has the given type. -/
def visible (site : NodeRef) (this : Ty) (mode : LookupMode) : Walk Candidate :=
  .after (Query.tree site.module) fun
    | none => .done
    | some t =>
      outward t mode this true site.node (t.ancestors site.node) ++ moduleLevel t mode site.module

end Scope

end PklAnalysis
