import PklAnalysis.Scope.Walk

/-!
# Visitors

A visitor is shown the candidates of a walk one after the other, and says each time whether the walk
is to go on. Candidates of another name than the one it asks for are passed over. Each part of a
walk hands on whether the visitor still wants to go on, and no part begins after it stopped.

`Visitor.resolveUnqualified` goes through what is visible at a place and `Visitor.resolveQualified`
through the members of a type, in the order of `Scope.visible` and `Scope.members`.
-/

namespace PklAnalysis

/-- What a visitor is shown of a candidate: its name, its declaration and the bindings of the class
it belongs to. -/
abbrev Sight := String × NodeRef × Bindings

/-- What a walk reports to. A visitor has a state, and it puts no questions. -/
structure Visitor (σ : Type) where
  /-- If there is such a name, candidates of other names are passed over. -/
  exactName : σ → Option String
  /-- Look at a candidate, and tell whether to go on. -/
  visit : σ → Sight → σ × Bool

/-- A part of a walk, as it changes the state of a visitor. It tells whether the visitor wants to go
on, or nothing if there were more aliases one inside the other than it may expand. -/
def Report (σ : Type) : Type := σ → Query (σ × Option Bool)

namespace Report

variable {σ α : Type}

/-- There is nothing to show. -/
def goOn : Report σ := fun s => pure (s, some true)

/-- The walk does not come out of the aliases. -/
def lost : Report σ := fun s => pure (s, none)

/-- The second part is taken if the visitor wants to go on after the first one. -/
def andAlso (x y : Report σ) : Report σ := fun s => do
  match ← x s with
  | (s, some true) => y s
  | stopped => pure stopped

/-- A part that depends on the answer of a query. -/
def after (q : Query α) (x : α → Report σ) : Report σ := fun s => do x (← q) s

end Report

namespace Visitor

open Report

variable {σ : Type} (v : Visitor σ) (mode : LookupMode)

/-- Whether candidates of this name are passed over. -/
def skips (s : σ) (name : String) : Bool := (v.exactName s).any (· != name)

/-- Pass over a candidate or look at it. -/
def step (s : σ) (c : Sight) : σ × Bool := if v.skips s c.1 then (s, true) else v.visit s c

/-- Show a candidate. -/
def shown (c : Sight) : Report σ := fun s => pure ((v.step s c).1, some (v.step s c).2)

/-- Offer the declaration at a node, if it is of interest and has a name. -/
def offer (t : SyntaxTree) (b : Bindings) (i : NodeIndex) : Report σ :=
  match t.construct? i with
  | none => goOn
  | some c =>
    if mode.accepts c then
      match c.name? with
      | none => goOn
      | some name => v.shown (name, t.ref i, b)
    else goOn

/-- Offer nodes in order, without the local ones if `skipLocal` says so. -/
def offerAll (t : SyntaxTree) (b : Bindings) (skipLocal : Bool) : List NodeIndex → Report σ
  | [] => goOn
  | i :: is =>
    if skipLocal && t.hasModifier i .localKw then offerAll t b skipLocal is
    else (v.offer mode t b i).andAlso (offerAll t b skipLocal is)

/-! ## Members of types -/

/-- The members of a class and of at most `n - 1` superclasses. -/
def classMembersFrom : Nat → List NodeRef → Bool → ClassTy → Report σ
  | 0, _, _, _ => goOn
  | n + 1, seen, skipLocal, c =>
    if seen.contains c.decl then goOn
    else
      after (Query.tree c.decl.module) fun
        | none => goOn
        | some t =>
          after (Bindings.forDeclaration c.decl c.args) fun b =>
            (v.offerAll mode t b skipLocal (t.membersOf c.decl.node)).andAlso
              (after c.superclass fun
                | none => goOn
                | some parent => classMembersFrom n (c.decl :: seen) true parent)

/-- The members of a class and its superclasses. -/
def classMembers (skipLocal : Bool) (c : ClassTy) : Report σ :=
  v.classMembersFrom mode Limits.supertypeChain [] skipLocal c

/-- The members of several modules; local members of all but the first one are left out. -/
def moduleMembersAlong : Bool → List ModuleId → Report σ
  | _, [] => goOn
  | skipLocal, m :: ms =>
    after (Query.tree m) fun
      | none => moduleMembersAlong true ms
      | some t =>
        (v.offerAll mode t .empty skipLocal t.moduleMembers).andAlso (moduleMembersAlong true ms)

/-- The members of a module and of the modules along its clauses. -/
def moduleMembers (skipLocal : Bool) (m : ModuleId) : Report σ :=
  after (moduleChain m) fun chain =>
    v.moduleMembersAlong mode skipLocal (chain.take Limits.moduleChain)

/-- The members of a type; `expand` goes through those of an alias. -/
def typeMembersWith (expand : Ty → Report σ) (skipLocal : Bool) : Ty → Report σ
  | .unknown => goOn
  | .nothing => goOn
  | .cls d as c => v.classMembers mode skipLocal ⟨d, as, c⟩
  | .module m _ _ =>
    (v.moduleMembers mode skipLocal m).andAlso (v.classMembers mode true ⟨std.module, [], []⟩)
  | .literal _ _ => v.classMembers mode true ⟨std.string, [], []⟩
  | .var _ _ => v.classMembers mode true ⟨std.any, [], []⟩
  | .typeAlias d as c => expand (.typeAlias d as c)
  | .union l r _ =>
    (typeMembersWith expand skipLocal l).andAlso (typeMembersWith expand skipLocal r)

/-- The members of a type. At most `n` aliases are expanded one inside the other. -/
def typeMembersUpTo (skipLocal : Bool) : Nat → Ty → Report σ
  | 0 => v.typeMembersWith mode (fun _ => lost) skipLocal
  | n + 1 =>
    v.typeMembersWith mode (fun t => after t.fullyUnaliased (typeMembersUpTo skipLocal n)) skipLocal

/-- The members of a type. -/
def typeMembers (skipLocal : Bool) (t : Ty) : Report σ :=
  v.typeMembersUpTo mode skipLocal Limits.aliasNesting t

/-! ## What is visible at a place -/

/-- What one construct around a place offers. `child` is the part of it that holds the place, and
`this` is the type whose members it offers besides its own. -/
def around (t : SyntaxTree) (this : Ty) (innermost : Bool) (i child : NodeIndex) :
    Construct → Report σ
  | .letIn p _ body => if body = child then v.offer mode t .empty p else goOn
  | .lambda ps body => if body = child then v.offerAll mode t .empty false ps else goOn
  | .forGenerator key value _ body =>
    if body = child then
      (key.elim goOn (v.offer mode t .empty)).andAlso (v.offer mode t .empty value)
    else goOn
  | .method d =>
    (v.offerAll mode t .empty false d.params).andAlso (v.offerAll mode t .empty false d.typeParams)
  | .objectBody ps ms =>
    ((v.offerAll mode t .empty false ps).andAlso (v.offerAll mode t .empty false ms)).andAlso
      (if innermost then v.typeMembers mode true this else goOn)
  | .classDecl d =>
    (v.classMembers mode false ⟨t.ref i, d.typeParams.map (fun p => .var (t.ref p) []), []⟩).andAlso
      (v.offerAll mode t .empty false d.typeParams)
  | .aliasDecl d => v.offerAll mode t .empty false d.typeParams
  | .constrainedType _ cs => if cs.contains child then v.typeMembers mode true this else goOn
  | _ => goOn

/-- What the constructs around a place offer, from the inside out, up to the module. -/
def outward (t : SyntaxTree) (this : Ty) : Bool → NodeIndex → List NodeIndex → Report σ
  | _, _, [] => goOn
  | innermost, child, i :: is =>
    match t.construct? i with
    | none => goOn
    | some c =>
      if c.isModule then goOn
      else (v.around mode t this innermost i child c).andAlso
        (outward t this (innermost && !c.isObjectBody) i is)

/-- Go through what is visible at a place, closest first, where `this` has the given type. -/
def resolveUnqualified (site : NodeRef) (this : Ty) : Report σ :=
  after (Query.tree site.module) fun
    | none => goOn
    | some t =>
      (v.outward mode t this true site.node (t.ancestors site.node)).andAlso
        ((v.moduleMembers mode false site.module).andAlso
          ((v.offerAll mode t .empty false t.imports).andAlso
            (if site.module = ModuleId.base then goOn
              else v.moduleMembers mode true ModuleId.base)))

/-- Go through the members of a type. -/
def resolveQualified (receiver : Ty) : Report σ := v.typeMembers mode true receiver

end Visitor

end PklAnalysis
