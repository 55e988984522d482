import PklAnalysis.Query

/-!
# Hierarchies

Type parameters and superclasses of classes, and the `amends` and `extends` clauses of modules. All
walks are bounded and stop at the first repetition, since the clauses are written by the user.
-/

namespace PklAnalysis

/-! ## Declarations -/

/-- The name of a declaration. -/
def declName? (decl : NodeRef) : Query (Option String) := do
  match ← Query.construct decl with
  | none => pure none
  | some (_, c) => pure c.name?

/-- The type parameters of a class, an alias or a method, with their variance. -/
def typeParams (decl : NodeRef) : Query (List (NodeRef × Variance)) := do
  match ← Query.construct decl with
  | none => pure []
  | some (t, c) =>
    pure (c.typeParams.map (fun p =>
      (decl.sibling p, match t.construct? p with
        | some (.typeParam d) => d.variance
        | _ => .invariant)))

/-- Bind the type parameters of a declaration to arguments by position. A parameter without an
argument stays unbound. -/
def Bindings.forDeclaration (decl : NodeRef) (args : List Ty) : Query Bindings := do
  let params ← typeParams decl
  pure (Bindings.empty.extend ((params.map (·.1)).zip args))

/-! ## Modules -/

/-- The module that the clause of a module leads to. A clause that leads back to its own module
counts as none. -/
def supermodule (m : ModuleId) : Query (Option ModuleId) := do
  match ← Query.tree m with
  | none => pure none
  | some t =>
    match t.clause? with
    | none => pure none
    | some c => do
      let target ← Query.reference m c.uri
      pure (target.filter (· != m))

/-- Whether a module amends or extends another one. -/
def clauseKind (m : ModuleId) : Query (Option ClauseKind) := do
  let t ← Query.tree m
  pure (t.bind (fun t => t.clause?.map (·.kind)))

/-- Follow `amends` clauses for at most `n` steps, without coming back to a module in `seen`. -/
def amendsRootFrom : Nat → List ModuleId → ModuleId → Query ModuleId
  | 0, _, m => pure m
  | n + 1, seen, m =>
    if seen.contains m then pure m
    else do
      if (← clauseKind m) != some .amending then pure m
      else
        match ← supermodule m with
        | some next => amendsRootFrom n (m :: seen) next
        | none => pure m

/-- The topmost module of the `amends` chain of a module. -/
def amendsRoot (m : ModuleId) : Query ModuleId := amendsRootFrom Limits.moduleChain [] m

/-- Whether `sup` is met within `n` steps from `m` along the clauses. -/
def moduleExtendsFrom (sup : ModuleId) : Nat → List ModuleId → ModuleId → Query Bool
  | 0, _, _ => pure false
  | n + 1, seen, m =>
    if m = sup then pure true
    else if seen.contains m then pure false
    else do
      match ← supermodule m with
      | some next => moduleExtendsFrom sup n (m :: seen) next
      | none => pure false

/-- Whether `sub` reaches `sup` along its clauses. -/
def moduleExtends (sub sup : ModuleId) : Query Bool :=
  moduleExtendsFrom sup Limits.moduleChain [] sub

/-- The modules met within `n` steps from `m`, newest last; `chain` holds the earlier ones. -/
def moduleChainFrom : Nat → List ModuleId → ModuleId → Query (List ModuleId)
  | 0, chain, _ => pure chain
  | n + 1, chain, m => do
    match ← supermodule m with
    | some next =>
      if chain.contains next then pure chain else moduleChainFrom n (chain ++ [next]) next
    | none => pure chain

/-- A module followed by the modules along its clauses, without repetition. -/
def moduleChain (m : ModuleId) : Query (List ModuleId) :=
  moduleChainFrom Limits.moduleChain [m] m

/-! ## Types with declared arguments -/

namespace Ty

/-- Cut the arguments to the number of type parameters, or fill them up with `unknown`. -/
def fitArgs (decl : NodeRef) (args : List Ty) : Query (List Ty) := do
  let arity := (← typeParams decl).length
  pure (args.take arity ++ List.replicate (arity - args.length) .unknown)

/-- A class applied to arguments. -/
def ofClass (decl : NodeRef) (args : List Ty) : Query Ty := do
  let args ← fitArgs decl args
  pure (.cls decl args [])

/-- An alias applied to arguments. -/
def ofAlias (decl : NodeRef) (args : List Ty) : Query Ty := do
  let args ← fitArgs decl args
  pure (.typeAlias decl args [])

/-- The type of a module, by the topmost module of its `amends` chain. -/
def ofModule (m : ModuleId) (name : Option String) : Query Ty := do
  let root ← amendsRoot m
  pure (.module root name [])

/-! ## Aliases -/

/-- Expand an alias once. -/
def unaliased : Ty → Query Ty
  | .typeAlias d as c => Query.expansion d as c
  | t => pure t

/-- Expand at most `n` aliases, one after the other. -/
def expandUpTo : Nat → Ty → Query Ty
  | 0, t => pure t
  | n + 1, t => if t.isAlias then do expandUpTo n (← t.unaliased) else pure t

/-- Expand until the type is no alias. -/
def fullyUnaliased (t : Ty) : Query Ty := do
  let t ← expandUpTo Limits.moduleChain t
  pure (if t.isAlias then .unknown else t)

end Ty

/-! ## Superclasses -/

namespace ClassTy

/-- The direct superclass of a class type, with the type arguments put in. -/
def superclass (c : ClassTy) : Query (Option ClassTy) := do
  match ← Query.supertype c.decl with
  | none => pure none
  | some declared => do
    let bindings ← Bindings.forDeclaration c.decl c.args
    let parent ← (declared.bind bindings).unaliased
    pure parent.class?

/-- Walk at most `n` classes up to `target`. -/
def projectFrom (target : NodeRef) : Nat → List NodeRef → ClassTy → Query (Option ClassTy)
  | 0, _, _ => pure none
  | n + 1, seen, c =>
    if c.decl = target then pure (some c)
    else if seen.contains c.decl then pure none
    else do
      match ← c.superclass with
      | some parent => projectFrom target n (c.decl :: seen) parent
      | none => pure none

/-- The class `target` among a class type and its superclasses, with the arguments it has there. -/
def projectTo (c : ClassTy) (target : NodeRef) : Query (Option ClassTy) :=
  projectFrom target Limits.supertypeChain [] c

end ClassTy

/-- Whether a class is another one or a subclass of it. -/
def classExtends (decl ancestor : NodeRef) : Query Bool := do
  let found ← ClassTy.projectTo ⟨decl, [], []⟩ ancestor
  pure found.isSome

end PklAnalysis
