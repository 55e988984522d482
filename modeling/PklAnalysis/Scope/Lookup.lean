import PklAnalysis.Scope.Walk

/-!
# Looking up names

The first candidate of a name is the declaration it refers to. An import refers to the imported
module, and a type parameter that is bound to a class or an alias refers to that declaration.
-/

namespace PklAnalysis

/-- A declaration with the bindings of the class it was found in. -/
structure Resolved where
  decl : NodeRef
  bindings : Bindings
  deriving Repr, Inhabited

/-- The root node of a module. -/
def moduleRoot (m : ModuleId) : Query (Option NodeRef) := do
  let t ← Query.tree m
  pure (t.map (fun t => t.ref t.root))

/-- The module an import leads to. -/
def importedModule (decl : NodeRef) : Query (Option ModuleId) := do
  match ← Query.construct decl with
  | some (_, .importClause d) => Query.reference decl.module d.uri
  | _ => pure none

/-- What a candidate refers to. -/
def Candidate.resolved (c : Candidate) : Query Resolved := do
  if c.construct.isImport then
    match ← importedModule c.decl with
    | none => pure ⟨c.decl, c.bindings⟩
    | some m => do
      let root ← moduleRoot m
      pure ⟨root.getD c.decl, c.bindings⟩
  else
    match c.bindings.get? c.decl with
    | some (.cls d _ _) => pure ⟨d, c.bindings⟩
    | some (.typeAlias d _ _) => pure ⟨d, c.bindings⟩
    | _ => pure ⟨c.decl, c.bindings⟩

namespace Walk

/-- The candidates of one name. -/
def named (w : Walk Candidate) (name : String) : Walk Candidate := w.filter (·.name == name)

/-- The first candidate of a name. -/
def firstNamed (w : Walk Candidate) (name : String) : Query (Option Candidate) :=
  (w.named name).head?

/-- What the first candidate of a name refers to. -/
def resolve (w : Walk Candidate) (name : String) : Query (Option Resolved) := do
  match ← w.firstNamed name with
  | none => pure none
  | some c => some <$> c.resolved

/-- Only the closest candidate of each name, methods apart from everything else. `seen` holds the
names met so far, with a mark for methods. -/
def unshadowed (seen : List (Bool × String)) : Walk Candidate → Walk Candidate
  | done => done
  | offer c rest =>
    let key := (c.construct.isMethod, c.name)
    if seen.contains key then rest.unshadowed seen else offer c (rest.unshadowed (key :: seen))
  | ask q next => ask q (fun a => (next a).unshadowed seen)

end Walk

/-! ## Type names -/

/-- The declaration a type name refers to at a place. -/
def resolveTypeName (site : NodeRef) (name : String) : Query (Option Resolved) :=
  (Scope.visible site .unknown .type).resolve name

/-- The declaration `qualifier.name` refers to, where `qualifier` names an import. -/
def resolveQualifiedType (site : NodeRef) (qualifier name : String) : Query (Option Resolved) := do
  match ← resolveTypeName site qualifier with
  | none => pure none
  | some found =>
    match ← Query.construct found.decl with
    | some (_, .module _) => do
      let module ← Ty.ofModule found.decl.module (some qualifier)
      (Scope.members .type module).resolve name
    | _ => pure none

/-- The declaration a type with an optional qualifier refers to. -/
def resolveType (site : NodeRef) (qualifier : Option String) (name : String) :
    Query (Option Resolved) :=
  match qualifier with
  | some q => resolveQualifiedType site q name
  | none => resolveTypeName site name

end PklAnalysis
