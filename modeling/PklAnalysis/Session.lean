import PklAnalysis.Guard
import PklAnalysis.Typing.Expr
import Std.Data.HashMap

/-!
# Sessions

A session answers the questions that queries put. Its modules come from a `ModuleSource`; its
`Memory` holds what was computed before. Three kinds of answers are remembered, and only if no
computation was refused while they were computed, since a refused computation gives a default that
belongs to the place from which it was reached.

* `Session.answer` answers a question; `Session.run` answers a query.
* `Session.fuel` is large enough that a question is never cut off by it: between two questions that
  enter the guard lie at most two that do not.
-/

namespace PklAnalysis

/-- Where the modules of a session come from. -/
structure ModuleSource where
  tree : ModuleId → Option SyntaxTree
  /-- The module that a reference written in a module leads to. -/
  resolve : ModuleId → String → Option ModuleId

/-- Modules with the ids 1, 2, …, each with its address and its tree, if there is one. A reference
leads to the first module of that address, wherever it stands. -/
def ModuleSource.ofList (modules : List (String × Option SyntaxTree)) : ModuleSource where
  tree
    | 0 => none
    | m + 1 => (modules[m]?).bind (·.2)
  resolve _ uri := (modules.findIdx? (·.1 == uri)).map (· + 1)

/-- What a session remembers. -/
structure Memory where
  guard : Guard := {}
  /-- The modules whose trees were asked for, found or not. -/
  loaded : List ModuleId := []
  references : Std.HashMap (ModuleId × String) (Option ModuleId) := {}
  supertypes : Std.HashMap NodeRef (Option Ty) := {}
  aliased : Std.HashMap NodeRef Ty := {}
  declared : Std.HashMap NodeRef Ty := {}

instance : Inhabited Memory := ⟨{}⟩

namespace Session

variable {α : Type}

/-- Compute under a key of the guard. A refused computation is counted and gives the fallback. -/
def guarded (k : GuardKey) (fallback : α) (compute : StateM Memory α) : StateM Memory α := fun m =>
  match m.guard.enter k with
  | .error _ => (fallback, { m with guard := m.guard.refuse })
  | .ok g =>
    let (a, m) := compute { m with guard := g }
    (a, { m with guard := m.guard.leave k })

/-- Look a result up, or compute it. It is stored unless something was refused meanwhile. -/
def memoized (read : Memory → Option α) (store : α → Memory → Memory) (compute : StateM Memory α) :
    StateM Memory α := fun m =>
  match read m with
  | some a => (a, m)
  | none =>
    let before := m.guard.fallbacks
    let (a, m) := compute m
    (a, if m.guard.fallbacks = before then store a m else m)

/-- The tree of a module, which counts as loaded from then on. -/
def loadTree (src : ModuleSource) (i : ModuleId) : StateM Memory (Option SyntaxTree) := fun m =>
  (src.tree i, if m.loaded.contains i then m else { m with loaded := i :: m.loaded })

/-- The module that a reference leads to; each reference is resolved once. -/
def findModule (src : ModuleSource) (source : ModuleId) (uri : String) :
    StateM Memory (Option ModuleId) := fun m =>
  match m.references[(source, uri)]? with
  | some found => (found, m)
  | none =>
    let found := src.resolve source uri
    (found, { m with references := m.references.insert (source, uri) found })

/-- The query that answers a question which is not about the source itself. -/
def body : (q : Question) → Query q.Answer
  | .tree _ => pure none
  | .reference _ _ => pure none
  | .supertype cls => declaredSupertype cls
  | .superclause _ clause => some <$> typeOfNode clause .empty
  | .aliased decl => aliasTarget decl
  | .expansion decl args c => expandAlias decl args c
  | .declared decl => Query.member decl
  | .member decl => declarationType decl
  | .expr e b => exprType e b
  | .bodyThis b => objectType b
  | .property p => requiredType p
  | .expected e => expectedType e

/-- What a question is answered with when its computation is refused. -/
def fallback : (q : Question) → q.Answer
  | .tree _ => none
  | .reference _ _ => none
  | .supertype _ => none
  | .superclause _ _ => none
  | .aliased _ => .unknown
  | .expansion _ _ _ => .unknown
  | .declared _ => .unknown
  | .member _ => .unknown
  | .expr _ _ => .unknown
  | .bodyThis _ => .unknown
  | .property _ => .unknown
  | .expected _ => .unknown

/-- How the computation of an answer is kept: under a key, in memory, or as the source gives it. -/
def keep (src : ModuleSource) : (q : Question) → StateM Memory q.Answer → StateM Memory q.Answer
  | .tree i, _ => loadTree src i
  | .reference source uri, _ => findModule src source uri
  | .supertype cls, x =>
    memoized (·.supertypes[cls]?) (fun t m => { m with supertypes := m.supertypes.insert cls t }) x
  | .superclause cls _, x => guarded (.superclass cls) none x
  | .aliased decl, x =>
    memoized (·.aliased[decl]?) (fun t m => { m with aliased := m.aliased.insert decl t }) x
  | .expansion decl _ _, x => guarded (.expansion decl) .unknown x
  | .declared decl, x =>
    memoized (·.declared[decl]?) (fun t m => { m with declared := m.declared.insert decl t }) x
  | .member decl, x => guarded (.member decl) .unknown x
  | .expr e _, x => guarded (.expr e) .unknown x
  | .bodyThis b, x => guarded (.this b) .unknown x
  | .property p, x => guarded (.expected p) .unknown x
  | .expected e, x => guarded (.expected e) .unknown x

/-- Answer a question; at most `n` questions are nested in it. -/
def answer (src : ModuleSource) : Nat → (q : Question) → StateM Memory q.Answer
  | 0, q => keep src q (fun m => (fallback q, { m with guard := m.guard.refuse }))
  | n + 1, q => keep src q ((body q).run (answer src n))

/-- How deep questions can be nested. -/
def fuel : Nat := 3 * (Limits.exprTypeDepth + 2)

/-- The answer of a query. -/
def run (src : ModuleSource) (x : Query α) : StateM Memory α := x.run (answer src fuel)

end Session

end PklAnalysis
