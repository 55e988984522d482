import PklAnalysis.Base
import PklAnalysis.Types.Bindings

/-!
# Queries

The analysis is written as queries: computations that may put questions to the session they belong
to. A question asks for the tree of a module, for the module a reference leads to, or for the answer
to another question about a declaration or an expression, which may lead back to the first one. How
questions are answered, remembered and guarded against circles is not the business of a query; that
is decided where the session answers them.

* `Query.run h q` is the answer of `q` when `h` answers the questions; `run_pure` and `run_bind` say
  that it respects sequencing.
* `Query` is a lawful monad.
-/

namespace PklAnalysis

/-- What a query can ask. -/
inductive Question where
  /-- The tree of a module other than the standard library. -/
  | tree (module : ModuleId)
  /-- The module that a reference written in `source` leads to. -/
  | reference (source : ModuleId) (uri : String)
  /-- The declared supertype of a class, over its own type parameters. -/
  | supertype (cls : NodeRef)
  /-- The type in the `extends` clause of a class. -/
  | superclause (cls clause : NodeRef)
  /-- The right-hand side of an alias, over its own type parameters. -/
  | aliased (decl : NodeRef)
  /-- An alias applied to arguments, expanded once. -/
  | expansion (decl : NodeRef) (args : List Ty) (constraints : Constraints)
  /-- The type of a declaration that is referred to by name. -/
  | declared (decl : NodeRef)
  /-- The same, computed anew. -/
  | member (decl : NodeRef)
  /-- The type of an expression. -/
  | expr (expr : NodeRef) (bindings : Bindings)
  /-- The type of `this` in an object body. -/
  | bodyThis (body : NodeRef)
  /-- The type that a property's value must have. -/
  | property (property : NodeRef)
  /-- The type an expression is expected to have from its position. -/
  | expected (expr : NodeRef)
  deriving Repr, Inhabited

/-- The answers to a question. -/
@[reducible] def Question.Answer : Question → Type
  | .tree _ => Option SyntaxTree
  | .reference _ _ => Option ModuleId
  | .supertype _ => Option Ty
  | .superclause _ _ => Option Ty
  | .aliased _ => Ty
  | .expansion _ _ _ => Ty
  | .declared _ => Ty
  | .member _ => Ty
  | .expr _ _ => Ty
  | .bodyThis _ => Ty
  | .property _ => Ty
  | .expected _ => Ty

/-- A computation that either is done or asks a question and goes on with the answer. -/
inductive Query (α : Type) where
  | done (a : α)
  | ask (q : Question) (next : q.Answer → Query α)

namespace Query

/-- Go on with the result of a query. -/
def andThen {α β : Type} (x : Query α) (f : α → Query β) : Query β :=
  match x with
  | done a => f a
  | ask q next => ask q (fun a => (next a).andThen f)

instance : Monad Query where
  pure := done
  bind := andThen

/-- The answer of a query when `h` answers its questions. -/
def run {α : Type} {m : Type → Type} [Monad m] (h : (q : Question) → m q.Answer) : Query α → m α
  | done a => pure a
  | ask q next => do
    let a ← h q
    (next a).run h

theorem pure_eq {α : Type} (a : α) : (pure a : Query α) = done a := rfl
theorem done_bind {α β : Type} (a : α) (f : α → Query β) : (done a >>= f) = f a := rfl
theorem ask_bind {α β : Type} (q : Question) (next : q.Answer → Query α) (f : α → Query β) :
    (ask q next >>= f) = ask q (fun a => next a >>= f) := rfl

theorem andThen_done {α : Type} (x : Query α) : x.andThen done = x := by
  induction x with
  | done a => rfl
  | ask q next ih => simp only [andThen, ih]

theorem andThen_assoc {α β γ : Type} (x : Query α) (f : α → Query β) (g : β → Query γ) :
    (x.andThen f).andThen g = x.andThen (fun a => (f a).andThen g) := by
  induction x with
  | done a => rfl
  | ask q next ih => simp only [andThen, ih]

instance : LawfulMonad Query :=
  LawfulMonad.mk' Query (fun x => andThen_done x) (fun _ _ => rfl) andThen_assoc

section Run

variable {α β : Type} {m : Type → Type} [Monad m] (h : (q : Question) → m q.Answer)

theorem run_pure (a : α) : run h (pure a) = pure a := rfl

theorem run_ask (q : Question) (next : q.Answer → Query α) :
    run h (ask q next) = h q >>= fun a => run h (next a) := rfl

theorem run_bind [LawfulMonad m] (x : Query α) (f : α → Query β) :
    run h (x >>= f) = run h x >>= fun a => run h (f a) := by
  induction x with
  | done a => simp [done_bind, run]
  | ask q next ih => simp [ask_bind, run, ih]

end Run

/-! ## Questions -/

/-- The tree of a module. The standard library is always there. -/
def tree (m : ModuleId) : Query (Option SyntaxTree) :=
  if m = ModuleId.base then done (some std.tree) else ask (.tree m) done

/-- The construct of a node, with its tree. -/
def construct (r : NodeRef) : Query (Option (SyntaxTree × Construct)) := do
  match ← tree r.module with
  | none => pure none
  | some t => pure ((t.construct? r.node).map (fun c => (t, c)))

/-- The module that a reference leads to. The standard library has one address everywhere. -/
def reference (source : ModuleId) (uri : String) : Query (Option ModuleId) :=
  if uri = baseUri then done (some ModuleId.base) else ask (.reference source uri) done

def supertype (cls : NodeRef) : Query (Option Ty) := ask (.supertype cls) done
def superclause (cls clause : NodeRef) : Query (Option Ty) := ask (.superclause cls clause) done
def aliased (decl : NodeRef) : Query Ty := ask (.aliased decl) done
def expansion (decl : NodeRef) (args : List Ty) (constraints : Constraints) : Query Ty :=
  ask (.expansion decl args constraints) done
def declared (decl : NodeRef) : Query Ty := ask (.declared decl) done
def member (decl : NodeRef) : Query Ty := ask (.member decl) done
def expr (e : NodeRef) (b : Bindings) : Query Ty := ask (.expr e b) done
def bodyThis (body : NodeRef) : Query Ty := ask (.bodyThis body) done
def property (p : NodeRef) : Query Ty := ask (.property p) done
def expected (e : NodeRef) : Query Ty := ask (.expected e) done

end Query

/-! ## Walks -/

/-- A sequence that is produced step by step: what it offers next may hang on questions that are put
only when the sequence is followed that far. -/
inductive Walk (β : Type) where
  | done
  | offer (b : β) (rest : Walk β)
  | ask (q : Question) (next : q.Answer → Walk β)

namespace Walk

variable {β σ : Type}

/-- One walk behind another. -/
def append (x y : Walk β) : Walk β :=
  match x with
  | done => y
  | offer b rest => offer b (rest.append y)
  | ask q next => ask q (fun a => (next a).append y)

instance : Append (Walk β) := ⟨append⟩

/-- A walk along a list. -/
def ofList : List β → Walk β
  | [] => done
  | b :: bs => offer b (ofList bs)

/-- A walk that depends on the answer of a query. -/
def after {α : Type} (x : Query α) (f : α → Walk β) : Walk β :=
  match x with
  | .done a => f a
  | .ask q next => ask q (fun a => after (next a) f)

/-- Only what passes a test. -/
def filter (p : β → Bool) : Walk β → Walk β
  | done => done
  | offer b rest => if p b then offer b (rest.filter p) else rest.filter p
  | ask q next => ask q (fun a => (next a).filter p)

/-- Follow a walk with a state. The step tells whether to go on; the answer tells whether the walk
was followed to its end. -/
def fold (step : σ → β → Query (σ × Bool)) (s : σ) : Walk β → Query (σ × Bool)
  | done => .done (s, true)
  | offer b rest => do
    let (s, more) ← step s b
    if more then rest.fold step s else pure (s, false)
  | ask q next => .ask q (fun a => (next a).fold step s)

/-- The first thing offered. -/
def head? : Walk β → Query (Option β)
  | done => .done none
  | offer b _ => .done (some b)
  | ask q next => .ask q (fun a => (next a).head?)

/-- Everything offered. -/
def toList : Walk β → Query (List β)
  | done => .done []
  | offer b rest => do
    let bs ← rest.toList
    pure (b :: bs)
  | ask q next => .ask q (fun a => (next a).toList)

theorem append_done (x : Walk β) : x.append done = x := by
  induction x with
  | done => rfl
  | offer b rest ih => simp only [append, ih]
  | ask q next ih => simp only [append, ih]

theorem append_assoc (x y z : Walk β) : (x.append y).append z = x.append (y.append z) := by
  induction x with
  | done => rfl
  | offer b rest ih => simp only [append, ih]
  | ask q next ih => simp only [append, ih]

end Walk

end PklAnalysis
