import PklAnalysis.Proofs.Session.Envelope

/-!
# Sessions on lists

What a session remembers is held in hash maps. A `Ledger` holds the same in lists, so that a session
over given modules can be evaluated by reduction: a query comes out of `Ledger.run` as it does of
`Session.run` (`Ledger.run_of_ledger`).
-/

namespace PklAnalysis

/-- What a session remembers, newest first. References are not held, they are resolved anew. -/
structure Ledger where
  guard : Guard := {}
  supertypes : List (NodeRef × Option Ty) := []
  aliased : List (NodeRef × Ty) := []
  declared : List (NodeRef × Ty) := []

namespace Ledger

open Session

variable {α β : Type} (src : ModuleSource)

/-- Compute under a key of the guard. -/
def guarded (k : GuardKey) (fallback : α) (compute : StateM Ledger α) : StateM Ledger α := fun l =>
  match l.guard.enter k with
  | .error _ => (fallback, { l with guard := l.guard.refuse })
  | .ok g =>
    let (a, l) := compute { l with guard := g }
    (a, { l with guard := l.guard.leave k })

/-- Look a result up, or compute it. -/
def memoized (read : Ledger → Option α) (store : α → Ledger → Ledger) (compute : StateM Ledger α) :
    StateM Ledger α := fun l =>
  match read l with
  | some a => (a, l)
  | none =>
    let before := l.guard.fallbacks
    let (a, l) := compute l
    (a, if l.guard.fallbacks = before then store a l else l)

/-- How the computation of an answer is kept. -/
def keep : (q : Question) → StateM Ledger q.Answer → StateM Ledger q.Answer
  | .tree i, _ => pure (src.tree i)
  | .reference source uri, _ => pure (src.resolve source uri)
  | .supertype cls, x =>
    memoized (·.supertypes.lookup cls) (fun t l => { l with supertypes := (cls, t) :: l.supertypes }) x
  | .superclause cls _, x => guarded (.superclass cls) none x
  | .aliased decl, x =>
    memoized (·.aliased.lookup decl) (fun t l => { l with aliased := (decl, t) :: l.aliased }) x
  | .expansion decl _ _, x => guarded (.expansion decl) .unknown x
  | .declared decl, x =>
    memoized (·.declared.lookup decl) (fun t l => { l with declared := (decl, t) :: l.declared }) x
  | .member decl, x => guarded (.member decl) .unknown x
  | .expr e _, x => guarded (.expr e) .unknown x
  | .bodyThis b, x => guarded (.this b) .unknown x
  | .property p, x => guarded (.expected p) .unknown x
  | .expected e, x => guarded (.expected e) .unknown x

/-- Answer a question; at most `n` questions are nested in it. -/
def answer : Nat → (q : Question) → StateM Ledger q.Answer
  | 0, q => keep src q (fun l => (fallback q, { l with guard := l.guard.refuse }))
  | n + 1, q => keep src q ((body q).run (answer n))

/-- The answer of a query. -/
def run (x : Query α) : StateM Ledger α := x.run (answer src fuel)

/-- The memory and the ledger hold the same. -/
structure Mirrors (m : Memory) (l : Ledger) : Prop where
  guard : m.guard = l.guard
  references : ∀ {source uri a}, m.references[(source, uri)]? = some a → a = src.resolve source uri
  supertypes : ∀ c, m.supertypes[c]? = l.supertypes.lookup c
  aliased : ∀ d, m.aliased[d]? = l.aliased.lookup d
  declared : ∀ d, m.declared[d]? = l.declared.lookup d

/-- Two computations with the same results, which leave memory and ledger alike. -/
def Matches (x : StateM Memory α) (y : StateM Ledger α) : Prop :=
  ∀ m l, Mirrors src m l → (x m).1 = (y l).1 ∧ Mirrors src (x m).2 (y l).2

variable {src}

theorem mirrors_empty : Mirrors src {} {} :=
  ⟨rfl, fun h => by simp at h, fun _ => by simp, fun _ => by simp, fun _ => by simp⟩

/-- A new entry of a map is the head of a list. -/
theorem getElem?_insert_cons {t : Std.HashMap NodeRef β} {es : List (NodeRef × β)}
    (h : ∀ d, t[d]? = es.lookup d) (c : NodeRef) (b : β) (d : NodeRef) :
    (t.insert c b)[d]? = ((c, b) :: es).lookup d := by
  rw [Std.HashMap.getElem?_insert, List.lookup_cons, h d]
  by_cases e : d = c
  · subst e
    simp
  · rw [if_neg (by simpa using Ne.symm e), beq_eq_false_iff_ne.2 e]

theorem Mirrors.withGuard {m : Memory} {l : Ledger} (h : Mirrors src m l) {g g' : Guard}
    (hg : g = g') : Mirrors src { m with guard := g } { l with guard := g' } :=
  ⟨hg, h.references, h.supertypes, h.aliased, h.declared⟩

theorem matches_refuse (a : α) : Matches src (fun m => (a, { m with guard := m.guard.refuse }))
    (fun l => (a, { l with guard := l.guard.refuse })) :=
  fun _ _ h => ⟨rfl, h.withGuard (congrArg Guard.refuse h.guard)⟩

theorem matches_guarded {x : StateM Memory α} {y : StateM Ledger α} (h : Matches src x y)
    (k : GuardKey) (fb : α) : Matches src (Session.guarded k fb x) (guarded k fb y) := by
  intro m l hml
  unfold Session.guarded guarded
  rw [hml.guard]
  cases l.guard.enter k with
  | error e => exact ⟨rfl, hml.withGuard rfl⟩
  | ok g =>
    obtain ⟨same, hml'⟩ := h _ _ (hml.withGuard (rfl : g = g))
    exact ⟨same, hml'.withGuard (congrArg (·.leave k) hml'.guard)⟩

theorem matches_memoized {x : StateM Memory α} {y : StateM Ledger α} (h : Matches src x y)
    {read : Memory → Option α} {read' : Ledger → Option α} {store : α → Memory → Memory}
    {store' : α → Ledger → Ledger} (hr : ∀ m l, Mirrors src m l → read m = read' l)
    (hs : ∀ a m l, Mirrors src m l → Mirrors src (store a m) (store' a l)) :
    Matches src (Session.memoized read store x) (memoized read' store' y) := by
  intro m l hml
  unfold Session.memoized memoized
  rw [hr m l hml]
  cases read' l with
  | some a => exact ⟨rfl, hml⟩
  | none =>
    obtain ⟨same, hml'⟩ := h m l hml
    refine ⟨same, ?_⟩
    show Mirrors src (if _ then store (x m).1 (x m).2 else (x m).2)
      (if _ then store' (y l).1 (y l).2 else (y l).2)
    rw [hml'.guard, hml.guard, same]
    split
    · exact hs _ _ _ hml'
    · exact hml'

theorem matches_keep {q : Question} {x : StateM Memory q.Answer} {y : StateM Ledger q.Answer}
    (h : Matches src x y) : Matches src (Session.keep src q x) (keep src q y) := by
  cases q with
  | tree i =>
    refine fun m l hml => ⟨rfl, ?_⟩
    show Mirrors src (if m.loaded.contains i then m else { m with loaded := i :: m.loaded }) l
    split
    · exact hml
    · exact ⟨hml.guard, hml.references, hml.supertypes, hml.aliased, hml.declared⟩
  | reference source uri =>
    intro m l hml
    show (findModule src source uri m).1 = src.resolve source uri ∧
      Mirrors src (findModule src source uri m).2 l
    unfold findModule
    split
    · next found e => exact ⟨hml.references e, hml⟩
    · refine ⟨rfl, hml.guard, fun e => ?_, hml.supertypes, hml.aliased, hml.declared⟩
      rcases Envelope.getElem?_insert_some e with ⟨same, rfl⟩ | e
      · cases same; rfl
      · exact hml.references e
  | supertype c =>
    exact matches_memoized h (fun _ _ hml => hml.supertypes c) (fun a _ _ hml =>
      ⟨hml.guard, hml.references, getElem?_insert_cons hml.supertypes c a, hml.aliased, hml.declared⟩)
  | aliased d =>
    exact matches_memoized h (fun _ _ hml => hml.aliased d) (fun a _ _ hml =>
      ⟨hml.guard, hml.references, hml.supertypes, getElem?_insert_cons hml.aliased d a, hml.declared⟩)
  | declared d =>
    exact matches_memoized h (fun _ _ hml => hml.declared d) (fun a _ _ hml =>
      ⟨hml.guard, hml.references, hml.supertypes, hml.aliased, getElem?_insert_cons hml.declared d a⟩)
  | superclause | expansion | member | expr | bodyThis | property | expected =>
    exact matches_guarded h _ _

/-- Queries match if the answers to their questions do. -/
theorem matches_query {f : (q : Question) → StateM Memory q.Answer}
    {g : (q : Question) → StateM Ledger q.Answer} (h : ∀ q, Matches src (f q) (g q)) (x : Query α) :
    Matches src (x.run f) (x.run g) := by
  induction x with
  | done a => exact fun m l hml => ⟨rfl, hml⟩
  | ask q next ih =>
    intro m l hml
    obtain ⟨same, hml'⟩ := h q m l hml
    have rest := ih (f q m).1 (f q m).2 (g q l).2 hml'
    rw [same] at rest
    show ((next (f q m).1).run f (f q m).2).1 = ((next (g q l).1).run g (g q l).2).1 ∧
      Mirrors src ((next (f q m).1).run f (f q m).2).2 ((next (g q l).1).run g (g q l).2).2
    rw [same]
    exact rest

theorem matches_answer (n : Nat) (q : Question) :
    Matches src (Session.answer src n q) (answer src n q) := by
  induction n generalizing q with
  | zero => exact matches_keep (matches_refuse (fallback q))
  | succ n ih => exact matches_keep (matches_query ih (body q))

/-- A query comes out as it does with lists for memory. -/
theorem run_eq {m : Memory} {l : Ledger} (h : Mirrors src m l) (x : Query α) :
    (Session.run src x m).1 = (run src x l).1 ∧
      Mirrors src (Session.run src x m).2 (run src x l).2 :=
  matches_query (matches_answer fuel) x m l h

end Ledger

end PklAnalysis
