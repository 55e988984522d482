import PklAnalysis.Proofs.Session.Derivation

/-!
# Queries that go on as others

`x.Reads src y` says that the query `x` asks the source alone until it goes on as `y`. What the
source decides is decided in every memory, and nothing that is computed there depends on what is
remembered of it (`run_reads`), so a query can be followed without its questions about the source.
Where the source is given, `Query.settle` computes how far it goes.

Looking up a name is such a query as long as it meets no class: `Walk.firstNamed_after` and
`Walk.firstNamed_append` follow it along a walk.
-/

namespace PklAnalysis

/-! ## Looking up a name -/

namespace Walk

variable (w w' : Walk Candidate) (name : String)

theorem named_offer (c : Candidate) :
    (Walk.offer c w).named name = if c.name == name then .offer c (w.named name) else w.named name := by
  unfold named
  rw [filter]

theorem firstNamed_after {α : Type} (x : Query α) (f : α → Walk Candidate) :
    (after x f).firstNamed name = x >>= fun a => (f a).firstNamed name := by
  induction x with
  | done a => rfl
  | ask q next ih => exact congrArg (Query.ask q) (funext ih)

theorem firstNamed_append :
    (w ++ w').firstNamed name = w.firstNamed name >>= fun
      | some c => pure (some c)
      | none => w'.firstNamed name := by
  induction w with
  | done => rfl
  | ask q next ih => exact congrArg (Query.ask q) (funext ih)
  | offer c rest ih =>
    show (named (.offer c (rest ++ w')) name).head? = head? (named (.offer c rest) name) >>= _
    rw [named_offer, named_offer]
    split
    · rfl
    · exact ih

end Walk

theorem Scope.members_module (mode : LookupMode) (m : ModuleId) (l : Option String)
    (c : Constraints) : members mode (.module m l c) =
      moduleMembers mode true m ++ standardMembers mode std.module := by
  unfold members
  cases Limits.aliasNesting <;> rfl

/-! ## Queries about the source -/

/-- What the source holds; everything else is refused. -/
def ModuleSource.refusing (src : ModuleSource) : Reading
  | .tree i => src.tree i
  | .reference m uri => src.resolve m uri
  | q => Session.fallback q

/-- Questions about the source, and the one for the supertype of a class. -/
def Question.isOwn (d : NodeRef) : Question → Bool
  | .supertype e => e == d
  | q => q.isSource

theorem ModuleSource.refusing_of_isSource (src : ModuleSource) {q : Question} (hq : q.IsSource) :
    src.refusing q = src.table q := by
  cases q <;> first | rfl | cases hq

namespace Query

variable {src : ModuleSource} {α β : Type}

/-- A query asks the source alone until it goes on as another one. -/
inductive Reads (src : ModuleSource) : Query α → Query α → Prop
  | here (x : Query α) : Reads src x x
  | ask {q : Question} {next : q.Answer → Query α} {y : Query α} :
      q.IsSource → Reads src (next (src.table q)) y → Reads src (.ask q next) y

namespace Reads

theorem bind {x : Query α} {f : α → Query β} {a : α} {y : Query β} (hx : x.Reads src (pure a))
    (hf : (f a).Reads src y) : (x >>= f).Reads src y := by
  generalize hz : (pure a : Query α) = z at hx
  induction hx with
  | here =>
    subst hz
    exact hf
  | ask hq _ ih => exact .ask hq (ih hz)

theorem tree {m : ModuleId} {t : SyntaxTree} (ht : src.treeOf m = some t) :
    (Query.tree m).Reads src (pure (some t)) := by
  unfold ModuleSource.treeOf at ht
  unfold Query.tree
  split
  · next h =>
    rw [if_pos h] at ht
    rw [ht]
    exact .here _
  · next h =>
    rw [if_neg h] at ht
    rw [← ht]
    exact .ask rfl (.here _)

theorem construct {d : NodeRef} {t : SyntaxTree} {c : Construct}
    (ht : src.treeOf d.module = some t) (hc : t.construct? d.node = some c) :
    (Query.construct d).Reads src (pure (some (t, c))) := by
  refine (tree ht).bind ?_
  dsimp only
  rw [hc]
  exact .here _

theorem trans {x y z : Query α} (h : x.Reads src y) (h' : y.Reads src z) : x.Reads src z := by
  induction h with
  | here => exact h'
  | ask hq _ ih => exact .ask hq (ih h')

theorem bind_left {x y : Query α} (h : x.Reads src y) (f : α → Query β) :
    (x >>= f).Reads src (y >>= f) := by
  induction h with
  | here => exact .here _
  | ask hq _ ih => exact .ask hq ih

/-- What a query goes on to ask comes on top of what the source is asked for. -/
theorem asks {x y : Query α} (h : x.Reads src y) {P : Question → Prop} (hP : ∀ q, q.IsSource → P q)
    (hy : y.Asks src.refusing P) :
    x.Asks src.refusing P ∧ x.value src.refusing = y.value src.refusing := by
  induction h with
  | here => exact ⟨hy, rfl⟩
  | @ask q next y hq _ ih =>
    show (P q ∧ (next (src.refusing q)).Asks src.refusing P) ∧
      (next (src.refusing q)).value src.refusing = _
    rw [src.refusing_of_isSource hq]
    exact ⟨⟨hP q hq, (ih hy).1⟩, (ih hy).2⟩

end Reads

/-- What is left of a query when the questions at its beginning that are about the source are
answered. -/
def settle (src : ModuleSource) : Query α → Query α
  | .done a => .done a
  | .ask q next => if q.isSource then settle src (next (src.table q)) else .ask q next

theorem reads_settle (src : ModuleSource) (x : Query α) : x.Reads src (x.settle src) := by
  induction x with
  | done => exact .here _
  | ask q next ih =>
    rw [settle]
    split
    · next hq => exact .ask hq (ih _)
    · exact .here _

theorem Reads.of_settle {x y : Query α} (h : x.settle src = y) : x.Reads src y :=
  h ▸ reads_settle src x

/-- A query about the source alone comes out as the table says. -/
theorem Reads.of_asks {x : Query α} (h : x.Asks src.table (·.isSource = true)) :
    x.Reads src (pure (x.value src.table)) := by
  induction x with
  | done a => exact .here _
  | ask q next ih => exact .ask h.1 (ih _ h.2)

end Query

/-- The type parameters of the standard library are there without a question. -/
theorem typeParams_base {d : NodeRef} (hd : d.module = ModuleId.base) :
    typeParams d = pure (std.tree.params d) := by
  have known : ∀ t : SyntaxTree, Query.tree d.module = pure (some t) →
      typeParams d = pure (t.params d) := by
    intro t ht
    unfold typeParams Query.construct SyntaxTree.params
    rw [ht]
    simp only [Query.pure_eq, Query.done_bind]
    cases t.construct? d.node <;> rfl
  exact known std.tree (if_pos hd)

namespace Session

variable {src : ModuleSource} {α : Type} {ks : List GuardKey} {m : Memory}

theorem Concludes.of_reads {x y : Query α} {a : α} (h : x.Reads src y)
    (hy : Concludes src α y a) : Concludes src α x a := by
  induction h with
  | here => exact hy
  | @ask q next y hq _ ih =>
    cases q with
    | tree i => exact .tree (ih hy)
    | reference s uri => exact .reference (ih hy)
    | _ => cases hq

/-- Between two memories, at most what is remembered of the source has changed. -/
structure Quiet (src : ModuleSource) (ks : List GuardKey) (m m' : Memory) : Prop where
  holds : (derivedOnly src).Holds ks m'
  guard : m'.guard = m.guard
  aliased : m'.aliased = m.aliased

theorem quiet_answer {q : Question} (hq : q.IsSource) (n : Nat)
    (hm : (derivedOnly src).Holds ks m) :
    (answer src n q m).1 = src.table q ∧ Quiet src ks m (answer src n q m).2 := by
  have hold := ((derivedOnly src).answer_bounded n ks q m hm).2.1
  cases q with
  | tree i =>
    have e : answer src n (.tree i) = loadTree src i := by cases n <;> rfl
    rw [e] at hold ⊢
    refine ⟨rfl, hold, ?_, ?_⟩ <;> (unfold loadTree; dsimp only; split <;> rfl)
  | reference s uri =>
    have e : answer src n (.reference s uri) = findModule src s uri := by cases n <;> rfl
    rw [e] at hold ⊢
    cases hr : m.references[(s, uri)]? with
    | some found =>
      have hf : findModule src s uri m = (found, m) := by unfold findModule; rw [hr]
      have derived : Derives src (.reference s uri) (src.resolve s uri) := .reference (.done _)
      rw [hf] at hold ⊢
      exact ⟨(hm.remembers.references hr).unique derived, hold, rfl, rfl⟩
    | none =>
      unfold findModule at hold ⊢
      rw [hr] at hold ⊢
      exact ⟨rfl, hold, rfl, rfl⟩
  | _ => cases hq

/-- What the source decides is decided in every memory, and quietly. -/
theorem run_reads {x y : Query α} (h : x.Reads src y) (n : Nat)
    (hm : (derivedOnly src).Holds ks m) :
    ∃ m', Quiet src ks m m' ∧ x.run (answer src n) m = y.run (answer src n) m' := by
  induction h generalizing m with
  | here x => exact ⟨m, ⟨hm, rfl, rfl⟩, rfl⟩
  | @ask q next y hq _ ih =>
    obtain ⟨ha, quiet⟩ := quiet_answer hq n hm
    obtain ⟨m', h, e⟩ := ih quiet.holds
    refine ⟨m', ⟨h.holds, h.guard.trans quiet.guard, h.aliased.trans quiet.aliased⟩, ?_⟩
    show (next (answer src n q m).1).run (answer src n) (answer src n q m).2 = _
    rw [ha]
    exact e

theorem run_expansion {α : Type} (h : (q : Question) → StateM Memory q.Answer) (d : NodeRef)
    (as : List Ty) (c : Constraints) (f : Ty → Query α) (m : Memory) :
    (Query.expansion d as c >>= f).run h m =
      (f (h (.expansion d as c) m).1).run h (h (.expansion d as c) m).2 := rfl

/-! ## Remembering -/

theorem memoized_some {α : Type} {read : Memory → Option α} {store : α → Memory → Memory}
    {x : StateM Memory α} {a : α} (h : read m = some a) : memoized read store x m = (a, m) := by
  unfold memoized
  rw [h]

theorem memoized_none {α : Type} {read : Memory → Option α} {store : α → Memory → Memory}
    {x : StateM Memory α} (h : read m = none) : memoized read store x m = ((x m).1,
      if (x m).2.guard.fallbacks = m.guard.fallbacks then store (x m).1 (x m).2 else (x m).2) := by
  unfold memoized
  rw [h]
  rfl

/-! ## A clause that leads to itself -/

variable {d c : NodeRef} {next : Option Ty → Query Ty}

theorem reads_superclause {t : SyntaxTree} {decl : ClassDecl} {clause : NodeIndex} (hd : d ≠ std.any)
    (ht : src.treeOf d.module = some t) (hc : t.construct? d.node = some (.classDecl decl))
    (hs : decl.superclass = some clause) :
    (declaredSupertype d).Reads src (.ask (.superclause d (d.sibling clause)) .done) := by
  unfold declaredSupertype
  rw [if_neg hd]
  refine (Query.Reads.construct ht hc).bind ?_
  dsimp only
  rw [hs]
  exact .here _

/-- To resolve the clause of a class its own supertype is asked for, so it is never remembered. -/
theorem not_derives_supertype (declared : (declaredSupertype d).Reads src (.ask (.superclause d c) .done))
    (clause : (typeOfNode c .empty).Reads src (.ask (.supertype d) next)) (t : Option Ty) :
    ¬ Derives src (.supertype d) t := by
  have endless : ∀ {α : Type} {x : Query α} {a : α}, Concludes src α x a →
      (∀ k, ¬ x.Reads src (.ask (.supertype d) k)) ∧ ∀ k, ¬ x.Reads src (.ask (.superclause d c) k) := by
    intro α x a h
    induction h with
    | done => exact ⟨fun k h => (nomatch h), fun k h => (nomatch h)⟩
    | tree _ ih =>
      refine ⟨fun k h => ?_, fun k h => ?_⟩
      · cases h with
        | ask _ h => exact ih.1 k h
      · cases h with
        | ask _ h => exact ih.2 k h
    | reference _ ih =>
      refine ⟨fun k h => ?_, fun k h => ?_⟩
      · cases h with
        | ask _ h => exact ih.1 k h
      · cases h with
        | ask _ h => exact ih.2 k h
    | ask hs _ _ ihb _ =>
      refine ⟨fun k h => ?_, fun k h => ?_⟩
      · cases h with
        | here => exact ihb.2 _ declared
        | ask hq => exact absurd hq (by rw [Question.IsSource, hs]; exact Bool.false_ne_true)
      · cases h with
        | here => exact ihb.1 _ (clause.bind_left (fun t => pure (some t)))
        | ask hq => exact absurd hq (by rw [Question.IsSource, hs]; exact Bool.false_ne_true)
  exact fun h => (endless h).1 _ (.here _)

theorem supertypes_of_circular
    (declared : (declaredSupertype d).Reads src (.ask (.superclause d c) .done))
    (clause : (typeOfNode c .empty).Reads src (.ask (.supertype d) next))
    (hm : (derivedOnly src).Holds ks m) : m.supertypes[d]? = none := by
  cases hs : m.supertypes[d]? with
  | none => rfl
  | some t => exact absurd (hm.remembers.supertypes hs) (not_derives_supertype declared clause t)

/-- Inside itself the question comes to nothing, for it meets the key of the clause. -/
theorem answer_supertype_inside
    (declared : (declaredSupertype d).Reads src (.ask (.superclause d c) .done))
    (clause : (typeOfNode c .empty).Reads src (.ask (.supertype d) next))
    (hm : (derivedOnly src).Holds ks m) (hk : .superclass d ∈ ks) (n : Nat) :
    (answer src (n + 2) (.supertype d) m).1 = none ∧
      (answer src (n + 2) (.supertype d) m).2.aliased = m.aliased := by
  obtain ⟨m₁, quiet, run_eq⟩ := run_reads declared (n + 1) hm
  obtain ⟨r, hr⟩ := quiet.holds.enter_refused (k := .superclass d) (.inr hk)
  have refused : (declaredSupertype d).run (answer src (n + 1)) m =
      (none, { m₁ with guard := m₁.guard.refuse }) := by
    rw [run_eq]
    show guarded (.superclass d) none _ m₁ = _
    rw [Envelope.guarded_refused hr]
  have computed : answer src (n + 2) (.supertype d) m = memoized (·.supertypes[d]?)
      (fun t m => { m with supertypes := m.supertypes.insert d t })
      ((declaredSupertype d).run (answer src (n + 1))) m := rfl
  rw [computed, memoized_none (supertypes_of_circular declared clause hm), refused]
  refine ⟨rfl, ?_⟩
  dsimp only
  split <;> exact quiet.aliased

/-- Inside itself, a query that asks for nothing but the source and the supertype comes out as if
the supertype were refused; no alias is expanded. -/
theorem run_inside (declared : (declaredSupertype d).Reads src (.ask (.superclause d c) .done))
    (clause : (typeOfNode c .empty).Reads src (.ask (.supertype d) next)) {x : Query α}
    (hx : x.Asks src.refusing (fun q => q.isOwn d = true)) (hm : (derivedOnly src).Holds ks m)
    (hk : .superclass d ∈ ks) (n : Nat) :
    (x.run (answer src (n + 2)) m).1 = x.value src.refusing ∧
      (x.run (answer src (n + 2)) m).2.aliased = m.aliased := by
  induction x generalizing m with
  | done a => exact ⟨rfl, rfl⟩
  | ask q next ih =>
    have step : (answer src (n + 2) q m).1 = src.refusing q ∧
        (answer src (n + 2) q m).2.aliased = m.aliased := by
      by_cases hq : q.IsSource
      · obtain ⟨value, quiet⟩ := quiet_answer hq (n + 2) hm
        exact ⟨value.trans (src.refusing_of_isSource hq).symm, quiet.aliased⟩
      · cases q with
        | supertype e =>
          cases beq_iff_eq.1 hx.1
          exact answer_supertype_inside declared clause hm hk n
        | tree | reference => exact absurd rfl hq
        | _ => cases hx.1
    have hold := ((derivedOnly src).answer_bounded (n + 2) ks q m hm).2.1
    obtain ⟨value, aliased⟩ := ih (src.refusing q) hx.2 hold
    have run_eq : (Query.ask q next).run (answer src (n + 2)) m =
        (next (src.refusing q)).run (answer src (n + 2)) (answer src (n + 2) q m).2 := by
      rw [← step.1]
      rfl
    rw [run_eq]
    exact ⟨value, aliased.trans step.2⟩

/-- So the clause has its type. -/
theorem answer_supertype_of_asks
    (declared : (declaredSupertype d).Reads src (.ask (.superclause d c) .done))
    (clause : (typeOfNode c .empty).Reads src (.ask (.supertype d) next))
    (asks : (typeOfNode c .empty).Asks src.refusing (fun q => q.isOwn d = true))
    (hm : (derivedOnly src).Holds [] m) (n : Nat) :
    ∃ m', answer src (n + 4) (.supertype d) m = (some ((typeOfNode c .empty).value src.refusing), m') ∧
      (derivedOnly src).Holds [] m' ∧ m'.aliased = m.aliased := by
  have hold := ((derivedOnly src).answer_bounded (n + 4) [] (.supertype d) m hm).2.1
  obtain ⟨m₁, quiet₁, run₁⟩ := run_reads declared (n + 3) hm
  obtain ⟨g, hg, hm₁, -⟩ := quiet₁.holds.enter_ok (k := .superclass d)
    (fun h => h.elim (by decide) List.not_mem_nil)
  let clauseType : Query (Option Ty) := some <$> typeOfNode c .empty
  have asksType : clauseType.Asks src.refusing (fun q => q.isOwn d = true) :=
    (Query.asks_bind ..).2 ⟨asks, trivial⟩
  obtain ⟨value, aliased₂⟩ := run_inside declared clause asksType hm₁ List.mem_cons_self n
  have entered : (declaredSupertype d).run (answer src (n + 3)) m =
      (some ((typeOfNode c .empty).value src.refusing),
        { (clauseType.run (answer src (n + 2)) { m₁ with guard := g }).2 with
          guard := (clauseType.run (answer src (n + 2)) { m₁ with guard := g }).2.guard.leave
            (.superclass d) }) := by
    rw [run₁]
    show guarded (.superclass d) none (clauseType.run (answer src (n + 2))) m₁ = _
    rw [Envelope.guarded_ok hg, value, Query.value_map]
  have computed : answer src (n + 4) (.supertype d) m = memoized (·.supertypes[d]?)
      (fun t m => { m with supertypes := m.supertypes.insert d t })
      ((declaredSupertype d).run (answer src (n + 3))) m := rfl
  rw [computed, memoized_none (supertypes_of_circular declared clause hm), entered] at hold ⊢
  refine ⟨_, rfl, hold, ?_⟩
  dsimp only
  split <;> exact aliased₂.trans quiet₁.aliased

theorem answer_supertype (declared : (declaredSupertype d).Reads src (.ask (.superclause d c) .done))
    (clause : (typeOfNode c .empty).Reads src (.ask (.supertype d) next)) {t : Ty}
    (rest : (next none).Reads src (pure t)) (hm : (derivedOnly src).Holds [] m) (n : Nat) :
    ∃ m', answer src (n + 4) (.supertype d) m = (some t, m') ∧ (derivedOnly src).Holds [] m' ∧
      m'.aliased = m.aliased := by
  have own : ∀ q : Question, q.IsSource → q.isOwn d = true := by
    intro q hq
    cases q <;> first | rfl | cases hq
  obtain ⟨asksRest, valueRest⟩ := rest.asks own trivial
  obtain ⟨asks, value⟩ := clause.asks own ⟨beq_self_eq_true d, asksRest⟩
  have result : (typeOfNode c .empty).value src.refusing = t := value.trans valueRest
  rw [← result]
  exact answer_supertype_of_asks declared clause asks hm n

/-- So the class always has the supertype of its clause. -/
theorem gives_supertype_of_asks
    (declared : (declaredSupertype d).Reads src (.ask (.superclause d c) .done))
    (clause : (typeOfNode c .empty).Reads src (.ask (.supertype d) next))
    (asks : (typeOfNode c .empty).Asks src.refusing (fun q => q.isOwn d = true)) :
    Gives src (Query.supertype d) (some ((typeOfNode c .empty).value src.refusing)) := by
  intro m hm
  obtain ⟨m', run_eq, -, -⟩ :=
    answer_supertype_of_asks declared clause asks ((derivedOnly src).holds_of_reachable hm) 1502
  exact congrArg Prod.fst run_eq

theorem gives_supertype (declared : (declaredSupertype d).Reads src (.ask (.superclause d c) .done))
    (clause : (typeOfNode c .empty).Reads src (.ask (.supertype d) next)) {t : Ty}
    (rest : (next none).Reads src (pure t)) : Gives src (Query.supertype d) (some t) := by
  intro m hm
  obtain ⟨m', run_eq, -, -⟩ :=
    answer_supertype declared clause rest ((derivedOnly src).holds_of_reachable hm) 1502
  exact congrArg Prod.fst run_eq

/-- Where the clause of a class asks for the supertype of the class before anything else, the class
has the supertype that the clause names without an answer. -/
theorem gives_supertype_of_clause {t : SyntaxTree} {decl : ClassDecl} {clause : NodeIndex} {u : Ty}
    (hd : d ≠ std.any) (ht : src.treeOf d.module = some t)
    (hc : t.construct? d.node = some (.classDecl decl)) (hs : decl.superclass = some clause)
    (first : ∃ next, (typeOfNode (d.sibling clause) .empty).Reads src (.ask (.supertype d) next))
    (named : (typeOfNode (d.sibling clause) .empty).Asks src.refusing (fun q => q.isOwn d = true) ∧
      (typeOfNode (d.sibling clause) .empty).value src.refusing = u) :
    Gives src (Query.supertype d) (some u) := by
  obtain ⟨next, reads⟩ := first
  exact named.2 ▸ gives_supertype_of_asks (reads_superclause hd ht hc hs) reads named.1

end Session

end PklAnalysis
