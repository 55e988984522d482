import PklAnalysis.Proofs.Session.Elaboration
import PklAnalysis.Proofs.Session.Ledger
import PklAnalysis.Proofs.Session.Reads

/-!
# What is refused

`Unrefused src ks α x a` says that the query `x` comes to `a` while the keys `ks` are entered, that on
the way no key is met again below itself, and that there is always room for one more. To such a query
nothing is refused, whatever the session was asked before (`Unrefused.completes`).

The supertype of a class that extends another one by name is not of this kind, although no class need
depend on itself. The name is looked up at the place of the clause, which is inside the class; so the
members of the class are gone through, and behind them those of its supertype
(`NamedClause.awaits_clause`). The second question for the supertype is refused, and so the answer to
the first one is never remembered (`refusals_of_run`).
-/

namespace PklAnalysis

/-! ## Between two keys -/

namespace Question

/-- How many questions that enter no key can be nested from this one on. -/
def lead : Question → Nat
  | .supertype _ | .declared _ => 1
  | .aliased _ => 2
  | _ => 0

variable {q : Question}

theorem lead_le_two (q : Question) : q.lead ≤ 2 := by
  cases q <;> simp [lead]

theorem lead_pos (hs : q.isSource = false) (hk : q.key? = none) : 0 < q.lead := by
  cases q with
  | tree | reference => cases hs
  | supertype | aliased | declared => simp [lead]
  | _ => cases hk

theorem IsSource.lead_eq_zero (h : q.IsSource) : q.lead = 0 := by
  cases q with
  | tree | reference => rfl
  | _ => cases h

theorem OfScope.lead_lt_two (h : q.OfScope) : q.lead < 2 := by
  cases q with
  | tree | reference | supertype | expansion => simp [lead]
  | _ => cases h

end Question

namespace Query

variable {src : ModuleSource} {α β : Type} {q : Question}

/-- The first question of a query that is not about the source. -/
def Awaits (src : ModuleSource) (x : Query α) (q : Question) : Prop :=
  ∃ next, x.Reads src (.ask q next)

theorem Awaits.bind {x : Query α} (h : x.Awaits src q) (f : α → Query β) :
    (x >>= f).Awaits src q := by
  obtain ⟨next, h⟩ := h
  exact ⟨_, h.bind_left f⟩

theorem Reads.awaits {x : Query α} {f : α → Query β} {a : α} (hx : x.Reads src (pure a))
    (hf : (f a).Awaits src q) : (x >>= f).Awaits src q := by
  obtain ⟨next, hf⟩ := hf
  exact ⟨next, hx.bind hf⟩

end Query

namespace Session

variable {src : ModuleSource} {α : Type} {ks : List GuardKey} {m : Memory}

/-- A question that enters no key leads to questions that are closer to the next one. -/
theorem asks_body (r : Reading) {q : Question} (hs : q.isSource = false) (hk : q.key? = none) :
    (body q).Asks r (·.lead < q.lead) := by
  cases q with
  | supertype d =>
    have source : ∀ q : Question, q.IsSource → q.lead < (Question.supertype d).lead :=
      fun q h => h.lead_eq_zero ▸ Nat.zero_lt_one
    show (declaredSupertype d).Asks r _
    unfold declaredSupertype
    split
    · trivial
    refine (Query.asks_bind ..).2 ⟨Query.asks_mono source (Query.asks_construct r d), ?_⟩
    split
    · split
      · trivial
      · exact ⟨Nat.zero_lt_one, trivial⟩
    · trivial
  | declared d => exact ⟨Nat.zero_lt_one, trivial⟩
  | aliased d =>
    have scope : ∀ q : Question, q.OfScope → q.lead < (Question.aliased d).lead :=
      fun q h => h.lead_lt_two
    refine Query.asks_mono scope ((Query.asks_bind ..).2 ⟨?_, ?_⟩)
    · exact Query.asks_mono (fun _ h => h.ofScope) (Query.asks_construct r d)
    · split
      · exact Query.asks_typeOfNode r _ _
      · trivial
  | tree | reference => cases hs
  | _ => cases hk

/-! ## Queries without a refusal -/

/-- The result of a query when every computation on the way is carried out to its end and none of
them is refused. -/
inductive Unrefused (src : ModuleSource) : List GuardKey → (α : Type) → Query α → α → Prop
  | done {ks : List GuardKey} {α : Type} (a : α) : Unrefused src ks α (.done a) a
  | tree {ks : List GuardKey} {α : Type} {i : ModuleId} {next : Option SyntaxTree → Query α} {a : α} :
      Unrefused src ks α (next (src.tree i)) a → Unrefused src ks α (.ask (.tree i) next) a
  | reference {ks : List GuardKey} {α : Type} {m : ModuleId} {uri : String}
      {next : Option ModuleId → Query α} {a : α} :
      Unrefused src ks α (next (src.resolve m uri)) a →
        Unrefused src ks α (.ask (.reference m uri) next) a
  | ask {ks : List GuardKey} {α : Type} {q : Question} {next : q.Answer → Query α} {b : q.Answer}
      {a : α} :
      q.isSource = false → ¬ q.Refused ks → Unrefused src (q.entered ks) q.Answer (body q) b →
        Unrefused src ks α (next b) a → Unrefused src ks α (.ask q next) a

theorem Unrefused.concludes {x : Query α} {a : α} (h : Unrefused src ks α x a) :
    Concludes src α x a := by
  induction h with
  | done a => exact .done a
  | tree _ ih => exact .tree ih
  | reference _ ih => exact .reference ih
  | ask hs _ _ _ ihb ih => exact .ask hs ihb ih

theorem Unrefused.of_reads {x y : Query α} {a : α} (h : x.Reads src y) (hy : Unrefused src ks α y a) :
    Unrefused src ks α x a := by
  induction h with
  | here => exact hy
  | @ask q next y hq _ ih =>
    cases q with
    | tree i => exact .tree (ih hy)
    | reference s uri => exact .reference (ih hy)
    | _ => cases hq

/-- Some reading answers every question as it is derived, if it is. -/
theorem exists_reading (src : ModuleSource) :
    ∃ r : Reading, ∀ {q : Question} {a : q.Answer}, Derives src q a → r q = a := by
  classical
  refine ⟨fun q => if h : ∃ a, Derives src q a then h.choose else fallback q, fun {q a} h => ?_⟩
  have derived : ∃ a, Derives src q a := ⟨a, h⟩
  exact (dif_pos derived).trans (derived.choose_spec.unique h)

/-! ## Computations without a refusal -/

/-- From a memory a computation comes to `a`, and nothing is refused on the way. -/
structure Completes (x : StateM Memory α) (m : Memory) (a : α) : Prop where
  result : (x m).1 = a
  fallbacks : (x m).2.guard.fallbacks = m.guard.fallbacks

namespace Completes

variable {x : StateM Memory α} {a : α}

theorem guarded {k : GuardKey} {fb : α} {g : Guard} (he : m.guard.enter k = .ok g)
    (hf : g.fallbacks = m.guard.fallbacks) (hx : Completes x { m with guard := g } a) :
    Completes (guarded k fb x) m a := by
  have e : Session.guarded k fb x m = _ := Envelope.guarded_ok he
  exact ⟨e ▸ hx.result, e ▸ hx.fallbacks.trans hf⟩

theorem memoized (hx : Completes x m a) (read : Memory → Option α) (store : α → Memory → Memory)
    (hr : ∀ {b}, read m = some b → a = b) (hg : ∀ b m, (store b m).guard = m.guard) :
    Completes (memoized read store x) m a := by
  cases h : read m with
  | some b =>
    have e : Session.memoized read store x m = _ := memoized_some h
    exact ⟨e ▸ (hr h).symm, e ▸ rfl⟩
  | none =>
    have e : Session.memoized read store x m = _ := memoized_none h
    rw [if_pos hx.fallbacks] at e
    exact ⟨e ▸ hx.result, e ▸ (congrArg Guard.fallbacks (hg _ _)).trans hx.fallbacks⟩

/-- The answer to a question is kept without a refusal if it is computed without one. -/
theorem keep {q : Question} {b : q.Answer} {y : StateM Memory q.Answer} (hs : q.isSource = false)
    (hr : ¬ q.Refused ks) (hb : Derives src q b) (hm : (derivedOnly src).Holds ks m)
    (hy : ∀ m', (derivedOnly src).Holds (q.entered ks) m' → Completes y m' b) :
    Completes (keep src q y) m b := by
  cases hk : q.key? with
  | some k =>
    rw [Question.entered, hk] at hy
    obtain ⟨g, he, hm', hf⟩ := hm.enter_ok (fun h => hr ⟨k, hk, h⟩)
    rw [Envelope.keep_of_key hk]
    exact (hy _ hm').guarded he hf
  | none =>
    rw [Question.entered, hk] at hy
    have computed := hy m hm
    cases q with
    | supertype d =>
      exact computed.memoized (·.supertypes[d]?)
        (fun t m => { m with supertypes := m.supertypes.insert d t })
        (fun h => hb.unique (hm.remembers.supertypes h)) (fun _ _ => rfl)
    | aliased d =>
      exact computed.memoized (·.aliased[d]?) (fun t m => { m with aliased := m.aliased.insert d t })
        (fun h => hb.unique (hm.remembers.aliased h)) (fun _ _ => rfl)
    | declared d =>
      exact computed.memoized (·.declared[d]?)
        (fun t m => { m with declared := m.declared.insert d t })
        (fun h => hb.unique (hm.remembers.declared h)) (fun _ _ => rfl)
    | tree | reference => cases hs
    | _ => cases hk

end Completes

/-- What a question about the source is answered with, it is answered with without a refusal. -/
theorem Completes.ask_source {q : Question} (hq : q.IsSource) {next : q.Answer → Query α} {a : α}
    {n : Nat} (hm : (derivedOnly src).Holds ks m)
    (h : ∀ m', (derivedOnly src).Holds ks m' →
      Completes ((next (src.table q)).run (answer src n)) m' a) :
    Completes ((Query.ask q next).run (answer src n)) m a := by
  obtain ⟨ha, quiet⟩ := quiet_answer hq n hm
  have rest := h _ quiet.holds
  rw [← ha] at rest
  exact ⟨rest.result, rest.fallbacks.trans (congrArg Guard.fallbacks quiet.guard)⟩

/-- There is room for a question and for those that it leads to: either it enters a key, or these are
closer to the next one. -/
theorem nested_room (r : Reading) {q : Question} {w n : Nat} (hs : q.isSource = false)
    (hk : ¬ q.Refused ks) (hw : q.lead ≤ w) (hn : 3 * (Limits.exprTypeDepth - ks.length) + w ≤ n) :
    ∃ k v, n = k + 1 ∧ (body q).Asks r (·.lead ≤ v) ∧
      3 * (Limits.exprTypeDepth - (q.entered ks).length) + v ≤ k := by
  unfold Question.entered
  cases hq : q.key? with
  | some key =>
    have room : ks.length < Limits.exprTypeDepth := Nat.lt_of_not_le (fun h => hk ⟨key, hq, .inl h⟩)
    refine ⟨n - 1, 2, by omega, ?_, ?_⟩
    · exact Query.asks_of_forall Question.lead_le_two (body q)
    · show 3 * (Limits.exprTypeDepth - (ks.length + 1)) + 2 ≤ n - 1
      omega
  | none =>
    have pos := Question.lead_pos hs hq
    refine ⟨n - 1, q.lead - 1, by omega, ?_, ?_⟩
    · exact Query.asks_mono (fun _ h => Nat.le_sub_one_of_lt h) (asks_body r hs hq)
    · show 3 * (Limits.exprTypeDepth - ks.length) + (q.lead - 1) ≤ n - 1
      omega

/-- The induction is on the way the query comes to its result. Below a key there is room for one key
less, and between two keys the inner question is closer to the next one; the room for nested questions
lasts for both. -/
theorem Unrefused.completes {x : Query α} {a : α} (h : Unrefused src ks α x a) {r : Reading}
    (hr : ∀ {q : Question} {a : q.Answer}, Derives src q a → r q = a) {w n : Nat}
    (hx : x.Asks r (·.lead ≤ w)) (hn : 3 * (Limits.exprTypeDepth - ks.length) + w ≤ n)
    (hm : (derivedOnly src).Holds ks m) : Completes (x.run (answer src n)) m a := by
  induction h generalizing w n m with
  | done a => exact ⟨rfl, rfl⟩
  | @tree ks α i next a _ ih =>
    have e : r (.tree i) = src.tree i := hr (.tree (.done _))
    have rest := hx.2
    rw [e] at rest
    exact .ask_source (q := .tree i) rfl hm (fun m' hm' => ih rest hn hm')
  | @reference ks α i uri next a _ ih =>
    have e : r (.reference i uri) = src.resolve i uri := hr (.reference (.done _))
    have rest := hx.2
    rw [e] at rest
    exact .ask_source (q := .reference i uri) rfl hm (fun m' hm' => ih rest hn hm')
  | @ask ks α q next b a hs hk hb _ ihb ih =>
    have derived : Derives src q b := .ask hs hb.concludes (.done b)
    obtain ⟨hw, rest⟩ := hx
    rw [hr derived] at rest
    obtain ⟨k, v, rfl, below, room⟩ := nested_room r hs hk hw hn
    have answered : Completes (answer src (k + 1) q) m b :=
      .keep hs hk derived hm (fun m' hm' => ihb below room hm')
    have hm' := ((derivedOnly src).answer_bounded (k + 1) ks q m hm).2.1
    have after := ih rest hn hm'
    rw [← answered.result] at after
    exact ⟨after.result, after.fallbacks.trans answered.fallbacks⟩

/-- The room in a session is enough for every query. -/
theorem Unrefused.run {x : Query α} {a : α} (h : Unrefused src [] α x a) (hm : Reachable src m) :
    Completes (run src x) m a := by
  obtain ⟨r, hr⟩ := exists_reading src
  exact h.completes hr (Query.asks_of_forall Question.lead_le_two x) (by decide)
    ((derivedOnly src).holds_of_reachable hm)

theorem run_supertype (src : ModuleSource) (d : NodeRef) (m : Memory) :
    run src (Query.supertype d) m = memoized (·.supertypes[d]?)
      (fun t m => { m with supertypes := m.supertypes.insert d t })
      ((declaredSupertype d).run (answer src 1505)) m := rfl

theorem run_supertype_of_remembered {d : NodeRef} {s : Option Ty} (h : m.supertypes[d]? = some s) :
    run src (Query.supertype d) m = (s, m) :=
  (run_supertype src d m).trans (memoized_some h)

/-- A supertype that comes out without a refusal is found in memory from then on. -/
theorem Completes.supertype_again {d : NodeRef} {s : Option Ty}
    (h : Completes (run src (Query.supertype d)) m s) :
    ∃ m', run src (Query.supertype d) m = (s, m') ∧ run src (Query.supertype d) m' = (s, m') := by
  obtain ⟨result, fallbacks⟩ := h
  cases hs : m.supertypes[d]? with
  | some t =>
    have found : run src (Query.supertype d) m = (t, m) := run_supertype_of_remembered hs
    rw [found] at result
    cases result
    exact ⟨m, found, found⟩
  | none =>
    have computed := (run_supertype src d m).trans (memoized_none hs)
    split at computed
    · next =>
      rw [computed] at result
      cases result
      exact ⟨_, computed, run_supertype_of_remembered Std.HashMap.getElem?_insert_self⟩
    · next moved =>
      rw [computed] at fallbacks
      exact absurd fallbacks moved

/-! ## Clauses that ask for themselves -/

/-- To resolve the clause of a class its own supertype is asked for. -/
def AwaitsItself (src : ModuleSource) (d : NodeRef) : Prop :=
  ∃ clause, (declaredSupertype d).Reads src (.ask (.superclause d clause) .done) ∧
    (typeOfNode clause .empty).Awaits src (.supertype d)

theorem AwaitsItself.not_derives {d : NodeRef} (h : AwaitsItself src d) (s : Option Ty) :
    ¬ Derives src (.supertype d) s := by
  obtain ⟨clause, declared, next, reads⟩ := h
  exact not_derives_supertype declared reads s

/-- Such a supertype takes a refusal whenever it is asked for. -/
theorem AwaitsItself.refused {d : NodeRef} (h : AwaitsItself src d) (hm : Reachable src m) :
    m.supertypes[d]? = none ∧
      m.guard.fallbacks < (run src (Query.supertype d) m).2.guard.fallbacks := by
  have holds := (derivedOnly src).holds_of_reachable hm
  obtain ⟨-, -, le, unmoved⟩ := (derivedOnly src).answer_bounded fuel [] (.supertype d) m holds
  refine ⟨?_, Nat.lt_of_le_of_ne le (fun e => h.not_derives _ (unmoved e.symm))⟩
  cases hs : m.supertypes[d]? with
  | none => rfl
  | some s => exact absurd (holds.remembers.supertypes hs) (h.not_derives s)

/-- The clause of a class that extends another type by name. -/
structure NamedClause (src : ModuleSource) (d : NodeRef) (t : SyntaxTree) (c : ClassDecl)
    (clause : NodeIndex) : Prop where
  proper : d ≠ std.any
  tree : src.treeOf d.module = some t
  module : t.module = d.module
  node : t.construct? d.node = some (.classDecl c)
  superclass : c.superclass = some clause
  named : ∃ qualifier name args, t.construct? clause = some (.declaredType qualifier name args)
  parent : t.parent? clause = some d.node
  /-- The members are properties and methods. -/
  members : ∀ i ∈ c.members, ∀ k ∈ t.construct? i, LookupMode.type.accepts k = false

/-- A class that extends another type by name. -/
def ExtendsByName (src : ModuleSource) (d : NodeRef) : Prop :=
  ∃ t c clause, NamedClause src d t c clause

namespace NamedClause

variable {d : NodeRef} {t : SyntaxTree} {c : ClassDecl} {clause : NodeIndex}
  (h : NamedClause src d t c clause)
include h

theorem offers_members (b : Bindings) (skipLocal : Bool) :
    Scope.offers t .type b skipLocal (t.membersOf d.node) = .done := by
  have members : t.membersOf d.node = c.members := by
    unfold SyntaxTree.membersOf
    rw [h.node]
    rfl
  have none : ∀ i ∈ c.members, Scope.candidate? t .type b i = Option.none := by
    intro i hi
    unfold Scope.candidate?
    cases hc : t.construct? i with
    | none => rfl
    | some k => exact if_neg (by rw [h.members i hi k hc]; exact Bool.false_ne_true)
  unfold Scope.offers
  rw [members, List.filterMap_eq_nil_iff.2 (fun i hi => none i (List.mem_filter.1 hi).1)]
  rfl

/-- Behind the members of the class come those of its supertype. -/
theorem awaits_classMembers (args : List Ty) (name : String) :
    ((Scope.classMembers .type false ⟨d, args, []⟩).firstNamed name).Awaits src (.supertype d) := by
  have bindings : (Bindings.forDeclaration d args).Reads src _ :=
    .of_asks (Query.asks_forDeclaration src.table d args)
  show ((Scope.classMembersFrom .type (99 + 1) [] false ⟨d, args, []⟩).firstNamed name).Awaits src _
  rw [Scope.classMembersFrom, if_neg (by simp), Walk.firstNamed_after]
  refine (Query.Reads.tree h.tree).awaits ?_
  dsimp only
  rw [Walk.firstNamed_after]
  refine bindings.awaits ?_
  rw [h.offers_members, Walk.firstNamed_append]
  refine Query.Reads.awaits (a := none) (.here _) ?_
  dsimp only
  rw [Walk.firstNamed_after]
  exact ⟨_, .here _⟩

/-- The place of the clause is inside the class. -/
theorem awaits_resolveTypeName (name : String) :
    (resolveTypeName (d.sibling clause) name).Awaits src (.supertype d) := by
  have ancestors : t.ancestors clause = d.node :: t.chainUp 9999 (t.parent? d.node) := by
    show t.chainUp (9999 + 1) (t.parent? clause) = _
    rw [h.parent]
    rfl
  have self : t.ref d.node = d := by
    unfold SyntaxTree.ref
    rw [h.module]
  have members := h.awaits_classMembers (c.typeParams.map (fun p => .var (t.ref p) [])) name
  unfold resolveTypeName Walk.resolve Scope.visible
  rw [Walk.firstNamed_after]
  refine .bind ((Query.Reads.tree h.tree).awaits ?_) _
  dsimp only
  rw [Walk.firstNamed_append]
  refine .bind ?_ _
  show ((Scope.outward t .type .unknown true clause (t.ancestors clause)).firstNamed name).Awaits src _
  rw [ancestors, Scope.outward, h.node]
  show ((Scope.around t .type .unknown true d.node clause (.classDecl c) ++ _).firstNamed name).Awaits
    src _
  rw [Walk.firstNamed_append]
  refine .bind ?_ _
  unfold Scope.around
  dsimp only
  rw [Walk.firstNamed_append, self]
  exact members.bind _

theorem awaits_clause : (typeOfNode (d.sibling clause) .empty).Awaits src (.supertype d) := by
  obtain ⟨qualifier, name, args, named⟩ := h.named
  refine (Query.Reads.tree h.tree).awaits ?_
  show (typeOfNodeUpTo t .empty d.module (t.size + 1) clause).Awaits src _
  unfold typeOfNodeUpTo
  rw [named]
  refine Query.Awaits.bind ?_ _
  cases qualifier with
  | none => exact h.awaits_resolveTypeName name
  | some qualifier => exact (h.awaits_resolveTypeName qualifier).bind _

theorem awaitsItself : AwaitsItself src d :=
  ⟨_, reads_superclause h.proper h.tree h.node h.superclass, h.awaits_clause⟩

end NamedClause

/-- So it is with the clauses of the standard library. -/
theorem awaitsItself_base {i clause : NodeIndex} (h : Standard.clause? i = some clause) :
    AwaitsItself src ⟨ModuleId.base, i⟩ := by
  have node : (⟨ModuleId.base, i⟩ : NodeRef) ≠ std.any ∧
      ∃ c, std.tree.construct? i = some (.classDecl c) ∧ c.superclass = some clause := by
    unfold Standard.clause? at h
    split at h
    · cases h
    · next proper =>
      split at h
      · next c hc => exact ⟨proper, c, hc, h⟩
      · cases h
  obtain ⟨proper, c, hc, hs⟩ := node
  refine ⟨_, reads_superclause proper (if_pos rfl) hc hs, ?_⟩
  obtain ⟨asks, itself⟩ := Standard.asksItself h clause h
  show (typeOfNode ⟨ModuleId.base, clause⟩ .empty).Awaits src _
  cases hx : typeOfNode ⟨ModuleId.base, clause⟩ .empty with
  | done t =>
    rw [hx] at asks
    cases asks
  | ask q next =>
    rw [hx] at itself
    cases q with
    | supertype d =>
      cases beq_iff_eq.1 itself.1
      exact ⟨next, .here _⟩
    | _ => cases itself.1

/-! ## What a session refuses -/

/-- To a query that meets no key again and stays below the limit nothing is refused, whatever was asked
before, and a supertype that comes out in this way is remembered. But the supertype of a class that
extends another one by name takes a refusal whenever it is asked for, and is never remembered; in every
session that goes for the classes of the standard library. -/
theorem refusals_of_run (src : ModuleSource) :
    (∀ {α : Type} {x : Query α} {a : α} {m : Memory}, Unrefused src [] α x a → Reachable src m →
      Completes (run src x) m a) ∧
    (∀ {d : NodeRef} {s : Option Ty} {m : Memory}, Unrefused src [] _ (Query.supertype d) s →
      Reachable src m →
        ∃ m', run src (Query.supertype d) m = (s, m') ∧ run src (Query.supertype d) m' = (s, m')) ∧
    ∀ {d : NodeRef} {m : Memory},
      ExtendsByName src d ∨ d.module = ModuleId.base ∧ (Standard.clause? d.node).isSome →
      Reachable src m → m.supertypes[d]? = none ∧
        m.guard.fallbacks < (run src (Query.supertype d) m).2.guard.fallbacks := by
  refine ⟨fun h hm => h.run hm, fun h hm => (h.run hm).supertype_again, ?_⟩
  rintro d m (⟨t, c, clause, h⟩ | ⟨base, h⟩) hm
  · exact h.awaitsItself.refused hm
  · obtain ⟨i, rfl⟩ := exists_base base
    obtain ⟨clause, h⟩ := Option.isSome_iff_exists.1 h
    exact (awaitsItself_base h).refused hm

/-- The module with `typealias Words = List<String>`, `class Bird` and `class Owl extends Bird`. -/
def perchTree : SyntaxTree where
  uri := "file:///perch.pkl"
  module := 1
  nodes := #[⟨.declaredType none "String" [], .nowhere, some 1⟩,
    ⟨.declaredType none "List" [0], .nowhere, some 2⟩,
    ⟨.aliasDecl { name := "Words", target := 1 }, .nowhere, some 6⟩,
    ⟨.classDecl { name := "Bird" }, .nowhere, some 6⟩,
    ⟨.declaredType none "Bird" [], .nowhere, some 5⟩,
    ⟨.classDecl { name := "Owl", superclass := some 4 }, .nowhere, some 6⟩,
    ⟨.module { members := [2, 3, 5] }, .nowhere, none⟩]
  root := 6

def perch : ModuleSource where
  tree m := if m = 1 then some perchTree else none
  resolve _ _ := none

theorem unrefused_words :
    Unrefused perch [] Ty (Query.expansion ⟨1, 2⟩ [] []) (std.listTy std.stringTy) := by
  have target : (aliasTarget ⟨1, 2⟩).Asks perch.table (·.isSource = true) ∧
      (aliasTarget ⟨1, 2⟩).value perch.table = std.listTy std.stringTy := by
    decide +kernel
  have params : (typeParams ⟨1, 2⟩).Reads perch (pure []) := .of_settle rfl
  have free : ¬ (Question.expansion ⟨1, 2⟩ [] []).Refused [] := by
    rintro ⟨k, -, h⟩
    exact h.elim (by decide) List.not_mem_nil
  have keyless : ¬ (Question.aliased ⟨1, 2⟩).Refused [.expansion ⟨1, 2⟩] := fun ⟨_, h, _⟩ => nomatch h
  have reads : (aliasTarget ⟨1, 2⟩).Reads perch (pure (std.listTy std.stringTy)) :=
    target.2 ▸ .of_asks target.1
  refine .ask rfl free ?_ (.done _)
  refine .ask rfl keyless (.of_reads reads (.done _)) ?_
  exact .of_reads (reads_bound params _) (.done _)

theorem unrefused_bird :
    Unrefused perch [] (Option Ty) (Query.supertype ⟨1, 3⟩) (some std.typedTy) := by
  have declared : (declaredSupertype ⟨1, 3⟩).Reads perch (pure (some std.typedTy)) := by
    have h : (declaredSupertype ⟨1, 3⟩).Asks perch.table (·.isSource = true) ∧
        (declaredSupertype ⟨1, 3⟩).value perch.table = some std.typedTy := by
      decide +kernel
    exact h.2 ▸ .of_asks h.1
  exact .ask rfl (fun ⟨_, h, _⟩ => nomatch h) (.of_reads declared (.done _)) (.done _)

theorem extendsByName_owl : ExtendsByName perch ⟨1, 5⟩ :=
  ⟨perchTree, _, 4, Standard.ne_any nofun, rfl, rfl, rfl, rfl, ⟨_, _, _, rfl⟩, rfl, nofun⟩

/-- The words are the same lists every time, and the supertype of `Bird` is remembered. Those of `Owl`
and of `Int` take a refusal. -/
theorem refusals_of_run_perch :
    (Unrefused perch [] Ty (Query.expansion ⟨1, 2⟩ [] []) (std.listTy std.stringTy) ∧
      Unrefused perch [] (Option Ty) (Query.supertype ⟨1, 3⟩) (some std.typedTy) ∧
      ExtendsByName perch ⟨1, 5⟩ ∧ (Standard.clause? std.int.node).isSome) ∧
    Completes (run perch (Query.expansion ⟨1, 2⟩ [] [])) {} (std.listTy std.stringTy) ∧
    (∃ m, run perch (Query.supertype ⟨1, 3⟩) {} = (some std.typedTy, m) ∧
      run perch (Query.supertype ⟨1, 3⟩) m = (some std.typedTy, m)) ∧
    0 < (run perch (Query.supertype ⟨1, 5⟩) {}).2.guard.fallbacks ∧
    0 < (run perch (Query.supertype std.int) {}).2.guard.fallbacks := by
  obtain ⟨completes, again, refused⟩ := refusals_of_run perch
  have clause : (Standard.clause? std.int.node).isSome = true := by decide +kernel
  exact ⟨⟨unrefused_words, unrefused_bird, extendsByName_owl, clause⟩,
    completes unrefused_words .fresh, again unrefused_bird .fresh,
    (refused (.inl extendsByName_owl) .fresh).2,
    (refused (.inr ⟨Standard.isClass_int.1, clause⟩) .fresh).2⟩

/-- An owl is a bird and a bird is an object, so no class depends on itself. Still something is refused
whenever the supertype of `Owl` is asked for, and it is not remembered. -/
theorem refused_without_circle :
    (run perch (Query.supertype ⟨1, 5⟩) {}).1 = some (.cls ⟨1, 3⟩ [] []) ∧
    (run perch (Query.supertype ⟨1, 3⟩) {}).1 = some std.typedTy ∧
    (run perch (Query.supertype ⟨1, 5⟩) {}).2.guard.fallbacks = 1 ∧
    (run perch (Query.supertype ⟨1, 5⟩) {}).2.supertypes[(⟨1, 5⟩ : NodeRef)]? = none ∧
    (run perch (Query.supertype ⟨1, 5⟩) (run perch (Query.supertype ⟨1, 5⟩) {}).2).2.guard.fallbacks =
      2 := by
  have empty : Ledger.Mirrors perch {} {} := Ledger.mirrors_empty
  obtain ⟨owl, once⟩ := Ledger.run_eq empty (Query.supertype ⟨1, 5⟩)
  obtain ⟨-, twice⟩ := Ledger.run_eq once (Query.supertype ⟨1, 5⟩)
  obtain ⟨bird, -⟩ := Ledger.run_eq empty (Query.supertype ⟨1, 3⟩)
  rw [owl, bird, once.guard, once.supertypes, twice.guard]
  decide +kernel

end Session

end PklAnalysis
