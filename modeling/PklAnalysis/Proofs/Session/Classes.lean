import PklAnalysis.Proofs.Standard.Settled
import PklAnalysis.Proofs.Types.Height

/-!
# The classes of a session

The classes of the standard library are regular in every session. If the classes of the other
modules have no type parameters and extend classes without type parameters, then all classes of the
session are (`PlainClasses.regular`).
-/

namespace PklAnalysis

open Session

namespace Session

variable (src : ModuleSource)

/-! ## Type parameters -/

theorem reading_params (d : NodeRef) :
    (reading src).params d = ((src.treeOf d.module).map (·.params d)).getD [] := by
  unfold Reading.params typeParams
  rw [Query.value_bind, value_construct]
  cases src.treeOf d.module with
  | none => rfl
  | some t =>
    rw [Option.bind_some, Option.map_some, Option.getD_some]
    unfold SyntaxTree.params
    cases t.construct? d.node <;> rfl

theorem reading_params_base {d : NodeRef} (h : d.module = ModuleId.base) :
    (reading src).params d = std.tree.params d := by
  rw [reading_params, ModuleSource.treeOf, if_pos h, Option.map_some, Option.getD_some]

variable {src}

theorem reading_params_of_isClass {d : NodeRef} (hd : Standard.IsClass d 0) :
    (reading src).params d = [] := by
  rw [reading_params_base src hd.1, hd.params]

theorem length_params_of_isClass {d : NodeRef} {n : Nat} (hd : Standard.IsClass d n) :
    n = ((reading src).params d).length := by
  rw [reading_params_base src hd.1]
  exact hd.2.2

theorem reading_params_of_construct {d : NodeRef} {c : Construct}
    (h : src.construct? d = some c) (hc : c.typeParams = []) : (reading src).params d = [] := by
  rw [reading_params]
  unfold ModuleSource.construct? at h
  cases ht : src.treeOf d.module with
  | none => rfl
  | some t =>
    rw [ht, Option.bind_some] at h
    rw [Option.map_some, Option.getD_some, SyntaxTree.params, h]
    show c.typeParams.map _ = []
    rw [hc]
    rfl

/-! ## The standard library -/

theorem exists_base {d : NodeRef} (h : d.module = ModuleId.base) : ∃ i, d = ⟨ModuleId.base, i⟩ :=
  ⟨d.node, by rw [← h]⟩

theorem superdecl_base (i : NodeIndex) :
    (reading src).superdecl ⟨ModuleId.base, i⟩ = (Standard.supertype? i).bind Ty.classDecl? := by
  unfold Reading.superdecl
  rw [(settled_supertype src i).2]

/-- Every chain of the standard library gets closer to its end with each step. -/
theorem steps_base (i : NodeIndex) :
    ∃ n t, n ≤ Standard.rank i ∧ Steps (reading src).superdecl n ⟨ModuleId.base, i⟩ t ∧
      (reading src).superdecl t = none := by
  induction hk : Standard.rank i using Nat.strongRecOn generalizing i with
  | ind k ih =>
    subst hk
    cases hs : Standard.supertype? i with
    | none =>
      refine ⟨0, _, Nat.zero_le _, .here _, ?_⟩
      rw [superdecl_base, hs]
      rfl
    | some s =>
      have he := ((Standard.soundClass_of_supertype hs).2.1 s hs).1
      cases s with
      | cls d args c =>
        obtain ⟨hm, -, hr, -⟩ := he
        obtain ⟨j, rfl⟩ := exists_base hm
        obtain ⟨n, t, hn, hst, ht⟩ := ih _ hr j rfl
        refine ⟨n + 1, t, Nat.lt_of_le_of_lt hn hr, .up ?_ hst, ht⟩
        rw [superdecl_base, hs]
        rfl
      | _ => exact he.elim

/-- What is known of the classes of the standard library, as the session sees them. -/
theorem of_supertype_base {d : NodeRef} {s : Ty} (hd : d.module = ModuleId.base)
    (hs : reading src (.supertype d) = some s) :
    (((reading src).params d).map (·.1)).Nodup ∧
      ∃ e qs k, s = .cls e qs k ∧ Aligned ((reading src).params d) ((reading src).params e) qs := by
  obtain ⟨i, rfl⟩ := exists_base hd
  rw [(settled_supertype src i).2] at hs
  obtain ⟨_, he, hn⟩ := Standard.soundClass_of_supertype hs
  have he := (he s hs).1
  rw [reading_params_base src rfl]
  cases s with
  | cls e qs k =>
    obtain ⟨hm, -, -, ha⟩ := he
    refine ⟨hn, e, qs, k, rfl, ?_⟩
    rw [reading_params_base src hm]
    exact ha
  | _ => exact he.elim

theorem rank_le (i : NodeIndex) : Standard.rank i ≤ 3 := by
  unfold Standard.rank
  split
  · split
    · split <;> decide
    · decide
  · decide

/-- What declares no class has no supertype. -/
theorem plainSupertype_of_not_class {d : NodeRef}
    (h : ∀ c, src.construct? d ≠ some (.classDecl c)) : src.plainSupertype d = some none := by
  unfold ModuleSource.plainSupertype
  split
  · rfl
  · split
    · next c hc => exact absurd hc (h c)
    · rfl

/-- A class without a clause extends `Typed`. -/
theorem gives_supertype_of_no_clause {d : NodeRef} {c : ClassDecl} (hd : d ≠ std.any)
    (hc : src.construct? d = some (.classDecl c)) (hs : c.superclass = none) :
    Gives src (Query.supertype d) (some std.typedTy) := by
  have plain : src.plainSupertype d = some (some std.typedTy) := by
    unfold ModuleSource.plainSupertype
    rw [if_neg hd, hc]
    dsimp only
    rw [hs]
  exact gives_ask_iff.2 (settled_plainSupertype plain)

/-- Modules without clauses are chains by themselves. -/
theorem modulesRooted_of_no_clause (h : ∀ {m t}, src.tree m = some t → t.clause? = none) :
    (reading src).ModulesRooted := by
  refine fun m => ⟨0, m, by decide, .here m, above_of_no_clause (fun t ht => ?_)⟩
  unfold ModuleSource.treeOf at ht
  split at ht
  · rw [← Option.some.inj ht, Standard.no_clause]
  · exact h ht

theorem supertype_any : reading src (.supertype std.any) = none := by
  obtain ⟨i, hi⟩ := exists_base Standard.isClass_any.1
  rw [hi, (settled_supertype src i).2, Standard.supertype?_any hi.symm]

/-! ## Hierarchies -/

variable (src)

/-- The classes beside the standard library extend class types, and their chains come to an end
before walks are cut off. -/
structure ClassHierarchy : Prop where
  supertype : ∀ {d c}, d.module ≠ ModuleId.base → src.construct? d = some (.classDecl c) →
    ∃ e qs k, Gives src (Query.supertype d) (some (.cls e qs k))
  chain : ∀ {d c}, d.module ≠ ModuleId.base → src.construct? d = some (.classDecl c) →
    ∃ n t, n < Limits.supertypeChain ∧ Steps (reading src).superdecl n d t ∧
      (reading src).superdecl t = none

variable {src}

namespace ClassHierarchy

variable (h : ClassHierarchy src)
include h

/-- Every question for a supertype has one answer. -/
theorem settled_supertype (d : NodeRef) : Settled src (.supertype d) := by
  by_cases hd : d.module = ModuleId.base
  · obtain ⟨i, rfl⟩ := exists_base hd
    exact (Session.settled_supertype src i).1
  by_cases hc : ∃ c, src.construct? d = some (.classDecl c)
  · obtain ⟨c, hc⟩ := hc
    obtain ⟨e, qs, k, hg⟩ := h.supertype hd hc
    exact (gives_ask_iff.1 hg).1
  · exact (settled_plainSupertype (plainSupertype_of_not_class (fun c e => hc ⟨c, e⟩))).1

theorem rooted : (reading src).Rooted where
  isClass {d s} hs := by
    by_cases hd : d.module = ModuleId.base
    · obtain ⟨_, e, qs, k, he, _⟩ := of_supertype_base hd hs
      exact ⟨e, qs, k, he⟩
    by_cases hc : ∃ c, src.construct? d = some (.classDecl c)
    · obtain ⟨c, hc⟩ := hc
      obtain ⟨e, qs, k, hg⟩ := h.supertype hd hc
      have hr : reading src (.supertype d) = some (.cls e qs k) := (gives_ask_iff.1 hg).2
      rw [hs] at hr
      exact ⟨e, qs, k, Option.some.inj hr⟩
    · have hp := plainSupertype_of_not_class (fun c e => hc ⟨c, e⟩)
      rw [(settled_plainSupertype hp).2] at hs
      cases hs
  chain d := by
    by_cases hd : d.module = ModuleId.base
    · obtain ⟨i, rfl⟩ := exists_base hd
      obtain ⟨n, t, hn, hs, ht⟩ := @steps_base src i
      exact ⟨n, t, Nat.lt_of_le_of_lt (Nat.le_trans hn (rank_le i)) (by decide), hs, ht⟩
    by_cases hc : ∃ c, src.construct? d = some (.classDecl c)
    · obtain ⟨c, hc⟩ := hc
      exact h.chain hd hc
    · refine ⟨0, d, by decide, .here d, ?_⟩
      unfold Reading.superdecl
      rw [(settled_plainSupertype (plainSupertype_of_not_class (fun c e => hc ⟨c, e⟩))).2]
      rfl

end ClassHierarchy

/-! ## Classes without type parameters -/

variable (src)

/-- The classes beside the standard library have no type parameters and extend classes without type
parameters. Their chains, and the chains of the modules, come to an end before walks are cut off. -/
structure PlainClasses : Prop where
  params : ∀ {d c}, d.module ≠ ModuleId.base → src.construct? d = some (.classDecl c) →
    c.typeParams = []
  supertype : ∀ {d c}, d.module ≠ ModuleId.base → src.construct? d = some (.classDecl c) →
    ∃ e k, Gives src (Query.supertype d) (some (.cls e [] k)) ∧ (reading src).params e = []
  chain : ∀ {d c}, d.module ≠ ModuleId.base → src.construct? d = some (.classDecl c) →
    ∃ n t, n < Limits.supertypeChain ∧ Steps (reading src).superdecl n d t ∧
      (reading src).superdecl t = none
  modules : (reading src).ModulesRooted

variable {src}

theorem PlainClasses.of_no_class (none : ∀ {d c}, d.module ≠ ModuleId.base →
      src.construct? d ≠ some (.classDecl c))
    (modules : (reading src).ModulesRooted) : PlainClasses src :=
  ⟨fun hd h => absurd h (none hd), fun hd h => absurd h (none hd), fun hd h => absurd h (none hd),
    modules⟩

namespace PlainClasses

variable (h : PlainClasses src)
include h

theorem hierarchy : ClassHierarchy src where
  supertype hd hc := by
    obtain ⟨e, k, hg, _⟩ := h.supertype hd hc
    exact ⟨e, [], k, hg⟩
  chain := h.chain

/-- A supertype outside the standard library comes from a class, and is a class without
arguments. -/
theorem of_supertype {d : NodeRef} {s : Ty} (hd : d.module ≠ ModuleId.base)
    (hs : reading src (.supertype d) = some s) :
    (reading src).params d = [] ∧ ∃ e k, s = .cls e [] k ∧ (reading src).params e = [] := by
  by_cases hc : ∃ c, src.construct? d = some (.classDecl c)
  · obtain ⟨c, hc⟩ := hc
    obtain ⟨e, k, hg, he⟩ := h.supertype hd hc
    have hr : reading src (.supertype d) = some (.cls e [] k) := (gives_ask_iff.1 hg).2
    rw [hs] at hr
    exact ⟨reading_params_of_construct hc (h.params hd hc), e, k, Option.some.inj hr, he⟩
  · have hp := plainSupertype_of_not_class (fun c e => hc ⟨c, e⟩)
    rw [(settled_plainSupertype hp).2] at hs
    cases hs

/-- The hierarchy of the session is regular. -/
theorem regular : (reading src).Regular where
  lawful := lawful_reading src
  modules := h.modules
  top := supertype_any
  stringParams := reading_params_of_isClass Standard.isClass_string
  moduleParams := reading_params_of_isClass Standard.isClass_module
  rooted := h.hierarchy.rooted
  aligned := by
    intro d e qs k hs
    by_cases hd : d.module = ModuleId.base
    · obtain ⟨_, e', qs', k', he, ha⟩ := of_supertype_base hd hs
      cases he
      exact ha
    · obtain ⟨hp, e', k', he, hq⟩ := h.of_supertype hd hs
      cases he
      rw [hp, hq]
      exact ⟨rfl, fun x hx => absurd hx List.not_mem_nil⟩
  nodup := by
    intro d s hs
    by_cases hd : d.module = ModuleId.base
    · exact (of_supertype_base hd hs).1
    · rw [(h.of_supertype hd hs).1]
      exact List.nodup_nil

end PlainClasses

end Session

end PklAnalysis
