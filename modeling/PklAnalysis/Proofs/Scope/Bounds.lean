import PklAnalysis.Proofs.Scope.Walks
import PklAnalysis.Proofs.Standard.Lexical
import PklAnalysis.Proofs.Syntax.WellFormed

/-!
# What the walks of a scope offer

Every candidate is a declaration of its module that the mode of the look-up accepts. The walks pass
a flag that leaves local declarations out; the local ones that they offer nevertheless are listed by
a node around the place or by the root of its module (`Scope.within_visible`), and the members of a
type are never local (`Scope.within_members`).

`ModuleSource.Bounds` says this of one candidate. There is one lemma for each kind of walk, and none
needs to know what the session answers, except about trees.
-/

namespace PklAnalysis

/-- The declaration is marked `local`. -/
def Candidate.isLocal (c : Candidate) : Bool := c.construct.hasModifier .localKw

namespace ModuleSource

variable (src : ModuleSource)

/-- Every tree knows its module. -/
def Located : Prop := ∀ m t, src.tree m = some t → t.module = m

/-- The candidate is a declaration of the source that the mode accepts, and a local one is listed in
the module `m` by a node for which `K` holds. -/
structure Bounds (mode : LookupMode) (m : ModuleId) (K : SyntaxTree → NodeIndex → Prop)
    (c : Candidate) : Prop where
  declared : src.construct? c.decl = some c.construct
  accepted : mode.accepts c.construct = true
  listed : c.isLocal = true →
    c.decl.module = m ∧ ∃ t i, src.treeOf m = some t ∧ K t i ∧ t.Lists i c.decl.node

variable {src} {mode : LookupMode} {m : ModuleId} {K L : SyntaxTree → NodeIndex → Prop}
  {c : Candidate}

theorem Located.module_eq (h : src.Located) {t : SyntaxTree} (ht : src.treeOf m = some t) :
    t.module = m := by
  unfold treeOf at ht
  split at ht
  · next hm =>
    cases ht
    rw [hm, Standard.std_tree_eq]
    decide +kernel
  · exact h m t ht

theorem Bounds.mono (h : src.Bounds mode m K c)
    (hKL : ∀ t i, src.treeOf m = some t → K t i → L t i) : src.Bounds mode m L c := by
  refine ⟨h.declared, h.accepted, fun hc => ?_⟩
  obtain ⟨hm, t, i, ht, hi, hl⟩ := h.listed hc
  exact ⟨hm, t, i, ht, hKL t i ht hi, hl⟩

/-- Where local declarations are left out, no candidate is local. -/
theorem Bounds.of_skipped {k : ModuleId}
    (h : src.Bounds mode k (fun t i => true = false ∧ L t i) c) : src.Bounds mode m K c := by
  refine ⟨h.declared, h.accepted, fun hc => ?_⟩
  obtain ⟨_, _, _, _, none, _⟩ := h.listed hc
  cases none.1

end ModuleSource

/-! ## Walks -/

namespace Scope

open ModuleSource Walk

variable {src : ModuleSource} (located : src.Located) {mode : LookupMode} {t : SyntaxTree}
  {m : ModuleId} {i : NodeIndex}

include located

theorem within_offers (ht : src.treeOf m = some t) {b : Bindings} {skip : Bool}
    {is : List NodeIndex} (his : ∀ j ∈ is, t.Lists i j) :
    (offers t mode b skip is).Within src.TellsTrees
      (src.Bounds mode m (fun _ k => skip = false ∧ k = i)) := by
  refine within_ofList (fun c hc => ?_)
  obtain ⟨j, hj, hcj⟩ := List.mem_filterMap.1 hc
  obtain ⟨hji, hskip⟩ := List.mem_filter.1 hj
  unfold candidate? at hcj
  cases hd : t.construct? j with
  | none =>
    rw [hd] at hcj
    cases hcj
  | some d =>
    rw [hd] at hcj
    dsimp only at hcj
    split at hcj
    · obtain ⟨name, _, rfl⟩ := Option.map_eq_some_iff.1 hcj
      have hm : t.module = m := located.module_eq ht
      refine ⟨?_, by assumption, fun hlocal => ⟨hm, t, i, ht, ⟨?_, rfl⟩, his j hji⟩⟩
      · show src.construct? ⟨t.module, j⟩ = _
        rw [hm, construct?, ht]
        exact hd
      · have hj : t.hasModifier j .localKw = true := by
          rw [SyntaxTree.hasModifier, SyntaxTree.modifiers, hd]
          exact hlocal
        rw [hj] at hskip
        cases skip
        · rfl
        · cases hskip
    · cases hcj

theorem within_classMembersFrom (n : Nat) (seen : List NodeRef) (skip : Bool) (k : ClassTy) :
    (classMembersFrom mode n seen skip k).Within src.TellsTrees
      (src.Bounds mode k.decl.module (fun _ i => skip = false ∧ i = k.decl.node)) := by
  induction n generalizing seen skip k with
  | zero => trivial
  | succ n ih =>
    unfold classMembersFrom
    split
    · trivial
    refine within_after (within_tellsTrees k.decl.module) (fun t ht => ?_)
    cases t with
    | none => trivial
    | some t =>
      refine within_after Query.within_true (fun b _ => ?_)
      refine within_append (within_offers located ht.symm
        (fun _ => SyntaxTree.lists_of_mem_membersOf)) ?_
      refine within_after Query.within_true (fun parent _ => ?_)
      cases parent with
      | none => trivial
      | some parent =>
        exact (ih _ true parent).mono (fun c hc => hc.of_skipped)

theorem within_classMembers (skip : Bool) (k : ClassTy) :
    (classMembers mode skip k).Within src.TellsTrees
      (src.Bounds mode k.decl.module (fun _ i => skip = false ∧ i = k.decl.node)) :=
  within_classMembersFrom located _ _ skip k

omit located in
theorem within_moduleChainFrom {P : (q : Question) → q.Answer → Prop} (n : Nat)
    (chain : List ModuleId) (k : ModuleId) :
    (moduleChainFrom n chain k).Within P (chain <+: ·) := by
  induction n generalizing chain k with
  | zero => exact List.prefix_rfl
  | succ n ih =>
    refine Query.within_true.bind (fun next _ => ?_)
    cases next with
    | none => exact List.prefix_rfl
    | some next =>
      dsimp only
      split
      · exact List.prefix_rfl
      · exact (ih _ next).mono (fun _ h => (List.prefix_append chain [next]).trans h)

theorem within_moduleMembersAlong (ms : List ModuleId) :
    (moduleMembersAlong mode true ms).Within src.TellsTrees (src.Bounds mode m K) := by
  induction ms with
  | nil => trivial
  | cons k ms ih =>
    refine within_after (within_tellsTrees k) (fun t ht => ?_)
    cases t with
    | none => exact ih
    | some t =>
      refine within_append ?_ ih
      exact (within_offers located ht.symm
        (fun _ => SyntaxTree.lists_root_of_mem_moduleMembers)).mono (fun c hc => hc.of_skipped)

theorem within_moduleMembers (skip : Bool) (m : ModuleId) :
    (moduleMembers mode skip m).Within src.TellsTrees
      (src.Bounds mode m (fun t i => skip = false ∧ i = t.root)) := by
  refine within_after (within_moduleChainFrom _ [m] m) (fun chain hc => ?_)
  obtain ⟨ms, rfl⟩ := hc
  show (moduleMembersAlong mode skip (m :: ms.take 99)).Within _ _
  refine within_after (within_tellsTrees m) (fun t ht => ?_)
  cases t with
  | none => exact within_moduleMembersAlong located _
  | some t =>
    refine within_append ?_ (within_moduleMembersAlong located _)
    refine (within_offers located ht.symm
      (fun _ => SyntaxTree.lists_root_of_mem_moduleMembers)).mono (fun c hc => ?_)
    refine hc.mono (fun u i hu hi => ?_)
    cases hu.symm.trans ht.symm
    exact hi

/-! ### Members of types -/

theorem within_membersWith {expand : Ty → Walk Candidate}
    (hexpand : ∀ t, (expand t).Within src.TellsTrees (src.Bounds mode m K)) (t : Ty) :
    (membersWith mode expand true t).Within src.TellsTrees (src.Bounds mode m K) := by
  have ofClass : ∀ k, (classMembers mode true k).Within src.TellsTrees (src.Bounds mode m K) :=
    fun k => (within_classMembers located true k).mono (fun c hc => hc.of_skipped)
  fun_induction membersWith mode expand true t with
  | case1 | case2 => exact within_done
  | case3 | case4 | case7 => exact ofClass _
  | case5 k =>
    refine within_append ?_ (ofClass _)
    exact (within_moduleMembers located true k).mono (fun c hc => hc.of_skipped)
  | case6 => exact hexpand _
  | case8 l r c ihl ihr => exact within_append ihl ihr

/-- No member of a type is local. -/
theorem within_members (t : Ty) :
    (members mode t).Within src.TellsTrees (src.Bounds mode m K) := by
  have upTo : ∀ n t, (membersUpTo mode true n t).Within src.TellsTrees (src.Bounds mode m K) := by
    intro n
    induction n with
    | zero => exact within_membersWith located (fun _ => within_done)
    | succ n ih =>
      exact within_membersWith located (fun t => within_after Query.within_true (fun u _ => ih u))
  exact upTo _ t

/-! ### What is visible at a place -/

theorem within_around (ht : src.treeOf m = some t) {this : Ty} {innermost : Bool}
    {child : NodeIndex} {c : Construct} (hc : t.construct? i = some c) :
    (around t mode this innermost i child c).Within src.TellsTrees
      (src.Bounds mode m (fun _ k => k = i)) := by
  have own : ∀ {js}, (∀ j ∈ js, j ∈ c.children) → (offers t mode .empty false js).Within
      src.TellsTrees (src.Bounds mode m (fun _ k => k = i)) := fun h =>
    (within_offers located ht (fun j hj => SyntaxTree.lists_of_construct hc (h j hj))).mono
      (fun _ hb => hb.mono (fun _ _ _ hk => hk.2))
  have members : (members mode this).Within src.TellsTrees (src.Bounds mode m (fun _ k => k = i)) :=
    within_members located this
  cases c with
  | letIn p value body =>
    exact within_ite (own (fun _ h => List.mem_append_left [value, body] h)) within_done
  | lambda ps body =>
    exact within_ite (own (fun _ h => List.mem_append_left [body] h)) within_done
  | forGenerator key value iterable body =>
    refine within_ite (own (fun _ h => ?_)) within_done
    rw [List.mem_append, List.mem_singleton] at h
    rcases h with h | rfl
    · exact List.mem_append_left _ h
    · exact List.mem_append_right _ List.mem_cons_self
  | method d =>
    refine own (fun _ h => List.mem_append_left _ (List.mem_append_left _ ?_))
    rwa [List.mem_append, or_comm, ← List.mem_append]
  | objectBody ps ms => exact within_append (own (fun _ => id)) (within_ite members within_done)
  | classDecl d =>
    refine within_append ?_
      (own (fun _ h => List.mem_append_left _ (List.mem_append_left _ h)))
    have hm : t.module = m := located.module_eq ht
    subst hm
    exact (within_classMembers located false _).mono (fun _ hb => hb.mono (fun _ _ _ hk => hk.2))
  | aliasDecl d => exact own (fun _ h => List.mem_append_left [d.target] h)
  | constrainedType => exact within_ite members within_done
  | _ => exact within_done

theorem within_outward (ht : src.treeOf m = some t) {this : Ty} (innermost : Bool)
    (child : NodeIndex) (is : List NodeIndex) :
    (outward t mode this innermost child is).Within src.TellsTrees
      (src.Bounds mode m (fun _ k => k ∈ is)) := by
  induction is generalizing innermost child with
  | nil => trivial
  | cons i is ih =>
    unfold outward
    cases hc : t.construct? i with
    | none => trivial
    | some c =>
      dsimp only
      split
      · trivial
      · refine within_append ?_ ?_
        · exact (within_around located ht hc).mono
            (fun _ hb => hb.mono (fun _ _ _ hk => hk ▸ List.mem_cons_self))
        · exact (ih _ i).mono (fun _ hb => hb.mono (fun _ _ _ hk => List.mem_cons_of_mem i hk))

theorem within_moduleLevel (ht : src.treeOf m = some t) :
    (moduleLevel t mode m).Within src.TellsTrees (src.Bounds mode m (fun t k => k = t.root)) := by
  refine within_append ?_ (within_append ?_ ?_)
  · exact (within_moduleMembers located false m).mono (fun _ hb => hb.mono (fun _ _ _ hk => hk.2))
  · refine (within_offers located ht (fun _ => SyntaxTree.lists_root_of_mem_imports)).mono
      (fun c hc => hc.mono (fun u i hu hi => ?_))
    cases hu.symm.trans ht
    exact hi.2
  · split
    · trivial
    · exact (within_moduleMembers located true _).mono (fun _ hb => hb.of_skipped)

/-- A local declaration that is visible at a place is listed around it or by the root. -/
theorem within_visible (site : NodeRef) (this : Ty) :
    (visible site this mode).Within src.TellsTrees
      (src.Bounds mode site.module (fun t k => k ∈ t.ancestors site.node ∨ k = t.root)) := by
  refine within_after (within_tellsTrees site.module) (fun t ht => ?_)
  cases t with
  | none => trivial
  | some t =>
    refine within_append ?_ ?_
    · refine (within_outward located ht.symm true site.node (t.ancestors site.node)).mono (fun c hc => ?_)
      refine hc.mono (fun u i hu hi => ?_)
      cases hu.symm.trans ht.symm
      exact .inl hi
    · exact (within_moduleLevel located ht.symm).mono (fun _ hb => hb.mono (fun _ _ _ hk => .inr hk))

end Scope

end PklAnalysis
