import PklAnalysis.Proofs.Scope.Bounds
import PklAnalysis.Proofs.Standard.Clauses

/-!
# Local declarations

In a session of well-formed trees a local declaration is visible inside its parent only. The root of
a module has no ancestors; there the local declarations that it lists itself are visible as well.
The members of a type are never local.
-/

namespace PklAnalysis

namespace ModuleSource

variable (src : ModuleSource)

/-- The tree of every module is well-formed and knows its module. -/
def WellFormed : Prop := ∀ m t, src.tree m = some t → t.module = m ∧ t.WellFormed

/-- Whether the declaration is marked `local`. -/
def isLocal (d : NodeRef) : Bool := (src.construct? d).any (·.hasModifier .localKw)

variable {src} {mode : LookupMode} {site : NodeRef} {c : Candidate}

theorem WellFormed.located (h : src.WellFormed) : src.Located := fun m t ht => (h m t ht).1

theorem Bounds.isLocal_eq {m : ModuleId} {K : SyntaxTree → NodeIndex → Prop}
    (h : src.Bounds mode m K c) : src.isLocal c.decl = c.isLocal := by
  rw [isLocal, h.declared]
  rfl

theorem base_has_no_local : ∀ n ∈ std.tree.nodes.toList, n.construct.hasModifier .localKw = false := by
  rw [Standard.std_tree_eq]
  decide +kernel

theorem isLocal_base (i : NodeIndex) : src.isLocal ⟨ModuleId.base, i⟩ = false := by
  rw [isLocal, src.construct?_base, SyntaxTree.construct?]
  cases h : std.tree.node? i with
  | none => rfl
  | some n => exact base_has_no_local n (Array.mem_toList_iff.2 (Array.mem_of_getElem? h))

/-- A local declaration listed around a place has a parent that is an ancestor of the place, unless
it is listed by the root, which has no ancestors. -/
theorem Bounds.encloses (hs : src.WellFormed)
    (h : src.Bounds mode site.module (fun t k => k ∈ t.ancestors site.node ∨ k = t.root) c)
    (hc : src.isLocal c.decl = true) :
    c.decl.module = site.module ∧ ∃ t p, src.treeOf site.module = some t ∧
      t.parent? c.decl.node = some p ∧ (t.Ancestor p site.node ∨
        t.Lists t.root c.decl.node ∧ (site.node = t.root ∨ t.size ≤ site.node)) := by
  obtain ⟨hm, t, i, ht, hi, hl⟩ := h.listed (h.isLocal_eq ▸ hc)
  have hbase : site.module ≠ ModuleId.base := by
    intro e
    have hd : c.decl = ⟨ModuleId.base, c.decl.node⟩ := by rw [← e, ← hm]
    rw [hd, isLocal_base] at hc
    cases hc
  have wf : t.WellFormed := by
    have ht' := ht
    rw [treeOf, if_neg hbase] at ht'
    exact (hs _ _ ht').2
  have hj : c.decl.node < t.size := by
    have hd := h.declared
    rw [construct?, hm, ht] at hd
    exact SyntaxTree.lt_size_of_construct hd
  refine ⟨hm, t, ?_⟩
  have enclosed : t.Ancestor i site.node → ∃ p, src.treeOf site.module = some t ∧
      t.parent? c.decl.node = some p ∧ (t.Ancestor p site.node ∨
        t.Lists t.root c.decl.node ∧ (site.node = t.root ∨ t.size ≤ site.node)) := by
    intro ha
    obtain ⟨p, hp, hpa⟩ := wf.exists_parent_of_ancestor hl hj ha
    exact ⟨p, ht, hp, .inl hpa⟩
  rcases hi with hi | rfl
  · exact enclosed (SyntaxTree.ancestor_of_mem_ancestors hi)
  · by_cases hsite : site.node = t.root ∨ t.size ≤ site.node
    · obtain ⟨p, hp⟩ := Option.isSome_iff_exists.1 (wf.linked hl hj)
      exact ⟨p, ht, hp, .inr ⟨hl, hsite⟩⟩
    · rw [not_or, Nat.not_le] at hsite
      exact enclosed (wf.ancestor_root hsite.2 hsite.1)

end ModuleSource

namespace Session

variable {src : ModuleSource}

/-- A local declaration is offered inside its parent only, and never as a member of a type. At the
root of a module, which has no ancestors, what the root lists is offered as well. -/
theorem local_offered_inside (hs : src.WellFormed) :
    (∀ (site : NodeRef) (this : Ty) (mode : LookupMode) (n : Nat) (m : Memory) (c : Candidate),
      Offers src n m (Scope.visible site this mode) c → src.isLocal c.decl = true →
        c.decl.module = site.module ∧ ∃ t p, src.treeOf site.module = some t ∧
          t.parent? c.decl.node = some p ∧ (t.Ancestor p site.node ∨
            t.Lists t.root c.decl.node ∧ (site.node = t.root ∨ t.size ≤ site.node))) ∧
    (∀ (receiver : Ty) (mode : LookupMode) (n : Nat) (m : Memory) (c : Candidate),
      Offers src n m (Scope.members mode receiver) c → src.isLocal c.decl = false) := by
  have tells : ∀ n q m, src.TellsTrees q (answer src n q m).1 := ModuleSource.tellsTrees_answer
  constructor
  · intro site this mode n m c h hc
    exact (h.within (tells n) (Scope.within_visible hs.located site this)).encloses hs hc
  · intro receiver mode n m c h
    have bounds : src.Bounds mode ModuleId.base (fun _ _ => False) c :=
      h.within (tells n) (Scope.within_members hs.located receiver)
    rw [bounds.isLocal_eq]
    cases hc : c.isLocal with
    | false => rfl
    | true =>
      obtain ⟨_, _, _, _, none, _⟩ := bounds.listed hc
      exact none.elim

/-! ### One local property -/

/-- The module `local x`. -/
def closetTree : SyntaxTree where
  uri := "file:///closet.pkl"
  module := 1
  nodes := #[⟨.property { name := "x", modifiers := [⟨.localKw, .nowhere⟩] }, .nowhere, some 1⟩,
    ⟨.module { members := [0] }, .nowhere, none⟩]
  root := 1

/-- A session with this module only. -/
def closet : ModuleSource where
  tree i := if i = 1 then some closetTree else none
  resolve _ _ := none

/-- The property of this module as a candidate. -/
def hiddenX : Candidate :=
  ⟨"x", ⟨1, 0⟩, .property { name := "x", modifiers := [⟨.localKw, .nowhere⟩] }, .empty⟩

theorem wellFormed_closet : closet.WellFormed := by
  intro m t h
  change (if m = 1 then some closetTree else none) = some t at h
  split at h
  · next hm =>
    cases h
    exact ⟨hm.symm, SyntaxTree.wellFormed_of_ordered (by decide) (by decide) (by decide)⟩
  · cases h

/-- The walk asks for the tree of the module and for its clauses, and begins with what it lists. -/
theorem offers_hiddenX (i : NodeIndex) (h : i = 0 ∨ i = 1) :
    Offers closet fuel {} (Scope.visible ⟨1, i⟩ .unknown .property) hiddenX := by
  rcases h with rfl | rfl
  · exact .ask (.ask (.ask .here))
  · exact .ask (.ask (.ask .here))

theorem local_offered_inside_closet :
    closet.WellFormed ∧ Offers closet fuel {} (Scope.visible ⟨1, 0⟩ .unknown .property) hiddenX ∧
    closet.isLocal hiddenX.decl = true ∧ hiddenX.decl.module = 1 ∧
    ∃ t p, closet.treeOf 1 = some t ∧ t.parent? 0 = some p ∧ (t.Ancestor p 0 ∨
      t.Lists t.root 0 ∧ (0 = t.root ∨ t.size ≤ 0)) :=
  have offered := offers_hiddenX 0 (.inl rfl)
  ⟨wellFormed_closet, offered, rfl,
    (local_offered_inside wellFormed_closet).1 ⟨1, 0⟩ .unknown .property fuel {} hiddenX offered rfl⟩

/-- The root of a module sees what it lists itself. -/
theorem local_offered_at_root :
    closet.WellFormed ∧ Reachable closet {} ∧
    Offers closet fuel {} (Scope.visible ⟨1, 1⟩ .unknown .property) hiddenX ∧
    closet.isLocal hiddenX.decl = true ∧
    ¬ ∃ t p, closet.treeOf 1 = some t ∧ t.parent? hiddenX.decl.node = some p ∧ t.Ancestor p 1 := by
  refine ⟨wellFormed_closet, .fresh, offers_hiddenX 1 (.inr rfl), rfl, ?_⟩
  rintro ⟨t, p, ht, -, hp⟩
  cases ht
  obtain ⟨_, _, none⟩ := Relation.TransGen.tail'_iff.1 hp
  cases none

end Session

end PklAnalysis
