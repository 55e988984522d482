import PklAnalysis.Syntax.Builder
import Mathlib.Data.Fintype.Card
import Mathlib.Data.List.Nodup
import Mathlib.Logic.Relation

/-!
# Well-formed trees

Sealing a table links every listed node to a node that lists it (`TreeBuilder.linked_finish`). In a
well-formed tree each node but the root is listed once, so the link leads to the only node that
lists it (`WellFormed.parent_eq`), and the root is an ancestor of every other node
(`WellFormed.ancestor_root`). The root may be listed as well; then it is an ancestor of itself.
-/

namespace PklAnalysis

/-! ## Parents and children -/

namespace SyntaxTree

variable (t : SyntaxTree)

/-- Going from a node to one that it lists. -/
def Lists (i j : NodeIndex) : Prop := j ∈ t.children i

/-- `a` is met on the way up from `i`, which is not on this way itself unless it is part of
itself. -/
def Ancestor (a i : NodeIndex) : Prop := Relation.TransGen (fun p j => t.parent? j = some p) a i

/-- The links upwards fit the lists of children. -/
structure Linked : Prop where
  listed : ∀ {i j}, t.parent? j = some i → t.Lists i j
  linked : ∀ {i j}, t.Lists i j → j < t.size → (t.parent? j).isSome

/-- Every node but the root is listed as a child exactly once, and every node is reached from the
root. -/
structure WellFormed : Prop extends Linked t where
  once : ∀ j < t.size, j ≠ t.root → ∃ i, (t.children i).count j = 1 ∧ ∀ k, t.Lists k j → k = i
  reached : ∀ j < t.size, Relation.ReflTransGen t.Lists t.root j

variable {t} {i j a : NodeIndex}

theorem lt_size_of_construct {c : Construct} (h : t.construct? i = some c) : i < t.size := by
  obtain ⟨n, hn, -⟩ := Option.map_eq_some_iff.1 h
  exact (Array.getElem?_eq_some_iff.1 hn).1

/-- A tree in which there are nodes on `n` levels, and none on two, has at least `n` nodes. -/
theorem le_size_of_levels {level : Nat → NodeIndex → Prop} {n : Nat}
    (inside : ∀ {m i}, level m i → i < t.size)
    (unique : ∀ {m n i}, level m i → level n i → m = n)
    (exists_on : ∀ m < n, ∃ i, level m i) : n ≤ t.size := by
  have on : ∀ m : Fin n, ∃ i : Fin t.size, level m i := by
    intro m
    obtain ⟨i, hi⟩ := exists_on m m.isLt
    exact ⟨⟨i, inside hi⟩, hi⟩
  choose node hn using on
  have injective : Function.Injective node := fun k l e => Fin.ext (unique (hn k) (e ▸ hn l))
  simpa using Fintype.card_le_of_injective node injective

theorem lists_of_construct {c : Construct} (h : t.construct? i = some c) (hj : j ∈ c.children) :
    t.Lists i j := by
  unfold Lists children
  rw [h]
  exact hj

theorem lists_of_mem_membersOf (h : j ∈ t.membersOf i) : t.Lists i j := by
  unfold membersOf at h
  cases hc : t.construct? i with
  | none =>
    rw [hc] at h
    cases h
  | some c =>
    rw [hc] at h
    refine lists_of_construct hc ?_
    cases c with
    | module | classDecl | objectBody => exact List.mem_append_right _ h
    | _ => cases h

theorem construct?_root_of_moduleDecl? {d : ModuleDecl} (h : t.moduleDecl? = some d) :
    t.construct? t.root = some (.module d) := by
  unfold moduleDecl? at h
  split at h
  · next hc =>
    cases h
    exact hc
  · cases h

theorem lists_root_of_mem_moduleMembers (h : j ∈ t.moduleMembers) : t.Lists t.root j := by
  unfold moduleMembers at h
  cases hd : t.moduleDecl? with
  | none =>
    rw [hd] at h
    cases h
  | some d =>
    rw [hd] at h
    exact lists_of_construct (construct?_root_of_moduleDecl? hd) (List.mem_append_right _ h)

theorem mem_membersOf_root_of_mem_moduleMembers (h : j ∈ t.moduleMembers) :
    j ∈ t.membersOf t.root := by
  unfold moduleMembers at h
  cases hd : t.moduleDecl? with
  | none =>
    rw [hd] at h
    cases h
  | some d =>
    rw [hd] at h
    unfold membersOf
    rw [construct?_root_of_moduleDecl? hd]
    exact h

theorem exists_moduleDecl_of_mem_imports (h : j ∈ t.imports) :
    ∃ d, t.construct? t.root = some (.module d) ∧ j ∈ d.imports := by
  unfold imports at h
  cases hd : t.moduleDecl? with
  | none =>
    rw [hd] at h
    cases h
  | some d =>
    rw [hd] at h
    exact ⟨d, construct?_root_of_moduleDecl? hd, h⟩

theorem lists_root_of_mem_imports (h : j ∈ t.imports) : t.Lists t.root j := by
  obtain ⟨d, hd, hj⟩ := exists_moduleDecl_of_mem_imports h
  exact lists_of_construct hd (List.mem_append_left _ hj)

theorem Lists.lt_size (h : t.Lists i j) : i < t.size := by
  unfold Lists children at h
  cases hc : t.construct? i with
  | none =>
    rw [hc] at h
    cases h
  | some c => exact lt_size_of_construct hc

theorem lt_size_of_parent? (h : t.parent? j = some i) : j < t.size := by
  obtain ⟨n, hn, -⟩ := Option.bind_eq_some_iff.1 h
  exact (Array.getElem?_eq_some_iff.1 hn).1

/-- Only nodes of the tree have ancestors. -/
theorem Ancestor.lt_size (h : t.Ancestor a i) : i < t.size := by
  rcases Relation.TransGen.tail'_iff.1 h with ⟨p, _, hp⟩
  exact lt_size_of_parent? hp

theorem ancestor_of_mem_ancestors (h : a ∈ t.ancestors i) : t.Ancestor a i := by
  have up : ∀ (n : Nat) (i : NodeIndex), a ∈ t.chainUp n (t.parent? i) → t.Ancestor a i := by
    intro n
    induction n with
    | zero => exact fun i h => nomatch h
    | succ n ih =>
      intro i h
      cases hp : t.parent? i with
      | none =>
        rw [hp] at h
        cases h
      | some p =>
        rw [hp, chainUp] at h
        rcases List.mem_cons.1 h with rfl | h
        · exact .single hp
        · exact .tail (ih p h) hp
  exact up _ i h

namespace WellFormed

theorem parent_eq (ht : t.WellFormed) (h : t.Lists i j) (hj : j < t.size) (hr : j ≠ t.root) :
    t.parent? j = some i := by
  obtain ⟨p, hp⟩ := Option.isSome_iff_exists.1 (ht.linked h hj)
  obtain ⟨k, _, unique⟩ := ht.once j hj hr
  rw [hp, unique p (ht.listed hp), unique i h]

/-- The root is an ancestor of every other node. -/
theorem ancestor_root (ht : t.WellFormed) (hj : j < t.size) (hr : j ≠ t.root) :
    t.Ancestor t.root j := by
  have h := ht.reached j hj
  induction h with
  | refl => exact absurd rfl hr
  | @tail i j _ hij ih =>
    have hp := ht.parent_eq hij hj hr
    by_cases hi : i = t.root
    · rw [hi] at hp
      exact .single hp
    · exact (ih hij.lt_size hi).tail hp

/-- A child of an ancestor has a parent that is an ancestor, even where the child is the root. -/
theorem exists_parent_of_ancestor (ht : t.WellFormed) (h : t.Lists i j) (hj : j < t.size)
    (ha : t.Ancestor i a) : ∃ p, t.parent? j = some p ∧ t.Ancestor p a := by
  by_cases hr : j = t.root
  · obtain ⟨p, hp⟩ := Option.isSome_iff_exists.1 (ht.linked h hj)
    refine ⟨p, hp, ?_⟩
    by_cases har : a = t.root
    · rw [har, ← hr]
      exact .single hp
    · rw [hr] at hp
      exact .head hp (ht.ancestor_root ha.lt_size har)
  · exact ⟨i, ht.parent_eq h hj hr, ha⟩

end WellFormed

/-- A tree whose nodes stand before the ones that list them is well-formed if the links upwards
fit. -/
theorem wellFormed_of_ordered
    (down : ∀ i < t.size, (t.children i).Nodup ∧ ∀ j ∈ t.children i, t.parent? j = some i)
    (up : ∀ j < t.size, ∀ i ∈ t.parent? j, j < i ∧ j ∈ t.children i)
    (root : ∀ j < t.size, j ≠ t.root → (t.parent? j).isSome) : t.WellFormed := by
  have listed : ∀ {j i}, t.parent? j = some i → t.Lists i j :=
    fun h => (up _ (lt_size_of_parent? h) _ h).2
  have parent : ∀ {i j}, t.Lists i j → t.parent? j = some i := fun h => (down _ h.lt_size).2 _ h
  refine ⟨⟨listed, fun h _ => by rw [parent h]; rfl⟩, fun j hj hr => ?_, fun j hj => ?_⟩
  · obtain ⟨i, hi⟩ := Option.isSome_iff_exists.1 (root j hj hr)
    refine ⟨i, List.count_eq_one_of_mem (down i (listed hi).lt_size).1 (listed hi), fun k hk => ?_⟩
    exact Option.some.inj ((parent hk).symm.trans hi)
  · induction hn : t.size - j using Nat.strongRecOn generalizing j with
    | ind n ih =>
      by_cases hr : j = t.root
      · rw [hr]
      obtain ⟨i, hi⟩ := Option.isSome_iff_exists.1 (root j hj hr)
      have hi' := (listed hi).lt_size
      have hji := (up j hj i hi).1
      exact .tail (ih (t.size - i) (by omega) i hi' rfl) (listed hi)

end SyntaxTree

/-! ## Sealing -/

namespace TreeBuilder

theorem mem_sealedLinks (nodes : List Node) (i j : NodeIndex) :
    (j, i) ∈ sealedLinks nodes ↔ ∃ n, nodes[i]? = some n ∧ j ∈ n.construct.children := by
  have inner : ∀ (k : NodeIndex) (cs : List NodeIndex) (links : List (NodeIndex × NodeIndex)),
      (j, i) ∈ cs.foldl (fun links c => (c, k) :: links) links ↔
        (j, i) ∈ links ∨ k = i ∧ j ∈ cs := by
    intro k cs
    induction cs with
    | nil => simp
    | cons c cs ih =>
      intro links
      rw [List.foldl_cons, ih, List.mem_cons, List.mem_cons, Prod.mk.injEq]
      tauto
  have outer : ∀ (ps : List (Node × Nat)) (links : List (NodeIndex × NodeIndex)),
      (j, i) ∈ ps.foldl (fun links p => p.1.construct.children.foldl
        (fun links c => (c, p.2) :: links) links) links ↔
      (j, i) ∈ links ∨ ∃ p ∈ ps, p.2 = i ∧ j ∈ p.1.construct.children := by
    intro ps
    induction ps with
    | nil => simp
    | cons p ps ih =>
      intro links
      rw [List.foldl_cons, ih, inner, List.exists_mem_cons_iff, or_assoc]
  unfold sealedLinks
  rw [outer]
  simp only [List.not_mem_nil, false_or]
  constructor
  · rintro ⟨⟨n, k⟩, hp, rfl, hj⟩
    exact ⟨n, List.mem_zipIdx_iff_getElem?.1 hp, hj⟩
  · rintro ⟨n, hn, hj⟩
    exact ⟨(n, i), List.mem_zipIdx_iff_getElem?.2 hn, rfl, hj⟩

section

variable (b : TreeBuilder) (root i : NodeIndex)

/-- A sealed node keeps its construct and is linked. -/
theorem node?_finish :
    ((b.finish root).node? i).map (fun n => (n.construct, n.parent)) =
      b.nodes.reverse[i]?.map (fun n => (n.construct, (sealedLinks b.nodes.reverse).lookup i)) := by
  simp only [finish, SyntaxTree.node?, List.getElem?_toArray, List.getElem?_map,
    List.getElem?_zipIdx, Option.map_map]
  cases b.nodes.reverse[i]? <;> simp

theorem construct?_finish :
    (b.finish root).construct? i = b.nodes.reverse[i]?.map (·.construct) := by
  have h := congrArg (Option.map Prod.fst) (node?_finish b root i)
  rwa [Option.map_map, Option.map_map] at h

theorem parent?_finish :
    (b.finish root).parent? i =
      b.nodes.reverse[i]?.bind (fun _ => (sealedLinks b.nodes.reverse).lookup i) := by
  have h := congrArg (Option.bind · Prod.snd) (node?_finish b root i)
  rwa [Option.bind_map, Option.bind_map] at h

theorem lists_finish (j : NodeIndex) :
    (b.finish root).Lists i j ↔ (j, i) ∈ sealedLinks b.nodes.reverse := by
  rw [mem_sealedLinks, SyntaxTree.Lists, SyntaxTree.children, construct?_finish, Option.map_map]
  cases b.nodes.reverse[i]? <;> simp

end

/-- Sealing links every listed node to a node that lists it. -/
theorem linked_finish (b : TreeBuilder) (root : NodeIndex) : (b.finish root).Linked := by
  refine ⟨fun {i j} h => ?_, fun {i j} h hj => ?_⟩
  · rw [parent?_finish] at h
    obtain ⟨_, _, h⟩ := Option.bind_eq_some_iff.1 h
    obtain ⟨_, _, e, _⟩ := List.lookup_eq_some_iff.1 h
    rw [lists_finish, e]
    exact List.mem_append_right _ List.mem_cons_self
  · rw [lists_finish] at h
    have hc : ((b.finish root).construct? j).isSome := by
      rw [SyntaxTree.construct?, SyntaxTree.node?, Array.getElem?_eq_getElem hj]
      rfl
    rw [construct?_finish, Option.isSome_map] at hc
    obtain ⟨n, hn⟩ := Option.isSome_iff_exists.1 hc
    rw [parent?_finish, hn, Option.bind_some]
    refine Option.isSome_iff_ne_none.2 (fun hl => ?_)
    exact absurd rfl (bne_iff_ne.1 (List.lookup_eq_none_iff.1 hl _ h))

end TreeBuilder

end PklAnalysis
