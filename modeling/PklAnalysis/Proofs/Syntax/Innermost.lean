import PklAnalysis.Proofs.Syntax.Sealing

/-!
# The innermost node at an offset

The node at an offset is looked for by going down from the root, each time to a child that contains
the offset. This looks at direct children only. It ends at the one innermost node
(`TreeBuilder.nodeAt_innermost`), since a sealed node contains what the nodes below it contain: a node
that does not contain the offset has none below it that does, and siblings that share no offset leave
no choice on the way.
-/

namespace PklAnalysis

namespace Span

/-- No offset lies in both spans. -/
def Disjoint (s t : Span) : Prop := ∀ o, s.contains o = true → t.contains o = false

theorem disjoint_iff {s t : Span} : s.Disjoint t ↔ min s.stop t.stop ≤ max s.start t.start := by
  unfold Disjoint
  simp only [contains, Bool.and_eq_true, decide_eq_true_eq, Bool.and_eq_false_imp,
    decide_eq_false_iff_not]
  constructor
  · intro h
    by_contra overlap
    exact h (max s.start t.start) (by omega) (by omega) (by omega)
  · intro h o hs ht
    omega

instance (s t : Span) : Decidable (s.Disjoint t) := decidable_of_iff _ disjoint_iff.symm

end Span

namespace SyntaxTree

section

variable (t : SyntaxTree)

/-- The node contains the offset, and no node below it does. -/
structure Innermost (offset : Nat) (i : NodeIndex) : Prop where
  contains : (t.span i).contains offset = true
  below : ∀ j, Relation.TransGen t.Lists i j → (t.span j).contains offset = false

/-- A node contains what its children contain. -/
structure Nested : Prop where
  parent : ∀ {i j : NodeIndex}, t.Lists i j → ∀ {o : Nat},
    (t.span j).contains o = true → (t.span i).contains o = true

/-- Siblings share no offset. -/
def SiblingsApart : Prop := ∀ {p i j : NodeIndex}, t.Lists p i → t.Lists p j → i ≠ j →
  (t.span i).Disjoint (t.span j)

instance : Decidable t.SiblingsApart :=
  decidable_of_iff (∀ p < t.size, ∀ i ∈ t.children p, ∀ j ∈ t.children p, i ≠ j →
      (t.span i).Disjoint (t.span j))
    ⟨fun h _ _ _ hi hj => h _ hi.lt_size _ hi _ hj, fun h _ _ _ hi _ hj => h hi hj⟩

end

variable {t : SyntaxTree} {o : Nat} {i j : NodeIndex}

theorem lt_size_of_contains (h : (t.span i).contains o = true) : i < t.size := by
  by_contra outside
  have none : t.node? i = none := Array.getElem?_eq_none (Nat.le_of_not_lt outside)
  unfold span at h
  rw [none, Span.contains_iff] at h
  exact Nat.not_lt_zero o h.2

theorem Nested.contains (ht : t.Nested) (h : Relation.ReflTransGen t.Lists i j)
    (hj : (t.span j).contains o = true) : (t.span i).contains o = true := by
  induction h using Relation.ReflTransGen.head_induction_on with
  | refl => exact hj
  | head hik _ ih => exact ht.parent hik ih

/-- Going down ends at a node that contains the offset and has no child that does, if no path down is
longer than the walk. -/
theorem descend_spec {n : Nat}
    (shallow : ∀ path, List.IsChain t.Lists (i :: path) → path.length ≤ n)
    (hi : (t.span i).contains o = true) :
    (t.span (t.descend o n i)).contains o = true ∧
      ∀ j, t.Lists (t.descend o n i) j → (t.span j).contains o = false := by
  induction n generalizing i with
  | zero =>
    refine ⟨hi, fun j hj => ?_⟩
    have one : [j].length ≤ 0 := shallow [j] (.cons_cons hj (.singleton j))
    exact absurd one (Nat.not_succ_le_zero 0)
  | succ n ih =>
    rw [descend]
    split
    · next c hc =>
      have listed : t.Lists i c := List.mem_of_find?_eq_some hc
      have inside : (t.span c).contains o = true := by simpa using List.find?_some hc
      refine ih (fun path hp => ?_) inside
      exact Nat.le_of_succ_le_succ (shallow (c :: path) (.cons_cons listed hp))
    · next hc =>
      refine ⟨hi, fun j hj => ?_⟩
      exact Bool.eq_false_iff.2 (List.find?_eq_none.1 hc j hj)

theorem Nested.innermost (ht : t.Nested) (hi : (t.span i).contains o = true)
    (hc : ∀ j, t.Lists i j → (t.span j).contains o = false) : t.Innermost o i := by
  refine ⟨hi, fun j hj => ?_⟩
  obtain ⟨c, hic, hcj⟩ := Relation.TransGen.head'_iff.1 hj
  have outside : ¬ (t.span c).contains o = true := Bool.eq_false_iff.1 (hc c hic)
  exact Bool.eq_false_iff.2 (fun h => outside (ht.contains hcj h))

/-- Of two nodes that contain an offset, one is below the other. -/
theorem SiblingsApart.comparable (ha : t.SiblingsApart) (ht : t.Nested)
    (hi : Relation.ReflTransGen t.Lists t.root i) (hj : Relation.ReflTransGen t.Lists t.root j)
    (oi : (t.span i).contains o = true) (oj : (t.span j).contains o = true) :
    Relation.ReflTransGen t.Lists i j ∨ Relation.ReflTransGen t.Lists j i := by
  induction hi with
  | refl => exact .inl hj
  | @tail p i _ hpi ih =>
    rcases ih (ht.parent hpi oi) with down | up
    · rcases Relation.ReflTransGen.cases_head down with rfl | ⟨c, hpc, hcj⟩
      · exact .inr (.single hpi)
      · -- the child on the way to `j` contains the offset, so it is `i` itself
        have oc := ht.contains hcj oj
        by_cases same : i = c
        · exact .inl (same ▸ hcj)
        · exact absurd oc (Bool.eq_false_iff.1 (ha hpi hpc same o oi))
    · exact .inr (up.tail hpi)

theorem Innermost.unique (ha : t.SiblingsApart) (ht : t.Nested)
    (reached : ∀ k < t.size, Relation.ReflTransGen t.Lists t.root k) (hi : t.Innermost o i)
    (hj : t.Innermost o j) : j = i := by
  have last : ∀ {k l}, t.Innermost o k → t.Innermost o l → Relation.ReflTransGen t.Lists k l →
      l = k := by
    intro k l hk hl h
    refine (Relation.reflTransGen_iff_eq_or_transGen.1 h).resolve_right (fun below => ?_)
    exact Bool.eq_false_iff.1 (hk.below l below) hl.contains
  rcases ha.comparable ht (reached i (lt_size_of_contains hi.contains))
    (reached j (lt_size_of_contains hj.contains)) hi.contains hj.contains with h | h
  · exact last hi hj h
  · exact (last hj hi h).symm

end SyntaxTree

namespace TreeBuilder

variable {b : TreeBuilder} {root : NodeIndex}

theorem lists_finish_iff {i j : NodeIndex} : (b.finish root).Lists i j ↔ j ∈ b.listed i := by
  unfold SyntaxTree.Lists
  rw [children_finish]

theorem size_finish : (b.finish root).size = b.size := by
  simp [SyntaxTree.size, finish, b.size_eq]

theorem BottomUp.nested (hb : b.BottomUp) : (b.finish root).Nested :=
  ⟨fun h _ ho => contains_of_listed hb (lists_finish_iff.1 h) ho⟩

/-- Paths down are no longer than the position they start from. -/
theorem BottomUp.length_le (hb : b.BottomUp) {i : NodeIndex} {path : List NodeIndex}
    (h : List.IsChain (b.finish root).Lists (i :: path)) : path.length ≤ i := by
  induction path generalizing i with
  | nil => exact Nat.zero_le i
  | cons c path ih =>
    obtain ⟨hic, rest⟩ := List.isChain_cons_cons.1 h
    exact Nat.lt_of_le_of_lt (ih rest) (hb (lists_finish_iff.1 hic))

/-- If every node but the root is listed, all are reached from it. -/
theorem BottomUp.reached (hb : b.BottomUp)
    (listed : ∀ j < b.size, j ≠ root → ∃ i, j ∈ b.listed i) {j : NodeIndex}
    (hj : j < b.size) : Relation.ReflTransGen (b.finish root).Lists root j := by
  induction hn : b.size - j using Nat.strongRecOn generalizing j with
  | ind n ih =>
    by_cases hr : j = root
    · rw [hr]
    obtain ⟨i, hi⟩ := listed j hj hr
    have above : j < i := hb hi
    have inside : i < b.size := b.lt_size_of_listed hi
    have closer : b.size - i < n := hn ▸ Nat.sub_lt_sub_left hj above
    exact .tail (ih (b.size - i) closer inside rfl) (lists_finish_iff.2 hi)

/-- In a tree that was added bottom-up, where each node but the root is listed, siblings share no
offset, and no path down from the root takes more steps than the walk, there is a node at an offset
unless the span of the root does not contain it. It is the one node that contains the offset without
any node below it doing so. -/
theorem nodeAt_innermost (hb : b.BottomUp)
    (listed : ∀ j < b.size, j ≠ root → ∃ i, j ∈ b.listed i)
    (shallow : ∀ path, List.IsChain (b.finish root).Lists (root :: path) →
      path.length ≤ Limits.treeWalk)
    (apart : (b.finish root).SiblingsApart) (o : Nat) :
    ((b.finish root).nodeAt o = none ↔ ((b.finish root).span root).contains o = false) ∧
      (((b.finish root).span root).contains o = true → ∃ i, (b.finish root).nodeAt o = some i ∧
        ∀ j, (b.finish root).Innermost o j ↔ j = i) := by
  have nodeAt : (b.finish root).nodeAt o = if ((b.finish root).span root).contains o = true then
    some ((b.finish root).descend o Limits.treeWalk root) else none := rfl
  rw [nodeAt]
  cases ho : ((b.finish root).span root).contains o with
  | false => exact ⟨iff_of_true rfl rfl, nofun⟩
  | true =>
    obtain ⟨contains, children⟩ := SyntaxTree.descend_spec shallow ho
    have innermost := hb.nested.innermost contains children
    have size : (b.finish root).size = b.size := size_finish
    refine ⟨iff_of_false nofun nofun, fun _ => ⟨_, rfl, fun j => ⟨fun hj => ?_, ?_⟩⟩⟩
    · exact innermost.unique apart hb.nested
        (fun k hk => hb.reached listed (size ▸ hk)) hj
    · rintro rfl
      exact innermost

/-- The modifier in front of the property belongs to it. -/
theorem nodeAt_innermost_patchwork :
    patchwork.BottomUp ∧ (patchwork.finish 3).SiblingsApart ∧
      (patchwork.finish 3).nodeAt 30 = none ∧
      (patchwork.finish 3).nodeAt 5 = some 2 ∧ (patchwork.finish 3).Innermost 5 2 := by
  have up : patchwork.BottomUp := by decide
  have apart : (patchwork.finish 3).SiblingsApart := by decide
  have parents : ∀ j < 4, j ≠ 3 → j ∈ patchwork.listed (if j = 2 then 3 else 2) := by decide
  have shallow : ∀ path, List.IsChain (patchwork.finish 3).Lists (3 :: path) →
      path.length ≤ Limits.treeWalk := fun path h => Nat.le_trans (up.length_le h) (by decide)
  have lookup := nodeAt_innermost up (fun j hj hr => ⟨_, parents j hj hr⟩) shallow apart
  obtain ⟨i, found, innermost⟩ := (lookup 5).2 (by decide)
  have property : (patchwork.finish 3).nodeAt 5 = some 2 := by decide
  refine ⟨up, apart, (lookup 30).1.2 (by decide), property, (innermost 2).2 ?_⟩
  exact Option.some.inj (property.symm.trans found)

end TreeBuilder

end PklAnalysis
