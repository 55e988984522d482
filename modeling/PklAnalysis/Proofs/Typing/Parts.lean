import Mathlib.Data.List.Perm.Subperm
import Mathlib.Logic.Relation
import PklAnalysis.Proofs.Syntax.WellFormed
import PklAnalysis.Typing.Annotation

/-!
# What type nodes are made of

The type of a type node is read from the types of its parts. A node at and below which no node is
part of itself has less than `size` levels of them, so its type does not hang on how deep the reading
may go (`typeOfNodeUpTo_of_nests`).
-/

namespace PklAnalysis

/-- The type nodes that the type of a construct is read from. -/
def Construct.typeParts : Construct → List NodeIndex
  | .declaredType _ _ args => args
  | .nullableType i => [i]
  | .unionType l r => [l, r]
  | .constrainedType i _ => [i]
  | .functionType ps i => ps ++ [i]
  | .groupedType i => [i]
  | _ => []

/-- The types that a construct unites, given those of its parts. -/
def Construct.united (val : NodeIndex → Ty) : Construct → Option (Ty × Ty)
  | .unionType l r => some (val l, val r)
  | .nullableType i => some (std.nullTy, val i)
  | _ => none

namespace Construct

theorem united_congr {val val' : NodeIndex → Ty} {c : Construct}
    (h : ∀ j ∈ c.typeParts, val j = val' j) : c.united val = c.united val' := by
  cases c with
  | unionType l r =>
    simp only [united, h l List.mem_cons_self, h r (List.mem_cons_of_mem l List.mem_cons_self)]
  | nullableType i => simp only [united, h i List.mem_cons_self]
  | _ => rfl

end Construct

namespace SyntaxTree

variable (t : SyntaxTree)

/-- Going from a type node to one that its type is read from. -/
def TypePart (i j : NodeIndex) : Prop := ∃ c, t.construct? i = some c ∧ j ∈ c.typeParts

/-- Going from a type node to one at or below it. -/
abbrev TypeReach : NodeIndex → NodeIndex → Prop := Relation.ReflTransGen t.TypePart

/-- No node at or below a type node is part of itself. -/
def Unlooped (i : NodeIndex) : Prop := ∀ j, t.TypeReach i j → ¬ Relation.TransGen t.TypePart j j

/-- There are at most `n` levels of type nodes. -/
def Nests : Nat → NodeIndex → Prop
  | 0, _ => False
  | n + 1, i => ∀ j, t.TypePart i j → Nests n j

variable {t} {i j : NodeIndex}

theorem TypePart.lt_size (h : t.TypePart i j) : i < t.size := by
  obtain ⟨_, hc, _⟩ := h
  exact lt_size_of_construct hc

theorem Unlooped.part (h : t.Unlooped i) (hj : t.TypePart i j) : t.Unlooped j :=
  fun k hk => h k (.head hj hk)

/-- A path that never repeats has at most as many nodes as the tree, and one more that has no
parts. -/
theorem Unlooped.nests (h : t.Unlooped i) : t.Nests (t.size + 1) i := by
  -- `path` leads to `i`, so it gets longer while it goes down
  have along : ∀ (n : Nat) (path : List NodeIndex) (i : NodeIndex), t.Unlooped i → path.Nodup →
      (∀ j ∈ path, j < t.size ∧ Relation.TransGen t.TypePart j i) →
        t.size < n + path.length → t.Nests n i := by
    intro n
    induction n with
    | zero =>
      intro path i _ nodup inside long
      have := (List.subperm_of_subset nodup
        (fun j hj => List.mem_range.2 (inside j hj).1)).length_le
      rw [List.length_range] at this
      omega
    | succ n ih =>
      intro path i loops nodup inside long j hj
      refine ih (i :: path) j (loops.part hj) (List.nodup_cons.2 ⟨fun hi => ?_, nodup⟩)
        (fun k hk => ?_) ?_
      · exact loops i .refl (inside i hi).2
      · rcases List.mem_cons.1 hk with rfl | hk
        · exact ⟨hj.lt_size, .single hj⟩
        · exact ⟨(inside k hk).1, (inside k hk).2.tail hj⟩
      · rw [List.length_cons]
        omega
  exact along _ [] i h List.nodup_nil nofun (Nat.lt_succ_self _)

/-- Where type nodes stand before those that they are part of, none is part of itself. -/
theorem unlooped_of_ordered (h : ∀ i < t.size, ∀ c ∈ t.construct? i, ∀ j ∈ c.typeParts, j < i)
    (i : NodeIndex) : t.Unlooped i := by
  have before : ∀ {i j}, Relation.TransGen t.TypePart i j → j < i := by
    intro i j hij
    induction hij with
    | single hj =>
      obtain ⟨c, hc, hj'⟩ := hj
      exact h _ (lt_size_of_construct hc) c hc _ hj'
    | tail _ hk ih =>
      obtain ⟨c, hc, hk'⟩ := hk
      exact Nat.lt_trans (h _ (lt_size_of_construct hc) c hc _ hk') ih
  exact fun j _ hj => Nat.lt_irrefl j (before hj)

/-- Nodes whose parts are among them. -/
theorem TypeReach.mem {l : List NodeIndex}
    (closed : ∀ i ∈ l, ∀ c ∈ t.construct? i, ∀ j ∈ c.typeParts, j ∈ l) (hi : i ∈ l)
    (h : t.TypeReach i j) : j ∈ l := by
  induction h with
  | refl => exact hi
  | tail _ hj ih =>
    obtain ⟨c, hc, hj⟩ := hj
    exact closed _ ih c hc _ hj

end SyntaxTree

/-- The type of a construct is read from its type parts only. -/
theorem typeOfTypeConstruct_congr {b : Bindings} {r : NodeRef} {f g : NodeIndex → Query Ty}
    {c : Construct} (h : ∀ j ∈ c.typeParts, f j = g j) :
    typeOfTypeConstruct b r f c = typeOfTypeConstruct b r g c := by
  have parts : ∀ {is : List NodeIndex}, (∀ j ∈ is, f j = g j) → is.mapM f = is.mapM g := by
    intro is
    induction is with
    | nil => exact fun _ => rfl
    | cons i is ih =>
      intro h
      rw [List.mapM_cons, List.mapM_cons, h i List.mem_cons_self,
        ih (fun j hj => h j (List.mem_cons_of_mem i hj))]
  cases c with
  | declaredType qualifier name args =>
    have same : args.mapM f = args.mapM g := parts h
    simp only [typeOfTypeConstruct, same]
  | nullableType i | constrainedType i | groupedType i =>
    simp only [typeOfTypeConstruct, h i List.mem_cons_self]
  | unionType i j =>
    have right := h j (List.mem_cons_of_mem i List.mem_cons_self)
    simp only [typeOfTypeConstruct, h i List.mem_cons_self, right]
  | functionType is i =>
    have params : is.mapM f = is.mapM g := parts (fun j hj => h j (List.mem_append_left _ hj))
    simp only [typeOfTypeConstruct, params, h i (List.mem_append_right is List.mem_cons_self)]
  | _ => rfl

/-- How deep the reading may go makes no difference beyond the levels that there are. -/
theorem typeOfNodeUpTo_of_nests {t : SyntaxTree} {b : Bindings} {m : ModuleId} {n k : Nat}
    {i : NodeIndex} (h : t.Nests n i) (hnk : n ≤ k) :
    typeOfNodeUpTo t b m k i = typeOfNodeUpTo t b m n i := by
  induction n generalizing k i with
  | zero => exact h.elim
  | succ n ih =>
    obtain ⟨k, rfl⟩ := Nat.exists_eq_succ_of_ne_zero (Nat.ne_of_gt (Nat.lt_of_lt_of_le n.succ_pos hnk))
    unfold typeOfNodeUpTo
    split
    · rfl
    · next c hc =>
      exact typeOfTypeConstruct_congr (fun j hj => ih (h j ⟨c, hc, hj⟩) (Nat.le_of_succ_le_succ hnk))

end PklAnalysis
