import PklAnalysis.Proofs.Types.Below
import PklAnalysis.Types.Union

/-!
# The union of two types as a bound

`r.join t u` is the union of two types in normal form when `r` answers. A side is only dropped if it
is below the other one, and otherwise both become parts of a compound type, so the union is above
both sides (`sub_join_left`, `sub_join_right`) and below everything that both are below
(`join_sub`). This holds for the limit that subtype queries have, since the two sides of a union are
asked about with a lower one.
-/

namespace PklAnalysis

namespace Ty

theorem Proper.isUnknown {t : Ty} (h : t.Proper) : t.isUnknown = false := by
  cases t <;> first | rfl | exact absurd rfl h.1

theorem Proper.isNothing {t : Ty} (h : t.Proper) : t.isNothing = false := by
  cases t <;> first | rfl | exact absurd rfl h.2

end Ty

namespace Reading

variable (r : Reading)

/-- Subtyping with the limit that queries have. -/
abbrev Sub (t u : Ty) : Prop := r.sub (Limits.subtypeDepth + 1) t u = true

/-- The union of two types in normal form. -/
def join (t u : Ty) : Ty := (t.either u).value r

variable {r}

theorem sub_of_collapsesInto {t u : Ty} (h : (t.collapsesInto u).value r = true) : r.Sub t u := by
  cases t with
  | literal s c =>
    unfold Ty.collapsesInto at h
    dsimp only at h
    split at h
    · cases h
    · exact h
  | _ => exact h

/-- The union is one of its sides, which the other one is below, or a compound type of both. -/
theorem join_cases (t u : Ty) :
    (r.join t u = u ∧ r.Sub t u) ∨ (r.join t u = t ∧ r.Sub u t) ∨
      (t.Proper ∧ u.Proper ∧ r.join t u = .union t u []) := by
  rcases t.proper_or with ht | rfl | rfl
  · rcases u.proper_or with hu | rfl | rfl
    · unfold join Ty.either
      simp only [ht.isUnknown, hu.isUnknown, ht.isNothing, hu.isNothing, Bool.or_self,
        Bool.false_eq_true, if_false]
      split
      · next e => exact .inl ⟨e, e ▸ r.sub_self _ _⟩
      split
      · exact .inr (.inr ⟨ht, hu, rfl⟩)
      rw [Query.value_bind]
      split
      · next h => exact .inl ⟨rfl, sub_of_collapsesInto h⟩
      rw [Query.value_bind]
      split
      · next h => exact .inr (.inl ⟨rfl, sub_of_collapsesInto h⟩)
      · exact .inr (.inr ⟨ht, hu, rfl⟩)
    · exact .inl ⟨by cases t <;> rfl, sub_unknown_right ..⟩
    · refine .inr (.inl ⟨?_, sub_nothing_left ..⟩)
      cases t <;> rfl
  · exact .inr (.inl ⟨rfl, sub_unknown_right ..⟩)
  · refine .inl ⟨?_, sub_nothing_left ..⟩
    cases u <;> rfl

theorem sub_join_left (hr : r.Lawful) (t u : Ty) : r.Sub t (r.join t u) := by
  rcases r.join_cases t u with ⟨e, h⟩ | ⟨e, -⟩ | ⟨-, -, e⟩
  · rwa [e]
  · rw [e]
    exact r.sub_self _ t
  · rw [e]
    exact sub_of_fits hr (.part List.mem_cons_self (.alike rfl)) (r.sub_self _ t)

theorem sub_join_right (hr : r.Lawful) (t u : Ty) : r.Sub u (r.join t u) := by
  rcases r.join_cases t u with ⟨e, -⟩ | ⟨e, h⟩ | ⟨-, -, e⟩
  · rw [e]
    exact r.sub_self _ u
  · rwa [e]
  · rw [e]
    refine sub_of_fits hr (.part (p := u) ?_ (.alike rfl)) (r.sub_self _ u)
    exact List.mem_cons_of_mem t (List.mem_singleton_self u)

/-- The union is below everything that both sides are below. -/
theorem join_sub {t u v : Ty} (ht : r.Sub t v) (hu : r.Sub u v) : r.Sub (r.join t u) v := by
  rcases r.join_cases t u with ⟨e, -⟩ | ⟨e, -⟩ | ⟨proper, -, e⟩
  · rwa [e]
  · rwa [e]
  · have hv : v ≠ .nothing := by
      rintro rfl
      rw [Sub, sub_nothing_right _ _ proper] at ht
      cases ht
    rw [e]
    refine sub_succ_of_parts rfl hv (fun p hp => ?_)
    rcases List.mem_cons.1 hp with rfl | hp
    · exact sub_of_succ ht
    · cases List.mem_singleton.1 hp
      exact sub_of_succ hu

/-- The order of the sides makes no difference to subtyping. -/
theorem join_comm_sub (hr : r.Lawful) (t u : Ty) : r.Sub (r.join t u) (r.join u t) :=
  join_sub (sub_join_right hr u t) (sub_join_left hr u t)

end Reading

end PklAnalysis
