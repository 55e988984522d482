import Mathlib.Data.List.Induction
import PklAnalysis.Proofs.Types.Null
import PklAnalysis.Proofs.Types.Union

/-!
# The union of a list of types

The union of a list is built from the left. Each element is below the union of the list up to it, and
the next step keeps what is below the union so far, unless that collapses into the next element
(`sub_join_of_sub`). So an element is lost only where subtyping does not compose at such an element
(`sub_joinAll_or_lost`).
-/

namespace PklAnalysis

namespace Reading

variable (r : Reading)

/-- The union of a list of types in normal form. -/
def joinAll (ts : List Ty) : Ty := (Ty.anyOf ts).value r

/-- The union of the types before some element collapses into that element, which is not above `x`
although the union is. -/
def LostAt (x : Ty) (before : List Ty) (e : Ty) : Prop :=
  r.join (r.joinAll before) e = e ∧ r.Sub x (r.joinAll before) ∧ r.Sub (r.joinAll before) e ∧
    ¬ r.Sub x e

variable {r}

theorem value_anyOfFrom (acc : Ty) (ts : List Ty) :
    (Ty.anyOfFrom acc ts).value r = ts.foldl r.join acc := by
  induction ts generalizing acc with
  | nil => rfl
  | cons t ts ih =>
    rw [Ty.anyOfFrom, Query.value_bind]
    exact ih _

theorem joinAll_concat (ts : List Ty) (t : Ty) :
    r.joinAll (ts ++ [t]) = r.join (r.joinAll ts) t := by
  unfold joinAll Ty.anyOf
  rw [value_anyOfFrom, value_anyOfFrom, List.foldl_append]
  rfl

/-- What is below the left side is below the union, unless that side has collapsed into the other
one. -/
theorem sub_join_of_sub (hr : r.Lawful) {x t u : Ty} (h : r.Sub x t) :
    r.Sub x (r.join t u) ∨ (r.join t u = u ∧ r.Sub t u ∧ ¬ r.Sub x u) := by
  rcases r.join_cases t u with ⟨e, hs⟩ | ⟨e, -⟩ | ⟨-, -, e⟩
  · rw [e]
    by_cases hx : r.Sub x u
    · exact .inl hx
    · exact .inr ⟨rfl, hs, hx⟩
  · exact .inl (e.symm ▸ h)
  · rw [e]
    exact .inl (sub_of_fits hr (.part List.mem_cons_self (.alike rfl)) h)

/-- An element of a list is below the union of the list, or some later element has made it
disappear. -/
theorem sub_joinAll_or_lost (hr : r.Lawful) {x : Ty} {ts : List Ty} (hx : x ∈ ts) :
    r.Sub x (r.joinAll ts) ∨
      ∃ before e after, ts = before ++ e :: after ∧ x ∈ before ∧ r.LostAt x before e := by
  induction ts using List.reverseRecOn with
  | nil => cases hx
  | append_singleton ts t ih =>
    rw [joinAll_concat]
    rcases List.mem_append.1 hx with hx | hx
    · rcases ih hx with h | ⟨before, e, after, rfl, hb, h⟩
      · rcases sub_join_of_sub hr (u := t) h with h' | ⟨e, hs, no⟩
        · exact .inl h'
        · exact .inr ⟨ts, t, [], rfl, hx, e, h, hs, no⟩
      · exact .inr ⟨before, e, after ++ [t], List.append_assoc .., hb, h⟩
    · cases List.mem_singleton.1 hx
      exact .inl (sub_join_right hr _ _)

theorem Height.add {P : Question → Prop} {n : Nat} {t : Ty} (h : r.Height P n t) (k : Nat) :
    r.Height P (n + k) t := by
  induction k with
  | zero => exact h
  | succ k ih => exact ih.succ

/-- The union of a list is higher than its elements by no more than one level for each. -/
theorem Height.joinAll {P : Question → Prop} {n : Nat} {ts : List Ty}
    (h : ∀ t ∈ ts, r.Height P n t) : r.Height P (n + ts.length) (r.joinAll ts) := by
  induction ts using List.reverseRecOn with
  | nil => exact .nothing _
  | append_singleton ts t ih =>
    rw [joinAll_concat, List.length_append, List.length_singleton, ← Nat.add_assoc]
    have left := ih (fun u hu => h u (List.mem_append_left _ hu))
    have right := h t (List.mem_append_right _ (List.mem_singleton_self t))
    exact left.join (right.add ts.length)

end Reading

end PklAnalysis
