import PklAnalysis.Proofs.Session.Source

/-!
# Alternatives

A type that is neither an alias nor a union is its own only alternative. An alias has the
alternatives of what the session expands it to, and a union has those of both sides.
`Splits src n t ts` lists the alternatives of a type whose aliases and unions nest at most `n` deep.
`Spreads src n t ts` also carries the constraints of every union over to its alternatives, behind
their own; the constraints of an alias already stand behind those of its expansion.
-/

namespace PklAnalysis

open Session

namespace Session

variable (src : ModuleSource)

/-- The alternatives of a type. The session gives the same expansion of an alias whenever it is
asked, and expanding comes to an end. -/
inductive Unfolds (attach : Constraints → Ty → Ty) : Nat → Ty → List Ty → Prop
  | leaf (n : Nat) {t : Ty} : t.isCompound = false → Unfolds attach n t [t]
  | union {n : Nat} {t u : Ty} {xs ys : List Ty} (c : Constraints) :
      Unfolds attach n t xs → Unfolds attach n u ys →
        Unfolds attach (n + 1) (.union t u c) ((xs ++ ys).map (attach c))
  | typeAlias {n : Nat} {d : NodeRef} {as : List Ty} {c : Constraints} {t : Ty} {xs : List Ty} :
      Gives src (Query.expansion d as c) t → Unfolds attach n t xs →
        Unfolds attach (n + 1) (.typeAlias d as c) xs

/-- The alternatives as they are written. -/
abbrev Splits : Nat → Ty → List Ty → Prop := Unfolds src (fun _ t => t)

/-- The alternatives with the constraints of the unions around them. -/
abbrev Spreads : Nat → Ty → List Ty → Prop := Unfolds src (fun c t => t.addConstraints c)

variable {src} {attach : Constraints → Ty → Ty}

theorem Unfolds.eq_singleton {n : Nat} {t : Ty} {xs : List Ty} (h : Unfolds src attach n t xs)
    (ht : t.isCompound = false) : xs = [t] := by
  cases h with
  | leaf => rfl
  | union | typeAlias => cases ht

theorem isCompound_addConstraints (t : Ty) (c : Constraints) :
    (t.addConstraints c).isCompound = t.isCompound := by
  cases t <;> rfl

theorem Unfolds.isCompound_eq_false {n : Nat} {t x : Ty} {xs : List Ty} (h : Splits src n t xs)
    (hx : x ∈ xs) : x.isCompound = false := by
  induction h with
  | leaf _ ht => exact List.mem_singleton.1 hx ▸ ht
  | union c _ _ ih₁ ih₂ =>
    rw [List.map_id'] at hx
    exact (List.mem_append.1 hx).elim ih₁ ih₂
  | typeAlias _ _ ih => exact ih hx

/-- Constraints that are attached to a type reach every alternative, behind all others. -/
theorem Unfolds.addConstraints {n : Nat} {t : Ty} {xs : List Ty} (h : Spreads src n t xs)
    (k : Constraints) : Spreads src n (t.addConstraints k) (xs.map (·.addConstraints k)) := by
  induction h with
  | leaf n ht => exact .leaf n ((isCompound_addConstraints _ k).trans ht)
  | @union n t u xs ys c h₁ h₂ =>
    have hm : ∀ zs : List Ty, (zs.map (·.addConstraints c)).map (·.addConstraints k) =
        zs.map (·.addConstraints (c ++ k)) := by
      intro zs
      rw [List.map_map]
      exact List.map_congr_left (fun z _ => Ty.addConstraints_append z c k)
    rw [hm]
    exact .union (c ++ k) h₁ h₂
  | typeAlias hg _ ih => exact .typeAlias hg.expansion_append ih

/-- Expanding reaches a type that is no alias, before it is cut off. -/
theorem Unfolds.expandUpTo {n j : Nat} {t : Ty} {xs : List Ty} (h : Unfolds src attach n t xs)
    (hj : n ≤ j) : ∃ m u, m ≤ n ∧ (t.isAlias = true → m < n) ∧ u.isAlias = false ∧
      Gives src (Ty.expandUpTo j t) u ∧ Unfolds src attach m u xs := by
  have stop : ∀ {n : Nat} {t : Ty} {xs : List Ty}, t.isAlias = false → Unfolds src attach n t xs →
      ∀ j, ∃ m u, m ≤ n ∧ (t.isAlias = true → m < n) ∧ u.isAlias = false ∧
        Gives src (Ty.expandUpTo j t) u ∧ Unfolds src attach m u xs := by
    intro n t xs ht h j
    refine ⟨n, t, Nat.le_refl n, fun e => absurd e (by rw [ht]; decide), ht, ?_, h⟩
    cases j with
    | zero => exact gives_pure t
    | succ j =>
      rw [Ty.expandUpTo, if_neg (by rw [ht]; decide)]
      exact gives_pure t
  induction h generalizing j with
  | @leaf n t ht =>
    have ha : t.isAlias = false := by cases t <;> first | rfl | cases ht
    exact stop ha (.leaf n ht) j
  | union c h₁ h₂ => exact stop rfl (.union c h₁ h₂) j
  | typeAlias hg _ ih =>
    obtain ⟨j, rfl⟩ : ∃ k, j = k + 1 := Nat.exists_eq_succ_of_ne_zero (by omega)
    obtain ⟨m, u, hm, _, hu, hgu, h⟩ := ih (j := j) (by omega)
    exact ⟨m, u, by omega, fun _ => by omega, hu, hg.bind hgu, h⟩

theorem Unfolds.fullyUnaliased {n : Nat} {d : NodeRef} {as : List Ty} {c : Constraints}
    {xs : List Ty} (h : Unfolds src attach n (.typeAlias d as c) xs) (hn : n ≤ Limits.moduleChain) :
    ∃ m u, m < n ∧ Gives src (Ty.fullyUnaliased (.typeAlias d as c)) u ∧
      Unfolds src attach m u xs := by
  obtain ⟨m, u, _, hm, hu, hg, h⟩ := h.expandUpTo hn
  refine ⟨m, u, hm rfl, hg.bind ?_, h⟩
  rw [if_neg (by rw [hu]; decide)]
  exact gives_pure u

end Session

end PklAnalysis
