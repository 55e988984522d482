import PklAnalysis.Proofs.Session.Depth
import PklAnalysis.Proofs.Session.Substitution
import PklAnalysis.Proofs.Types.Union

/-!
# Unions in a session

Where declarations are fixed, the union that a session builds is the least type above both sides
(`either_leastUpperBound`), at whatever moments it is built and compared. Where what an alias stands
for hangs on what was asked before, a type need not even be below its own union
(`either_not_upperBound_chain`).
-/

namespace PklAnalysis.Session

variable {src : ModuleSource}

namespace FixedDeclarations

variable (h : FixedDeclarations src)
include h

theorem gives_isSubtype (t u : Ty) :
    Gives src (t.isSubtype u) ((reading src).sub (Limits.subtypeDepth + 1) t u) :=
  gives_value (h.asks_isSubtypeUpTo _ t u)

theorem gives_either (t u : Ty) : Gives src (t.either u) ((reading src).join t u) :=
  gives_value (h.asks_either t u)

theorem gives_true {t u : Ty} (hs : (reading src).Sub t u) : Gives src (t.isSubtype u) true :=
  hs ▸ h.gives_isSubtype t u

/-- What the session says at one moment it says at all. -/
theorem sub_of_run {t u : Ty} {m : Memory} (hm : Reachable src m)
    (hs : (run src (t.isSubtype u) m).1 = true) : (reading src).Sub t u :=
  (h.gives_isSubtype t u m hm).symm.trans hs

end FixedDeclarations

/-- The union is above both sides, it is below everything that both sides are below, and the order
of the sides makes no difference to subtyping. -/
theorem either_leastUpperBound (h : FixedDeclarations src) (a b : Ty) :
    ∃ u v, Gives src (a.either b) u ∧ Gives src (b.either a) v ∧
      (Gives src (a.isSubtype u) true ∧ Gives src (b.isSubtype u) true) ∧
      (∀ c m₁ m₂, Reachable src m₁ → Reachable src m₂ → (run src (a.isSubtype c) m₁).1 = true →
        (run src (b.isSubtype c) m₂).1 = true → Gives src (u.isSubtype c) true) ∧
      Gives src (u.isSubtype v) true ∧ Gives src (v.isSubtype u) true := by
  have hr := lawful_reading src
  refine ⟨_, _, h.gives_either a b, h.gives_either b a,
    ⟨h.gives_true (Reading.sub_join_left hr a b), h.gives_true (Reading.sub_join_right hr a b)⟩,
    fun c m₁ m₂ hm₁ hm₂ ha hb => ?_, h.gives_true (Reading.join_comm_sub hr a b),
    h.gives_true (Reading.join_comm_sub hr b a)⟩
  exact h.gives_true (Reading.join_sub (h.sub_of_run hm₁ ha) (h.sub_of_run hm₂ hb))

/-- The union of birds and objects is the least type above both. -/
theorem either_leastUpperBound_birds :
    FixedDeclarations aviary ∧
    ∃ u v, Gives aviary (birdTy.either std.typedTy) u ∧ Gives aviary (std.typedTy.either birdTy) v ∧
      (Gives aviary (birdTy.isSubtype u) true ∧ Gives aviary (std.typedTy.isSubtype u) true) ∧
      (∀ c m₁ m₂, Reachable aviary m₁ → Reachable aviary m₂ →
        (run aviary (birdTy.isSubtype c) m₁).1 = true →
        (run aviary (std.typedTy.isSubtype c) m₂).1 = true → Gives aviary (u.isSubtype c) true) ∧
      Gives aviary (u.isSubtype v) true ∧ Gives aviary (v.isSubtype u) true :=
  ⟨scopedDeclarations_aviary.fixed,
    either_leastUpperBound scopedDeclarations_aviary.fixed birdTy std.typedTy⟩

/-- No alias of the chain leads back to itself: each comes to a type that mentions aliases of later
modules only. Yet a type is not below its own union there. -/
theorem either_not_upperBound_chain :
    (∀ d a, d.module ≠ ModuleId.base → chain.construct? d = some (.aliasDecl a) →
      ∃ t, Derives chain (.expansion d [] []) t ∧ Later d.module t) ∧
    ∃ a b : Ty, (run chain (a.either b >>= fun u => a.isSubtype u) {}).1 = false := by
  refine ⟨fun d a hd h => ?_, nearTy, farTy, nearTy_not_below_union⟩
  obtain ⟨i, hi, rfl⟩ := exists_link hd h
  exact ⟨meant i, derives_link hasChain_chain hi, later_meant i⟩

end PklAnalysis.Session
