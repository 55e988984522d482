import PklAnalysis.Proofs.Session.Null
import PklAnalysis.Proofs.Types.Symmetric

/-!
# Common subtypes both ways, in a session

On types without `unknown` the session gives the same answer both ways round
(`hasCommonSubtype_comm`), unless the limit on nested questions turns a hidden `nothing` into a yes
from one side only (`hasCommonSubtype_not_comm`).
-/

namespace PklAnalysis.Session

variable {src : ModuleSource}

/-- A yes to the search for a common subtype does not come from the limit on nested questions. -/
def OverlapsWithinLimit (src : ModuleSource) (t u : Ty) : Prop :=
  (reading src).overlap (Limits.subtypeDepth + 1) t u = true → (reading src).Overlaps t u

/-- Types without `unknown` for which the limit on nested questions makes no difference between the
two ways round: either `nothing` is not hidden in them, or the limit is not the reason for a yes. -/
def Comparable (src : ModuleSource) (t u : Ty) : Prop :=
  ((reading src).Determinate (reading src).Definite t ∧
    (reading src).Determinate (reading src).Definite u) ∨
  ((reading src).Determinate (fun _ => True) t ∧ (reading src).Determinate (fun _ => True) u ∧
    OverlapsWithinLimit src t u ∧ OverlapsWithinLimit src u t)

theorem Comparable.overlap_comm (acyclic : (reading src).AcyclicClasses) {t u : Ty}
    (h : Comparable src t u) :
    (reading src).overlap (Limits.subtypeDepth + 1) t u =
      (reading src).overlap (Limits.subtypeDepth + 1) u t := by
  rcases h with ⟨ht, hu⟩ | ⟨ht, hu, left, right⟩
  · exact acyclic.overlap_comm _ ht hu
  · refine Bool.eq_iff_iff.2 ⟨fun ho => ?_, fun ho => ?_⟩
    · exact acyclic.overlaps_symm ht hu (left ho) _
    · exact acyclic.overlaps_symm hu ht (right ho) _

/-- Whether two types have a common subtype does not hang on which one is asked. -/
theorem hasCommonSubtype_comm (acyclic : (reading src).AcyclicClasses) {t u : Ty}
    (settled : (t.hasCommonSubtype u).Asks (reading src) (Settled src))
    (settled' : (u.hasCommonSubtype t).Asks (reading src) (Settled src))
    (comparable : Comparable src t u) {m₁ m₂ : Memory} (hm₁ : Reachable src m₁)
    (hm₂ : Reachable src m₂) :
    (run src (t.hasCommonSubtype u) m₁).1 = (run src (u.hasCommonSubtype t) m₂).1 := by
  calc (run src (t.hasCommonSubtype u) m₁).1
      = (reading src).overlap (Limits.subtypeDepth + 1) t u := gives_value settled m₁ hm₁
    _ = (reading src).overlap (Limits.subtypeDepth + 1) u t := comparable.overlap_comm acyclic
    _ = (run src (u.hasCommonSubtype t) m₂).1 := (gives_value settled' m₂ hm₂).symm

/-- A bird or a text against texts, asked one after the other. -/
theorem hasCommonSubtype_comm_birds :
    (reading aviary).AcyclicClasses ∧
    (birdOrNone.hasCommonSubtype std.stringTy).Asks (reading aviary) (Settled aviary) ∧
    (std.stringTy.hasCommonSubtype birdOrNone).Asks (reading aviary) (Settled aviary) ∧
    Comparable aviary birdOrNone std.stringTy ∧
    (run aviary (birdOrNone.hasCommonSubtype std.stringTy) {}).1 = true ∧
    ∀ m, Reachable aviary m → (run aviary (std.stringTy.hasCommonSubtype birdOrNone) m).1 = true := by
  have fixed := scopedDeclarations_aviary.fixed
  have acyclic := plainClasses_aviary.hierarchy.rooted.acyclicClasses
  have plain : ∀ {d}, (reading aviary).params d = [] → (reading aviary).Filled (Base.simple d) :=
    fun hd => plainClasses_aviary.regular.filled_cls (by rw [hd]; rfl)
      (fun _ h => absurd h List.not_mem_nil) []
  have birds : (reading aviary).Filled birdOrNone :=
    .union [] (plain (reading_params_of_construct (c := .classDecl { name := "Bird" }) rfl rfl))
      (.literal "none" [])
  have texts : (reading aviary).Filled std.stringTy :=
    plain (reading_params_of_isClass Standard.isClass_string)
  have comparable : Comparable aviary birdOrNone std.stringTy :=
    .inl ⟨birds.determinate, texts.determinate⟩
  have settled := fixed.asks_hasCommonSubtypeUpTo (Limits.subtypeDepth + 1) birdOrNone std.stringTy
  have settled' := fixed.asks_hasCommonSubtypeUpTo (Limits.subtypeDepth + 1) std.stringTy birdOrNone
  have yes : (run aviary (birdOrNone.hasCommonSubtype std.stringTy) {}).1 = true :=
    run_of_table (by decide +kernel)
  exact ⟨acyclic, settled, settled', comparable, yes, fun m hm =>
    (hasCommonSubtype_comm acyclic settled settled' comparable .fresh hm).symm.trans yes⟩

/-! ## Where the limit comes in -/

/-- A type with `nothing` as an alternative `n` times over. -/
def orNothing (t : Ty) : Nat → Ty := t.stacked .nothing

theorem determinate_orNothing {r : Reading} {t : Ty} (h : r.Determinate (fun _ => True) t) (n : Nat) :
    r.Determinate (fun _ => True) (orNothing t n) := by
  refine Ty.stacked_of_union (fun ht hu => .compound rfl trivial (fun p hp => ?_)) h .nothing n
  rcases List.mem_cons.1 hp with rfl | hp
  · exact ht
  · exact List.mem_singleton.1 hp ▸ hu

/-- The alternatives of the left type are gone through until no question is left. -/
theorem overlap_orNothing {r : Reading} {n : Nat} {t u : Ty} (hu : u.Proper)
    (h : r.overlap n t u = true) (m : Nat) : r.overlap (n + m) (orNothing t m) u = true := by
  induction m with
  | zero => exact h
  | succ m ih =>
    rw [← Nat.add_assoc, Reading.overlap_compound _ (Ty.proper_of_isCompound rfl) hu (.inl rfl)]
    exact List.any_eq_true.2 ⟨_, List.mem_cons_self, ih⟩

/-- A text or nothing, and nothing or nothing: whether they have something in common hangs on
which one is asked. -/
theorem hasCommonSubtype_not_comm :
    FixedDeclarations Check.nowhere ∧ (reading Check.nowhere).AcyclicClasses ∧
    ∃ t u : Ty, (reading Check.nowhere).Determinate (fun _ => True) t ∧
      (reading Check.nowhere).Determinate (fun _ => True) u ∧
      (run Check.nowhere (t.hasCommonSubtype u) {}).1 = false ∧
      (run Check.nowhere (u.hasCommonSubtype t) {}).1 = true := by
  let r := reading Check.nowhere
  have fixed := scopedDeclarations_nowhere.fixed
  have value := fun t u => gives_value (fixed.asks_hasCommonSubtypeUpTo (100 + 1) t u) {} .fresh
  let none : Ty := orNothing .nothing 1
  let textOrNone : Ty := orNothing std.stringTy Limits.subtypeDepth
  have texts : r.Determinate (fun _ => True) std.stringTy :=
    (Check.plainClasses_nowhere.regular.filled_cls
      (by rw [reading_params_of_isClass Standard.isClass_string]; rfl)
      (fun _ h => absurd h List.not_mem_nil) []).determinate.mono (fun _ _ => trivial)
  have there : r.overlap (100 + 1) none textOrNone = false := by
    have proper : none.Proper ∧ textOrNone.Proper :=
      ⟨Ty.proper_of_isCompound rfl, Ty.proper_of_isCompound rfl⟩
    rw [Reading.overlap_compound _ proper.1 proper.2 (.inl rfl)]
    simp [none, orNothing, Ty.stacked, Reading.leftFirst, Reading.parts]
  have back : r.overlap (1 + 100) textOrNone none = true := by
    refine overlap_orNothing (Ty.proper_of_isCompound rfl) ?_ 100
    rw [Reading.overlap_succ]
    rfl
  exact ⟨fixed, Check.plainClasses_nowhere.hierarchy.rooted.acyclicClasses, none, textOrNone,
    determinate_orNothing .nothing 1, determinate_orNothing texts _, (value ..).trans there,
    (value ..).trans back⟩

end PklAnalysis.Session
