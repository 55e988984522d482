import PklAnalysis.Proofs.Session.Formed
import PklAnalysis.Proofs.Types.Questions

/-!
# Sessions with fixed declarations

In a session with fixed declarations, what a class extends and what an alias stands for do not hang
on what was asked before. Every query about subtypes, unions and null is put together from these
questions and questions about the source, so there it has one answer, whenever it is asked
(`FixedDeclarations.gives`).
-/

namespace PklAnalysis

open Session

namespace Reading

/-- Without arguments nothing is bound. -/
theorem bindings_nil (r : Reading) (d : NodeRef) : r.bindings d [] = .empty := by
  rw [bindings_eq, List.zip_nil_right]
  rfl

end Reading

namespace Session

variable {src : ModuleSource} {α : Type}

/-- An alias that always stands for the same type does so with whatever arguments. -/
theorem Settled.expansion {d : NodeRef} (h : Settled src (.expansion d [] [])) (as : List Ty)
    (c : Constraints) : Settled src (.expansion d as c) ∧
      reading src (.expansion d as c) =
        ((reading src (.expansion d [] [])).bind ((reading src).bindings d as)).addConstraints c := by
  have answers : ∀ m, Reachable src m → (answer src fuel (.expansion d as c) m).1 =
      ((reading src (.expansion d [] [])).bind ((reading src).bindings d as)).addConstraints c := by
    intro m hm
    obtain ⟨k, -, hb⟩ := answer_expansion hm d
    have hk := hb [] []
    rw [h m hm, Reading.bindings_nil, Ty.bind_empty, Ty.addConstraints_nil] at hk
    rw [hb as c, hk]
  have hr := answers {} .fresh
  exact ⟨fun m hm => (answers m hm).trans hr.symm, hr⟩

variable (src) in
/-- What a class extends and what an alias stands for do not hang on what was asked before. -/
structure FixedDeclarations : Prop where
  supertype : ∀ d, Settled src (.supertype d)
  expansion : ∀ d, Settled src (.expansion d [] [])

namespace FixedDeclarations

variable (h : FixedDeclarations src)
include h

theorem asks_expansion (d : NodeRef) (as : List Ty) (c : Constraints) :
    (Query.expansion d as c).Asks (reading src) (Settled src) :=
  ⟨((h.expansion d).expansion as c).1, trivial⟩

/-- So these questions have one answer each. -/
theorem settled {q : Question} (hq : q.OfScope) : Settled src q := by
  cases q with
  | tree | reference => exact settled_source src rfl
  | supertype d => exact h.supertype d
  | expansion d as c => exact ((h.expansion d).expansion as c).1
  | _ => cases hq

theorem asks {x : Query α} (hx : x.Asks (reading src) Question.OfScope) :
    x.Asks (reading src) (Settled src) := Query.asks_mono (fun _ => h.settled) hx

theorem asks_projectTo (c : ClassTy) (target : NodeRef) :
    (c.projectTo target).Asks (reading src) (Settled src) := h.asks (Query.asks_projectTo c target)

theorem asks_isSubtypeUpTo (n : Nat) (t u : Ty) :
    (Ty.isSubtypeUpTo n t u).Asks (reading src) (Settled src) :=
  h.asks (Query.asks_isSubtypeUpTo n t u)

theorem asks_hasCommonSubtypeUpTo (n : Nat) (t u : Ty) :
    (Ty.hasCommonSubtypeUpTo n t u).Asks (reading src) (Settled src) :=
  h.asks (Query.asks_hasCommonSubtypeUpTo n t u)

theorem asks_either (t u : Ty) : (t.either u).Asks (reading src) (Settled src) :=
  h.asks (Query.asks_either t u)

theorem asks_nonNullUpTo (n : Nat) (t : Ty) :
    (t.nonNullUpTo n).Asks (reading src) (Settled src) := h.asks (Query.asks_nonNullUpTo n t)

end FixedDeclarations

end Session

end PklAnalysis
