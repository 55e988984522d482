import PklAnalysis.Proofs.Session.Classes

/-!
# Sessions as tables

Trees, references, and the supertypes that need no resolution are known from the source of a
session. A query that asks for nothing else comes out as the table says, whenever it is asked
(`gives_table`).
-/

namespace PklAnalysis

namespace ModuleSource

variable (src : ModuleSource)

/-- What is known of a session without asking it. -/
def table : Reading
  | .tree i => src.tree i
  | .reference m uri => src.resolve m uri
  | .supertype d =>
    if d.module = ModuleId.base then Standard.supertype? d.node
    else (src.plainSupertype d).getD none
  | q => Session.fallback q

/-- The table with further answers in front of it. -/
def knowing (known : (q : Question) → Option q.Answer) : Reading :=
  fun q => (known q).getD (src.table q)

/-- The questions that the table answers. -/
def Tabled : Question → Prop
  | .tree _ => True
  | .reference _ _ => True
  | .supertype d => d.module = ModuleId.base ∨ (src.plainSupertype d).isSome = true
  | _ => False

instance : DecidablePred src.Tabled
  | .tree _ | .reference _ _ => isTrue trivial
  | .supertype d =>
    inferInstanceAs (Decidable (d.module = ModuleId.base ∨ (src.plainSupertype d).isSome = true))
  | .superclause _ _ | .aliased _ | .expansion _ _ _ | .declared _ | .member _ | .expr _ _
  | .bodyThis _ | .property _ | .expected _ => isFalse id

end ModuleSource

namespace Session

variable {src : ModuleSource} {α : Type}

theorem gives_tabled {q : Question} (h : src.Tabled q) : Gives src (.ask q .done) (src.table q) := by
  refine gives_ask_iff.2 ?_
  cases q with
  | tree i => exact settled_tree src i
  | reference m uri => exact settled_reference src m uri
  | supertype d =>
    show Settled src (.supertype d) ∧ reading src (.supertype d) =
      (if d.module = ModuleId.base then Standard.supertype? d.node
        else (src.plainSupertype d).getD none)
    by_cases hd : d.module = ModuleId.base
    · obtain ⟨i, rfl⟩ := exists_base hd
      rw [if_pos rfl]
      exact settled_supertype src i
    · obtain ⟨s, hs⟩ := Option.isSome_iff_exists.1 (h.resolve_left hd)
      rw [if_neg hd, hs]
      exact settled_plainSupertype hs
  | _ => cases h

/-- A query that the table can answer comes out as the table says. -/
theorem gives_table {x : Query α} (h : x.Asks src.table src.Tabled) :
    Gives src x (x.value src.table) := gives_of_asks h (fun _ => gives_tabled)

/-- The table tells what a fresh session answers. -/
theorem run_of_table {x : Query α} {a : α}
    (h : x.Asks src.table src.Tabled ∧ x.value src.table = a) : (run src x {}).1 = a :=
  (gives_table h.1 {} .fresh).trans h.2

/-! ### What else is known -/

variable (src) in
/-- The table and some further answers are all that a query needs, and with them it comes out as
`a`. -/
abbrev Answered (known : (q : Question) → Option q.Answer) (x : Query α) (a : α) : Prop :=
  x.Asks (src.knowing known) (fun q => (known q).isSome = true ∨ src.Tabled q) ∧
    x.value (src.knowing known) = a

/-- If the further answers are right, a query that needs the table and these comes out as they
say. -/
theorem gives_known {known : (q : Question) → Option q.Answer}
    (sound : ∀ {q a}, known q = some a → Gives src (.ask q .done) a) {x : Query α} {a : α}
    (h : Answered src known x a) : Gives src x a := by
  rw [← h.2]
  refine gives_of_asks h.1 (fun q hq => ?_)
  unfold ModuleSource.knowing
  cases hk : known q with
  | none => exact gives_tabled (hq.resolve_left (by simp [hk]))
  | some a => exact sound hk

end Session

end PklAnalysis
