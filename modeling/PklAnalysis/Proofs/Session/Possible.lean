import PklAnalysis.Proofs.Session.Formed

/-!
# Possible answers

`MayResult src α x a` says that the query `x` can come out as `a` if each question on the way is either
answered by its computation or refused, wherever it comes up. That leaves memory, the guard and the
limits open, so it covers all that a session can answer. `src.MayAnswer q a` says it of one question, and `src.Declares t` of a type that a declaration can be found to have: the type of
the declaration itself, the right-hand side of an alias, the supertype of a class, or the type that
a property's value must have.

What the computation of every question keeps, given that the answers it uses have it, and what
refused questions have, is true of all answers (`Envelope.uniform`).
-/

namespace PklAnalysis

open Session

namespace Query

variable {α β : Type} {P : (q : Question) → q.Answer → Prop} {S T : α → Prop}

theorem within_ite {c : Prop} [Decidable c] {x y : Query α} (hx : x.Within P S)
    (hy : y.Within P S) : (if c then x else y).Within P S := by
  split
  · exact hx
  · exact hy

/-- Whatever comes before. -/
theorem Within.after {x : Query α} {f : α → Query β} {S : β → Prop}
    (h : ∀ a, (f a).Within P S) : (x >>= f).Within P S :=
  Within.bind (T := fun _ => True) within_true (fun a _ => h a)

end Query

/-- Bounds that are the same for all answers, whether they are remembered or not. -/
def Envelope.uniform (src : ModuleSource) (A : (q : Question) → q.Answer → Prop)
    (tree : ∀ i, A (.tree i) (src.tree i))
    (reference : ∀ m uri, A (.reference m uri) (src.resolve m uri))
    (refused : ∀ {q}, q.isSource = false → A q (fallback q))
    (computed : ∀ {q}, q.isSource = false → (body q).Within A (A q)) : Envelope src where
  stored := A
  given _ _ := A
  given_of_stored h := h
  stored_tree := tree
  stored_reference := reference
  given_zero _ _ hq := refused hq
  given_refused _ _ q h := by
    obtain ⟨k, hk, _⟩ := h
    exact refused (by cases q <;> first | rfl | cases hk)
  given_succ _ _ _ hq _ := computed hq
  stored_body _ hq := computed hq

/-- A query comes out within bounds that hold whatever its questions are answered within theirs. -/
theorem Envelope.within_run {src : ModuleSource} (E : Envelope src) {α : Type} {x : Query α}
    {S : α → Prop} (h : x.Within (E.given fuel []) S) {m : Memory} (hm : Reachable src m) :
    S (run src x m).1 := by
  have bounded : E.Bounded [] S (fun _ => True) (run src x) :=
    bounded_run (E.answer_bounded fuel []) h Query.within_true
  exact (bounded m (E.holds_of_reachable hm)).1

namespace Session

variable {src : ModuleSource} {α : Type}

/-- The result of a query if each question on the way is answered by its computation or refused. -/
inductive MayResult (src : ModuleSource) : (α : Type) → Query α → α → Prop
  | done {α : Type} (a : α) : MayResult src α (.done a) a
  | tree {α : Type} {i : ModuleId} {next : Option SyntaxTree → Query α} {a : α} :
      MayResult src α (next (src.tree i)) a → MayResult src α (.ask (.tree i) next) a
  | reference {α : Type} {m : ModuleId} {uri : String} {next : Option ModuleId → Query α} {a : α} :
      MayResult src α (next (src.resolve m uri)) a → MayResult src α (.ask (.reference m uri) next) a
  | ask {α : Type} {q : Question} {next : q.Answer → Query α} {b : q.Answer} {a : α} :
      q.isSource = false → MayResult src q.Answer (body q) b → MayResult src α (next b) a →
        MayResult src α (.ask q next) a
  | refused {α : Type} {q : Question} {next : q.Answer → Query α} {a : α} :
      q.isSource = false → MayResult src α (next (fallback q)) a → MayResult src α (.ask q next) a

end Session

namespace ModuleSource

variable {src : ModuleSource} {α : Type}

/-- What a question can be answered with. -/
def MayAnswer (src : ModuleSource) (q : Question) (a : q.Answer) : Prop :=
  MayResult src q.Answer (.ask q .done) a

theorem MayAnswer.result {q : Question} {next : q.Answer → Query α} {b : q.Answer} {a : α}
    (h : src.MayAnswer q b) (k : MayResult src α (next b) a) : MayResult src α (.ask q next) a := by
  cases h with
  | tree h => cases h; exact .tree k
  | reference h => cases h; exact .reference k
  | ask hs hb h => cases h; exact .ask hs hb k
  | refused hs h => cases h; exact .refused hs k

theorem within_mayResult (x : Query α) : x.Within src.MayAnswer (MayResult src α x) := by
  induction x with
  | done a => exact .done a
  | ask q next ih => exact fun b hb => (ih b).mono (fun a ha => hb.result ha)

theorem within_mayAnswer {q : Question} (hq : q.isSource = false) :
    (body q).Within src.MayAnswer (src.MayAnswer q) :=
  (within_mayResult (body q)).mono (fun a ha => .ask hq ha (.done a))

end ModuleSource

/-! ## Types in answers -/

namespace Question

/-- The types in the answer to a question. -/
def types : (q : Question) → q.Answer → List Ty
  | .tree _, _ => []
  | .reference _ _, _ => []
  | .supertype _, t => t.toList
  | .superclause _ _, t => t.toList
  | .aliased _, t => [t]
  | .expansion _ _ _, t => [t]
  | .declared _, t => [t]
  | .member _, t => [t]
  | .expr _ _, t => [t]
  | .bodyThis _, t => [t]
  | .property _, t => [t]
  | .expected _, t => [t]

/-- Questions about the type of a declaration, over the type parameters in scope where it stands. -/
def isDeclared : Question → Bool
  | .supertype _ | .aliased _ | .declared _ | .property _ => true
  | _ => false

end Question

/-- A type that a declaration can be found to have. -/
def ModuleSource.Declares (src : ModuleSource) (t : Ty) : Prop :=
  ∃ q a, q.isDeclared = true ∧ src.MayAnswer q a ∧ t ∈ q.types a

end PklAnalysis
