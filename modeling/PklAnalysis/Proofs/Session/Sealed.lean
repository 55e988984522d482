import PklAnalysis.Proofs.Session.Fixed
import PklAnalysis.Proofs.Types.Rebinding

/-!
# Subtypes that do not need superclasses

What a class extends may hang on what a session was asked before. A query about subtypes never
answers no because a class extends too much, so what is below another type where no class extends
anything is below it in every memory (`gives_isSubtype_of_below`). What an alias stands for must not
hang on the memory for that.
-/

namespace PklAnalysis.Session

variable (src : ModuleSource) {α β : Type}

/-- What a fresh session answers, if no class extended anything. -/
def sealed : Reading
  | .supertype _ => none
  | q => reading src q

/-- If the query is answered with yes where no class extends anything, then so it is in every
memory. -/
def Upheld (x : Query Bool) : Prop := x.value (sealed src) = true → Gives src x true

variable {src}

/-! ## The source -/

theorem gives_sealed {x : Query α} (hx : x.Asks (sealed src) Question.IsSource) :
    Gives src x (x.value (sealed src)) := by
  refine gives_of_asks hx (fun q hq => gives_ask_iff.2 ⟨settled_source src hq, ?_⟩)
  cases q with
  | tree | reference => rfl
  | _ => cases hq

theorem sealed_bindings (d : NodeRef) (as : List Ty) :
    (sealed src).bindings d as = (reading src).bindings d as :=
  (gives_sealed (Query.asks_forDeclaration (sealed src) d as)).unique
    (gives_source (Query.asks_forDeclaration (reading src) d as))

/-! ## How queries are put together -/

theorem upheld_pure (b : Bool) : Upheld src (pure b) := by
  rintro h
  rw [show b = true from h]
  exact gives_pure true

theorem Upheld.and {x y : Query Bool} (hx : Upheld src x) (hy : Upheld src y) :
    Upheld src (do if ← x then y else pure false) := by
  intro h
  rw [Query.value_and, Bool.and_eq_true] at h
  exact (hx h.1).bind (hy h.2)

theorem Upheld.or {x y : Query Bool} (hx : Upheld src x) (hy : Upheld src y) :
    Upheld src (do if ← x then pure true else y) := by
  intro h
  rw [Query.value_or, Bool.or_eq_true] at h
  rcases h with h | h
  · exact (hx h).bind (gives_pure true)
  · -- the left side may say yes or no, now this and then that
    intro m hm
    rw [run_bind]
    cases (run src x m).1 with
    | true => rfl
    | false => exact hy h _ (hm.query x)

theorem Upheld.of_gives {x : Query α} {f : α → Query Bool}
    (hx : Gives src x (x.value (sealed src))) (hf : Upheld src (f (x.value (sealed src)))) :
    Upheld src (x >>= f) := by
  intro h
  rw [Query.value_bind] at h
  exact hx.bind (hf h)

theorem Upheld.of_source {x : Query Bool} (hx : x.Asks (sealed src) Question.IsSource) :
    Upheld src x := by
  intro h
  rw [← h]
  exact gives_sealed hx

/-! ## Subtypes -/

theorem upheld_argsConform {below : Ty → Ty → Query Bool} (h : ∀ x y, Upheld src (below x y)) :
    ∀ (ps : List (NodeRef × Variance)) (xs ys : List Ty),
      Upheld src (Ty.argsConform below ps xs ys)
  | (_, .covariant) :: ps, x :: xs, y :: ys => (h x y).and (upheld_argsConform h ps xs ys)
  | (_, .contravariant) :: ps, x :: xs, y :: ys => (h y x).and (upheld_argsConform h ps xs ys)
  | (p, .invariant) :: ps, x :: xs, y :: ys => by
    have both := (h x y).and ((h y x).and (upheld_argsConform h ps xs ys))
    have order : Ty.argsConform below ((p, .invariant) :: ps) (x :: xs) (y :: ys) =
        (do if ← below x y then
              (do if ← below y x then Ty.argsConform below ps xs ys else pure false)
            else pure false) := by
      rw [Ty.argsConform]
      refine congrArg (below x y >>= ·) (funext fun b => ?_)
      cases b <;> rfl
    rwa [order]
  | [], _, _ => upheld_pure true
  | _ :: _, [], _ => upheld_pure true
  | _ :: _, _ :: _, [] => upheld_pure true

/-- A class that extends nothing is met above itself only. -/
theorem value_projectTo_sealed (c : ClassTy) (d : NodeRef) :
    (c.projectTo d).value (sealed src) = if c.decl = d then some c else none := by
  show (ClassTy.projectFrom d (99 + 1) [] c).value (sealed src) = _
  have top : (sealed src).parent c = none := by
    rw [Reading.parent_eq]
    rfl
  rw [Reading.projectFrom_succ, top]
  split
  · rfl
  · split <;> rfl

theorem upheld_classBelow {below : Ty → Ty → Query Bool} (h : ∀ x y, Upheld src (below x y))
    (a b : ClassTy) : Upheld src (Ty.classBelow below a b) := by
  intro holds
  unfold Ty.classBelow at holds ⊢
  by_cases hd : a.decl = b.decl
  · have found : a.projectTo b.decl = pure (some a) := if_pos hd
    rw [found] at holds ⊢
    have conform : Upheld src (typeParams b.decl >>= fun params =>
        Ty.argsConform below params a.args b.args) :=
      .of_gives (gives_sealed (Query.asks_typeParams (sealed src) b.decl))
        (upheld_argsConform h _ _ _)
    exact conform holds
  · rw [Query.value_bind, value_projectTo_sealed, if_neg hd] at holds
    cases holds

section

variable (settled : ∀ d, Settled src (.expansion d [] []))
include settled

theorem gives_expansion (d : NodeRef) (as : List Ty) (c : Constraints) :
    Gives src (Query.expansion d as c) (reading src (.expansion d as c)) :=
  gives_ask_iff.2 ⟨((settled d).expansion as c).1, rfl⟩

theorem uniform_sealed : (sealed src).Uniform := by
  intro d
  refine ⟨reading src (.expansion d [] []), fun as c => ?_⟩
  rw [sealed_bindings]
  exact ((settled d).expansion as c).2

theorem upheld_isSubtypeUpTo (n : Nat) (t u : Ty) : Upheld src (Ty.isSubtypeUpTo n t u) := by
  induction n generalizing t u with
  | zero => exact upheld_pure true
  | succ n ih =>
    rw [Ty.isSubtypeUpTo.eq_def]
    show Upheld src (if t = u then _ else _)
    split
    · exact upheld_pure true
    · have expand := fun d as c f (hf : ∀ t, Upheld src (f t)) =>
        Upheld.of_gives (f := f) (gives_expansion settled d as c) (hf _)
      cases t <;> cases u <;> first
        | exact upheld_pure _
        | exact (ih _ _).and (ih _ _)
        | exact expand _ _ _ _ (fun t => ih _ _)
        | exact (ih _ _).or (ih _ _)
        | exact ih _ _
        | exact upheld_classBelow ih _ _
        | exact .of_source (Query.asks_moduleExtendsFrom ..)

/-- What is below another type where no class extends anything is below it in every memory. -/
theorem gives_isSubtype_of_below {t u : Ty} (h : (sealed src).Below t u) :
    Gives src (t.isSubtype u) true := upheld_isSubtypeUpTo settled _ t u (h _)

end

end PklAnalysis.Session
