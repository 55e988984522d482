import PklAnalysis.Proofs.Session.Subtype

/-!
# Answers without refusals

`Concludes src α x a` says that the query `x` comes to `a` if nothing is remembered and nothing is
refused on the way. That is a matter of the modules alone, and a query has at most one such
conclusion (`Concludes.unique`). Memory holds nothing but conclusions, since an answer is only
stored if nothing was refused while it was computed. So a query during which nothing is refused
comes out in the same way whatever was asked before (`run_eq_of_no_fallback`).
-/

namespace PklAnalysis.Session

variable {src : ModuleSource} {α : Type}

/-! ## Derivations -/

/-- The result of a query when every computation on the way is carried out to its end. -/
inductive Concludes (src : ModuleSource) : (α : Type) → Query α → α → Prop
  | done {α : Type} (a : α) : Concludes src α (.done a) a
  | tree {α : Type} {i : ModuleId} {next : Option SyntaxTree → Query α} {a : α} :
      Concludes src α (next (src.tree i)) a → Concludes src α (.ask (.tree i) next) a
  | reference {α : Type} {m : ModuleId} {uri : String} {next : Option ModuleId → Query α} {a : α} :
      Concludes src α (next (src.resolve m uri)) a → Concludes src α (.ask (.reference m uri) next) a
  | ask {α : Type} {q : Question} {next : q.Answer → Query α} {b : q.Answer} {a : α} :
      q.isSource = false → Concludes src q.Answer (body q) b → Concludes src α (next b) a →
        Concludes src α (.ask q next) a

/-- The answer to a question when every computation on the way is carried out to its end. -/
def Derives (src : ModuleSource) (q : Question) (a : q.Answer) : Prop :=
  Concludes src q.Answer (.ask q .done) a

/-- A query has at most one such result. -/
theorem Concludes.unique {x : Query α} {a b : α} (h : Concludes src α x a)
    (h' : Concludes src α x b) : a = b := by
  induction h with
  | done => cases h'; rfl
  | tree _ ih =>
    cases h' with
    | tree k => exact ih k
    | ask hs => cases hs
  | reference _ ih =>
    cases h' with
    | reference k => exact ih k
    | ask hs => cases hs
  | ask hs _ _ ihb ih =>
    cases h' with
    | tree | reference => cases hs
    | ask _ hb k =>
      cases ihb hb
      exact ih k

theorem Derives.concludes {q : Question} {next : q.Answer → Query α} {b : q.Answer} {a : α}
    (h : Derives src q b) (k : Concludes src α (next b) a) : Concludes src α (.ask q next) a := by
  cases h with
  | tree h => cases h; exact .tree k
  | reference h => cases h; exact .reference k
  | ask hs hb h => cases h; exact .ask hs hb k

theorem within_concludes (x : Query α) : x.Within (Derives src) (Concludes src α x) := by
  induction x with
  | done a => exact .done a
  | ask q next ih => exact fun b hb => (ih b).mono (fun a ha => hb.concludes ha)

/-! ## Memory -/

/-- Only such answers are remembered; nothing is said of what else is answered. -/
def derivedOnly (src : ModuleSource) : Envelope src where
  stored := Derives src
  given _ _ _ _ := True
  given_of_stored _ := trivial
  stored_tree i := .tree (.done (src.tree i))
  stored_reference m uri := .reference (.done (src.resolve m uri))
  given_zero _ _ _ := trivial
  given_refused _ _ _ _ := trivial
  given_succ _ _ _ _ _ := Query.within_true
  stored_body q hq := (within_concludes (body q)).mono (fun a ha => .ask hq ha (.done a))

/-- A query during which nothing is refused comes to its conclusion. -/
theorem concludes_of_no_fallback {m : Memory} (hm : Reachable src m) (x : Query α)
    (h : (run src x m).2.guard.fallbacks = m.guard.fallbacks) :
    Concludes src α x (run src x m).1 := by
  have hb : (derivedOnly src).Bounded [] (fun _ => True) (Concludes src α x) (run src x) :=
    Envelope.bounded_run ((derivedOnly src).answer_bounded fuel []) Query.within_true
      (within_concludes x)
  exact (hb m ((derivedOnly src).holds_of_reachable hm)).2.2.2 h

/-- What was asked before makes no difference to a query during which nothing is refused. -/
theorem run_eq_of_no_fallback {m₁ m₂ : Memory} (h₁ : Reachable src m₁) (h₂ : Reachable src m₂)
    (x : Query α) (f₁ : (run src x m₁).2.guard.fallbacks = m₁.guard.fallbacks)
    (f₂ : (run src x m₂).2.guard.fallbacks = m₂.guard.fallbacks) :
    (run src x m₁).1 = (run src x m₂).1 :=
  (concludes_of_no_fallback h₁ x f₁).unique (concludes_of_no_fallback h₂ x f₂)

/-! ### A remembered answer -/

theorem run_declared (src : ModuleSource) (d : NodeRef) (m : Memory) :
    run src (Query.declared d) m =
      memoized (·.declared[d]?) (fun t m => { m with declared := m.declared.insert d t })
        (answer src 1505 (.member d)) m := rfl

/-- The type of the class is computed for the first question and remembered for the second one. -/
theorem run_eq_of_no_fallback_bird :
    (run aviary (Query.declared bird) {}).1 =
      (run aviary (Query.declared bird) (run aviary (Query.declared bird) {}).2).1 := by
  let m := (answer aviary 1505 (.member bird) {}).2
  let t := (answer aviary 1505 (.member bird) {}).1
  have computed : run aviary (Query.declared bird) {} =
      (t, { m with declared := m.declared.insert bird t }) := by
    rw [run_declared, memoized, Std.HashMap.getElem?_empty]
    exact congrArg (Prod.mk t) (if_pos (by decide +kernel))
  have remembered : run aviary (Query.declared bird) { m with declared := m.declared.insert bird t } =
      (t, { m with declared := m.declared.insert bird t }) := by
    rw [run_declared, memoized, Std.HashMap.getElem?_insert_self]
  refine run_eq_of_no_fallback .fresh (.query _ .fresh) _ ?_ ?_
  · rw [computed]
    decide +kernel
  · rw [computed, remembered]

end PklAnalysis.Session
