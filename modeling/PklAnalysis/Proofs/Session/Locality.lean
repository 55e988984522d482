import PklAnalysis.Session

/-!
# What a session reads

A session reads the trees that it loads and the modules that references lead to, and nothing else.
With another source that agrees on these it computes the same, memory included (`run_eq_of_loaded`).
-/

namespace PklAnalysis.Session

variable {src src' : ModuleSource} {α β : Type}

variable (src src') in
/-- The second computation does what the first one does, unless the sources differ in a tree that is
loaded. -/
def Follows (x y : StateM Memory α) : Prop :=
  ∀ m, m.loaded ⊆ (x m).2.loaded ∧
    ((∀ i ∈ (x m).2.loaded, src'.tree i = src.tree i) → y m = x m)

namespace Follows

theorem pure (a : α) : Follows src src' (Pure.pure a : StateM Memory α) (Pure.pure a) :=
  fun m => ⟨List.Subset.refl m.loaded, fun _ => rfl⟩

theorem bind {x y : StateM Memory α} {f g : α → StateM Memory β} (hx : Follows src src' x y)
    (hf : ∀ a, Follows src src' (f a) (g a)) : Follows src src' (x >>= f) (y >>= g) := by
  intro m
  obtain ⟨hm, hxy⟩ := hx m
  obtain ⟨hn, hfg⟩ := hf (x m).1 (x m).2
  refine ⟨List.Subset.trans hm hn, fun h => ?_⟩
  have hy : y m = x m := hxy (fun i hi => h i (hn hi))
  show g (y m).1 (y m).2 = f (x m).1 (x m).2
  rw [hy]
  exact hfg h

theorem run {answer answer' : (q : Question) → StateM Memory q.Answer}
    (h : ∀ q, Follows src src' (answer q) (answer' q)) (x : Query α) :
    Follows src src' (x.run answer) (x.run answer') := by
  induction x with
  | done a => exact Follows.pure a
  | ask q next ih => exact (h q).bind ih

theorem guarded {x y : StateM Memory α} (k : GuardKey) (fallback : α) (h : Follows src src' x y) :
    Follows src src' (Session.guarded k fallback x) (Session.guarded k fallback y) := by
  intro m
  unfold Session.guarded
  cases m.guard.enter k with
  | error e => exact ⟨List.Subset.refl m.loaded, fun _ => rfl⟩
  | ok g =>
    obtain ⟨hm, hxy⟩ := h { m with guard := g }
    refine ⟨hm, fun ht => ?_⟩
    have hy := hxy ht
    dsimp only
    rw [hy]

theorem memoized {x y : StateM Memory α} {read : Memory → Option α} {store : α → Memory → Memory}
    (hs : ∀ a m, (store a m).loaded = m.loaded) (h : Follows src src' x y) :
    Follows src src' (Session.memoized read store x) (Session.memoized read store y) := by
  intro m
  unfold Session.memoized
  cases read m with
  | some a => exact ⟨List.Subset.refl m.loaded, fun _ => rfl⟩
  | none =>
    obtain ⟨hm, hxy⟩ := h m
    cases hx : x m with
    | mk a k =>
      rw [hx] at hm hxy
      have kept : (if k.guard.fallbacks = m.guard.fallbacks then store a k else k).loaded =
          k.loaded := by
        split
        · exact hs a k
        · rfl
      dsimp only
      rw [kept]
      refine ⟨hm, fun ht => ?_⟩
      rw [hxy ht]

theorem loadTree (i : ModuleId) :
    Follows src src' (Session.loadTree src i) (Session.loadTree src' i) := by
  intro m
  unfold Session.loadTree
  dsimp only
  split
  · next h =>
    refine ⟨List.Subset.refl m.loaded, fun ht => ?_⟩
    rw [ht i (List.contains_iff_mem.1 h)]
  · refine ⟨List.subset_cons_self i m.loaded, fun ht => ?_⟩
    rw [ht i List.mem_cons_self]

variable (hr : ∀ i uri, src'.resolve i uri = src.resolve i uri)
include hr

theorem findModule (i : ModuleId) (uri : String) :
    Follows src src' (Session.findModule src i uri) (Session.findModule src' i uri) := by
  intro m
  unfold Session.findModule
  rw [hr i uri]
  cases m.references[(i, uri)]? <;> exact ⟨List.Subset.refl m.loaded, fun _ => rfl⟩

theorem keep (q : Question) {x y : StateM Memory q.Answer} (h : Follows src src' x y) :
    Follows src src' (Session.keep src q x) (Session.keep src' q y) := by
  cases q with
  | tree i => exact loadTree i
  | reference i uri => exact findModule hr i uri
  | supertype | aliased | declared => exact h.memoized (fun _ _ => rfl)
  | _ => exact h.guarded _ _

theorem answer (n : Nat) (q : Question) :
    Follows src src' (Session.answer src n q) (Session.answer src' n q) := by
  induction n generalizing q with
  | zero => exact keep hr q (fun m => ⟨List.Subset.refl m.loaded, fun _ => rfl⟩)
  | succ n ih => exact keep hr q (run ih (body q))

end Follows

/-- A session with another source computes the same if the two agree on the trees that are loaded
and on all references. -/
theorem run_eq_of_loaded {x : Query α} {m : Memory}
    (hr : ∀ i uri, src'.resolve i uri = src.resolve i uri)
    (ht : ∀ i ∈ (run src x m).2.loaded, src'.tree i = src.tree i) :
    run src' x m = run src x m :=
  (Follows.run (Follows.answer hr fuel) x m).2 ht

end PklAnalysis.Session
