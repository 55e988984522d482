import PklAnalysis.Proofs.Types.Rebinding
import PklAnalysis.Proofs.Types.Union

/-!
# Types with their parameters bound

A type can be put together before its parameters are bound or after that. `r.Instance s e x` says
that `x`, which was put together afterwards, stands for `e`. Every way to put types together keeps
this. For unions (`Instance.join`) subtyping has to compose and must not answer yes just for its
limit, since a side may disappear in the one union and stay in the other.
-/

namespace PklAnalysis.Reading

variable {r : Reading}

/-! ## Unions -/

variable (r) in
/-- If either type is below the other one, then not just for the limit. -/
def Certain (t u : Ty) : Prop := (r.Sub t u → r.Below t u) ∧ (r.Sub u t → r.Below u t)

section Join

variable {t u : Ty}

theorem known_join (ht : r.Known t) (hu : r.Known u) : r.Known (r.join t u) := by
  rcases r.join_cases t u with ⟨e, -⟩ | ⟨e, -⟩ | ⟨-, -, e⟩ <;> rw [e]
  · exact hu
  · exact ht
  · exact .union [] ht hu

theorem full_join (ht : r.Full t) (hu : r.Full u) : r.Full (r.join t u) := by
  rcases r.join_cases t u with ⟨e, -⟩ | ⟨e, -⟩ | ⟨-, -, e⟩ <;> rw [e]
  · exact hu
  · exact ht
  · exact .union [] ht hu

theorem below_join (hr : r.Lawful) (h : r.Certain t u) :
    r.Below t (r.join t u) ∧ r.Below u (r.join t u) := by
  rcases r.join_cases t u with ⟨e, hs⟩ | ⟨e, hs⟩ | ⟨-, -, e⟩ <;> rw [e]
  · exact ⟨h.1 hs, below_self u⟩
  · exact ⟨below_self t, h.2 hs⟩
  · have left : t ∈ r.parts (.union t u []) := List.mem_cons_self
    have right : u ∈ r.parts (.union t u []) := List.mem_cons_of_mem t (List.mem_singleton_self u)
    exact ⟨below_of_mem_parts hr left (below_self t), below_of_mem_parts hr right (below_self u)⟩

/-- With parameters bound, the union is below everything that both sides are below. -/
theorem join_bind_below {s : Bindings} (hs : r.Replaces s) {v : Ty} (ht : r.Known (t.bind s))
    (htv : r.Below (t.bind s) v) (huv : r.Below (u.bind s) v) :
    r.Below ((r.join t u).bind s) v := by
  rcases r.join_cases t u with ⟨e, -⟩ | ⟨e, -⟩ | ⟨proper, -, e⟩ <;> rw [e]
  · exact huv
  · exact htv
  · have hv : v ≠ .nothing := by
      rintro rfl
      exact Stable.bind_ne_nothing hs proper.2 (eq_nothing_of_below ht htv)
    refine fun n => sub_of_succ (sub_succ_of_parts rfl hv (fun p hp => ?_))
    rcases List.mem_cons.1 hp with rfl | hp
    · exact htv n
    · cases List.mem_singleton.1 hp
      exact huv n

end Join

/-! ## Types with their parameters bound -/

variable (r) in
/-- `x` stands for `e` with its parameters bound: the two are below each other, and no `unknown`
comes up in `x` unless one does in `e`. -/
structure Instance (s : Bindings) (e x : Ty) : Prop where
  full : r.Full e
  known : r.Known e → r.Known x
  same : r.Mutual x (e.bind s)

namespace Instance

variable {s : Bindings}

/-- A type that has no parameters. -/
theorem closed {e : Ty} (he : r.Full e) (h : e.bind s = e) : r.Instance s e e :=
  ⟨he, id, h.symm ▸ .self e⟩

theorem unknown : r.Instance s .unknown .unknown := closed .unknown rfl

theorem var {p : NodeRef} (hs : ∀ x, s.get? p = some x → r.Known x) :
    r.Instance s (.var p []) ((s.get? p).getD (.var p [])) := by
  refine ⟨.var p [], fun h => ?_, ?_⟩
  · cases hx : s.get? p with
    | none => exact h
    | some x => exact hs x hx
  · rw [Ty.bind]
    cases s.get? p with
    | none => exact .self _
    | some x =>
      show r.Mutual x (x.addConstraints [])
      rw [Ty.addConstraints_nil]
      exact .self x

theorem addConstraints (hr : r.Lawful) {e x : Ty} (h : r.Instance s e x) (c : Constraints) :
    r.Instance s (e.addConstraints c) (x.addConstraints c) where
  full := h.full.addConstraints c
  known hk :=
    (h.known (hk.of_alike hr (e.withoutConstraints_addConstraints c))).of_alike hr
      (x.withoutConstraints_addConstraints c).symm
  same := by
    rw [Ty.addConstraints_bind]
    exact h.same.addConstraints hr c

section

variable {l : List (Ty × Ty)} {d : NodeRef} (hl : l.length = (r.params d).length)
  (h : ∀ q ∈ l, r.Instance s q.1 q.2)
include hl h

theorem cls (c : Constraints) :
    r.Instance s (.cls d (l.map (·.1)) c) (.cls d (l.map (·.2)) c) where
  full := by
    refine .cls c ((List.length_map _).trans hl) (fun a ha => ?_)
    obtain ⟨q, hq, rfl⟩ := List.mem_map.1 ha
    exact (h q hq).full
  known hk := by
    refine .cls c ((List.length_map _).trans hl) (fun a ha => ?_)
    obtain ⟨q, hq, rfl⟩ := List.mem_map.1 ha
    exact (h q hq).known (hk.args.2 _ (List.mem_map_of_mem hq))
  same := by
    rw [Ty.bind, Ty.bindAll_eq_map, List.map_map]
    exact .cls d c (fun q hq => (h q hq).same)

theorem typeAlias (hr : r.Stable) (c : Constraints) :
    r.Instance s (.typeAlias d (l.map (·.1)) c) (.typeAlias d (l.map (·.2)) c) where
  full := by
    refine .typeAlias c ((List.length_map _).trans hl) (fun a ha => ?_)
    obtain ⟨q, hq, rfl⟩ := List.mem_map.1 ha
    exact (h q hq).full
  known hk := by
    obtain ⟨t, full, -, -, expansion⟩ := hr.expansion d
    cases hk with
    | typeAlias hk =>
      have images := images_bindings (r := r) (R := fun e x => r.Known e → r.Known x)
        (fun _ => id) d (fun q hq => (h q hq).known)
      refine .typeAlias ?_
      rw [expansion] at hk ⊢
      refine Known.of_alike hr.lawful ?_ (Ty.withoutConstraints_addConstraints ..).symm
      exact hr.known_rebind images full (hk.of_alike hr.lawful (Ty.withoutConstraints_addConstraints ..))
  same := by
    rw [Ty.bind, Ty.bindAll_eq_map, List.map_map]
    exact hr.uniform.mutual_typeAlias d c (fun q hq => (h q hq).same)

end

/-- Arguments are cut and filled up alike. -/
theorem fitArgs (d : NodeRef) {l : List (Ty × Ty)} (h : ∀ q ∈ l, r.Instance s q.1 q.2) :
    ∃ k : List (Ty × Ty), k.length = (r.params d).length ∧ (∀ q ∈ k, r.Instance s q.1 q.2) ∧
      (Ty.fitArgs d (l.map (·.1))).value r = k.map (·.1) ∧
      (Ty.fitArgs d (l.map (·.2))).value r = k.map (·.2) := by
  let n := (r.params d).length
  have fit : ∀ f : Ty × Ty → Ty, f (Ty.unknown, Ty.unknown) = .unknown →
      (Ty.fitArgs d (l.map f)).value r =
        (l.take n ++ List.replicate (n - l.length) (Ty.unknown, Ty.unknown)).map f := by
    intro f hf
    unfold Ty.fitArgs
    rw [Query.value_bind, Query.value_pure, List.map_append, List.map_take, List.map_replicate, hf,
      List.length_map]
    rfl
  refine ⟨_, ?_, fun q hq => ?_, fit _ rfl, fit _ rfl⟩
  · rw [List.length_append, List.length_take, List.length_replicate]
    omega
  · rcases List.mem_append.1 hq with hq | hq
    · exact h q (List.mem_of_mem_take hq)
    · exact List.eq_of_mem_replicate hq ▸ unknown

theorem ofClass (d : NodeRef) {l : List (Ty × Ty)} (h : ∀ q ∈ l, r.Instance s q.1 q.2) :
    r.Instance s ((Ty.ofClass d (l.map (·.1))).value r) ((Ty.ofClass d (l.map (·.2))).value r) := by
  obtain ⟨k, hk, all, left, right⟩ := fitArgs d h
  unfold Ty.ofClass
  rw [Query.value_bind, Query.value_bind, left, right]
  exact cls hk all []

theorem ofAlias (hr : r.Stable) (d : NodeRef) {l : List (Ty × Ty)}
    (h : ∀ q ∈ l, r.Instance s q.1 q.2) :
    r.Instance s ((Ty.ofAlias d (l.map (·.1))).value r) ((Ty.ofAlias d (l.map (·.2))).value r) := by
  obtain ⟨k, hk, all, left, right⟩ := fitArgs d h
  unfold Ty.ofAlias
  rw [Query.value_bind, Query.value_bind, left, right]
  exact typeAlias hk all hr []

theorem ofModule (m : ModuleId) (name : Option String) :
    r.Instance s ((Ty.ofModule m name).value r) ((Ty.ofModule m name).value r) := by
  unfold Ty.ofModule
  rw [Query.value_bind, Query.value_pure]
  exact closed (.module _ name []) rfl

/-- Unions may be put in normal form before or after parameters are bound. -/
theorem join (hr : r.Stable) (composes : ∀ b, r.Known b → r.Composes b) (hs : r.Replaces s)
    (known : ∀ p x, s.get? p = some x → r.Known x) {e f x y : Ty} (he : r.Instance s e x)
    (hf : r.Instance s f y) (ke : r.Known e) (kf : r.Known f) (before : r.Certain e f)
    (after : r.Certain x y) : r.Instance s (r.join e f) (r.join x y) := by
  have bound : ∀ {t : Ty}, r.Full t → r.Known t → r.Known (t.bind s) := by
    intro t ht kt
    refine hr.known_rebind (b := .empty) (fun p hp => ?_) ht (t.bind_empty.symm ▸ kt)
    rw [Ty.bind]
    split
    · next x hx => exact x.addConstraints_nil.symm ▸ known p x hx
    · exact .var p []
  have full := full_join he.full hf.full
  have kxy := known_join (he.known ke) (hf.known kf)
  have kj := bound full (known_join ke kf)
  obtain ⟨ej, fj⟩ := below_join hr.lawful before
  obtain ⟨xj, yj⟩ := below_join hr.lawful after
  have bind := fun {t u : Ty} => hr.below_bind (t := t) (u := u) hs
  have trans : ∀ {a b c : Ty}, r.Known a → r.Known b → r.Known c → r.Below a b → r.Below b c →
      r.Below a c := fun ha hb hc hab hbc n => composes _ hb n _ _ ha hc hab hbc
  refine ⟨full, fun _ => kxy, ?_, ?_⟩
  · have left := trans (he.known ke) (bound he.full ke) kj he.same.1 (bind he.full full ej)
    have right := trans (hf.known kf) (bound hf.full kf) kj hf.same.1 (bind hf.full full fj)
    rw [← (r.join x y).bind_empty]
    refine join_bind_below (s := .empty) (fun _ _ hp => by cases hp) ?_ ?_ ?_ <;> rw [Ty.bind_empty]
    · exact he.known ke
    · exact left
    · exact right
  · exact join_bind_below hs (bound he.full ke)
      (trans (bound he.full ke) (he.known ke) kxy he.same.2 xj)
      (trans (bound hf.full kf) (hf.known kf) kxy hf.same.2 yj)

end Instance

end PklAnalysis.Reading
