import PklAnalysis.Proofs.Types.Height

/-!
# Common subtypes

The search for a common subtype follows the alternatives of two types as a type below both of them
does. Between class types it looks at one class only, and there the type below both has arguments
that are below the arguments of both, except at `in` parameters, where its arguments are above them.
The search takes these as it takes the others. So if there is a type below both of two types, the
search finds a common subtype (`Regular.overlap_of_below`) as long as the arguments that it compares
at `in` parameters have types below both of them as well (`Shared`).
-/

namespace PklAnalysis

namespace Reading

variable (r : Reading)

/-- The answer of a query for a common subtype that may nest `n` questions. -/
def overlap (n : Nat) (t u : Ty) : Bool := (Ty.hasCommonSubtypeUpTo n t u).value r

/-- A type occurs in itself, in its alternatives, in what aliases stand for and in arguments. -/
inductive Occurs (x : Ty) : Ty → Prop
  | self : Occurs x x
  | part {t p : Ty} : p ∈ r.parts t → Occurs x p → Occurs x t
  | arg {d : NodeRef} {as : List Ty} {c : Constraints} {a : Ty} :
      a ∈ as → Occurs x a → Occurs x (.cls d as c)

/-- A class without `in` parameters. -/
def TakesNothing (d : NodeRef) : Prop := ∀ p ∈ r.params d, p.2 ≠ .contravariant

/-- No class with an `in` parameter is mentioned. -/
def InFree (t : Ty) : Prop := ∀ d as c, r.Occurs (.cls d as c) t → r.TakesNothing d

/-- A known type that `nothing` does not occur in. -/
structure Solid (t : Ty) : Prop where
  known : r.Known t
  occupied : ¬ r.Occurs .nothing t

variable {r}

theorem overlap_succ (n : Nat) (t u : Ty) :
    r.overlap (n + 1) t u = match t, u with
      | .unknown, _ => false
      | .nothing, _ => false
      | _, .unknown => true
      | _, .nothing => false
      | .union a b _, u => r.overlap n a u || r.overlap n b u
      | t, .union a b _ => r.overlap n t a || r.overlap n t b
      | .typeAlias d as c, u => r.overlap n (r (.expansion d as c)) u
      | t, .typeAlias d as c => r.overlap n t (r (.expansion d as c))
      | .var _ _, _ => true
      | _, .var _ _ => true
      | .literal s c, u => r.sub n (.literal s c) u
      | t, .literal s c => r.sub n (.literal s c) t
      | .cls d as c, .cls e bs f =>
        (Ty.classesOverlap (Ty.hasCommonSubtypeUpTo n) ⟨d, as, c⟩ ⟨e, bs, f⟩).value r
      | t, u => r.sub n t u || r.sub n u t := by
  have step := Ty.hasCommonSubtypeUpTo.eq_def (n + 1) t u
  unfold overlap
  rw [step]
  cases t <;> cases u <;> first | rfl | exact Query.value_or _ _

/-- Whether the search takes the left type apart first: unions come before aliases, and otherwise the
left side comes first. -/
def leftFirst : Ty → Ty → Bool
  | .union _ _ _, _ => true
  | _, .union _ _ _ => false
  | .typeAlias _ _ _, _ => true
  | _, _ => false

/-- The search takes compound types apart, one after the other. -/
theorem overlap_compound (n : Nat) {t u : Ty} (ht : t.Proper) (hu : u.Proper)
    (hc : t.isCompound = true ∨ u.isCompound = true) :
    r.overlap (n + 1) t u =
      if leftFirst t u then (r.parts t).any (r.overlap n · u) else (r.parts u).any (r.overlap n t) := by
  rw [overlap_succ]
  cases t with
  | unknown => exact absurd rfl ht.1
  | nothing => exact absurd rfl ht.2
  | union | typeAlias =>
    cases u with
    | unknown => exact absurd rfl hu.1
    | nothing => exact absurd rfl hu.2
    | _ => simp [leftFirst, parts]
  | _ =>
    cases u with
    | unknown => exact absurd rfl hu.1
    | nothing => exact absurd rfl hu.2
    | union | typeAlias => simp [leftFirst, parts]
    | _ => rcases hc with hc | hc <;> cases hc

@[simp] theorem overlap_nothing_left (n : Nat) (u : Ty) : r.overlap (n + 1) .nothing u = false := by
  rw [overlap_succ]

@[simp] theorem overlap_nothing_right (n : Nat) (t : Ty) : r.overlap (n + 1) t .nothing = false := by
  rw [overlap_succ]
  cases t <;> rfl

theorem isCompound_of_leftFirst {t u : Ty} (h : leftFirst t u = true) : t.isCompound = true := by
  cases t <;> cases u <;> first | rfl | cases h

theorem isCompound_of_not_leftFirst {t u : Ty} (hc : t.isCompound = true ∨ u.isCompound = true)
    (h : leftFirst t u = false) : u.isCompound = true := by
  cases u with
  | union | typeAlias => rfl
  | _ =>
    rcases hc with hc | hc
    · cases t with
      | union | typeAlias => cases h
      | _ => cases hc
    · cases hc

/-- Compound types overlap where parts do, on the left, or else on the right. -/
theorem overlap_of_parts {n : Nat} {t u : Ty} (ht : t.Proper) (hu : u.Proper)
    (left : t.isCompound = true → ∃ p ∈ r.parts t, r.overlap n p u = true)
    (right : u.isCompound = true → ∃ p ∈ r.parts u, r.overlap n t p = true)
    (simple : t.isSimple = true → u.isSimple = true → r.overlap (n + 1) t u = true) :
    r.overlap (n + 1) t u = true := by
  by_cases hc : t.isCompound = true ∨ u.isCompound = true
  · rw [overlap_compound n ht hu hc]
    cases first : leftFirst t u with
    | true => exact List.any_eq_true.2 (left (isCompound_of_leftFirst first))
    | false => exact List.any_eq_true.2 (right (isCompound_of_not_leftFirst hc first))
  · rw [not_or] at hc
    exact simple (ht.isSimple hc.1) (hu.isSimple hc.2)

/-! ## What is below both -/

theorem Occurs.trans {x y z : Ty} (h : r.Occurs x y) (h' : r.Occurs y z) : r.Occurs x z := by
  induction h' with
  | self => exact h
  | part hp _ ih => exact .part hp ih
  | arg ha _ ih => exact .arg ha ih

theorem Solid.mono {t u : Ty} (ht : r.Solid t) (hu : r.Occurs u t) (known : r.Known u) :
    r.Solid u := ⟨known, fun h => ht.occupied (h.trans hu)⟩

theorem Solid.arg {d : NodeRef} {as : List Ty} {c : Constraints} {a : Ty}
    (h : r.Solid (.cls d as c)) (ha : a ∈ as) : r.Solid a :=
  h.mono (.arg ha .self) (h.known.args.2 a ha)

/-- Some alternative is neither a union nor an alias, and it is below whatever the type is below. -/
theorem Solid.exists_simple (hr : r.Lawful) {w : Ty} (h : r.Solid w) :
    ∃ s, s.isSimple = true ∧ r.Solid s ∧ ∀ v, r.Below w v → r.Below s v := by
  obtain ⟨known, occupied⟩ := h
  induction known with
  | nothing => exact absurd .self occupied
  | var p c => exact ⟨_, rfl, ⟨.var p c, occupied⟩, fun _ h => h⟩
  | module i m c => exact ⟨_, rfl, ⟨.module i m c, occupied⟩, fun _ h => h⟩
  | literal s c => exact ⟨_, rfl, ⟨.literal s c, occupied⟩, fun _ h => h⟩
  | cls c hl ha => exact ⟨_, rfl, ⟨.cls c hl ha, occupied⟩, fun _ h => h⟩
  | typeAlias _ ih =>
    obtain ⟨s, hs, solid, below⟩ := ih (fun h => occupied (.part List.mem_cons_self h))
    exact ⟨s, hs, solid, fun v hv => below v (below_of_part hr List.mem_cons_self hv)⟩
  | union c _ _ ih _ =>
    obtain ⟨s, hs, solid, below⟩ := ih (fun h => occupied (.part List.mem_cons_self h))
    exact ⟨s, hs, solid, fun v hv => below v (below_of_part hr List.mem_cons_self hv)⟩

/-! ## Arguments -/

variable (r) in
/-- The arguments by which two class types are compared: those of the lower class are taken up to
the other class. -/
def Facing (c e : ClassTy) (xs ys : List Ty) : Prop :=
  (∃ p, (c.projectTo e.decl).value r = some p ∧ xs = p.args ∧ ys = e.args) ∨
    ∃ p, (e.projectTo c.decl).value r = some p ∧ xs = c.args ∧ ys = p.args

theorem Facing.symm {c e : ClassTy} {xs ys : List Ty} (h : r.Facing c e xs ys) :
    r.Facing e c ys xs := by
  rcases h with ⟨p, hp, rfl, rfl⟩ | ⟨p, hp, rfl, rfl⟩
  · exact .inr ⟨p, hp, rfl, rfl⟩
  · exact .inl ⟨p, hp, rfl, rfl⟩

/-- What holds of the arguments of all ancestors of a class holds of the arguments that face others. -/
theorem Facing.of_ancestors {Q : Ty → Prop} {c e : ClassTy} {xs ys : List Ty}
    (h : r.Facing c e xs ys)
    (hQ : ∀ f p, (c.projectTo f).value r = some p → ∀ a ∈ p.args, Q a) : ∀ x ∈ xs, Q x := by
  rcases h with ⟨p, hp, rfl, -⟩ | ⟨-, -, rfl, -⟩
  · exact hQ _ p hp
  · exact hQ _ c (projectTo_self c)

/-- Which arguments these are does not hang on which class comes first. -/
theorem Facing.unique (h : r.AcyclicClasses) {c e : ClassTy} {xs ys xs' ys' : List Ty}
    (hf : r.Facing c e xs ys) (hf' : r.Facing c e xs' ys') : xs' = xs ∧ ys' = ys := by
  rcases hf with ⟨p, hp, rfl, rfl⟩ | ⟨q, hq, rfl, rfl⟩ <;>
    rcases hf' with ⟨p', hp', rfl, rfl⟩ | ⟨q', hq', rfl, rfl⟩
  · cases hp.symm.trans hp'
    exact ⟨rfl, rfl⟩
  · obtain ⟨rfl, rfl⟩ := h.projectTo_antisymm hp hq'
    exact ⟨rfl, rfl⟩
  · obtain ⟨rfl, rfl⟩ := h.projectTo_antisymm hp' hq
    exact ⟨rfl, rfl⟩
  · cases hq.symm.trans hq'
    exact ⟨rfl, rfl⟩

/-- Where no class is above itself, class types overlap if the arguments do that face each other. -/
theorem value_classesOverlap (h : r.AcyclicClasses) {f : Ty → Ty → Query Bool} {c e : ClassTy} :
    (Ty.classesOverlap f c e).value r = true ↔
      ∃ xs ys, r.Facing c e xs ys ∧ (Ty.argsOverlap f xs ys).value r = true := by
  unfold Ty.classesOverlap
  rw [Query.value_bind]
  cases hp : (c.projectTo e.decl).value r with
  | some p =>
    have facing : r.Facing c e p.args e.args := .inl ⟨p, hp, rfl, rfl⟩
    refine ⟨fun hs => ⟨_, _, facing, hs⟩, fun ⟨xs, ys, hf, hs⟩ => ?_⟩
    obtain ⟨rfl, rfl⟩ := facing.unique h hf
    exact hs
  | none =>
    show Query.value r (e.projectTo c.decl >>= _) = true ↔ _
    rw [Query.value_bind]
    cases hq : (e.projectTo c.decl).value r with
    | some q =>
      have facing : r.Facing c e c.args q.args := .inr ⟨q, hq, rfl, rfl⟩
      refine ⟨fun hs => ⟨_, _, facing, hs⟩, fun ⟨xs, ys, hf, hs⟩ => ?_⟩
      obtain ⟨rfl, rfl⟩ := facing.unique h hf
      exact hs
    | none =>
      refine ⟨nofun, fun ⟨xs, ys, hf, _⟩ => ?_⟩
      rcases hf with ⟨p, hp', -⟩ | ⟨q, hq', -⟩
      · cases hp.symm.trans hp'
      · cases hq.symm.trans hq'

theorem value_argsOverlap {f : Ty → Ty → Query Bool} : ∀ {xs ys : List Ty},
    (Ty.argsOverlap f xs ys).value r = true ↔ ∀ z ∈ xs.zip ys,
      z.1.isUnknown = true ∨ z.2.isUnknown = true ∨ (f z.1 z.2).value r = true
  | [], _ => by simp [Ty.argsOverlap]
  | _ :: _, [] => by simp [Ty.argsOverlap]
  | x :: xs, y :: ys => by
    rw [Ty.argsOverlap, List.zip_cons_cons, List.forall_mem_cons, ← value_argsOverlap, ← or_assoc,
      ← Bool.or_eq_true]
    by_cases unknown : (x.isUnknown || y.isUnknown) = true
    · rw [if_pos unknown, Query.value_bind]
      exact ⟨fun h => ⟨.inl unknown, h⟩, fun h => h.2⟩
    · rw [if_neg unknown, Query.value_bind]
      cases met : (f x y).value r with
      | true => exact ⟨fun h => ⟨.inr rfl, h⟩, fun h => h.2⟩
      | false => exact ⟨nofun, fun h => nomatch h.1.resolve_left unknown⟩

theorem argsOverlap_cons {f : Ty → Ty → Query Bool} {x y : Ty} {xs ys : List Ty}
    (heads : (f x y).value r = true) (rest : (Ty.argsOverlap f xs ys).value r = true) :
    (Ty.argsOverlap f (x :: xs) (y :: ys)).value r = true :=
  value_argsOverlap.2 (List.forall_mem_cons.2 ⟨.inr (.inr heads), value_argsOverlap.1 rest⟩)

theorem argsOverlap_of_conform {f : Ty → Ty → Query Bool} {ps : List (NodeRef × Variance)}
    {zs xs ys : List Ty} (hz : zs.length = ps.length) (hx : xs.length = ps.length)
    (hzx : Conform r.Below ps zs xs) (hzy : Conform r.Below ps zs ys)
    (opposed : ∀ (i : Nat) q x y, ps[i]? = some (q, .contravariant) → xs[i]? = some x →
      ys[i]? = some y → (f x y).value r = true)
    (h : ∀ z ∈ zs, ∀ x y, (x, y) ∈ xs.zip ys → r.Below z x → r.Below z y →
      (f x y).value r = true) : (Ty.argsOverlap f xs ys).value r = true := by
  induction ps generalizing zs xs ys with
  | nil =>
    rw [List.eq_nil_of_length_eq_zero hx]
    rfl
  | cons p ps ih =>
    cases xs with
    | nil => cases hx
    | cons x xs =>
      cases zs with
      | nil => cases hz
      | cons z zs =>
        cases ys with
        | nil => rfl
        | cons y ys =>
          have rest : (Ty.argsOverlap f xs ys).value r = true := by
            refine ih (Nat.succ.inj hz) (Nat.succ.inj hx) hzx.2 hzy.2 (fun i => ?_) ?_
            · exact opposed (i + 1)
            · exact fun a ha b c hbc => h a (List.mem_cons_of_mem z ha) b c (List.mem_cons_of_mem _ hbc)
          have both : r.Below z x → r.Below z y → (f x y).value r = true :=
            h z List.mem_cons_self x y List.mem_cons_self
          have heads : (f x y).value r = true := by
            obtain ⟨q, variance⟩ := p
            cases variance with
            | covariant => exact both hzx.1 hzy.1
            | invariant => exact both hzx.1.1 hzy.1.1
            | contravariant => exact opposed 0 q x y rfl rfl rfl
          exact argsOverlap_cons heads rest

/-! ### Arguments of `in` parameters -/

variable (r) in
/-- At an `in` parameter of the higher one of their classes, two class types have these
arguments. -/
def Opposed (c e : ClassTy) (x y : Ty) : Prop :=
  ∃ (i : Nat) (q : NodeRef),
    (∃ p, (c.projectTo e.decl).value r = some p ∧
      (r.params e.decl)[i]? = some (q, .contravariant) ∧
      p.args[i]? = some x ∧ e.args[i]? = some y) ∨
    ∃ p, (e.projectTo c.decl).value r = some p ∧
      (r.params c.decl)[i]? = some (q, .contravariant) ∧
      c.args[i]? = some x ∧ p.args[i]? = some y

theorem Opposed.facing {c e : ClassTy} {x y : Ty} (h : r.Opposed c e x y) :
    ∃ xs ys, r.Facing c e xs ys ∧ (x, y) ∈ xs.zip ys := by
  have paired : ∀ {xs ys : List Ty} {i : Nat}, xs[i]? = some x → ys[i]? = some y →
      (x, y) ∈ xs.zip ys := fun hx hy =>
    List.mem_of_getElem? (List.getElem?_zip_eq_some.2 ⟨hx, hy⟩)
  obtain ⟨i, q, ⟨p, hp, -, hx, hy⟩ | ⟨p, hp, -, hx, hy⟩⟩ := h
  · exact ⟨_, _, .inl ⟨p, hp, rfl, rfl⟩, paired hx hy⟩
  · exact ⟨_, _, .inr ⟨p, hp, rfl, rfl⟩, paired hx hy⟩

variable (r) in
/-- The search for a common subtype of the first two types may come to the last two: to parts of
them, and from class types to the arguments that face each other. -/
inductive Compares : Ty → Ty → Ty → Ty → Prop
  | self {t u : Ty} : Compares t u t u
  | left {t u p x y : Ty} : p ∈ r.parts t → Compares p u x y → Compares t u x y
  | right {t u p x y : Ty} : p ∈ r.parts u → Compares t p x y → Compares t u x y
  | arg {d e : NodeRef} {as bs : List Ty} {c k : Constraints} {xs ys : List Ty} {a b x y : Ty} :
      r.Facing ⟨d, as, c⟩ ⟨e, bs, k⟩ xs ys → (a, b) ∈ xs.zip ys → Compares a b x y →
      Compares (.cls d as c) (.cls e bs k) x y

variable (r) in
/-- Wherever the search comes to arguments of an `in` parameter, there is a type below both. -/
def Shared (t u : Ty) : Prop :=
  ∀ d as c e bs k x y, r.Compares t u (.cls d as c) (.cls e bs k) →
    r.Opposed ⟨d, as, c⟩ ⟨e, bs, k⟩ x y → ∃ v, r.Solid v ∧ r.Below v x ∧ r.Below v y

namespace Shared

theorem left {t u p : Ty} (h : r.Shared t u) (hp : p ∈ r.parts t) : r.Shared p u :=
  fun d as c e bs k x y hc => h d as c e bs k x y (.left hp hc)

theorem right {t u p : Ty} (h : r.Shared t u) (hp : p ∈ r.parts u) : r.Shared t p :=
  fun d as c e bs k x y hc => h d as c e bs k x y (.right hp hc)

theorem arg {d e : NodeRef} {as bs : List Ty} {c k : Constraints} {xs ys : List Ty} {a b : Ty}
    (h : r.Shared (.cls d as c) (.cls e bs k)) (hf : r.Facing ⟨d, as, c⟩ ⟨e, bs, k⟩ xs ys)
    (hab : (a, b) ∈ xs.zip ys) : r.Shared a b :=
  fun d' as' c' e' bs' k' x y hc => h d' as' c' e' bs' k' x y (.arg hf hab hc)

/-- Class types share what they are to share if they do at their own `in` parameters and their
arguments do. -/
theorem of_args {d e : NodeRef} {as bs : List Ty} {c k : Constraints}
    (own : ∀ x y, r.Opposed ⟨d, as, c⟩ ⟨e, bs, k⟩ x y →
      ∃ v, r.Solid v ∧ r.Below v x ∧ r.Below v y)
    (args : ∀ xs ys, r.Facing ⟨d, as, c⟩ ⟨e, bs, k⟩ xs ys → ∀ a b, (a, b) ∈ xs.zip ys →
      r.Shared a b) : r.Shared (.cls d as c) (.cls e bs k) := by
  intro d' as' c' e' bs' k' x y hc
  cases hc with
  | self => exact own x y
  | left hp => cases hp
  | right hp => cases hp
  | arg hf hab hc => exact args _ _ hf _ _ hab d' as' c' e' bs' k' x y hc

end Shared

namespace Regular

variable (hr : r.Regular)
include hr

/-- A class type `t` above an ancestor `p` has an ancestor above each ancestor of `p`. -/
theorem project_above {k : Nat} {p q : ClassTy} (hk : r.Ascends k p q) {xs : List Ty}
    {c : Constraints} (hp : p.args.length = (r.params p.decl).length)
    (hx : xs.length = (r.params p.decl).length)
    (hc : Conform r.Below (r.params p.decl) p.args xs) :
    ∃ v, (ClassTy.projectTo ⟨p.decl, xs, c⟩ q.decl).value r = some v ∧ (∀ x ∈ v.args, x ∈ xs) ∧
      v.args.length = (r.params q.decl).length ∧ q.args.length = (r.params q.decl).length ∧
      Conform r.Below (r.params q.decl) q.args v.args := by
  obtain ⟨v, hv, hd, hl, hq, hc, hs, -⟩ :=
    hr.conform_ascends hk (p := ⟨p.decl, xs, c⟩) rfl hx hp hc.flip
  exact ⟨v, hr.rooted.projectTo_iff.2 ⟨k, hv, hd⟩, hs, hl, hq, hc.flip⟩

theorem length_of_ascends {n : Nat} {p q : ClassTy} (h : r.Ascends n p q)
    (hp : p.args.length = (r.params p.decl).length) : q.args.length = (r.params q.decl).length := by
  obtain ⟨_, _, _, _, hq, _⟩ := hr.conform_ascends h rfl hp hp (conform_self (fun _ => rfl) _ _)
  exact hq

/-- Arguments that face each other are arguments of the two class types. -/
theorem mem_of_facing {c e : ClassTy} {as bs : List Ty} {x y : Ty}
    (hc : c.args.length = (r.params c.decl).length) (he : e.args.length = (r.params e.decl).length)
    (hf : r.Facing c e as bs) (hxy : (x, y) ∈ as.zip bs) : x ∈ c.args ∧ y ∈ e.args := by
  obtain ⟨hx, hy⟩ := List.of_mem_zip hxy
  exact ⟨hf.of_ancestors (fun _ _ hp => hr.args_of_projectTo hc hp) x hx,
    hf.symm.of_ancestors (fun _ _ hp => hr.args_of_projectTo he hp) y hy⟩

/-- The superclasses of a class without `in` parameters have none either. -/
theorem takesNothing_ascends {n : Nat} {p q : ClassTy} (h : r.Ascends n p q)
    (hp : r.TakesNothing p.decl) : r.TakesNothing q.decl := by
  induction h with
  | here => exact hp
  | up e _ ih =>
    refine ih (fun x hx => ?_)
    obtain ⟨d, qs, k, hs, rfl⟩ := hr.rooted.exists_supertype e
    obtain ⟨hl, ha⟩ := hr.aligned hs
    obtain ⟨i, hi, rfl⟩ := List.getElem_of_mem hx
    have hi' : i < qs.length := hl ▸ hi
    obtain ⟨y, hy, hv, -⟩ := ha (qs[i], (r.params d)[i])
      (List.mem_iff_getElem.2 ⟨i, by rw [List.length_zip]; omega, List.getElem_zip⟩)
    exact hv ▸ hp y hy

/-- The search comes to nothing but what occurs in the two types. -/
theorem occurs_of_compares {t u x y : Ty} (h : r.Compares t u x y) (ht : r.Known t)
    (hu : r.Known u) : r.Occurs x t ∧ r.Occurs y u := by
  induction h with
  | self => exact ⟨.self, .self⟩
  | left hp _ ih => exact (ih (ht.part hp) hu).imp_left (.part hp)
  | right hp _ ih => exact (ih ht (hu.part hp)).imp_right (.part hp)
  | arg hf hab _ ih =>
    obtain ⟨ha, hb⟩ := hr.mem_of_facing ht.args.1 hu.args.1 hf hab
    exact (ih (ht.args.2 _ ha) (hu.args.2 _ hb)).imp (.arg ha) (.arg hb)

/-- A type that mentions no `in` parameter has nothing to share. -/
theorem shared_of_inFree {t u : Ty} (ht : r.Known t) (hu : r.Known u)
    (free : r.InFree t ∨ r.InFree u) : r.Shared t u := by
  intro d as c e bs k x y hc ho
  obtain ⟨hd, he⟩ := hr.occurs_of_compares hc ht hu
  have either : r.TakesNothing d ∨ r.TakesNothing e := free.imp (· d as c hd) (· e bs k he)
  have above : ∀ {f g : ClassTy} {p : ClassTy}, (f.projectTo g.decl).value r = some p →
      r.TakesNothing f.decl → r.TakesNothing g.decl := by
    intro f g p hp hf
    obtain ⟨n, hn, hg⟩ := hr.rooted.projectTo_iff.1 hp
    exact hg ▸ hr.takesNothing_ascends hn hf
  obtain ⟨i, q, ⟨p, hp, hi, -⟩ | ⟨p, hp, hi, -⟩⟩ := ho
  · exact absurd rfl (either.elim (above hp) id _ (List.mem_of_getElem? hi))
  · exact absurd rfl (either.elim id (above hp) _ (List.mem_of_getElem? hi))

/-- Two class types above a third one overlap if arguments do that have a common type below them,
and if those of `in` parameters do. -/
theorem classesOverlap_of_below {f : Ty → Ty → Query Bool} {d e g : NodeRef} {xs ys zs : List Ty}
    {c k l : Constraints} (hxs : xs.length = (r.params d).length)
    (hys : ys.length = (r.params e).length) (hzs : zs.length = (r.params g).length)
    (hd : r.Below (.cls g zs l) (.cls d xs c)) (he : r.Below (.cls g zs l) (.cls e ys k))
    (opposed : ∀ x y, r.Opposed ⟨d, xs, c⟩ ⟨e, ys, k⟩ x y → (f x y).value r = true)
    (h : ∀ z ∈ zs, ∀ {as bs : List Ty}, r.Facing ⟨d, xs, c⟩ ⟨e, ys, k⟩ as bs →
      ∀ x y, (x, y) ∈ as.zip bs → r.Below z x → r.Below z y → (f x y).value r = true) :
    (Ty.classesOverlap f ⟨d, xs, c⟩ ⟨e, ys, k⟩).value r = true := by
  obtain ⟨p, hp, hpx⟩ := below_cls_cls.1 hd
  obtain ⟨q, hq, hqy⟩ := below_cls_cls.1 he
  obtain ⟨m, hm, rfl⟩ := hr.rooted.projectTo_iff.1 hp
  obtain ⟨n, hn, rfl⟩ := hr.rooted.projectTo_iff.1 hq
  have argsP := hr.args_of_projectTo hzs hp
  have argsQ := hr.args_of_projectTo hzs hq
  have lengthP := hr.length_of_ascends hm hzs
  have lengthQ := hr.length_of_ascends hn hzs
  refine (value_classesOverlap hr.rooted.acyclicClasses).2 ?_
  rcases hm.compare hn with ⟨i, hi⟩ | ⟨i, hi⟩
  · obtain ⟨v, hv, -, hvl, -, hqv⟩ := hr.project_above (c := c) hi lengthP hxs hpx
    have facing : r.Facing ⟨p.decl, xs, c⟩ ⟨q.decl, ys, k⟩ v.args ys := .inl ⟨v, hv, rfl, rfl⟩
    refine ⟨v.args, ys, facing, argsOverlap_of_conform lengthQ hvl hqv hqy ?_ ?_⟩
    · exact fun i q x y hi hx hy => opposed x y ⟨i, q, .inl ⟨v, hv, hi, hx, hy⟩⟩
    · exact fun z hz => h z (argsQ z hz) facing
  · obtain ⟨v, hv, -, hvl, -, hpv⟩ := hr.project_above (c := k) hi lengthQ hys hqy
    have facing : r.Facing ⟨p.decl, xs, c⟩ ⟨q.decl, ys, k⟩ xs v.args := .inr ⟨v, hv, rfl, rfl⟩
    refine ⟨xs, v.args, facing, argsOverlap_of_conform lengthP hxs hpx hpv ?_ ?_⟩
    · exact fun i q x y hi hx hy => opposed x y ⟨i, q, .inr ⟨v, hv, hi, hx, hy⟩⟩
    · exact fun z hz => h z (argsP z hz) facing

/-- A simple type below a class type stands for a class type itself. -/
theorem exists_cls_below (hany : r.params std.any = []) {s : Ty} (hs : s.isSimple = true)
    (solid : r.Solid s) : ∃ g zs l, r.Solid (.cls g zs l) ∧
      ∀ e ys k, r.Below s (.cls e ys k) → r.Below (.cls g zs l) (.cls e ys k) := by
  have plain : ∀ {d : NodeRef}, r.params d = [] → r.Solid (Base.simple d) := by
    intro d hd
    refine ⟨.cls [] (by rw [hd]; rfl) (fun a ha => absurd ha List.not_mem_nil), fun h => ?_⟩
    cases h with
    | part hp => cases hp
    | arg ha => cases ha
  have step : ∀ {t u : Ty}, (∀ n, r.sub (n + 1) s t = r.sub n u t) → r.Below s t → r.Below u t :=
    fun e h n => e n ▸ h (n + 1)
  cases s with
  | cls g zs l => exact ⟨g, zs, l, solid, fun _ _ _ h => h⟩
  | literal s c =>
    exact ⟨_, _, _, plain hr.stringParams, fun e ys k => step (fun n => r.sub_literal_cls n ..)⟩
  | module i m c =>
    exact ⟨_, _, _, plain hr.moduleParams, fun e ys k => step (fun n => r.sub_module_cls n ..)⟩
  | var p c =>
    refine ⟨_, _, _, plain hany, fun e ys k h => ?_⟩
    have he : e = std.any := by simpa using h 1
    subst he
    refine below_cls_cls.2 ⟨_, projectTo_mk .., ?_⟩
    rw [hany]
    trivial
  | _ => cases hs

omit hr in
/-- What lies at or above a simple type that is below a text is above the text. -/
theorem sub_of_below_literal (lawful : r.Lawful) {s u : Ty} {a : String} {c : Constraints}
    (hs : s.isSimple = true) (h : r.Below s (.literal a c)) (hu : r.Below s u) (n : Nat) :
    r.sub n (.literal a c) u = true := by
  have h := h 1
  cases s with
  | literal b k =>
    obtain rfl : b = a := by simpa using h
    exact sub_left_alike lawful (t := .literal b k) rfl (hu n)
  | cls | var | module => simp at h
  | _ => cases hs

omit hr in
/-- Below a module there are modules only. -/
theorem exists_module_below {s : Ty} {j : ModuleId} {l : Option String} {c : Constraints}
    (hs : s.isSimple = true) (h : r.Below s (.module j l c)) :
    ∃ i m k, s = .module i m k ∧ (moduleExtends i j).value r = true := by
  have h := h 2
  cases s with
  | module i m k => exact ⟨i, m, k, rfl, by simpa using h⟩
  | literal b k =>
    rw [sub_literal_of_ne _ _ _ _ rfl (fun _ _ => Ty.noConfusion)] at h
    simp [Base.stringTy, Base.simple] at h
  | cls | var => simp at h
  | _ => cases hs

omit hr in
/-- A class type above a module is above every module. -/
theorem sub_cls_of_below_module {s : Ty} {j : ModuleId} {l : Option String} {c k : Constraints}
    {e : NodeRef} {ys : List Ty} (hs : s.isSimple = true) (h : r.Below s (.module j l c))
    (hu : r.Below s (.cls e ys k)) (n : Nat) : r.sub n (.module j l c) (.cls e ys k) = true := by
  obtain ⟨i, m, f, rfl, -⟩ := exists_module_below hs h
  cases n with
  | zero => rfl
  | succ n =>
    have hn := hu (n + 1)
    rwa [sub_module_cls] at hn ⊢

/-- Of two modules at or above a third one, one is at or above the other. -/
theorem sub_modules {s : Ty} {i j : ModuleId} {l m : Option String} {c k : Constraints}
    (hs : s.isSimple = true) (hi : r.Below s (.module i l c)) (hj : r.Below s (.module j m k))
    (n : Nat) : (r.sub n (.module i l c) (.module j m k) ||
      r.sub n (.module j m k) (.module i l c)) = true := by
  cases n with
  | zero => rfl
  | succ n =>
    obtain ⟨g, _, _, rfl, hgi⟩ := exists_module_below hs hi
    obtain ⟨g', _, _, e, hgj⟩ := exists_module_below hs hj
    cases e
    obtain ⟨a, ha⟩ := (moduleExtends_iff hr.modules).1 hgi
    obtain ⟨b, hb⟩ := (moduleExtends_iff hr.modules).1 hgj
    rw [sub_module_module, sub_module_module, Bool.or_eq_true, moduleExtends_iff hr.modules,
      moduleExtends_iff hr.modules]
    exact ha.compare hb

/-- The search finds a common subtype of two types that have one and share what they are to share
at `in` parameters. -/
theorem overlap_of_below (hany : r.params std.any = []) (n : Nat) {w t u : Ty} (hw : r.Solid w)
    (ht : r.Known t) (hu : r.Known u) (shared : r.Shared t u) (hwt : r.Below w t)
    (hwu : r.Below w u) : r.overlap n t u = true := by
  induction n generalizing w t u with
  | zero => rfl
  | succ n ih =>
    obtain ⟨s, hs, solid, below⟩ := hw.exists_simple hr.lawful
    have hst := below t hwt
    have hsu := below u hwu
    have proper : ∀ {v}, r.Known v → r.Below s v → v.Proper := fun hv h =>
      proper_right (Ty.proper_of_isSimple hs) hv h
    refine overlap_of_parts (proper ht hst) (proper hu hsu) (fun hc => ?_) (fun hc => ?_) ?_
    · obtain ⟨p, hp, h⟩ := (below_compound_right hr.lawful hs hc).1 hst
      exact ⟨p, hp, ih solid (ht.part hp) hu (shared.left hp) h hsu⟩
    · obtain ⟨p, hp, h⟩ := (below_compound_right hr.lawful hs hc).1 hsu
      exact ⟨p, hp, ih solid ht (hu.part hp) (shared.right hp) hst h⟩
    intro hts hus
    rw [overlap_succ]
    cases t with
    | var => cases u <;> first | rfl | cases hus
    | literal a c =>
      have h := sub_of_below_literal hr.lawful hs hst hsu n
      cases u <;> first | rfl | exact h | cases hus
    | module i l c =>
      cases u with
      | var => rfl
      | literal => exact sub_of_below_literal hr.lawful hs hsu hst n
      | module => exact hr.sub_modules hs hst hsu n
      | cls => exact Bool.or_eq_true_iff.2 (.inl (sub_cls_of_below_module hs hst hsu n))
      | _ => cases hus
    | cls d xs c =>
      cases u with
      | cls e ys k =>
        obtain ⟨g, zs, l, solid, standsFor⟩ := hr.exists_cls_below hany hs solid
        obtain ⟨hxs, knownX⟩ := ht.args
        obtain ⟨hys, knownY⟩ := hu.args
        -- arguments that are compared share what they are to share, as the class types do
        have found : ∀ {v x y : Ty} {as bs : List Ty}, r.Facing ⟨d, xs, c⟩ ⟨e, ys, k⟩ as bs →
            (x, y) ∈ as.zip bs → r.Solid v → r.Below v x → r.Below v y →
            r.overlap n x y = true := by
          intro v x y as bs hf hxy hv hvx hvy
          obtain ⟨hx, hy⟩ := hr.mem_of_facing hxs hys hf hxy
          exact ih hv (knownX x hx) (knownY y hy) (shared.arg hf hxy) hvx hvy
        refine hr.classesOverlap_of_below hxs hys solid.known.args.1 (standsFor _ _ _ hst)
          (standsFor _ _ _ hsu) (fun x y opposed => ?_)
          (fun z hz _ _ hf x y hxy => found hf hxy (solid.arg hz))
        obtain ⟨v, hv, hvx, hvy⟩ := shared _ _ _ _ _ _ x y .self opposed
        obtain ⟨as, bs, hf, hxy⟩ := opposed.facing
        exact found hf hxy hv hvx hvy
      | var => rfl
      | literal => exact sub_of_below_literal hr.lawful hs hsu hst n
      | module => exact Bool.or_eq_true_iff.2 (.inr (sub_cls_of_below_module hs hsu hst n))
      | _ => cases hus
    | _ => cases hts

end Regular

end Reading

end PklAnalysis
