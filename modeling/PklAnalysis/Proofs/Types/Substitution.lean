import PklAnalysis.Types.Bindings

/-!
# Substitution

What a type mentions: type parameters (`Ty.vars`), and classes and aliases with as many arguments as
they are given (`Ty.Formed`). One substitution after another is a single one, by the composed
bindings (`Bindings.compose_successive`), or, where all parameters of a type are bound, by any
bindings to what these stand for after the second one (`Ty.bind_bind`).
-/

namespace PklAnalysis

namespace Ty

mutual
/-- The type parameters in a type. -/
def vars : Ty → List NodeRef
  | .var p _ => [p]
  | .cls _ as _ => varsAll as
  | .typeAlias _ as _ => varsAll as
  | .union l r _ => l.vars ++ r.vars
  | _ => []
/-- The type parameters in an argument list. -/
def varsAll : List Ty → List NodeRef
  | [] => []
  | a :: as => a.vars ++ varsAll as
end

/-- Every class in the type satisfies `C` together with the number of its arguments, and every alias
`A`. -/
inductive Formed (C A : NodeRef → Nat → Prop) : Ty → Prop
  | unknown : Formed C A .unknown
  | nothing : Formed C A .nothing
  | var (p : NodeRef) (c : Constraints) : Formed C A (.var p c)
  | module (i : ModuleId) (m : Option String) (c : Constraints) : Formed C A (.module i m c)
  | literal (s : String) (c : Constraints) : Formed C A (.literal s c)
  | cls {d : NodeRef} {as : List Ty} (c : Constraints) :
      C d as.length → (∀ a ∈ as, Formed C A a) → Formed C A (.cls d as c)
  | typeAlias {d : NodeRef} {as : List Ty} (c : Constraints) :
      A d as.length → (∀ a ∈ as, Formed C A a) → Formed C A (.typeAlias d as c)
  | union {t u : Ty} (c : Constraints) : Formed C A t → Formed C A u → Formed C A (.union t u c)

variable {C A : NodeRef → Nat → Prop}

theorem Formed.mono {C' A' : NodeRef → Nat → Prop} (hC : ∀ d n, C d n → C' d n)
    (hA : ∀ d n, A d n → A' d n) {t : Ty} (h : Formed C A t) : Formed C' A' t := by
  induction h with
  | unknown => exact .unknown
  | nothing => exact .nothing
  | var p c => exact .var p c
  | module i m c => exact .module i m c
  | literal s c => exact .literal s c
  | cls c hd _ ih => exact .cls c (hC _ _ hd) ih
  | typeAlias c hd _ ih => exact .typeAlias c (hA _ _ hd) ih
  | union c _ _ ih₁ ih₂ => exact .union c ih₁ ih₂

theorem Formed.withConstraints {t : Ty} (h : Formed C A t) (c : Constraints) :
    Formed C A (t.withConstraints c) := by
  cases h with
  | unknown => exact .unknown
  | nothing => exact .nothing
  | var p _ => exact .var p c
  | module i m _ => exact .module i m c
  | literal s _ => exact .literal s c
  | cls _ hd ha => exact .cls c hd ha
  | typeAlias _ hd ha => exact .typeAlias c hd ha
  | union _ h₁ h₂ => exact .union c h₁ h₂

theorem Formed.addConstraints {t : Ty} (h : Formed C A t) (c : Constraints) :
    Formed C A (t.addConstraints c) := h.withConstraints _

theorem Formed.args {d : NodeRef} {as : List Ty} {c : Constraints} (h : Formed C A (.cls d as c)) :
    C d as.length ∧ ∀ a ∈ as, Formed C A a := by
  cases h with
  | cls _ hd ha => exact ⟨hd, ha⟩

theorem Formed.aliasArgs {d : NodeRef} {as : List Ty} {c : Constraints}
    (h : Formed C A (.typeAlias d as c)) : A d as.length ∧ ∀ a ∈ as, Formed C A a := by
  cases h with
  | typeAlias _ hd ha => exact ⟨hd, ha⟩

theorem length_bindAll (b : Bindings) (as : List Ty) : (bindAll b as).length = as.length := by
  rw [bindAll_eq_map, List.length_map]

theorem mem_bindAll {b : Bindings} {as : List Ty} {x : Ty} :
    x ∈ bindAll b as ↔ ∃ a ∈ as, a.bind b = x := by
  rw [bindAll_eq_map, List.mem_map]

/-- Types that are well-formed stay so if what is put into them is. -/
theorem Formed.bind {b : Bindings} (hb : ∀ p x, b.get? p = some x → Formed C A x) {t : Ty}
    (h : Formed C A t) : Formed C A (t.bind b) := by
  have all : ∀ {as : List Ty}, (∀ a ∈ as, Formed C A (a.bind b)) →
      ∀ x ∈ bindAll b as, Formed C A x := by
    intro as ih x hx
    obtain ⟨a, ha, rfl⟩ := mem_bindAll.1 hx
    exact ih a ha
  induction h with
  | unknown => exact .unknown
  | nothing => exact .nothing
  | var p c =>
    rw [Ty.bind]
    split
    · next x hx => exact (hb p x hx).addConstraints c
    · exact .var p c
  | module i m c => exact .module i m c
  | literal s c => exact .literal s c
  | cls c hd _ ih =>
    refine .cls c ?_ (all ih)
    rw [length_bindAll]
    exact hd
  | typeAlias c hd _ ih =>
    refine .typeAlias c ?_ (all ih)
    rw [length_bindAll]
    exact hd
  | union c _ _ ih₁ ih₂ => exact .union c ih₁ ih₂

/-! ## Substitution -/

theorem addConstraints_bind (t : Ty) (c : Constraints) (s : Bindings) :
    (t.addConstraints c).bind s = (t.bind s).addConstraints c := by
  cases t with
  | var p k =>
    show (Ty.var p (k ++ c)).bind s = _
    rw [Ty.bind, Ty.bind]
    cases s.get? p with
    | none => rfl
    | some x => exact (addConstraints_append x k c).symm
  | _ => rfl

variable {b b' : Bindings}

mutual
/-- What a substitution does to a type hangs on the type parameters in it only. -/
theorem bind_congr : ∀ {t : Ty}, (∀ p ∈ t.vars, b.get? p = b'.get? p) → t.bind b = t.bind b'
  | .unknown, _ => rfl
  | .nothing, _ => rfl
  | .var p c, h => by
    rw [Ty.bind, Ty.bind, h p (List.mem_singleton_self p)]
  | .cls d as c, h => by
    rw [Ty.bind, Ty.bind, bindAll_congr h]
  | .module i n c, _ => rfl
  | .typeAlias d as c, h => by
    rw [Ty.bind, Ty.bind, bindAll_congr h]
  | .literal s c, _ => rfl
  | .union l r c, h => by
    rw [Ty.bind, Ty.bind, bind_congr (fun p hp => h p (List.mem_append_left _ hp)),
      bind_congr (fun p hp => h p (List.mem_append_right _ hp))]
theorem bindAll_congr : ∀ {as : List Ty}, (∀ p ∈ varsAll as, b.get? p = b'.get? p) →
    Ty.bindAll b as = Ty.bindAll b' as
  | [], _ => rfl
  | a :: as, h => by
    rw [Ty.bindAll, Ty.bindAll, bind_congr (fun p hp => h p (List.mem_append_left _ hp)),
      bindAll_congr (fun p hp => h p (List.mem_append_right _ hp))]
end

end Ty

/-! ## Composition -/

namespace Bindings

theorem get?_cons (e : NodeRef × Ty) (es : List (NodeRef × Ty)) (p : NodeRef) :
    get? ⟨e :: es⟩ p = if e.1 = p then some e.2 else get? ⟨es⟩ p := by
  unfold get?
  by_cases h : e.1 = p
  · have here : (e.1 == p) = true := beq_iff_eq.2 h
    rw [if_pos h, List.find?_cons, here]
    rfl
  · have other : (e.1 == p) = false := beq_eq_false_iff_ne.2 h
    rw [if_neg h, List.find?_cons, other]

/-- What `inner` binds is substituted by `outer`; all else stands for what `outer` binds it to. -/
theorem get?_compose (inner outer : Bindings) (p : NodeRef) :
    (inner.compose outer).get? p =
      ((inner.get? p).map (Ty.bind outer)).or (outer.get? p) := by
  obtain ⟨es⟩ := inner
  induction es with
  | nil => rfl
  | cons e es ih =>
    show ((compose ⟨es⟩ outer).insert e.1 (e.2.bind outer)).get? p = _
    rw [get?_cons]
    by_cases h : e.1 = p
    · rw [if_pos h, ← h]
      exact get?_insert ..
    · rw [if_neg h, get?_insert_of_ne _ _ h]
      exact ih

end Bindings

namespace Ty

mutual
/-- A composed substitution is one after the other. Constraints come in the same order: a parameter
keeps its own behind those of what it stands for, whether the latter is substituted before or
after. -/
theorem bind_compose (b s : Bindings) : ∀ t : Ty, t.bind (b.compose s) = (t.bind b).bind s
  | .unknown => rfl
  | .nothing => rfl
  | .var p c => by
    rw [Ty.bind, Ty.bind, Bindings.get?_compose]
    cases b.get? p with
    | none => rw [Option.map_none, Option.none_or, Ty.bind]
    | some x => exact (addConstraints_bind x c s).symm
  | .cls d as c => congrArg (Ty.cls d · c) (bindAll_compose b s as)
  | .module i m c => rfl
  | .typeAlias d as c => congrArg (Ty.typeAlias d · c) (bindAll_compose b s as)
  | .literal s c => rfl
  | .union l r c => by
    rw [Ty.bind, Ty.bind, Ty.bind, bind_compose b s l, bind_compose b s r]
theorem bindAll_compose (b s : Bindings) :
    ∀ as : List Ty, bindAll (b.compose s) as = bindAll s (bindAll b as)
  | [] => rfl
  | a :: as => by
    rw [bindAll, bindAll, bindAll, bind_compose b s a, bindAll_compose b s as]
end

variable {b b' s : Bindings}

theorem get?_compose_of_image {p : NodeRef}
    (h : ∃ x, b.get? p = some x ∧ b'.get? p = some (x.bind s)) :
    (b.compose s).get? p = b'.get? p := by
  obtain ⟨x, hx, hx'⟩ := h
  rw [Bindings.get?_compose, hx, hx']
  rfl

/-- First `b`, then `s` is the same as what `b` binds, substituted by `s`, at once. -/
theorem bind_bind {t : Ty} (h : ∀ p ∈ t.vars, ∃ x, b.get? p = some x ∧ b'.get? p = some (x.bind s)) :
    (t.bind b).bind s = t.bind b' := by
  rw [← bind_compose]
  exact bind_congr (fun p hp => get?_compose_of_image (h p hp))

theorem bindAll_bindAll {as : List Ty}
    (h : ∀ p ∈ varsAll as, ∃ x, b.get? p = some x ∧ b'.get? p = some (x.bind s)) :
    bindAll s (bindAll b as) = bindAll b' as := by
  rw [← bindAll_compose]
  exact bindAll_congr (fun p hp => get?_compose_of_image (h p hp))

end Ty

namespace Bindings

theorem get?_compose_assoc (a b c : Bindings) (p : NodeRef) :
    ((a.compose b).compose c).get? p = (a.compose (b.compose c)).get? p := by
  rw [get?_compose, get?_compose, get?_compose a, get?_compose b]
  cases a.get? p with
  | none => rfl
  | some x =>
    show some ((x.bind b).bind c) = some (x.bind (b.compose c))
    rw [Ty.bind_compose]

/-- Composed bindings act as successive substitutions on every type, the order of constraints
included, and so it makes no difference for any parameter how three are composed. -/
theorem compose_successive :
    (∀ (inner outer : Bindings) (t : Ty), t.bind (inner.compose outer) = (t.bind inner).bind outer) ∧
      ∀ (a b c : Bindings) (p : NodeRef),
        ((a.compose b).compose c).get? p = (a.compose (b.compose c)).get? p :=
  ⟨Ty.bind_compose, get?_compose_assoc⟩

end Bindings

end PklAnalysis
