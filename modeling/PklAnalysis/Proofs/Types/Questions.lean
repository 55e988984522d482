import PklAnalysis.Proofs.Session.Source
import PklAnalysis.Types.Union

/-!
# The questions of a subtype query

A subtype query asks for the supertypes of classes, for expansions of the aliases in its types, and
otherwise about the source only (`asks_of_closed`). Whatever the types are, these are the only kinds
of questions that come up, and so it is where unions are built and where `null` is taken away from a
type (`Query.asks_either`, `Query.asks_nonNullUpTo`).
-/

namespace PklAnalysis

namespace Reading

variable (r : Reading) (P : Question → Prop)

/-- Types whose aliases are expanded by questions with the property `P`, closed under everything
that a subtype query gets to from a type. -/
structure Closed (Q : Ty → Prop) : Prop where
  expansion : ∀ {d as c}, Q (.typeAlias d as c) → P (.expansion d as c) ∧ Q (r (.expansion d as c))
  union : ∀ {t u c}, Q (.union t u c) → Q t ∧ Q u
  arg : ∀ {d as c}, Q (.cls d as c) → ∀ a ∈ as, Q a
  ancestor : ∀ {d e as c p}, Q (.cls d as c) → (ClassTy.projectTo ⟨d, as, c⟩ e).value r = some p →
    ∀ a ∈ p.args, Q a
  string : Q std.stringTy
  module : Q std.moduleTy

variable {r P}

theorem asks_and {x y : Query Bool} (hx : x.Asks r P) (hy : y.Asks r P) :
    (do if ← x then y else pure false : Query Bool).Asks r P := by
  refine (Query.asks_bind ..).2 ⟨hx, ?_⟩
  split
  · exact hy
  · trivial

theorem asks_or {x y : Query Bool} (hx : x.Asks r P) (hy : y.Asks r P) :
    (do if ← x then pure true else y : Query Bool).Asks r P := by
  refine (Query.asks_bind ..).2 ⟨hx, ?_⟩
  split
  · trivial
  · exact hy

theorem asks_argsConform {below : Ty → Ty → Query Bool} {ps : List (NodeRef × Variance)}
    {xs ys : List Ty}
    (h : ∀ x ∈ xs, ∀ y ∈ ys, (below x y).Asks r P ∧ (below y x).Asks r P) :
    (Ty.argsConform below ps xs ys).Asks r P := by
  induction ps generalizing xs ys with
  | nil => simp [Ty.argsConform]
  | cons p ps ih =>
    cases xs with
    | nil => simp [Ty.argsConform]
    | cons x xs =>
      cases ys with
      | nil => simp [Ty.argsConform]
      | cons y ys =>
        obtain ⟨h₁, h₂⟩ := h x List.mem_cons_self y List.mem_cons_self
        have rest : (Ty.argsConform below ps xs ys).Asks r P := ih (fun a ha b hb =>
          h a (List.mem_cons_of_mem x ha) b (List.mem_cons_of_mem y hb))
        obtain ⟨q, v⟩ := p
        cases v with
        | covariant => exact asks_and h₁ rest
        | contravariant => exact asks_and h₂ rest
        | invariant =>
          rw [Ty.argsConform.eq_def]
          refine (Query.asks_bind ..).2 ⟨h₁, ?_⟩
          split
          · exact asks_and h₂ rest
          · trivial

theorem asks_argsOverlap {overlap : Ty → Ty → Query Bool} {xs ys : List Ty}
    (h : ∀ x ∈ xs, ∀ y ∈ ys, (overlap x y).Asks r P) : (Ty.argsOverlap overlap xs ys).Asks r P := by
  induction xs generalizing ys with
  | nil => trivial
  | cons x xs ih =>
    cases ys with
    | nil => trivial
    | cons y ys =>
      have rest : (Ty.argsOverlap overlap xs ys).Asks r P := ih (fun a ha b hb =>
        h a (List.mem_cons_of_mem x ha) b (List.mem_cons_of_mem y hb))
      unfold Ty.argsOverlap
      split
      · exact rest
      · exact asks_and (h x List.mem_cons_self y List.mem_cons_self) rest

/-- A subtype query asks about the ancestors of classes, the aliases in its types, and the
source. -/
theorem Closed.asks_isSubtypeUpTo {Q : Ty → Prop} (hQ : r.Closed P Q) (hP : ∀ q, q.IsSource → P q)
    (hproj : ∀ c e, (ClassTy.projectTo c e).Asks r P) {n : Nat} {t u : Ty} (ht : Q t) (hu : Q u) :
    (Ty.isSubtypeUpTo n t u).Asks r P := by
  induction n generalizing t u with
  | zero => trivial
  | succ n ih =>
    rw [Ty.isSubtypeUpTo.eq_def]
    show Query.Asks r P (if t = u then _ else _)
    split
    · trivial
    -- a compound type on the right, for every shape on the left that gets there
    have onRight : ∀ {a b : Ty} {c : Constraints}, u = .union a b c →
        Query.Asks r P (do
          if ← Ty.isSubtypeUpTo n t a then pure true else Ty.isSubtypeUpTo n t b) := by
      rintro a b c rfl
      obtain ⟨h₁, h₂⟩ := hQ.union hu
      exact asks_or (ih ht h₁) (ih ht h₂)
    have onAlias : ∀ {d : NodeRef} {as : List Ty} {c : Constraints}, u = .typeAlias d as c →
        Query.Asks r P (do Ty.isSubtypeUpTo n t (← (Ty.typeAlias d as c).unaliased)) := by
      rintro d as c rfl
      obtain ⟨hd, h⟩ := hQ.expansion hu
      exact ⟨hd, ih ht h⟩
    cases t with
    | unknown => cases u <;> trivial
    | nothing => cases u <;> trivial
    | union a b c =>
      obtain ⟨h₁, h₂⟩ := hQ.union ht
      cases u <;> first | trivial | exact asks_and (ih h₁ hu) (ih h₂ hu)
    | typeAlias d as c =>
      obtain ⟨hd, h⟩ := hQ.expansion ht
      cases u <;> first | trivial | exact ⟨hd, ih h hu⟩
    | var p c => cases u <;> first | trivial | exact onRight rfl | exact onAlias rfl
    | literal s c =>
      cases u <;> first | trivial | exact onRight rfl | exact onAlias rfl | exact ih hQ.string hu
    | module i l c =>
      cases u with
      | module j => exact Query.asks_mono hP (Query.asks_moduleExtendsFrom r j _ _ _)
      | cls => exact ih hQ.module hu
      | union => exact onRight rfl
      | typeAlias => exact onAlias rfl
      | _ => trivial
    | cls d as c =>
      cases u with
      | cls e bs k =>
        refine (Query.asks_bind ..).2 ⟨hproj _ e, ?_⟩
        cases hp : (ClassTy.projectTo ⟨d, as, c⟩ e).value r with
        | none => trivial
        | some p =>
          refine (Query.asks_bind ..).2 ⟨Query.asks_mono hP (Query.asks_typeParams r e), ?_⟩
          refine asks_argsConform (fun x hx y hy => ?_)
          have hi := hQ.ancestor ht hp x hx
          have hj := hQ.arg hu y hy
          exact ⟨ih hi hj, ih hj hi⟩
      | union => exact onRight rfl
      | typeAlias => exact onAlias rfl
      | _ => trivial

/-- So does a query for a common subtype. -/
theorem Closed.asks_hasCommonSubtypeUpTo {Q : Ty → Prop} (hQ : r.Closed P Q)
    (hP : ∀ q, q.IsSource → P q) (hproj : ∀ c e, (ClassTy.projectTo c e).Asks r P) {n : Nat}
    {t u : Ty} (ht : Q t) (hu : Q u) : (Ty.hasCommonSubtypeUpTo n t u).Asks r P := by
  induction n generalizing t u with
  | zero => trivial
  | succ n ih =>
    have sub : ∀ {a b : Ty}, Q a → Q b → (Ty.isSubtypeUpTo n a b).Asks r P :=
      fun ha hb => hQ.asks_isSubtypeUpTo hP hproj ha hb
    have onUnion : ∀ {a b v : Ty} {c : Constraints}, Q (.union a b c) → Q v →
        ((Ty.hasCommonSubtypeUpTo n a v).Asks r P ∧ (Ty.hasCommonSubtypeUpTo n b v).Asks r P) ∧
        (Ty.hasCommonSubtypeUpTo n v a).Asks r P ∧ (Ty.hasCommonSubtypeUpTo n v b).Asks r P := by
      intro a b v c h hv
      obtain ⟨ha, hb⟩ := hQ.union h
      exact ⟨⟨ih ha hv, ih hb hv⟩, ih hv ha, ih hv hb⟩
    have overlapping : ∀ {d e : NodeRef} {as bs : List Ty} {c k : Constraints},
        Q (.cls d as c) → Q (.cls e bs k) →
        (Ty.classesOverlap (Ty.hasCommonSubtypeUpTo n) ⟨d, as, c⟩ ⟨e, bs, k⟩).Asks r P := by
      intro d e as bs c k ha hb
      refine (Query.asks_bind ..).2 ⟨hproj _ e, ?_⟩
      cases hp : (ClassTy.projectTo ⟨d, as, c⟩ e).value r with
      | some p =>
        exact asks_argsOverlap (fun x hx y hy => ih (hQ.ancestor ha hp x hx) (hQ.arg hb y hy))
      | none =>
        refine (Query.asks_bind ..).2 ⟨hproj _ d, ?_⟩
        cases hq : (ClassTy.projectTo ⟨e, bs, k⟩ d).value r with
        | some q =>
          exact asks_argsOverlap (fun x hx y hy => ih (hQ.arg ha x hx) (hQ.ancestor hb hq y hy))
        | none => trivial
    cases t <;> cases u <;>
      first
        | trivial
        | exact asks_or (onUnion ht hu).1.1 (onUnion ht hu).1.2
        | exact asks_or (onUnion hu ht).2.1 (onUnion hu ht).2.2
        | exact ⟨(hQ.expansion ht).1, ih (hQ.expansion ht).2 hu⟩
        | exact ⟨(hQ.expansion hu).1, ih ht (hQ.expansion hu).2⟩
        | exact sub ht hu
        | exact sub hu ht
        | exact overlapping ht hu
        | exact asks_or (sub ht hu) (sub hu ht)

namespace Rooted

variable (hr : r.Rooted) (hP : ∀ q, q.IsSource → P q) (hs : ∀ d, P (.supertype d))
include hr hP hs

theorem asks_superclass (c : ClassTy) : c.superclass.Asks r P := by
  refine (Query.asks_bind ..).2 ⟨⟨hs c.decl, trivial⟩, ?_⟩
  rw [Query.value_supertype]
  cases hd : r (.supertype c.decl) with
  | none => trivial
  | some declared =>
    obtain ⟨e, qs, k, rfl⟩ := hr.isClass hd
    have hf := Query.asks_mono hP (Query.asks_forDeclaration r c.decl c.args)
    exact (Query.asks_bind ..).2 ⟨hf, trivial⟩

theorem asks_projectFrom (target : NodeRef) (n : Nat) (seen : List NodeRef) (c : ClassTy) :
    (ClassTy.projectFrom target n seen c).Asks r P := by
  induction n generalizing seen c with
  | zero => trivial
  | succ n ih =>
    unfold ClassTy.projectFrom
    split
    · trivial
    split
    · trivial
    refine (Query.asks_bind ..).2 ⟨hr.asks_superclass hP hs c, ?_⟩
    cases c.superclass.value r with
    | none => trivial
    | some p => exact ih ..

/-- A subtype query asks about classes, the aliases in its types, and the source. -/
theorem asks_of_closed {Q : Ty → Prop} (hQ : r.Closed P Q) {n : Nat} {t u : Ty} (ht : Q t)
    (hu : Q u) : (Ty.isSubtypeUpTo n t u).Asks r P :=
  hQ.asks_isSubtypeUpTo hP (fun c e => hr.asks_projectFrom hP hs e _ _ c) ht hu

end Rooted

end Reading

/-! ## Kinds of questions -/

/-- Questions about the source, the supertypes of classes, and the expansions of aliases. -/
def Question.OfScope : Question → Prop
  | .tree _ | .reference _ _ | .supertype _ | .expansion _ _ _ => True
  | _ => False

theorem Question.IsSource.ofScope {q : Question} (h : q.IsSource) : q.OfScope := by
  cases q <;> trivial

namespace Query

variable {r : Reading}

theorem asks_unaliased (t : Ty) : t.unaliased.Asks r Question.OfScope := by
  cases t with
  | typeAlias => exact ⟨trivial, trivial⟩
  | _ => trivial

theorem asks_superclass (c : ClassTy) : c.superclass.Asks r Question.OfScope := by
  refine (asks_bind ..).2 ⟨⟨trivial, trivial⟩, ?_⟩
  cases (supertype c.decl).value r with
  | none => trivial
  | some declared =>
    refine (asks_bind ..).2 ⟨?_, (asks_bind ..).2 ⟨asks_unaliased _, trivial⟩⟩
    exact asks_mono (fun _ h => h.ofScope) (asks_forDeclaration r c.decl c.args)

theorem asks_projectTo (c : ClassTy) (target : NodeRef) :
    (c.projectTo target).Asks r Question.OfScope := by
  suffices ∀ n seen, (ClassTy.projectFrom target n seen c).Asks r Question.OfScope from this _ _
  intro n
  induction n generalizing c with
  | zero => exact fun _ => trivial
  | succ n ih =>
    intro seen
    unfold ClassTy.projectFrom
    split
    · trivial
    split
    · trivial
    refine (asks_bind ..).2 ⟨asks_superclass c, ?_⟩
    cases c.superclass.value r with
    | none => trivial
    | some p => exact ih ..

theorem closed_ofScope : r.Closed Question.OfScope (fun _ => True) where
  expansion _ := ⟨trivial, trivial⟩
  union _ := ⟨trivial, trivial⟩
  arg _ _ _ := trivial
  ancestor _ _ _ _ := trivial
  string := trivial
  module := trivial

theorem asks_isSubtypeUpTo (n : Nat) (t u : Ty) :
    (Ty.isSubtypeUpTo n t u).Asks r Question.OfScope :=
  closed_ofScope.asks_isSubtypeUpTo (fun _ => Question.IsSource.ofScope) asks_projectTo trivial trivial

theorem asks_hasCommonSubtypeUpTo (n : Nat) (t u : Ty) :
    (Ty.hasCommonSubtypeUpTo n t u).Asks r Question.OfScope :=
  closed_ofScope.asks_hasCommonSubtypeUpTo (fun _ => Question.IsSource.ofScope) asks_projectTo
    trivial trivial

theorem asks_collapsesInto (t u : Ty) : (t.collapsesInto u).Asks r Question.OfScope := by
  cases t with
  | literal s c =>
    unfold Ty.collapsesInto
    dsimp only
    split
    · trivial
    · exact asks_isSubtypeUpTo _ _ _
  | _ => exact asks_isSubtypeUpTo _ _ _

theorem asks_either (t u : Ty) : (t.either u).Asks r Question.OfScope := by
  unfold Ty.either
  split
  · trivial
  split
  · trivial
  split
  · trivial
  split
  · trivial
  split
  · trivial
  refine (asks_bind ..).2 ⟨asks_collapsesInto t u, ?_⟩
  split
  · trivial
  refine (asks_bind ..).2 ⟨asks_collapsesInto u t, ?_⟩
  split <;> trivial

theorem asks_mentionsNullUpTo (n : Nat) (t : Ty) :
    (t.mentionsNullUpTo n).Asks r Question.OfScope := by
  have step : ∀ {expand : Ty → Query Bool} {t : Ty},
      (∀ u, (expand u).Asks r Question.OfScope) →
        (t.mentionsNullWith expand).Asks r Question.OfScope := by
    intro expand t he
    induction t using Ty.mentionsNullWith.induct with
    | case1 d as c => trivial
    | case2 l r c ihl ihr => exact Reading.asks_or ihl ihr
    | case3 d as c => exact he _
    | case4 t hc hu ha => rw [Ty.mentionsNullWith] <;> trivial
  induction n generalizing t with
  | zero => exact step (fun _ => trivial)
  | succ n ih => exact step (fun u => (asks_bind ..).2 ⟨asks_unaliased u, ih _⟩)

theorem asks_nonNullUpTo (n : Nat) (t : Ty) : (t.nonNullUpTo n).Asks r Question.OfScope := by
  have step : ∀ {expand : Ty → Query Ty} {t : Ty},
      (∀ u, (expand u).Asks r Question.OfScope) →
        (t.nonNullWith expand).Asks r Question.OfScope := by
    intro expand t he
    induction t using Ty.nonNullWith.induct with
    | case1 d as c => trivial
    | case2 l r c ihl ihr =>
      exact (asks_bind ..).2 ⟨ihl, (asks_bind ..).2 ⟨ihr,
        (asks_bind ..).2 ⟨asks_either _ _, trivial⟩⟩⟩
    | case3 d as c => exact he _
    | case4 t hc hu ha => rw [Ty.nonNullWith] <;> trivial
  induction n generalizing t with
  | zero => exact step (fun _ => trivial)
  | succ n ih =>
    refine step (fun u => (asks_bind ..).2 ⟨asks_mentionsNullUpTo _ u, ?_⟩)
    split
    · exact (asks_bind ..).2 ⟨asks_unaliased u, ih _⟩
    · trivial

end Query

end PklAnalysis
