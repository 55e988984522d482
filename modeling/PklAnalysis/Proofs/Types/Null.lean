import PklAnalysis.Proofs.Standard.Clauses
import PklAnalysis.Proofs.Types.Height
import PklAnalysis.Proofs.Types.Union

/-!
# Null

`r.nonNull k t` is what is left of a type without `null`, with at most `k` aliases expanded one
inside the other. Along the alternatives of a type it takes `null` away, builds the unions anew and
leaves the rest as it is (`nonNull_induct`), so it is below the type (`nonNull_sub`). Whatever is
above `null` and above the rest is above the type (`sub_of_nonNull_sub`), and where `null` is not
below the type nothing was taken away (`sub_nonNull`). The last two put the two sides of a union
under a third type that the union is below, so subtyping has to be transitive among the types that
are built on the way.
-/

namespace PklAnalysis

namespace Reading

variable (r : Reading)

/-- What is left without `null`, with at most `k` aliases expanded one inside the other. -/
def nonNull (k : Nat) (t : Ty) : Ty := (t.nonNullUpTo k).value r

/-- A type itself and what it is made of, however far its aliases are expanded. -/
inductive Inside : Ty → Ty → Prop
  | refl (t : Ty) : Inside t t
  | part {t p u : Ty} : p ∈ r.parts t → Inside p u → Inside t u

/-- Types whose aliases can be expanded to the end, where neither `unknown` nor `nothing` is among
the alternatives. -/
inductive Definite : Ty → Prop
  | simple {t : Ty} : t.isSimple = true → Definite t
  | compound {t : Ty} : t.isCompound = true → (∀ p ∈ r.parts t, Definite p) → Definite t

/-- The types that come up when `null` is added to a type and taken away from it: `null`, what the
type is made of with and without `null`, and the outcome. -/
inductive Arises (t : Ty) : Ty → Prop
  | null : Arises t std.nullTy
  | inside {u : Ty} : r.Inside t u → Arises t u
  | nonNull {u : Ty} (k : Nat) : r.Inside t u → Arises t (r.nonNull k u)
  | nullable : Arises t (r.join std.nullTy (r.nonNull Limits.aliasNesting t))

variable {r}

/-! ## Alternatives -/

theorem Definite.proper {t : Ty} (h : r.Definite t) : t.Proper := by
  cases h with
  | simple h => exact Ty.proper_of_isSimple h
  | compound h _ => exact Ty.proper_of_isCompound h

theorem Definite.part {t p : Ty} (h : r.Definite t) (hp : p ∈ r.parts t) : r.Definite p := by
  cases h with
  | simple h => exact absurd (isCompound_of_mem_parts hp) (Ty.not_isCompound_of_isSimple h)
  | compound _ h => exact h p hp

theorem Definite.union {t u : Ty} (ht : r.Definite t) (hu : r.Definite u) (c : Constraints) :
    r.Definite (.union t u c) := by
  refine .compound rfl (fun p hp => ?_)
  rcases List.mem_cons.1 hp with rfl | hp
  · exact ht
  · exact List.mem_singleton.1 hp ▸ hu

theorem Inside.fits {t u : Ty} (h : r.Inside t u) : r.Fits u t := by
  induction h with
  | refl t => exact .alike rfl
  | part hp _ ih => exact .part hp ih

/-- A compound type is made of something. -/
theorem exists_mem_parts {t : Ty} (h : t.isCompound = true) : ∃ p, p ∈ r.parts t := by
  cases t with
  | union a => exact ⟨a, List.mem_cons_self⟩
  | typeAlias => exact ⟨_, List.mem_cons_self⟩
  | _ => cases h

/-- Some alternative is neither a union nor an alias. -/
theorem Definite.exists_simple {t : Ty} (h : r.Definite t) :
    ∃ s, s.isSimple = true ∧ r.Inside t s := by
  induction h with
  | simple h => exact ⟨_, h, .refl _⟩
  | @compound t ht _ ih =>
    obtain ⟨p, hp⟩ := exists_mem_parts ht
    obtain ⟨s, hs, hi⟩ := ih p hp
    exact ⟨s, hs, .part hp hi⟩

/-! ## Taking null away -/

theorem nonNull_null (k : Nat) (as : List Ty) (c : Constraints) :
    r.nonNull k (.cls std.null as c) = .nothing := by
  cases k <;> (unfold nonNull Ty.nonNullUpTo Ty.nonNullWith; rw [if_pos rfl]; rfl)

theorem nonNull_union (k : Nat) (t u : Ty) (c : Constraints) :
    r.nonNull k (.union t u c) = (r.join (r.nonNull k t) (r.nonNull k u)).addConstraints c := by
  cases k <;> (unfold nonNull Ty.nonNullUpTo; rw [Ty.nonNullWith]; simp only [Query.value_bind]; rfl)

/-- An alias keeps its name or becomes what is left of its expansion. -/
theorem nonNull_typeAlias (k : Nat) (d : NodeRef) (as : List Ty) (c : Constraints) :
    r.nonNull k (.typeAlias d as c) = .typeAlias d as c ∨
      ∃ j, k = j + 1 ∧ r.nonNull k (.typeAlias d as c) = r.nonNull j (r (.expansion d as c)) := by
  cases k with
  | zero => exact .inl rfl
  | succ j =>
    have value : r.nonNull (j + 1) (.typeAlias d as c) =
        if (Ty.typeAlias d as c).mentionsNull.value r then r.nonNull j (r (.expansion d as c))
        else .typeAlias d as c := by
      show (Ty.nonNullWith _ _).value r = _
      rw [Ty.nonNullWith, Query.value_bind]
      split <;> rfl
    rw [value]
    split
    · exact .inr ⟨j, rfl, rfl⟩
    · exact .inl rfl

/-- What holds where `null` is taken away and where nothing happens, and is passed on by unions and
by aliases, holds of every type. -/
theorem nonNull_induct {P : Nat → Ty → Prop}
    (null : ∀ k as c, P k (.cls std.null as c))
    (kept : ∀ k t, r.nonNull k t = t → P k t)
    (union : ∀ k t u c, (∀ p ∈ r.parts (.union t u c), P k p) → P k (.union t u c))
    (expanded : ∀ k d as c,
      r.nonNull (k + 1) (.typeAlias d as c) = r.nonNull k (r (.expansion d as c)) →
      P k (r (.expansion d as c)) → P (k + 1) (.typeAlias d as c)) (k : Nat) (t : Ty) : P k t := by
  have step : ∀ k, (∀ d as c, P k (.typeAlias d as c)) → ∀ t, P k t := by
    intro k onAlias t
    induction t using Ty.nonNullWith.induct with
    | case1 d as c =>
      by_cases hd : d = std.null
      · exact hd ▸ null k as c
      · refine kept k _ ?_
        cases k <;> (unfold nonNull Ty.nonNullUpTo Ty.nonNullWith; rw [if_neg hd]; rfl)
    | case2 t u c iht ihu =>
      refine union k t u c (fun p hp => ?_)
      rcases List.mem_cons.1 hp with rfl | hp
      · exact iht
      · exact List.mem_singleton.1 hp ▸ ihu
    | case3 d as c => exact onAlias d as c
    | case4 t hc hu ha =>
      refine kept k t ?_
      cases k <;> (unfold nonNull Ty.nonNullUpTo; rw [Ty.nonNullWith] <;> first | rfl | assumption)
  induction k generalizing t with
  | zero => exact step 0 (fun d as c => kept 0 _ rfl) t
  | succ k ih =>
    refine step (k + 1) (fun d as c => ?_) t
    rcases r.nonNull_typeAlias (k + 1) d as c with h | ⟨j, hj, h⟩
    · exact kept _ _ h
    · cases hj
      exact expanded k d as c h (ih _)

/-! ## What is left is below the type -/

theorem nonNull_sub (hr : r.Lawful) (k : Nat) (t : Ty) : r.Sub (r.nonNull k t) t := by
  have of_part : ∀ {k t u p}, p ∈ r.parts u → r.Sub (r.nonNull k t) p → r.Sub (r.nonNull k t) u :=
    fun hp h => sub_of_fits hr (.part hp (.alike rfl)) h
  induction k, t using r.nonNull_induct with
  | null k as c =>
    rw [nonNull_null]
    exact r.sub_nothing_left _ _
  | kept k t h =>
    rw [h]
    exact r.sub_self _ t
  | union k t u c ih =>
    have left : t ∈ r.parts (.union t u c) := List.mem_cons_self
    have right : u ∈ r.parts (.union t u c) := List.mem_cons_of_mem t (List.mem_singleton_self u)
    rw [nonNull_union]
    exact sub_left_alike hr (Ty.withoutConstraints_addConstraints _ c).symm
      (join_sub (of_part left (ih t left)) (of_part right (ih u right)))
  | expanded k d as c h ih =>
    rw [h] at *
    exact of_part List.mem_cons_self ih

/-- What is left of a side is below what is left of the union. -/
theorem nonNull_sub_union (hr : r.Lawful) (k : Nat) {t u p : Ty} (c : Constraints)
    (hp : p ∈ r.parts (.union t u c)) : r.Sub (r.nonNull k p) (r.nonNull k (.union t u c)) := by
  have fits : r.Fits (r.join (r.nonNull k t) (r.nonNull k u)) (r.nonNull k (.union t u c)) :=
    .alike (by rw [nonNull_union]; exact (Ty.withoutConstraints_addConstraints _ c).symm)
  refine sub_of_fits hr fits ?_
  rcases List.mem_cons.1 hp with rfl | hp
  · exact sub_join_left hr _ _
  · cases List.mem_singleton.1 hp
    exact sub_join_right hr _ _

/-! ## Nothing else is lost -/

/-- Subtyping is transitive among the types with the property `Q`. -/
def Transitive (r : Reading) (Q : Ty → Prop) : Prop :=
  ∀ {a b c : Ty}, Q a → Q b → Q c → r.Sub a b → r.Sub b c → r.Sub a c

/-- Everything that a type is made of has the property `Q`, with and without `null`. -/
structure Throughout (r : Reading) (Q : Ty → Prop) (t : Ty) : Prop where
  inside : ∀ {u}, r.Inside t u → Q u
  nonNull : ∀ {u} k, r.Inside t u → Q (r.nonNull k u)

namespace Throughout

variable {Q : Ty → Prop} {t : Ty}

theorem part {p : Ty} (h : r.Throughout Q t) (hp : p ∈ r.parts t) : r.Throughout Q p :=
  ⟨fun hu => h.inside (.part hp hu), fun k hu => h.nonNull k (.part hp hu)⟩

theorem self (h : r.Throughout Q t) : Q t := h.inside (.refl t)

theorem left (h : r.Throughout Q t) (k : Nat) : Q (r.nonNull k t) := h.nonNull k (.refl t)

end Throughout

theorem ne_nothing_of_sub {t u : Ty} (ht : t.Proper) (h : r.Sub t u) : u ≠ .nothing := by
  rintro rfl
  exact nomatch (r.sub_nothing_right Limits.subtypeDepth ht).symm.trans h

variable {Q : Ty → Prop} (hr : r.Lawful) (hn : r.params std.null = []) (trans : r.Transitive Q)
include hr hn trans

/-- Whatever is above `null` and above the rest of a type is above the type. -/
theorem sub_of_nonNull_sub {w : Ty} (hw : Q w) (null : r.Sub std.nullTy w) (k : Nat) {t : Ty}
    (ht : r.Throughout Q t) (h : r.Sub (r.nonNull k t) w) : r.Sub t w := by
  have hw' : w ≠ .nothing := ne_nothing_of_sub (Ty.proper_of_isSimple (t := std.nullTy) rfl) null
  induction k, t using r.nonNull_induct with
  | null k as c => exact sub_cls_left c (.inr hn) null
  | kept k t e => exact e ▸ h
  | union k t u c ih =>
    refine sub_succ_of_parts rfl hw' (fun p hp => sub_of_succ ?_)
    have hp' := ht.part hp
    exact ih p hp hp' (trans (hp'.left k) (ht.left k) hw (nonNull_sub_union hr k c hp) h)
  | expanded k d as c e ih =>
    refine sub_succ_of_parts rfl hw' (fun p hp => sub_of_succ ?_)
    cases List.mem_singleton.1 hp
    exact ih (ht.part hp) (e ▸ h)

/-! ## Where null is not below the type -/

omit hr trans in
/-- `null` is below its class, whatever that carries. -/
theorem null_sub_null (as : List Ty) (c : Constraints) : r.Sub std.nullTy (.cls std.null as c) :=
  sub_cls_left [] (.inr hn) (r.sub_self _ _)

/-- If `null` is not below a type, nothing was taken away. -/
theorem sub_nonNull (k : Nat) {t : Ty} (definite : r.Definite t) (ht : r.Throughout Q t)
    (no : ¬ r.Sub std.nullTy t) : r.Sub t (r.nonNull k t) := by
  have of_part : ∀ {t p}, p ∈ r.parts t → ¬ r.Sub std.nullTy t → ¬ r.Sub std.nullTy p :=
    fun hp no h => no (sub_of_fits hr (.part hp (.alike rfl)) h)
  induction k, t using r.nonNull_induct with
  | null k as c => exact absurd (null_sub_null hn as c) no
  | kept k t e =>
    rw [e]
    exact r.sub_self _ t
  | union k t u c ih =>
    have each : ∀ p ∈ r.parts (.union t u c), r.Sub p (r.nonNull k (.union t u c)) := fun p hp =>
      have hp' := ht.part hp
      trans hp'.self (hp'.left k) (ht.left k) (ih p hp (definite.part hp) hp' (of_part hp no))
        (nonNull_sub_union hr k c hp)
    have left : t ∈ r.parts (.union t u c) := List.mem_cons_self
    exact sub_succ_of_parts rfl (ne_nothing_of_sub (definite.part left).proper (each t left))
      (fun p hp => sub_of_succ (each p hp))
  | expanded k d as c e ih =>
    have hp : r (.expansion d as c) ∈ r.parts (.typeAlias d as c) := List.mem_cons_self
    have expansion := ih (definite.part hp) (ht.part hp) (of_part hp no)
    rw [e]
    refine sub_succ_of_parts rfl (ne_nothing_of_sub (definite.part hp).proper expansion)
      (fun p hp => sub_of_succ ?_)
    exact List.mem_singleton.1 hp ▸ expansion

omit hr hn trans in
theorem join_nothing_left (t : Ty) : r.join .nothing t = t := by
  cases t <;> rfl

omit hr hn trans in
/-- A simple type below `null` is the class of `null`. -/
theorem eq_null_of_sub (only : ∀ c p, (ClassTy.projectTo c std.null).value r = some p →
    c.decl = std.null) {s : Ty} (hs : s.isSimple = true) (h : r.Sub s std.nullTy) :
    ∃ as c, s = .cls std.null as c := by
  have of_class : ∀ {n : Nat} {d : NodeRef} {as : List Ty} {c : Constraints},
      r.sub (n + 1) (.cls d as c) std.nullTy = true → d = std.null := by
    intro n d as c h
    obtain ⟨p, hp, -⟩ := sub_cls_cls.1 h
    exact only _ p hp
  obtain ⟨hany, hstring, -, hmodule⟩ := Standard.null_apart
  cases s with
  | cls d as c => exact ⟨as, c, by rw [of_class h]⟩
  | literal t c =>
    rw [Sub, Base.nullTy, Base.simple, sub_literal_cls] at h
    exact absurd (of_class h).symm hstring
  | module i m c =>
    rw [Sub, Base.nullTy, Base.simple, sub_module_cls] at h
    exact absurd (of_class h).symm hmodule
  | var p c =>
    rw [Sub, Base.nullTy, Base.simple, sub_var_cls] at h
    exact absurd (beq_iff_eq.1 h) hany
  | _ => cases hs

/-- Adding `null` to a type that it is not below and taking it away again is taking it away. -/
theorem nonNull_join_null (only : ∀ c p, (ClassTy.projectTo c std.null).value r = some p →
    c.decl = std.null) (hN : Q std.nullTy) (k : Nat) {t : Ty} (definite : r.Definite t)
    (ht : r.Throughout Q t) (no : ¬ r.Sub std.nullTy t) :
    r.nonNull k (r.join std.nullTy t) = r.nonNull k t := by
  rcases r.join_cases std.nullTy t with ⟨-, h⟩ | ⟨-, h⟩ | ⟨-, -, e⟩
  · exact absurd h no
  · -- an alternative of the type would be `null`
    obtain ⟨s, hs, hi⟩ := definite.exists_simple
    have below : r.Sub s t := sub_of_fits hr hi.fits (r.sub_self _ s)
    obtain ⟨as, c, rfl⟩ := eq_null_of_sub only hs (trans (ht.inside hi) ht.self hN below h)
    exact absurd (sub_of_fits hr hi.fits (null_sub_null hn as c)) no
  · rw [e, nonNull_union, Base.nullTy, Base.simple, nonNull_null, join_nothing_left,
      Ty.addConstraints_nil]

/-! ## Heights -/

omit hr hn trans

variable {P : Question → Prop}

theorem Height.inside {n : Nat} {t u : Ty} (h : r.Height P n t) (hu : r.Inside t u) :
    r.Height P n u := by
  induction hu generalizing n with
  | refl => exact h
  | part hp _ ih =>
    obtain ⟨m, rfl, hm⟩ := h.part hp
    exact (ih hm).succ

theorem Height.join {n : Nat} {t u : Ty} (ht : r.Height P n t) (hu : r.Height P n u) :
    r.Height P (n + 1) (r.join t u) := by
  rcases r.join_cases t u with ⟨e, -⟩ | ⟨e, -⟩ | ⟨-, -, e⟩
  · rw [e]
    exact hu.succ
  · rw [e]
    exact ht.succ
  · rw [e]
    exact .union [] ht hu

/-- A type without `null` is no higher. -/
theorem Height.nonNull (hr : r.Lawful) (hP : ∀ d as c, P (.expansion d as c)) (k : Nat) {n : Nat}
    {t : Ty} (h : r.Height P n t) : r.Height P n (r.nonNull k t) := by
  induction k, t using r.nonNull_induct generalizing n with
  | null k as c =>
    rw [nonNull_null]
    exact .nothing n
  | kept k t e => exact e.symm ▸ h
  | union k t u c ih =>
    cases h with
    | union _ ht hu =>
      rw [nonNull_union]
      refine .addConstraints hr hP (.join (ih t List.mem_cons_self ht) ?_) c
      exact ih u (List.mem_cons_of_mem t (List.mem_singleton_self u)) hu
  | expanded k d as c e ih =>
    cases h with
    | typeAlias _ h => exact e ▸ (ih h).succ

theorem Height.arises (hr : r.Lawful) (hP : ∀ d as c, P (.expansion d as c))
    (hn : r.params std.null = []) {n : Nat} {t u : Ty} (h : r.Height P n t) (hu : r.Arises t u) :
    r.Height P (n + 1) u := by
  cases hu with
  | null => exact .plain (n + 1) [] hn
  | inside hi => exact (h.inside hi).succ
  | nonNull k hi => exact ((h.inside hi).nonNull hr hP k).succ
  | nullable => exact .join (.plain n [] hn) (h.nonNull hr hP _)

end Reading

end PklAnalysis
