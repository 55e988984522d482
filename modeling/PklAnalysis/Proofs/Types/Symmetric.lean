import Mathlib.Data.List.Zip
import PklAnalysis.Proofs.Types.Chosen

/-!
# Common subtypes both ways

The search for a common subtype takes the left union apart before the right one, asks for one-sided
subtyping beside literals and modules, and projects the left class before the right one. On types
without `unknown` it still gives the same answer both ways round (`AcyclicClasses.overlap_comm`): it
ends at the same pairs of alternatives, after as many questions, and looks at the same arguments.

The exception is `nothing` as an alternative of a union or behind an alias. The search stops at
`nothing` with a no, and one that takes the other type apart first may run out of questions before it
gets there, which counts as a yes. A yes for which the limit is not the reason is still a yes the
other way round (`AcyclicClasses.overlaps_symm`).
-/

namespace PklAnalysis

namespace Reading

variable (r : Reading)

/-- Types in which `unknown` does not occur, not even behind aliases or in the arguments that classes
hand on to their superclasses, and whose unions and aliases have the property `C`. -/
inductive Determinate (C : Ty → Prop) : Ty → Prop
  | nothing : Determinate C .nothing
  | var (p : NodeRef) (c : Constraints) : Determinate C (.var p c)
  | module (i : ModuleId) (m : Option String) (c : Constraints) : Determinate C (.module i m c)
  | literal (s : String) (c : Constraints) : Determinate C (.literal s c)
  | cls {d : NodeRef} {as : List Ty} (c : Constraints) :
      (∀ k e p, (ClassTy.projectTo ⟨d, as, k⟩ e).value r = some p → ∀ a ∈ p.args, Determinate C a) →
      Determinate C (.cls d as c)
  | compound {t : Ty} : t.isCompound = true → C t → (∀ p ∈ r.parts t, Determinate C p) →
      Determinate C t

/-- The search finds a common subtype, however many questions it may ask. -/
def Overlaps (t u : Ty) : Prop := ∀ n, r.overlap n t u = true

variable {r}

/-! ## Determinate types -/

namespace Determinate

variable {C : Ty → Prop} {t : Ty}

theorem part {p : Ty} (h : r.Determinate C t) (hp : p ∈ r.parts t) : r.Determinate C p := by
  cases h with
  | compound _ _ h => exact h p hp
  | _ => cases hp

theorem chosen {i : Nat} {s : Ty} (h : r.Determinate C t) (hs : r.Chosen i t s) :
    r.Determinate C s := by
  induction hs with
  | self => exact h
  | part hp _ ih => exact ih (h.part hp)

/-- The arguments that face those of another class are determinate too. -/
theorem facing {c e : ClassTy} {xs ys : List Ty} (h : r.Determinate C c.toTy)
    (hf : r.Facing c e xs ys) : ∀ x ∈ xs, r.Determinate C x := by
  refine hf.of_ancestors (fun f p hp => ?_)
  cases h with
  | cls _ ha => exact ha c.constraints f p hp
  | compound hc => cases hc

theorem proper_or (h : r.Determinate C t) : t.Proper ∨ t = .nothing := by
  cases h with
  | nothing => exact .inr rfl
  | compound hc => exact .inl (Ty.proper_of_isCompound hc)
  | _ => exact .inl (Ty.proper_of_isSimple rfl)

theorem definite_or (h : r.Determinate r.Definite t) : r.Definite t ∨ t = .nothing := by
  cases h with
  | nothing => exact .inr rfl
  | compound _ hd => exact .inl hd
  | _ => exact .inl (.simple rfl)

theorem mono {D : Ty → Prop} (h : r.Determinate C t) (hCD : ∀ u, C u → D u) :
    r.Determinate D t := by
  induction h with
  | nothing => exact .nothing
  | var p c => exact .var p c
  | module i m c => exact .module i m c
  | literal s c => exact .literal s c
  | cls c _ ih => exact .cls c ih
  | compound hc hC _ ih => exact .compound hc (hCD _ hC) ih

/-- What the parts of a type pass on to it holds of every determinate type. -/
theorem parts_induct {P : Ty → Prop}
    (step : ∀ t, r.Determinate C t → (∀ p ∈ r.parts t, P p) → P t) (h : r.Determinate C t) : P t := by
  induction h with
  | compound hc hC hp ih => exact step _ (.compound hc hC hp) ih
  | cls c ha => exact step _ (.cls c ha) (fun _ hp => nomatch hp)
  | nothing => exact step _ .nothing (fun _ hp => nomatch hp)
  | var p c => exact step _ (.var p c) (fun _ hp => nomatch hp)
  | module i m c => exact step _ (.module i m c) (fun _ hp => nomatch hp)
  | literal s c => exact step _ (.literal s c) (fun _ hp => nomatch hp)

end Determinate

theorem Filled.determinate {t : Ty} (h : r.Filled t) : r.Determinate r.Definite t := by
  induction h with
  | var p c => exact .var p c
  | module i m c => exact .module i m c
  | literal s c => exact .literal s c
  | cls c _ _ ih => exact .cls c (fun k e p => ih e k p)
  | typeAlias h ih =>
    exact .compound rfl (Filled.typeAlias h).definite (fun p hp => List.mem_singleton.1 hp ▸ ih)
  | union c h₁ h₂ ih₁ ih₂ =>
    refine .compound rfl (Filled.union c h₁ h₂).definite (fun p hp => ?_)
    rcases List.mem_cons.1 hp with rfl | hp
    · exact ih₁
    · exact List.mem_singleton.1 hp ▸ ih₂

/-! ## Simple types -/

/-- Apart from two classes, the rules for simple types are the same both ways round, and fewer
questions make no yes a no. -/
theorem classes_or_overlap_simple {s v : Ty} (hs : s.isSimple = true) (hv : v.isSimple = true) :
    (∃ c e : ClassTy, s = c.toTy ∧ v = e.toTy) ∨
      ∀ n, r.overlap (n + 1) s v = r.overlap (n + 1) v s ∧
        (r.overlap (n + 2) s v = true → r.overlap (n + 1) s v = true) := by
  have either : ∀ {n}, (r.sub (n + 1) s v || r.sub (n + 1) v s) = true →
      (r.sub n s v || r.sub n v s) = true := fun h =>
    Bool.or_eq_true_iff.2 ((Bool.or_eq_true_iff.1 h).imp sub_of_succ sub_of_succ)
  by_cases classes : ∃ c e : ClassTy, s = c.toTy ∧ v = e.toTy
  · exact .inl classes
  refine .inr (fun n => ?_)
  rw [overlap_succ, overlap_succ, overlap_succ]
  cases s with
  | cls d as c =>
    cases v with
    | cls e bs k => exact absurd ⟨⟨d, as, c⟩, ⟨e, bs, k⟩, rfl, rfl⟩ classes
    | module => exact ⟨Bool.or_comm .., either⟩
    | literal => exact ⟨rfl, sub_of_succ⟩
    | var => exact ⟨rfl, id⟩
    | _ => cases hv
  | module =>
    cases v with
    | cls | module => exact ⟨Bool.or_comm .., either⟩
    | literal => exact ⟨rfl, sub_of_succ⟩
    | var => exact ⟨rfl, id⟩
    | _ => cases hv
  | literal a =>
    cases v with
    | literal b =>
      refine ⟨?_, sub_of_succ⟩
      cases n with
      | zero => rfl
      | succ n => simp [Bool.beq_comm]
    | cls | module => exact ⟨rfl, sub_of_succ⟩
    | var => exact ⟨rfl, id⟩
    | _ => cases hv
  | var => cases v <;> first | exact ⟨rfl, id⟩ | cases hv
  | _ => cases hs

/-- Where one type faces another, they are related or one of them is `unknown`. -/
def Meet (R : Ty → Ty → Prop) (xs ys : List Ty) : Prop :=
  ∀ z ∈ xs.zip ys, z.1.isUnknown = true ∨ z.2.isUnknown = true ∨ R z.1 z.2

theorem Meet.mono {R S : Ty → Ty → Prop} {xs ys : List Ty} (h : Meet R xs ys)
    (hRS : ∀ x y, R x y → S x y) : Meet S xs ys :=
  fun z hz => (h z hz).imp_right (.imp_right (hRS z.1 z.2))

theorem Meet.swap {R S : Ty → Ty → Prop} {xs ys : List Ty} (h : Meet R xs ys)
    (hRS : ∀ x ∈ xs, ∀ y ∈ ys, R x y → S y x) : Meet S ys xs := by
  intro z hz
  rw [← List.zip_swap] at hz
  obtain ⟨⟨x, y⟩, hxy, rfl⟩ := List.mem_map.1 hz
  obtain ⟨hx, hy⟩ := List.of_mem_zip hxy
  rcases h (x, y) hxy with unknown | unknown | related
  · exact .inr (.inl unknown)
  · exact .inl unknown
  · exact .inr (.inr (hRS x hx y hy related))

namespace AcyclicClasses

variable (h : r.AcyclicClasses)
include h

theorem overlap_toTy {n : Nat} {c e : ClassTy} :
    r.overlap (n + 1) c.toTy e.toTy = true ↔
      ∃ xs ys, r.Facing c e xs ys ∧ Meet (fun x y => r.overlap n x y = true) xs ys := by
  rw [overlap_succ]
  refine (value_classesOverlap h).trans ?_
  simp only [value_argsOverlap]
  rfl

/-! ## With as many questions -/

/-- Without `unknown`, and where `nothing` is not hidden, types overlap both ways round. -/
theorem overlap_symm {n : Nat} {t u : Ty} (ht : r.Determinate r.Definite t)
    (hu : r.Determinate r.Definite u) (ho : r.overlap n t u = true) : r.overlap n u t = true := by
  induction n using Nat.strongRecOn generalizing t u with
  | ind n ih =>
    cases n with
    | zero => rfl
    | succ n =>
      rcases ht.definite_or with dt | rfl
      · rcases hu.definite_or with du | rfl
        · obtain ⟨i, j, s, v, hs, hv, ho⟩ := exists_chosen_of_overlap dt du ho
          refine overlap_of_chosen hv hs ?_
          rw [Nat.add_comm j i]
          cases left : n + 1 - (i + j) with
          | zero => rfl
          | succ m =>
            rw [left] at ho
            rcases classes_or_overlap_simple hs.isSimple hv.isSimple with ⟨c, e, rfl, rfl⟩ | e
            · obtain ⟨xs, ys, hf, members⟩ := h.overlap_toTy.1 ho
              refine h.overlap_toTy.2 ⟨ys, xs, hf.symm, members.swap (fun x hx y hy => ?_)⟩
              exact ih m (by omega) ((ht.chosen hs).facing hf x hx)
                ((hu.chosen hv).facing hf.symm y hy)
            · exact (e m).1 ▸ ho
        · simp at ho
      · simp at ho

theorem overlap_comm (n : Nat) {t u : Ty} (ht : r.Determinate r.Definite t)
    (hu : r.Determinate r.Definite u) : r.overlap n t u = r.overlap n u t :=
  Bool.eq_iff_iff.2 ⟨h.overlap_symm ht hu, h.overlap_symm hu ht⟩

/-! ## However many questions -/

/-- Fewer questions find no fewer common subtypes. -/
theorem overlap_of_succ {n : Nat} {t u : Ty} (ho : r.overlap (n + 1) t u = true) :
    r.overlap n t u = true := by
  induction n generalizing t u with
  | zero => rfl
  | succ n ih =>
    rcases t.proper_or with pt | rfl | rfl
    · rcases u.proper_or with pu | rfl | rfl
      · by_cases hc : t.isCompound = true ∨ u.isCompound = true
        · rw [overlap_compound _ pt pu hc] at ho ⊢
          split at ho
          · next left =>
            obtain ⟨p, hp, ho⟩ := List.any_eq_true.1 ho
            rw [if_pos left]
            exact List.any_eq_true.2 ⟨p, hp, ih ho⟩
          · next right =>
            obtain ⟨p, hp, ho⟩ := List.any_eq_true.1 ho
            rw [if_neg right]
            exact List.any_eq_true.2 ⟨p, hp, ih ho⟩
        · rw [not_or] at hc
          rcases classes_or_overlap_simple (pt.isSimple hc.1) (pu.isSimple hc.2) with
            ⟨c, e, rfl, rfl⟩ | e
          · obtain ⟨xs, ys, hf, members⟩ := h.overlap_toTy.1 ho
            exact h.overlap_toTy.2 ⟨xs, ys, hf, members.mono (fun _ _ => ih)⟩
          · exact (e n).2 ho
      · rw [overlap_succ] at ho ⊢
        cases t <;> exact ho
      · simp at ho
    · rw [overlap_succ] at ho
      cases ho
    · simp at ho

/-- Two types overlap however many questions may be asked only where two of their alternatives do. -/
theorem exists_chosen_of_overlaps {C : Ty → Prop} {t u : Ty} (ht : r.Determinate C t)
    (hu : r.Determinate C u) (ho : r.Overlaps t u) :
    ∃ i j s v, r.Chosen i t s ∧ r.Chosen j u v ∧ r.Overlaps s v := by
  have some_part : ∀ {l : List Ty} {f : Nat → Ty → Bool},
      (∀ n p, f (n + 1) p = true → f n p = true) → (∀ n, l.any (f n) = true) →
      ∃ p ∈ l, ∀ n, f n p = true :=
    fun anti hf => exists_forall_of_antitone anti (fun n => List.any_eq_true.1 (hf n))
  refine ht.parts_induct (P := fun t => ∀ u, r.Determinate C u → r.Overlaps t u →
    ∃ i j s v, r.Chosen i t s ∧ r.Chosen j u v ∧ r.Overlaps s v) ?_ u hu ho
  intro t ht left u hu ho
  refine hu.parts_induct (P := fun u => r.Overlaps t u →
    ∃ i j s v, r.Chosen i t s ∧ r.Chosen j u v ∧ r.Overlaps s v) ?_ ho
  intro u hu right ho
  rcases ht.proper_or with pt | rfl
  · rcases hu.proper_or with pu | rfl
    · by_cases hc : t.isCompound = true ∨ u.isCompound = true
      · have step := fun n => (overlap_compound n pt pu hc).symm.trans (ho (n + 1))
        cases first : leftFirst t u with
        | true =>
          simp only [first, if_true] at step
          obtain ⟨p, hp, ho⟩ := some_part (fun n p => h.overlap_of_succ) step
          obtain ⟨i, j, s, v, hs, hv, ho⟩ := left p hp u hu ho
          exact ⟨i + 1, j, s, v, .part hp hs, hv, ho⟩
        | false =>
          simp only [first, Bool.false_eq_true, if_false] at step
          obtain ⟨p, hp, ho⟩ := some_part (fun n p => h.overlap_of_succ) step
          obtain ⟨i, j, s, v, hs, hv, ho⟩ := right p hp ho
          exact ⟨i, j + 1, s, v, hs, .part hp hv, ho⟩
      · rw [not_or] at hc
        exact ⟨0, 0, t, u, .self (pt.isSimple hc.1), .self (pu.isSimple hc.2), ho⟩
    · simpa using ho 1
  · simpa using ho 1

theorem overlaps_toTy {c e : ClassTy} :
    r.Overlaps c.toTy e.toTy ↔ ∃ xs ys, r.Facing c e xs ys ∧ Meet r.Overlaps xs ys := by
  constructor
  · intro ho
    obtain ⟨xs, ys, hf, -⟩ := h.overlap_toTy.1 (ho 1)
    refine ⟨xs, ys, hf, fun z hz => ?_⟩
    by_cases unknown : z.1.isUnknown = true ∨ z.2.isUnknown = true
    · exact unknown.imp_right .inl
    · rw [not_or] at unknown
      refine .inr (.inr (fun n => ?_))
      obtain ⟨xs', ys', hf', members⟩ := h.overlap_toTy.1 (ho (n + 1))
      obtain ⟨rfl, rfl⟩ := hf.unique h hf'
      exact ((members z hz).resolve_left unknown.1).resolve_left unknown.2
  · rintro ⟨xs, ys, hf, members⟩ n
    cases n with
    | zero => rfl
    | succ n => exact h.overlap_toTy.2 ⟨xs, ys, hf, members.mono (fun _ _ ho => ho n)⟩

/-- Simple types overlap both ways round if the arguments do that they hand on. -/
theorem overlaps_symm_simple {C : Ty → Prop} {s v : Ty} (hs : s.isSimple = true)
    (hv : v.isSimple = true) (dv : r.Determinate C v)
    (args : ∀ {c e xs ys}, s = c.toTy → r.Facing c e xs ys → ∀ x ∈ xs, ∀ y, r.Determinate C y →
      r.Overlaps x y → r.Overlaps y x)
    (ho : r.Overlaps s v) : r.Overlaps v s := by
  rcases classes_or_overlap_simple (r := r) hs hv with ⟨c, e, rfl, rfl⟩ | comm
  · obtain ⟨xs, ys, hf, members⟩ := h.overlaps_toTy.1 ho
    refine h.overlaps_toTy.2 ⟨ys, xs, hf.symm, members.swap (fun x hx y hy => ?_)⟩
    exact args rfl hf x hx y (dv.facing hf.symm y hy)
  · intro n
    cases n with
    | zero => rfl
    | succ n => exact (comm n).1 ▸ ho (n + 1)

/-- Without `unknown`, types overlap both ways round, as far as the limit is not the reason. -/
theorem overlaps_symm {C : Ty → Prop} {t u : Ty} (ht : r.Determinate C t) (hu : r.Determinate C u)
    (ho : r.Overlaps t u) : r.Overlaps u t := by
  -- it is enough to turn simple alternatives around
  have of_chosen : ∀ {t}, r.Determinate C t →
      (∀ i s, r.Chosen i t s → ∀ v, v.isSimple = true → r.Determinate C v → r.Overlaps s v →
        r.Overlaps v s) →
      ∀ u, r.Determinate C u → r.Overlaps t u → r.Overlaps u t := by
    intro t ht swap u hu ho
    obtain ⟨i, j, s, v, hs, hv, ho⟩ := h.exists_chosen_of_overlaps ht hu ho
    exact fun n => overlap_of_chosen hv hs (swap i s hs v hv.isSimple (hu.chosen hv) ho _)
  refine of_chosen ht ?_ u hu ho
  clear hu ho
  induction ht with
  | nothing => exact fun i s hs => absurd rfl hs.proper.2
  | compound hc _ _ ih =>
    intro i s hs
    obtain ⟨j, p, -, hp, hs⟩ := hs.of_compound hc
    exact ih p hp j s hs
  | cls c ha ih =>
    intro i s hs v hv dv
    obtain ⟨-, rfl⟩ := hs.of_simple rfl
    refine h.overlaps_symm_simple rfl hv dv (fun e hf x hx => ?_)
    cases e
    refine of_chosen (t := x) ?_ ?_
    · exact hf.of_ancestors (fun f p hp => ha _ f p hp) x hx
    · exact hf.of_ancestors (fun f p hp => ih _ f p hp) x hx
  | var | module | literal =>
    intro i s hs v hv dv
    obtain ⟨-, rfl⟩ := hs.of_simple rfl
    exact h.overlaps_symm_simple rfl hv dv (fun e => nomatch e)

end AcyclicClasses

end Reading

end PklAnalysis
