import PklAnalysis.Proofs.Types.Null
import PklAnalysis.Proofs.Types.Overlap

/-!
# Common subtypes of related types

A type and one that it is below have a common subtype (`overlap_of_sub`), and the search needs no
more questions to find one than the subtype query needed. Both follow the alternatives of the two
types. The query goes through the left type first and the search goes back and forth, but to get
from the two types to a pair of alternatives takes as many questions in whatever order
(`overlap_of_chosen`, `exists_chosen_of_overlap`). Between class types the query looks at arguments
in either direction, and so the search succeeds in both.

What is left of a type without `null` has alternatives of the type itself
(`exists_chosen_of_nonNull_sub`).
-/

namespace PklAnalysis

namespace Reading

variable (r : Reading)

/-- An alternative that lies so many aliases and unions deep. -/
inductive Chosen : Nat → Ty → Ty → Prop
  | self {s : Ty} : s.isSimple = true → Chosen 0 s s
  | part {i : Nat} {t p s : Ty} : p ∈ r.parts t → Chosen i p s → Chosen (i + 1) t s

/-- Types with full argument lists whose aliases can be expanded to the end, and then neither
`unknown` nor `nothing` appears, not even in the arguments that classes hand on to their
superclasses. -/
inductive Filled : Ty → Prop
  | var (p : NodeRef) (c : Constraints) : Filled (.var p c)
  | module (i : ModuleId) (m : Option String) (c : Constraints) : Filled (.module i m c)
  | literal (s : String) (c : Constraints) : Filled (.literal s c)
  | cls {d : NodeRef} {as : List Ty} (c : Constraints) : as.length = (r.params d).length →
      (∀ e k p, (ClassTy.projectTo ⟨d, as, k⟩ e).value r = some p → ∀ a ∈ p.args, Filled a) →
      Filled (.cls d as c)
  | typeAlias {d : NodeRef} {as : List Ty} {c : Constraints} :
      Filled (r (.expansion d as c)) → Filled (.typeAlias d as c)
  | union {t u : Ty} (c : Constraints) : Filled t → Filled u → Filled (.union t u c)

variable {r}

/-! ## Filled types -/

namespace Filled

theorem proper {t : Ty} (h : r.Filled t) : t.Proper := by
  cases h with
  | typeAlias | union => exact Ty.proper_of_isCompound rfl
  | _ => exact Ty.proper_of_isSimple rfl

theorem part {t p : Ty} (h : r.Filled t) (hp : p ∈ r.parts t) : r.Filled p := by
  cases h with
  | typeAlias h => exact List.mem_singleton.1 hp ▸ h
  | union _ h₁ h₂ =>
    rcases List.mem_cons.1 hp with rfl | hp
    · exact h₁
    · exact List.mem_singleton.1 hp ▸ h₂
  | _ => cases hp

theorem length_args {d : NodeRef} {as : List Ty} {c : Constraints} (h : r.Filled (.cls d as c)) :
    as.length = (r.params d).length := by
  cases h with
  | cls _ hl _ => exact hl

theorem ancestor {d e : NodeRef} {as : List Ty} {c : Constraints} {p : ClassTy}
    (h : r.Filled (.cls d as c)) (hp : (ClassTy.projectTo ⟨d, as, c⟩ e).value r = some p) :
    ∀ a ∈ p.args, r.Filled a := by
  cases h with
  | cls _ _ ha => exact ha e c p hp

theorem arg {d : NodeRef} {as : List Ty} {c : Constraints} (h : r.Filled (.cls d as c)) :
    ∀ a ∈ as, r.Filled a := h.ancestor (projectTo_mk d as c)

theorem simple_or_compound {t : Ty} (h : r.Filled t) : t.isSimple = true ∨ t.isCompound = true := by
  cases h with
  | typeAlias | union => exact .inr rfl
  | _ => exact .inl rfl

theorem definite {t : Ty} (h : r.Filled t) : r.Definite t := by
  induction h with
  | typeAlias _ ih => exact .compound rfl (fun p hp => List.mem_singleton.1 hp ▸ ih)
  | union c _ _ ih₁ ih₂ => exact ih₁.union ih₂ c
  | _ => exact .simple rfl

/-- Constraints make no difference. -/
theorem of_alike (hr : r.Lawful) {t u : Ty} (h : r.Filled t) (e : t.Alike u) : r.Filled u := by
  induction h generalizing u with
  | var => cases u <;> first | exact .var .. | cases e
  | module => cases u <;> first | exact .module .. | cases e
  | literal => cases u <;> first | exact .literal .. | cases e
  | cls _ hl ha =>
    cases u with
    | cls => cases e; exact .cls _ hl ha
    | _ => cases e
  | @typeAlias d as c _ ih =>
    cases u with
    | typeAlias f bs k =>
      cases e
      refine .typeAlias (ih ?_)
      rw [hr d as c, hr d as k]
      exact Ty.alike_addConstraints _ c k
    | _ => cases e
  | union _ h₁ h₂ =>
    cases u with
    | union => cases e; exact .union _ h₁ h₂
    | _ => cases e

end Filled

/-- Where classes hand on their own arguments only, these are all there are. -/
theorem Regular.filled_cls (hr : r.Regular) {d : NodeRef} {as : List Ty}
    (hl : as.length = (r.params d).length) (ha : ∀ a ∈ as, r.Filled a) (c : Constraints) :
    r.Filled (.cls d as c) :=
  .cls c hl (fun _ _ _ hp a h => ha a (hr.args_of_projectTo hl hp a h))

/-! ## Alternatives -/

namespace Chosen

variable {i : Nat} {t s : Ty}

theorem isSimple (h : r.Chosen i t s) : s.isSimple = true := by
  induction h with
  | self h => exact h
  | part _ _ ih => exact ih

theorem proper (h : r.Chosen i t s) : t.Proper := by
  cases h with
  | self hs => exact Ty.proper_of_isSimple hs
  | part hp => exact Ty.proper_of_isCompound (isCompound_of_mem_parts hp)

theorem inside (h : r.Chosen i t s) : r.Inside t s := by
  induction h with
  | self => exact .refl _
  | part hp _ ih => exact .part hp ih

theorem filled (h : r.Chosen i t s) (ht : r.Filled t) : r.Filled s := by
  induction h with
  | self => exact ht
  | part hp _ ih => exact ih (ht.part hp)

theorem of_simple (h : r.Chosen i t s) (ht : t.isSimple = true) : i = 0 ∧ s = t := by
  cases h with
  | self => exact ⟨rfl, rfl⟩
  | part hp => exact absurd (isCompound_of_mem_parts hp) (Ty.not_isCompound_of_isSimple ht)

theorem of_compound (h : r.Chosen i t s) (ht : t.isCompound = true) :
    ∃ j p, i = j + 1 ∧ p ∈ r.parts t ∧ r.Chosen j p s := by
  cases h with
  | self hs => exact absurd ht (Ty.not_isCompound_of_isSimple hs)
  | part hp h => exact ⟨_, _, rfl, hp, h⟩

theorem alike (hr : r.Lawful) {u : Ty} (h : r.Chosen i t s) (e : t.Alike u) :
    ∃ v, r.Chosen i u v ∧ s.Alike v := by
  induction h generalizing u with
  | self hs => exact ⟨u, .self (e.isSimple.trans hs), e⟩
  | part hp _ ih =>
    obtain ⟨q, hq, e⟩ := alike_parts hr e hp
    obtain ⟨v, hv, e⟩ := ih e
    exact ⟨v, .part hq hv, e⟩

/-- What a type is below, its alternatives are below. -/
theorem sub_left (hr : r.Lawful) (h : r.Chosen i t s) {n : Nat} {u : Ty} (hu : u.Proper)
    (hs : r.sub n t u = true) : r.sub (n - i) s u = true := by
  induction h generalizing n with
  | self => exact hs
  | part hp _ ih =>
    cases n with
    | zero =>
      rw [Nat.zero_sub]
      rfl
    | succ n =>
      rw [Nat.add_sub_add_right]
      exact ih (sub_of_mem_parts hr hu.2 hp hs)

end Chosen

theorem Definite.exists_chosen {t : Ty} (h : r.Definite t) : ∃ i s, r.Chosen i t s := by
  induction h with
  | simple hs => exact ⟨0, _, .self hs⟩
  | @compound t hc _ ih =>
    obtain ⟨p, hp⟩ := exists_mem_parts hc
    obtain ⟨i, s, h⟩ := ih p hp
    exact ⟨i + 1, s, .part hp h⟩

/-- A simple type that is below another type is below one of its alternatives. -/
theorem Filled.exists_chosen_right {n : Nat} {s u : Ty} (hu : r.Filled u) (hs : s.isSimple = true)
    (h : r.sub n s u = true) : ∃ j v, r.Chosen j u v ∧ r.sub (n - j) s v = true := by
  have of_part : ∀ {n u}, u.isCompound = true → (∃ p, p ∈ r.parts u) → r.sub n s u = true →
      (∀ p ∈ r.parts u, ∀ m, r.sub m s p = true → ∃ j v, r.Chosen j p v ∧ r.sub (m - j) s v = true) →
      ∃ j v, r.Chosen j u v ∧ r.sub (n - j) s v = true := by
    rintro n u hc ⟨q, hq⟩ h each
    cases n with
    | zero =>
      obtain ⟨j, v, hv, -⟩ := each q hq 0 rfl
      exact ⟨j + 1, v, .part hq hv, by rw [Nat.zero_sub]; rfl⟩
    | succ n =>
      obtain ⟨p, hp, h⟩ := exists_part_of_sub hs hc h
      obtain ⟨j, v, hv, h⟩ := each p hp n h
      exact ⟨j + 1, v, .part hp hv, by rwa [Nat.add_sub_add_right]⟩
  induction hu generalizing n with
  | typeAlias _ ih =>
    refine of_part rfl ⟨_, List.mem_cons_self⟩ h (fun p hp m => ?_)
    cases List.mem_singleton.1 hp
    exact ih
  | union _ _ _ ih₁ ih₂ =>
    refine of_part rfl ⟨_, List.mem_cons_self⟩ h (fun p hp m => ?_)
    rcases List.mem_cons.1 hp with rfl | hp
    · exact ih₁
    · cases List.mem_singleton.1 hp
      exact ih₂
  | _ => exact ⟨0, _, .self rfl, h⟩

/-- Two types overlap if two of their alternatives do, with the questions that are left there. -/
theorem overlap_of_chosen {n i j : Nat} {t u s v : Ty} (hs : r.Chosen i t s) (hv : r.Chosen j u v)
    (h : r.overlap (n - (i + j)) s v = true) : r.overlap n t u = true := by
  induction n generalizing i j t u with
  | zero => rfl
  | succ n ih =>
    refine overlap_of_parts hs.proper hv.proper (fun hc => ?_) (fun hc => ?_) (fun hts hus => ?_)
    · obtain ⟨i, p, rfl, hp, hs⟩ := hs.of_compound hc
      rw [Nat.add_right_comm, Nat.add_sub_add_right] at h
      exact ⟨p, hp, ih hs hv h⟩
    · obtain ⟨j, p, rfl, hp, hv⟩ := hv.of_compound hc
      rw [← Nat.add_assoc, Nat.add_sub_add_right] at h
      exact ⟨p, hp, ih hs hv h⟩
    · obtain ⟨rfl, rfl⟩ := hs.of_simple hts
      obtain ⟨rfl, rfl⟩ := hv.of_simple hus
      exact h

/-- Two types overlap only where two of their alternatives do. -/
theorem exists_chosen_of_overlap {n : Nat} {t u : Ty} (ht : r.Definite t) (hu : r.Definite u)
    (h : r.overlap n t u = true) :
    ∃ i j s v, r.Chosen i t s ∧ r.Chosen j u v ∧ r.overlap (n - (i + j)) s v = true := by
  induction n generalizing t u with
  | zero =>
    obtain ⟨i, s, hs⟩ := ht.exists_chosen
    obtain ⟨j, v, hv⟩ := hu.exists_chosen
    exact ⟨i, j, s, v, hs, hv, by rw [Nat.zero_sub]; rfl⟩
  | succ n ih =>
    by_cases hc : t.isCompound = true ∨ u.isCompound = true
    · rw [overlap_compound n ht.proper hu.proper hc] at h
      split at h
      · obtain ⟨p, hp, h⟩ := List.any_eq_true.1 h
        obtain ⟨i, j, s, v, hs, hv, h⟩ := ih (ht.part hp) hu h
        refine ⟨i + 1, j, s, v, .part hp hs, hv, ?_⟩
        rwa [Nat.add_right_comm, Nat.add_sub_add_right]
      · obtain ⟨p, hp, h⟩ := List.any_eq_true.1 h
        obtain ⟨i, j, s, v, hs, hv, h⟩ := ih ht (hu.part hp) h
        refine ⟨i, j + 1, s, v, hs, .part hp hv, ?_⟩
        rwa [← Nat.add_assoc, Nat.add_sub_add_right]
    · rw [not_or] at hc
      exact ⟨0, 0, t, u, .self (ht.proper.isSimple hc.1), .self (hu.proper.isSimple hc.2), h⟩

/-! ## Arguments -/

/-- Arguments that are related, in whichever direction, overlap. -/
theorem argsOverlap_of_related {R : Ty → Ty → Prop} {f : Ty → Ty → Query Bool}
    {ps : List (NodeRef × Variance)} {xs ys : List Ty}
    (hl : xs.length = ps.length ∨ ys.length = ps.length) (hc : Conform R ps xs ys)
    (h : ∀ x ∈ xs, ∀ y ∈ ys, R x y ∨ R y x → (f x y).value r = true) :
    (Ty.argsOverlap f xs ys).value r = true := by
  induction ps generalizing xs ys with
  | nil =>
    rcases hl with hl | hl
    · rw [List.eq_nil_of_length_eq_zero hl]
      rfl
    · rw [List.eq_nil_of_length_eq_zero hl]
      cases xs <;> rfl
  | cons p ps ih =>
    cases xs with
    | nil => rfl
    | cons x xs =>
      cases ys with
      | nil => rfl
      | cons y ys =>
        have rest : (Ty.argsOverlap f xs ys).value r = true :=
          ih (hl.imp Nat.succ.inj Nat.succ.inj) hc.2
            (fun a ha b hb => h a (List.mem_cons_of_mem x ha) b (List.mem_cons_of_mem y hb))
        have related : R x y ∨ R y x := by
          have hp := hc.1
          obtain ⟨_, variance⟩ := p
          cases variance with
          | covariant => exact .inl hp
          | contravariant => exact .inr hp
          | invariant => exact .inl hp.1
        have heads := h x List.mem_cons_self y List.mem_cons_self related
        exact argsOverlap_cons heads rest

/-! ## Subtypes overlap -/

/-- Simple types of which one is below the other overlap, if arguments do. -/
theorem Rooted.overlap_simple (h : r.Rooted) {n : Nat} {s v : Ty} (hs : s.isSimple = true)
    (hv : v.isSimple = true) (fs : r.Filled s) (fv : r.Filled v)
    (args : ∀ {a b}, r.Filled a → r.Filled b → r.sub n a b = true →
      r.overlap n a b = true ∧ r.overlap n b a = true)
    (hb : r.sub (n + 1) s v = true) :
    r.overlap (n + 1) s v = true ∧ r.overlap (n + 1) v s = true := by
  have hn := sub_of_succ hb
  rw [overlap_succ, overlap_succ]
  cases s with
  | var => cases v <;> first | exact ⟨rfl, rfl⟩ | cases hv
  | literal a c =>
    cases v with
    | literal b k =>
      refine ⟨hn, ?_⟩
      obtain rfl : a = b := by simpa using hb
      cases n with
      | zero => rfl
      | succ n => simp
    | var => exact ⟨rfl, rfl⟩
    | cls | module => exact ⟨hn, hn⟩
    | _ => cases hv
  | module i m c =>
    cases v with
    | var => exact ⟨rfl, rfl⟩
    | cls | module =>
      exact ⟨Bool.or_eq_true_iff.2 (.inl hn), Bool.or_eq_true_iff.2 (.inr hn)⟩
    | literal => simp at hb
    | _ => cases hv
  | cls d as c =>
    cases v with
    | var => exact ⟨rfl, rfl⟩
    | module | literal => simp at hb
    | cls e bs k =>
      obtain ⟨p, hp, hc⟩ := sub_cls_cls.1 hb
      have members : ∀ x ∈ p.args, ∀ y ∈ bs, r.sub n x y = true ∨ r.sub n y x = true →
          r.overlap n x y = true ∧ r.overlap n y x = true := by
        rintro x hx y hy (h | h)
        · exact args (fs.ancestor hp x hx) (fv.arg y hy) h
        · exact (args (fv.arg y hy) (fs.ancestor hp x hx) h).symm
      have upward : (Ty.argsOverlap (Ty.hasCommonSubtypeUpTo n) p.args bs).value r = true :=
        argsOverlap_of_related (.inr fv.length_args) hc (fun x hx y hy h => (members x hx y hy h).1)
      have downward : (Ty.argsOverlap (Ty.hasCommonSubtypeUpTo n) bs p.args).value r = true :=
        argsOverlap_of_related (.inl fv.length_args) hc.flip
          (fun y hy x hx h => (members x hx y hy h).2)
      have facing : r.Facing ⟨d, as, c⟩ ⟨e, bs, k⟩ p.args bs := .inl ⟨p, hp, rfl, rfl⟩
      have classes := @value_classesOverlap r h.acyclicClasses
      exact ⟨classes.2 ⟨_, _, facing, upward⟩, classes.2 ⟨_, _, facing.symm, downward⟩⟩
    | _ => cases hv
  | _ => cases hs

variable (hr : r.Lawful) (h : r.Rooted)
include hr h

/-- Of two types one of which is below the other, each overlaps with the other. -/
theorem overlap_of_sub {n : Nat} {t u : Ty} (ht : r.Filled t) (hu : r.Filled u)
    (hs : r.sub n t u = true) : r.overlap n t u = true ∧ r.overlap n u t = true := by
  induction n using Nat.strongRecOn generalizing t u with
  | ind n ih =>
    obtain ⟨i, s, hts⟩ := ht.definite.exists_chosen
    obtain ⟨j, v, huv, hsv⟩ :=
      hu.exists_chosen_right hts.isSimple (hts.sub_left hr hu.proper hs)
    rw [Nat.sub_sub] at hsv
    have met : r.overlap (n - (i + j)) s v = true ∧ r.overlap (n - (i + j)) v s = true := by
      cases hk : n - (i + j) with
      | zero => exact ⟨rfl, rfl⟩
      | succ k =>
        rw [hk] at hsv
        exact h.overlap_simple hts.isSimple huv.isSimple (hts.filled ht) (huv.filled hu)
          (fun ha hb => ih k (by omega) ha hb) hsv
    refine ⟨overlap_of_chosen hts huv met.1, overlap_of_chosen huv hts ?_⟩
    rw [Nat.add_comm]
    exact met.2

/-- A type overlaps with whatever one of its alternatives is below. -/
theorem overlap_of_chosen_sub {n i : Nat} {t u s : Ty} (ht : r.Filled t) (hu : r.Filled u)
    (hs : r.Chosen i t s) (hb : r.sub (n - i) s u = true) : r.overlap n t u = true := by
  obtain ⟨j, v, hv, hsv⟩ := hu.exists_chosen_right hs.isSimple hb
  rw [Nat.sub_sub] at hsv
  exact overlap_of_chosen hs hv (overlap_of_sub hr h (hs.filled ht) (hv.filled hu) hsv).1

omit h

/-! ## What is left without null -/

/-- If there is something left without `null`, what it is below is above an alternative of the
type. -/
theorem exists_chosen_of_nonNull_sub (k : Nat) {n : Nat} {t u : Ty} (ht : r.Filled t)
    (hu : u.Proper) (left : r.nonNull k t ≠ .nothing) (hs : r.sub n (r.nonNull k t) u = true) :
    ∃ i s, r.Chosen i t s ∧ r.sub (n - i) s u = true := by
  have of_part : ∀ {n t p}, p ∈ r.parts t → (∃ i s, r.Chosen i p s ∧ r.sub (n - i) s u = true) →
      ∃ i s, r.Chosen i t s ∧ r.sub (n - i) s u = true := by
    rintro n t p hp ⟨i, s, h, hs⟩
    exact ⟨i + 1, s, .part hp h, sub_of_le (by omega) hs⟩
  induction k, t using r.nonNull_induct generalizing n with
  | null k as c => exact absurd (r.nonNull_null k as c) left
  | kept k t e =>
    obtain ⟨i, s, h⟩ := ht.definite.exists_chosen
    exact ⟨i, s, h, h.sub_left hr hu (e ▸ hs)⟩
  | union k a b c ih =>
    have parts : a ∈ r.parts (.union a b c) ∧ b ∈ r.parts (.union a b c) :=
      ⟨List.mem_cons_self, List.mem_cons_of_mem a (List.mem_singleton_self b)⟩
    have alike : (r.nonNull k (.union a b c)).Alike (r.join (r.nonNull k a) (r.nonNull k b)) := by
      rw [nonNull_union]
      exact Ty.withoutConstraints_addConstraints _ c
    have left : r.join (r.nonNull k a) (r.nonNull k b) ≠ .nothing :=
      fun e => left (Ty.Alike.eq_nothing (e ▸ alike))
    have hs := sub_left_alike hr alike hs
    rcases r.join_cases (r.nonNull k a) (r.nonNull k b) with ⟨e, -⟩ | ⟨e, -⟩ | ⟨proper, -, e⟩
    · rw [e] at left hs
      exact of_part parts.2 (ih b parts.2 (ht.part parts.2) left hs)
    · rw [e] at left hs
      exact of_part parts.1 (ih a parts.1 (ht.part parts.1) left hs)
    · rw [e] at hs
      cases n with
      | zero =>
        obtain ⟨i, s, h⟩ := ht.definite.exists_chosen
        exact ⟨i, s, h, by rw [Nat.zero_sub]; rfl⟩
      | succ n =>
        have hs := sub_of_mem_parts hr hu.2 (t := .union (r.nonNull k a) (r.nonNull k b) [])
          (p := r.nonNull k a) List.mem_cons_self hs
        obtain ⟨i, s, h, hs⟩ := ih a parts.1 (ht.part parts.1) proper.2 hs
        exact ⟨i + 1, s, .part parts.1 h, by rwa [Nat.add_sub_add_right]⟩
  | expanded k d as c e ih =>
    have hp : r (.expansion d as c) ∈ r.parts (.typeAlias d as c) := List.mem_cons_self
    rw [e] at left hs
    exact of_part hp (ih (ht.part hp) left hs)

omit hr

theorem nonNull_ne_unknown (k : Nat) {t : Ty} (ht : r.Filled t) : r.nonNull k t ≠ .unknown := by
  induction k, t using r.nonNull_induct with
  | null k as c =>
    rw [nonNull_null]
    exact nofun
  | kept k t e =>
    rw [e]
    exact ht.proper.1
  | union k a b c ih =>
    have left := ih a List.mem_cons_self (ht.part List.mem_cons_self)
    have right := ih b (List.mem_cons_of_mem a (List.mem_singleton_self b))
      (ht.part (List.mem_cons_of_mem a (List.mem_singleton_self b)))
    rw [nonNull_union]
    intro e
    have e := Ty.Alike.eq_unknown (e ▸ (Ty.withoutConstraints_addConstraints _ c))
    rcases r.join_cases (r.nonNull k a) (r.nonNull k b) with ⟨e', -⟩ | ⟨e', -⟩ | ⟨-, -, e'⟩
    · exact right (e'.symm.trans e)
    · exact left (e'.symm.trans e)
    · cases e'.symm.trans e
  | expanded k d as c e ih =>
    rw [e]
    exact ih (ht.part List.mem_cons_self)

/-- If nothing is left without `null`, then every alternative is `null`. -/
theorem eq_null_of_nonNull (k : Nat) {i : Nat} {t s : Ty} (ht : r.Filled t)
    (none : r.nonNull k t = .nothing) (hs : r.Chosen i t s) : ∃ as c, s = .cls std.null as c := by
  induction k, t using r.nonNull_induct generalizing i with
  | null k as c =>
    obtain ⟨-, rfl⟩ := hs.of_simple rfl
    exact ⟨as, c, rfl⟩
  | kept k t e => exact absurd (e.symm.trans none) ht.proper.2
  | union k a b c ih =>
    have right : b ∈ r.parts (.union a b c) := List.mem_cons_of_mem a (List.mem_singleton_self b)
    obtain ⟨j, p, -, hp, hs⟩ := hs.of_compound rfl
    refine ih p hp (ht.part hp) ?_ hs
    have nothing_of_sub : ∀ {x}, r.Filled x → r.Sub (r.nonNull k x) .nothing →
        r.nonNull k x = .nothing := by
      intro x hx h
      rcases (r.nonNull k x).proper_or with hp | hu | hn
      · exact nomatch (r.sub_nothing_right _ hp).symm.trans h
      · exact absurd hu (nonNull_ne_unknown k hx)
      · exact hn
    rw [nonNull_union] at none
    have none := Ty.Alike.eq_nothing (none ▸ (Ty.withoutConstraints_addConstraints _ c).symm)
    have both : r.nonNull k a = .nothing ∧ r.nonNull k b = .nothing := by
      rcases r.join_cases (r.nonNull k a) (r.nonNull k b) with ⟨e, h⟩ | ⟨e, h⟩ | ⟨-, -, e⟩
      · have e := e.symm.trans none
        exact ⟨nothing_of_sub (ht.part List.mem_cons_self) (e ▸ h), e⟩
      · have e := e.symm.trans none
        exact ⟨e, nothing_of_sub (ht.part right) (e ▸ h)⟩
      · cases e.symm.trans none
    rcases List.mem_cons.1 hp with rfl | hp
    · exact both.1
    · exact List.mem_singleton.1 hp ▸ both.2
  | expanded k d as c e ih =>
    obtain ⟨j, p, -, hp, hs⟩ := hs.of_compound rfl
    cases List.mem_singleton.1 hp
    exact ih (ht.part List.mem_cons_self) (e.symm.trans none) hs

end Reading

end PklAnalysis
