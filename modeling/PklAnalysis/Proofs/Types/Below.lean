import PklAnalysis.Proofs.Types.Shapes

/-!
# Subtyping without the depth limit

The depth limit of a subtype query answers yes, so a higher limit only turns yes into no
(`sub_of_succ`). `r.Below t u` says that the answer is yes for every limit: no limit is the reason
for it. Every rule about compound types is about parts:

* `below_compound_left`: all parts of a compound type are below `u`;
* `below_compound_right`: a simple type is below some part;
* `below_of_fits`: whatever is below a part is below the whole, and constraints take no part in it.
-/

namespace PklAnalysis

namespace Ty

/-- The same type up to the constraints at its top. -/
def Alike (t u : Ty) : Prop := t.withoutConstraints = u.withoutConstraints

@[simp] theorem withoutConstraints_addConstraints (t : Ty) (c : Constraints) :
    (t.addConstraints c).withoutConstraints = t.withoutConstraints := by
  cases t <;> rfl

theorem Alike.isCompound {t u : Ty} (h : t.Alike u) : u.isCompound = t.isCompound := by
  have key : ∀ v : Ty, v.withoutConstraints.isCompound = v.isCompound := by
    intro v
    cases v <;> rfl
  rw [← key u, ← key t, h]

theorem Alike.isSimple {t u : Ty} (h : t.Alike u) : u.isSimple = t.isSimple := by
  have key : ∀ v : Ty, v.withoutConstraints.isSimple = v.isSimple := by
    intro v
    cases v <;> rfl
  rw [← key u, ← key t, h]

theorem Alike.eq_unknown {u : Ty} (h : Ty.unknown.Alike u) : u = .unknown := by
  cases u <;> first | rfl | exact nomatch h

theorem Alike.eq_nothing {t : Ty} (h : t.Alike .nothing) : t = .nothing := by
  cases t <;> first | rfl | exact nomatch h

theorem alike_addConstraints (t : Ty) (c k : Constraints) :
    (t.addConstraints c).Alike (t.addConstraints k) := by
  unfold Alike
  rw [withoutConstraints_addConstraints, withoutConstraints_addConstraints]

end Ty

/-- A decreasing condition that holds of some member at every stage holds of one member at all. -/
theorem exists_forall_of_antitone {α : Type} {P : Nat → α → Prop}
    (anti : ∀ n a, P (n + 1) a → P n a) {l : List α} (h : ∀ n, ∃ a ∈ l, P n a) :
    ∃ a ∈ l, ∀ n, P n a := by
  have mono : ∀ n k a, P (n + k) a → P n a := by
    intro n k
    induction k with
    | zero => exact fun a ha => ha
    | succ k ih => exact fun a ha => ih a (anti (n + k) a ha)
  induction l with
  | nil => obtain ⟨a, ha, _⟩ := h 0; cases ha
  | cons a l ih =>
    by_cases hl : ∀ n, ∃ b ∈ l, P n b
    · obtain ⟨b, hb, hP⟩ := ih hl
      exact ⟨b, List.mem_cons_of_mem a hb, hP⟩
    · obtain ⟨m, hm⟩ := Classical.not_forall.1 hl
      refine ⟨a, List.mem_cons_self, fun n => ?_⟩
      obtain ⟨b, hb, hP⟩ := h (n + m)
      rcases List.mem_cons.1 hb with rfl | hb
      · exact mono n m b hP
      · exact absurd ⟨b, hb, mono m n b (Nat.add_comm n m ▸ hP)⟩ hm

namespace Reading

variable (r : Reading)

/-- Subtyping for which no limit is the reason. -/
def Below (t u : Ty) : Prop := ∀ n, r.sub n t u = true

/-- The constraints of an alias type only end up behind those of what it stands for. -/
def Lawful : Prop :=
  ∀ d as c, r (.expansion d as c) = (r (.expansion d as [])).addConstraints c

/-- Alike, or alike to something that the right side is made of. -/
inductive Fits : Ty → Ty → Prop
  | alike {t u : Ty} : t.Alike u → Fits t u
  | part {t p u : Ty} : p ∈ r.parts u → Fits t p → Fits t u

variable {r}

/-! ## The limit -/

theorem sub_of_succ {n : Nat} {t u : Ty} (h : r.sub (n + 1) t u = true) : r.sub n t u = true := by
  induction n generalizing t u with
  | zero => rfl
  | succ n ih =>
    by_cases hne : t = u
    · rw [hne, sub_self]
    rcases t.shape with rfl | rfl | ht | ht
    · exact sub_unknown_left ..
    · exact sub_nothing_left ..
    · rcases u.shape with rfl | rfl | hu | hu
      · exact sub_unknown_right ..
      · rw [sub_nothing_right _ _ (Ty.proper_of_isSimple ht)] at h
        cases h
      · cases t with
        | cls d as c =>
          cases u with
          | cls e bs k =>
            obtain ⟨p, hp, hc⟩ := sub_cls_cls.1 h
            exact sub_cls_cls.2 ⟨p, hp, hc.mono (fun x y => ih)⟩
          | var | module | literal => simp at h
          | _ => cases hu
        | literal s c =>
          cases u with
          | literal => simpa using h
          | var | cls | module =>
            rw [sub_literal_of_ne _ _ _ _ hu (fun _ _ => Ty.noConfusion)] at h ⊢
            exact ih h
          | _ => cases hu
        | module i m c =>
          cases u with
          | cls =>
            rw [sub_module_cls] at h ⊢
            exact ih h
          | module => simpa using h
          | var | literal => simp at h
          | _ => cases hu
        | var =>
          cases u with
          | var | cls => simpa using h
          | module | literal => simp at h
          | _ => cases hu
        | _ => cases ht
      · rw [sub_compound_right _ _ ht hu, List.any_eq_true] at h ⊢
        obtain ⟨a, ha, hs⟩ := h
        exact ⟨a, ha, ih hs⟩
    · by_cases hu : u.Proper
      · rw [sub_compound_left _ _ ht hu hne, List.all_eq_true] at h ⊢
        exact fun a ha => ih (h a ha)
      · rcases u.shape with rfl | rfl | hs | hs
        · exact sub_unknown_right ..
        · rw [sub_nothing_right _ _ (Ty.proper_of_isCompound ht)] at h
          cases h
        · exact absurd (Ty.proper_of_isSimple hs) hu
        · exact absurd (Ty.proper_of_isCompound hs) hu

theorem sub_of_le {m n : Nat} (hmn : m ≤ n) {t u : Ty} (h : r.sub n t u = true) :
    r.sub m t u = true := by
  obtain ⟨k, rfl⟩ := Nat.exists_eq_add_of_le hmn
  induction k with
  | zero => exact h
  | succ k ih => exact ih (Nat.le_add_right m k) (sub_of_succ h)

/-! ## Parts and constraints -/

theorem isCompound_of_mem_parts {t p : Ty} (h : p ∈ r.parts t) : t.isCompound = true := by
  cases t <;> first | rfl | exact absurd h List.not_mem_nil

/-- Alike types have alike parts. -/
theorem alike_parts (hr : r.Lawful) {t u p : Ty} (h : t.Alike u) (hp : p ∈ r.parts t) :
    ∃ q ∈ r.parts u, p.Alike q := by
  cases t with
  | typeAlias d as c =>
    cases u with
    | typeAlias e bs k =>
      cases h
      cases List.mem_singleton.1 hp
      refine ⟨_, List.mem_singleton.2 rfl, ?_⟩
      rw [hr d as c, hr d as k]
      exact Ty.alike_addConstraints _ c k
    | _ => cases h
  | union a b c =>
    cases u with
    | union a' b' k => cases h; exact ⟨p, hp, rfl⟩
    | _ => cases h
  | _ => cases hp

/-- On the right side the constraints of a simple type are not looked at. -/
theorem sub_right_alike {n : Nat} {t u v : Ty} (ht : t.isSimple = true) (hu : u.isSimple = true)
    (h : u.Alike v) (hs : r.sub n t u = true) : r.sub n t v = true := by
  induction n generalizing t with
  | zero => rfl
  | succ n ih =>
    cases u with
    | var q k =>
      cases v with
      | var q' k' =>
        cases h
        cases t with
        | var => simpa using hs
        | literal =>
          rw [sub_literal_of_ne _ _ _ _ rfl (fun _ _ => Ty.noConfusion)] at hs ⊢
          exact ih rfl hs
        | cls | module => simp at hs
        | _ => cases ht
      | _ => cases h
    | cls e bs k =>
      cases v with
      | cls e' bs' k' =>
        cases h
        cases t with
        | var => simpa using hs
        | literal =>
          rw [sub_literal_cls] at hs ⊢
          exact ih rfl hs
        | cls => exact sub_cls_cls.2 (sub_cls_cls.1 hs)
        | module =>
          rw [sub_module_cls] at hs ⊢
          exact ih rfl hs
        | _ => cases ht
      | _ => cases h
    | module j l k =>
      cases v with
      | module j' l' k' =>
        cases h
        cases t with
        | module => simpa using hs
        | literal =>
          rw [sub_literal_of_ne _ _ _ _ rfl (fun _ _ => Ty.noConfusion)] at hs ⊢
          exact ih rfl hs
        | cls | var => simp at hs
        | _ => cases ht
      | _ => cases h
    | literal b k =>
      cases v with
      | literal b' k' =>
        cases h
        cases t with
        | literal => simpa using hs
        | cls | var | module => simp at hs
        | _ => cases ht
      | _ => cases h
    | _ => cases hu

theorem Fits.eq_nothing {a : Ty} (h : r.Fits a .nothing) : a = .nothing := by
  cases h with
  | alike h => exact h.eq_nothing
  | part hp _ => cases hp

/-- What a type is made of fits where the type fits. -/
theorem Fits.of_part (hr : r.Lawful) {t u p : Ty} (h : r.Fits t u) (hp : p ∈ r.parts t) :
    r.Fits p u := by
  induction h with
  | alike h =>
    obtain ⟨q, hq, hpq⟩ := alike_parts hr h hp
    exact .part hq (.alike hpq)
  | part hq _ ih => exact .part hq ih

/-- Whatever is below a type is below every type that it fits into. -/
theorem sub_of_fits (hr : r.Lawful) {n : Nat} {t a u : Ty} (h : r.Fits a u)
    (hs : r.sub n t a = true) : r.sub n t u = true := by
  induction n generalizing t a u with
  | zero => rfl
  | succ n ih =>
    by_cases hne : t = u
    · rw [hne, sub_self]
    have hs' := sub_of_succ hs
    rcases t.shape with rfl | rfl | ht | ht
    · exact sub_unknown_left ..
    · exact sub_nothing_left ..
    · cases h with
      | part hp hf =>
        rw [sub_compound_right _ _ ht (isCompound_of_mem_parts hp), List.any_eq_true]
        exact ⟨_, hp, ih hf hs'⟩
      | alike h =>
        rcases a.shape with rfl | rfl | ha | ha
        · rw [h.eq_unknown]
          exact sub_unknown_right ..
        · rw [sub_nothing_right _ _ (Ty.proper_of_isSimple ht)] at hs
          cases hs
        · exact sub_right_alike ht ha h hs
        · rw [sub_compound_right _ _ ht ha, List.any_eq_true] at hs
          obtain ⟨p, hp, hs⟩ := hs
          obtain ⟨q, hq, hpq⟩ := alike_parts hr h hp
          rw [sub_compound_right _ _ ht (h.isCompound.trans ha), List.any_eq_true]
          exact ⟨q, hq, ih (.alike hpq) hs⟩
    · by_cases hu : u.Proper
      · rw [sub_compound_left _ _ ht hu hne, List.all_eq_true]
        intro p hp
        rcases Ty.proper_or a with ha | rfl | rfl
        · by_cases hta : t = a
          · subst hta
            exact ih (h.of_part hr hp) (r.sub_self n p)
          · rw [sub_compound_left _ _ ht ha hta, List.all_eq_true] at hs
            exact ih h (hs p hp)
        · exact ih h (r.sub_unknown_right n p)
        · rw [sub_nothing_right _ _ (Ty.proper_of_isCompound ht)] at hs
          cases hs
      · rcases Ty.proper_or u with hu' | rfl | rfl
        · exact absurd hu' hu
        · exact sub_unknown_right ..
        · cases h.eq_nothing
          exact hs

theorem Fits.of_alike {t a u : Ty} (ht : t.Alike a) (h : r.Fits a u) : r.Fits t u := by
  induction h with
  | alike h => exact .alike (ht.trans h)
  | part hp _ ih => exact .part hp ih

/-- The parts of a compound type are below everything that the type is below. -/
theorem sub_of_mem_parts (hr : r.Lawful) {n : Nat} {t u p : Ty} (hu : u ≠ .nothing)
    (hp : p ∈ r.parts t) (h : r.sub (n + 1) t u = true) : r.sub n p u = true := by
  rcases u.proper_or with hu' | rfl | rfl
  · by_cases hne : t = u
    · exact sub_of_fits hr (.part (hne ▸ hp) (.alike rfl)) (r.sub_self n p)
    · rw [sub_compound_left _ _ (isCompound_of_mem_parts hp) hu' hne, List.all_eq_true] at h
      exact h p hp
  · exact sub_unknown_right ..
  · exact absurd rfl hu

/-- A compound type is below everything that its parts are below. -/
theorem sub_succ_of_parts {n : Nat} {t u : Ty} (ht : t.isCompound = true) (hu : u ≠ .nothing)
    (h : ∀ p ∈ r.parts t, r.sub n p u = true) : r.sub (n + 1) t u = true := by
  rcases u.proper_or with hu' | rfl | rfl
  · by_cases hne : t = u
    · rw [hne, sub_self]
    · rw [sub_compound_left _ _ ht hu' hne, List.all_eq_true]
      exact h
  · exact sub_unknown_right ..
  · exact absurd rfl hu

/-- A simple type is below a compound one if it is below some part of it. -/
theorem exists_part_of_sub {n : Nat} {t u : Ty} (ht : t.isSimple = true) (hu : u.isCompound = true)
    (h : r.sub (n + 1) t u = true) : ∃ p ∈ r.parts u, r.sub n t p = true := by
  rwa [sub_compound_right _ _ ht hu, List.any_eq_true] at h

/-! ## The left side -/

/-- The arguments at an ancestor do not hang on the constraints of a class type, and not on
arguments that nothing is bound to. -/
theorem projectTo_args {d e : NodeRef} {as bs : List Ty} {c k : Constraints} {p : ClassTy}
    (hd : as = bs ∨ r.params d = []) (hp : (ClassTy.projectTo ⟨d, as, c⟩ e).value r = some p) :
    ∃ q, (ClassTy.projectTo ⟨d, bs, k⟩ e).value r = some q ∧
      (p.args = q.args ∨ r.params e = []) := by
  have same : r.parent ⟨d, as, c⟩ = r.parent ⟨d, bs, k⟩ := by
    have bound : r.bindings d as = r.bindings d bs := by
      rcases hd with rfl | hd
      · rfl
      · rw [bindings_eq, bindings_eq, hd]
        rfl
    cases hs : r (.supertype d) with
    | none => simp only [parent_eq, hs]
    | some s => simp only [parent_eq, hs, bound]
  change (ClassTy.projectFrom e (99 + 1) [] _).value r = some p at hp
  show ∃ q, (ClassTy.projectFrom e (99 + 1) [] _).value r = some q ∧ _
  rw [projectFrom_succ] at hp ⊢
  by_cases hde : d = e
  · rw [if_pos hde] at hp ⊢
    cases hp
    exact ⟨_, rfl, hd.imp id (fun h => hde ▸ h)⟩
  · rw [if_neg hde, if_neg (by simp), same] at hp
    rw [if_neg hde, if_neg (by simp)]
    exact ⟨p, hp, .inl rfl⟩

theorem sub_cls_left {n : Nat} {d : NodeRef} {as bs : List Ty} {c : Constraints} (k : Constraints)
    {u : Ty} (hd : as = bs ∨ r.params d = []) (h : r.sub n (.cls d as c) u = true) :
    r.sub n (.cls d bs k) u = true := by
  induction n generalizing u with
  | zero => rfl
  | succ n ih =>
    rcases u.shape with rfl | rfl | hu | hu
    · exact sub_unknown_right ..
    · rw [sub_nothing_right _ _ (Ty.proper_of_isSimple rfl)] at h
      cases h
    · cases u with
      | cls e es f =>
        obtain ⟨p, hp, hc⟩ := sub_cls_cls.1 h
        obtain ⟨q, hq, he⟩ := @projectTo_args r d e as bs c k p hd hp
        refine sub_cls_cls.2 ⟨q, hq, ?_⟩
        rcases he with he | he
        · rwa [← he]
        · rw [he]
          trivial
      | var | module | literal => simp at h
      | _ => cases hu
    · rw [sub_compound_right _ _ rfl hu, List.any_eq_true] at h ⊢
      obtain ⟨p, hp, h⟩ := h
      exact ⟨p, hp, ih h⟩

/-- Constraints take no part in it on the left side either. -/
theorem sub_left_alike (hr : r.Lawful) {n : Nat} {t v u : Ty} (h : t.Alike v)
    (hs : r.sub n t u = true) : r.sub n v u = true := by
  induction n generalizing t v u with
  | zero => rfl
  | succ n ih =>
    rcases u.proper_or with hu | rfl | rfl
    · rcases t.shape with rfl | rfl | ht | ht
      · rw [h.eq_unknown]
        exact sub_unknown_left ..
      · rw [Ty.Alike.eq_nothing h.symm]
        exact sub_nothing_left ..
      · rcases u.shape with rfl | rfl | hu' | hu'
        · exact absurd rfl hu.1
        · exact absurd rfl hu.2
        · cases t with
          | cls =>
            cases v with
            | cls => cases h; exact sub_cls_left _ (.inl rfl) hs
            | _ => cases h
          | literal =>
            cases v with
            | literal =>
              cases h
              cases u with
              | literal => simpa using hs
              | var | cls | module =>
                rw [sub_literal_of_ne _ _ _ _ hu' (fun _ _ => Ty.noConfusion)] at hs ⊢
                exact hs
              | _ => cases hu'
            | _ => cases h
          | var =>
            cases v with
            | var =>
              cases h
              cases u with
              | var | cls => simpa using hs
              | module | literal => simp at hs
              | _ => cases hu'
            | _ => cases h
          | module =>
            cases v with
            | module =>
              cases h
              cases u with
              | module | cls => simpa using hs
              | var | literal => simp at hs
              | _ => cases hu'
            | _ => cases h
          | _ => cases ht
        · have hv : v.isSimple = true := h.isSimple.trans ht
          obtain ⟨p, hp, hs⟩ := exists_part_of_sub ht hu' hs
          rw [sub_compound_right _ _ hv hu', List.any_eq_true]
          exact ⟨p, hp, ih h hs⟩
      · refine sub_succ_of_parts (h.isCompound.trans ht) hu.2 (fun q hq => ?_)
        obtain ⟨p, hp, hpq⟩ := alike_parts hr h.symm hq
        exact ih hpq.symm (sub_of_mem_parts hr hu.2 hp hs)
    · exact sub_unknown_right ..
    · rcases t.proper_or with ht | rfl | rfl
      · rw [sub_nothing_right _ _ ht] at hs
        cases hs
      · rw [h.eq_unknown]
        exact sub_unknown_left ..
      · rw [Ty.Alike.eq_nothing h.symm]
        exact sub_nothing_left ..

/-! ## Rules -/

theorem below_self (t : Ty) : r.Below t t := fun n => r.sub_self n t

theorem below_unknown_right (t : Ty) : r.Below t .unknown := fun n => r.sub_unknown_right n t

theorem below_nothing_left (u : Ty) : r.Below .nothing u := fun n => r.sub_nothing_left n u

theorem not_below_nothing {t : Ty} (ht : t.Proper) : ¬ r.Below t .nothing := by
  intro h
  have h1 := h 1
  rw [sub_nothing_right _ _ ht] at h1
  cases h1

theorem below_of_fits (hr : r.Lawful) {t a u : Ty} (h : r.Fits a u) (hs : r.Below t a) :
    r.Below t u := fun n => sub_of_fits hr h (hs n)

theorem below_of_mem_parts (hr : r.Lawful) {t p u : Ty} (hp : p ∈ r.parts u) (hs : r.Below t p) :
    r.Below t u := below_of_fits hr (.part hp (.alike rfl)) hs

theorem below_compound_left (hr : r.Lawful) {t u : Ty} (ht : t.isCompound = true) (hu : u.Proper) :
    r.Below t u ↔ ∀ p ∈ r.parts t, r.Below p u := by
  by_cases hne : t = u
  · subst hne
    exact ⟨fun _ p hp => below_of_mem_parts hr hp (below_self p), fun _ => below_self t⟩
  · constructor
    · intro h p hp n
      have hn := h (n + 1)
      rw [sub_compound_left _ _ ht hu hne, List.all_eq_true] at hn
      exact hn p hp
    · intro h n
      apply sub_of_succ
      rw [sub_compound_left _ _ ht hu hne, List.all_eq_true]
      exact fun p hp => h p hp n

/-- The parts of a compound type are below everything that the type is below. -/
theorem below_of_part (hr : r.Lawful) {w v p : Ty} (hp : p ∈ r.parts w) (h : r.Below w v) :
    r.Below p v := by
  have hw := isCompound_of_mem_parts hp
  rcases v.proper_or with hv | rfl | rfl
  · exact (below_compound_left hr hw hv).1 h p hp
  · exact below_unknown_right p
  · exact absurd h (not_below_nothing (Ty.proper_of_isCompound hw))

theorem below_compound_right (hr : r.Lawful) {t u : Ty} (ht : t.isSimple = true)
    (hu : u.isCompound = true) : r.Below t u ↔ ∃ p ∈ r.parts u, r.Below t p := by
  constructor
  · intro h
    refine exists_forall_of_antitone (fun n p => sub_of_succ) (fun n => ?_)
    have hn := h (n + 1)
    rwa [sub_compound_right _ _ ht hu, List.any_eq_true] at hn
  · rintro ⟨p, hp, h⟩
    exact below_of_mem_parts hr hp h

theorem below_cls_cls {d e : NodeRef} {as bs : List Ty} {c k : Constraints} :
    r.Below (.cls d as c) (.cls e bs k) ↔
      ∃ p, (ClassTy.projectTo ⟨d, as, c⟩ e).value r = some p ∧
        Conform r.Below (r.params e) p.args bs := by
  constructor
  · intro h
    obtain ⟨p, hp, _⟩ := sub_cls_cls.1 (h 1)
    refine ⟨p, hp, conform_forall.2 (fun n => ?_)⟩
    obtain ⟨q, hq, hc⟩ := sub_cls_cls.1 (h (n + 1))
    rw [hp] at hq
    cases hq
    exact hc
  · rintro ⟨p, hp, hc⟩ n
    exact sub_of_succ (sub_cls_cls.2 ⟨p, hp, conform_forall.1 hc n⟩)

end Reading

end PklAnalysis
