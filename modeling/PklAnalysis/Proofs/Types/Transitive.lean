import PklAnalysis.Proofs.Types.Arguments

/-!
# Transitivity

Subtyping composes as long as the type in the middle does not hide `unknown`, which is above and
below everything: `Regular.below_trans`. The proof follows the type in the middle. A compound one
hands the question to its parts (`composes_of_parts`). A simple one meets the left type first, until
that is simple too, and then the right one; the limit of the question for the outer types goes down
with every part of them (`composes_of_simple`). For three class types the arguments of the middle
one are the types in the middle of the next questions (`composes_cls`).
-/

namespace PklAnalysis

namespace Reading

variable (r : Reading)

/-- Types with full argument lists in which no `unknown` appears, however far their aliases are
expanded. That they can be expanded to the end is part of it. -/
inductive Known : Ty → Prop
  | nothing : Known .nothing
  | var (p : NodeRef) (c : Constraints) : Known (.var p c)
  | module (i : ModuleId) (m : Option String) (c : Constraints) : Known (.module i m c)
  | literal (s : String) (c : Constraints) : Known (.literal s c)
  | cls {d : NodeRef} {as : List Ty} (c : Constraints) :
      as.length = (r.params d).length → (∀ a ∈ as, Known a) → Known (.cls d as c)
  | typeAlias {d : NodeRef} {as : List Ty} {c : Constraints} :
      Known (r (.expansion d as c)) → Known (.typeAlias d as c)
  | union {t u : Ty} (c : Constraints) : Known t → Known u → Known (.union t u c)

/-- Whatever is below `b` is below everything above `b`. -/
def Composes (b : Ty) : Prop :=
  ∀ n a c, r.Known a → r.Known c → r.Below a b → r.Below b c → r.sub n a c = true

variable {r}

theorem Known.part {t p : Ty} (ht : r.Known t) (hp : p ∈ r.parts t) : r.Known p := by
  cases ht with
  | typeAlias h => cases List.mem_singleton.1 hp; exact h
  | union c h₁ h₂ =>
    rcases List.mem_cons.1 hp with rfl | hp
    · exact h₁
    · cases List.mem_singleton.1 hp; exact h₂
  | _ => cases hp

theorem Known.args {d : NodeRef} {as : List Ty} {c : Constraints} (h : r.Known (.cls d as c)) :
    as.length = (r.params d).length ∧ ∀ a ∈ as, r.Known a := by
  cases h with
  | cls _ hl ha => exact ⟨hl, ha⟩

theorem Known.ne_unknown {t : Ty} (ht : r.Known t) : t ≠ .unknown := by
  rintro rfl
  cases ht

theorem eq_nothing_of_below {t : Ty} (ht : r.Known t) (h : r.Below t .nothing) : t = .nothing := by
  rcases t.proper_or with hp | hu | hn
  · exact absurd h (not_below_nothing hp)
  · exact absurd hu ht.ne_unknown
  · exact hn

/-- A compound type on the left is below what its parts are below. -/
theorem sub_of_parts_left {n : Nat} {a c : Ty} (ha : a.isCompound = true) (hc : c.Proper)
    (h : ∀ p ∈ r.parts a, r.sub n p c = true) : r.sub (n + 1) a c = true := by
  by_cases hac : a = c
  · rw [hac, sub_self]
  · rw [sub_compound_left _ _ ha hc hac, List.all_eq_true]
    exact h

theorem proper_right {b c : Ty} (hb : b.Proper) (hc : r.Known c) (hbc : r.Below b c) :
    c.Proper := by
  refine ⟨hc.ne_unknown, ?_⟩
  rintro rfl
  exact not_below_nothing hb hbc

namespace Regular

variable (hr : r.Regular)
include hr

theorem known_stringTy : r.Known std.stringTy :=
  .cls [] (by rw [hr.stringParams]; rfl) (fun a ha => absurd ha List.not_mem_nil)

theorem known_moduleTy : r.Known std.moduleTy :=
  .cls [] (by rw [hr.moduleParams]; rfl) (fun a ha => absurd ha List.not_mem_nil)

/-- Above a class without a supertype is this class only. -/
theorem eq_root {a d : NodeRef} (root : r (.supertype a) = none) {as bs : List Ty}
    {c k : Constraints} (h : r.Below (.cls a as c) (.cls d bs k)) : d = a := by
  obtain ⟨p, hp, _⟩ := below_cls_cls.1 h
  obtain ⟨m, hm, hd⟩ := hr.rooted.projectTo_iff.1 hp
  have hpa := eq_of_ascends_root hm root
  rw [← hd, ← hpa]

/-- Only `Any` is above `Any`. -/
theorem eq_any {d : NodeRef} {as bs : List Ty} {c k : Constraints}
    (h : r.Below (.cls std.any as c) (.cls d bs k)) : d = std.any := hr.eq_root hr.top h

/-! ## The type in the middle -/

theorem composes_of_parts {b : Ty} (hb : b.isCompound = true)
    (ih : ∀ p ∈ r.parts b, r.Composes p) : r.Composes b := by
  intro n a c ha hc hab hbc
  have hbp := Ty.proper_of_isCompound hb
  have hcp := proper_right hbp hc hbc
  have hparts := (below_compound_left hr.lawful hb hcp).1 hbc
  induction n generalizing a with
  | zero => rfl
  | succ n ihn =>
    rcases a.shape with rfl | rfl | has | hac
    · exact sub_unknown_left ..
    · exact sub_nothing_left ..
    · -- a simple type is below one of the parts in the middle
      obtain ⟨p, hp, hap⟩ := (below_compound_right hr.lawful has hb).1 hab
      exact ih p hp (n + 1) a c ha hc hap (hparts p hp)
    · refine sub_of_parts_left hac hcp (fun p hp => ?_)
      exact ihn p (ha.part hp) ((below_compound_left hr.lawful hac hbp).1 hab p hp)

/-- If simple types compose around a simple one, then all types do. -/
theorem composes_of_simple {b : Ty} (hb : b.isSimple = true)
    (h : ∀ n, (∀ a c, r.Known a → r.Known c → r.Below a b → r.Below b c → r.sub n a c = true) →
      ∀ a c, a.isSimple = true → c.isSimple = true → r.Known a → r.Known c → r.Below a b →
        r.Below b c → r.sub (n + 1) a c = true) : r.Composes b := by
  intro n
  have hbp := Ty.proper_of_isSimple hb
  induction n with
  | zero => exact fun _ _ _ _ _ _ => rfl
  | succ n ihn =>
    intro a c ha hc hab hbc
    have hcp := proper_right hbp hc hbc
    rcases a.shape with rfl | rfl | has | hac
    · exact sub_unknown_left ..
    · exact sub_nothing_left ..
    · rcases c.shape with rfl | rfl | hcs | hcc
      · exact sub_unknown_right ..
      · exact absurd rfl hcp.2
      · exact h n ihn a c has hcs ha hc hab hbc
      · obtain ⟨p, hp, hbp'⟩ := (below_compound_right hr.lawful hb hcc).1 hbc
        rw [sub_compound_right _ _ has hcc, List.any_eq_true]
        exact ⟨p, hp, ihn a p ha (hc.part hp) hab hbp'⟩
    · refine sub_of_parts_left hac hcp (fun p hp => ?_)
      exact ihn p c (ha.part hp) hc ((below_compound_left hr.lawful hac hbp).1 hab p hp) hbc

/-! ### Simple types in the middle -/

theorem composes_var (q : NodeRef) (k : Constraints) : r.Composes (.var q k) := by
  refine hr.composes_of_simple rfl (fun n _ a c has hcs _ _ hab hbc => ?_)
  have h₂ := hab 2
  have hn := hbc (n + 1)
  -- only the same variable is below a variable
  cases a with
  | var p =>
    rw [sub_var_var, beq_iff_eq] at h₂
    subst h₂
    cases c with
    | var => simpa using hn
    | cls => simpa using hn
    | module | literal => simp at hn
    | _ => cases hcs
  | literal =>
    rw [sub_literal_of_ne _ _ _ _ rfl (fun _ _ => Ty.noConfusion)] at h₂
    simp [Base.stringTy, Base.simple] at h₂
  | cls | module => simp at h₂
  | _ => cases has

theorem composes_literal (s : String) (k : Constraints) : r.Composes (.literal s k) := by
  refine hr.composes_of_simple rfl (fun n _ a c has hcs _ _ hab hbc => ?_)
  have h₁ := hab 1
  have hn := hbc (n + 1)
  -- only the same literal is below a literal
  cases a with
  | literal =>
    rw [sub_literal_literal, beq_iff_eq] at h₁
    subst h₁
    cases c with
    | literal => simpa using hn
    | var | cls | module =>
      rw [sub_literal_of_ne _ _ _ _ hcs (fun _ _ => Ty.noConfusion)] at hn ⊢
      exact hn
    | _ => cases hcs
  | var | cls | module => simp at h₁
  | _ => cases has

theorem composes_module (j : ModuleId) (l : Option String) (k : Constraints) :
    r.Composes (.module j l k) := by
  refine hr.composes_of_simple rfl (fun n _ a c has hcs _ _ hab hbc => ?_)
  have h₂ := hab 2
  have hn := hbc (n + 1)
  cases a with
  | module =>
    rw [sub_module_module] at h₂
    cases c with
    | module =>
      rw [sub_module_module] at hn ⊢
      exact moduleExtends_trans hr.modules h₂ hn
    | cls => simpa using hn
    | var | literal => simp at hn
    | _ => cases hcs
  | literal =>
    rw [sub_literal_of_ne _ _ _ _ rfl (fun _ _ => Ty.noConfusion)] at h₂
    simp [Base.stringTy, Base.simple] at h₂
  | var | cls => simp at h₂
  | _ => cases has

/-- The arguments of the class in the middle are the types in the middle of the questions about
arguments; a parameter that varies the other way only swaps the outer types. -/
theorem sub_cls_of_args {n : Nat} {d e g : NodeRef} {as bs cs : List Ty} {c₁ c₂ c₃ : Constraints}
    (ha : r.Known (.cls d as c₁)) (hb : r.Known (.cls e bs c₂)) (hc : r.Known (.cls g cs c₃))
    (ih : ∀ b ∈ bs, r.Composes b) (hab : r.Below (.cls d as c₁) (.cls e bs c₂))
    (hbc : r.Below (.cls e bs c₂) (.cls g cs c₃)) :
    r.sub (n + 1) (.cls d as c₁) (.cls g cs c₃) = true := by
  obtain ⟨p, hp, hpb⟩ := below_cls_cls.1 hab
  obtain ⟨q, hq, hqc⟩ := below_cls_cls.1 hbc
  obtain ⟨m, hm, rfl⟩ := hr.rooted.projectTo_iff.1 hp
  obtain ⟨l, hl, rfl⟩ := hr.rooted.projectTo_iff.1 hq
  cases ha with
  | cls _ hla has =>
    cases hb with
    | cls _ hlb _ =>
      cases hc with
      | cls _ _ hcs =>
        -- the ancestor of the left type has full arguments, which are arguments of that type
        obtain ⟨_, _, _, _, hlp, _, _, hpa⟩ :=
          hr.conform_ascends hm rfl hla hla (conform_self (fun _ => rfl) _ as)
        obtain ⟨p', hp', hd, _, hlq, hpq, hpp, hqb⟩ := hr.conform_ascends (p := p) hl rfl hlp hlb hpb
        refine sub_cls_cls.2 ⟨p', hr.rooted.projectTo_iff.2 ⟨m + l, hm.trans hp', hd⟩, ?_⟩
        have known : ∀ x ∈ p'.args ++ cs, r.Known x := by
          intro x hx
          rcases List.mem_append.1 hx with hx | hx
          · exact has x (hpa x (hpp x hx))
          · exact hcs x hx
        refine hpq.trans (fun y hy a ha c hc => ?_) hlq hqc
        exact ih y (hqb y hy) n a c (known a ha) (known c hc)

theorem composes_cls {e : NodeRef} {bs : List Ty} {k : Constraints} (hb : r.Known (.cls e bs k))
    (ih : ∀ b ∈ bs, r.Composes b) : r.Composes (.cls e bs k) := by
  refine hr.composes_of_simple rfl (fun n ihn a c has hcs ha hc hab hbc => ?_)
  have hn := hbc (n + 1)
  cases c with
  | cls g cs kc =>
    cases a with
    | var p =>
      -- only `Any` is above a variable, and only `Any` is above `Any`
      have h₁ := hab 1
      rw [sub_var_cls, beq_iff_eq] at h₁
      subst h₁
      rw [sub_var_cls, beq_iff_eq]
      exact hr.eq_any hbc
    | literal s =>
      rw [sub_literal_cls]
      refine ihn _ _ hr.known_stringTy hc (fun m => ?_) hbc
      have hm := hab (m + 1)
      rwa [sub_literal_cls] at hm
    | module i m =>
      rw [sub_module_cls]
      refine ihn _ _ hr.known_moduleTy hc (fun m => ?_) hbc
      have hm := hab (m + 1)
      rwa [sub_module_cls] at hm
    | cls d as ka => exact hr.sub_cls_of_args ha hb hc ih hab hbc
    | _ => cases has
  | var | module | literal => simp at hn
  | _ => cases hcs

theorem composes {b : Ty} (hb : r.Known b) : r.Composes b := by
  induction hb with
  | nothing =>
    intro n a c ha _ hab _
    rw [eq_nothing_of_below ha hab, sub_nothing_left]
  | var p c => exact hr.composes_var p c
  | module i m c => exact hr.composes_module i m c
  | literal s c => exact hr.composes_literal s c
  | cls c hl has ih => exact hr.composes_cls (.cls c hl has) ih
  | typeAlias _ ih =>
    refine hr.composes_of_parts rfl (fun p hp => ?_)
    cases List.mem_singleton.1 hp
    exact ih
  | union c _ _ ih₁ ih₂ =>
    refine hr.composes_of_parts rfl (fun p hp => ?_)
    rcases List.mem_cons.1 hp with rfl | hp
    · exact ih₁
    · cases List.mem_singleton.1 hp
      exact ih₂

/-- Subtyping is transitive away from `unknown`. -/
theorem below_trans {a b c : Ty} (ha : r.Known a) (hb : r.Known b) (hc : r.Known c)
    (hab : r.Below a b) (hbc : r.Below b c) : r.Below a c :=
  fun n => hr.composes hb n a c ha hc hab hbc

end Regular

end Reading

end PklAnalysis
