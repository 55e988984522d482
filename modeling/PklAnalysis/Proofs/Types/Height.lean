import PklAnalysis.Proofs.Types.Questions
import PklAnalysis.Proofs.Types.Transitive

/-!
# Heights

How many questions a subtype query nests is bounded by the heights of the two types, with every
alias expanded. Where the limit leaves room for both, it is not the reason for a yes
(`Regular.below_of_height`), and the query asks for expansions of the aliases in the types only
(`Regular.asks_of_height`).
-/

namespace PklAnalysis

namespace Reading

variable (r : Reading) (P : Question → Prop)

/-- Types that are known in the sense of `Known`, at most so high, and whose aliases are expanded by
questions with the property `P`. A literal and a module count for the class they stand for. -/
inductive Height : Nat → Ty → Prop
  | nothing (n : Nat) : Height n .nothing
  | var (n : Nat) (p : NodeRef) (c : Constraints) : Height n (.var p c)
  | module (n : Nat) (i : ModuleId) (m : Option String) (c : Constraints) :
      Height (n + 1) (.module i m c)
  | literal (n : Nat) (s : String) (c : Constraints) : Height (n + 1) (.literal s c)
  | plain (n : Nat) {d : NodeRef} (c : Constraints) : r.params d = [] → Height n (.cls d [] c)
  | cls {n : Nat} {d : NodeRef} {as : List Ty} (c : Constraints) :
      as.length = (r.params d).length → (∀ a ∈ as, Height n a) → Height (n + 1) (.cls d as c)
  | typeAlias {n : Nat} {d : NodeRef} {as : List Ty} {c : Constraints} :
      P (.expansion d as c) → Height n (r (.expansion d as c)) → Height (n + 1) (.typeAlias d as c)
  | union {n : Nat} {t u : Ty} (c : Constraints) :
      Height n t → Height n u → Height (n + 1) (.union t u c)

variable {r P}

theorem Height.known {n : Nat} {t : Ty} (h : r.Height P n t) : r.Known t := by
  induction h with
  | nothing => exact .nothing
  | var _ p c => exact .var p c
  | module _ i m c => exact .module i m c
  | literal _ s c => exact .literal s c
  | plain _ c hp => exact .cls c (by rw [hp]; rfl) (fun a ha => absurd ha List.not_mem_nil)
  | cls c hl _ ih => exact .cls c hl ih
  | typeAlias _ _ ih => exact .typeAlias ih
  | union c _ _ ih₁ ih₂ => exact .union c ih₁ ih₂

theorem Height.succ {n : Nat} {t : Ty} (h : r.Height P n t) : r.Height P (n + 1) t := by
  induction h with
  | nothing n => exact .nothing (n + 1)
  | var n p c => exact .var (n + 1) p c
  | module n i m c => exact .module (n + 1) i m c
  | literal n s c => exact .literal (n + 1) s c
  | plain n c hp => exact .plain (n + 1) c hp
  | cls c hl _ ih => exact .cls c hl ih
  | typeAlias hP _ ih => exact .typeAlias hP ih
  | union c _ _ ih₁ ih₂ => exact .union c ih₁ ih₂

/-- Constraints add nothing to the height. -/
theorem Height.addConstraints (hr : r.Lawful) (hP : ∀ d as c, P (.expansion d as c)) {n : Nat}
    {t : Ty} (h : r.Height P n t) (c : Constraints) : r.Height P n (t.addConstraints c) := by
  induction h with
  | nothing n => exact .nothing n
  | var n p _ => exact .var n p _
  | plain n _ hp => exact .plain n _ hp
  | module n i m _ => exact .module n i m _
  | literal n s _ => exact .literal n s _
  | cls _ hl ha _ => exact .cls _ hl ha
  | @typeAlias n d as k _ _ ih =>
    refine .typeAlias (hP d as _) ?_
    rw [hr d as k, Ty.addConstraints_append, ← hr d as (k ++ c)] at ih
    exact ih
  | union _ h₁ h₂ => exact .union _ h₁ h₂

/-- What a compound type stands for is lower. -/
theorem Height.part {n : Nat} {t p : Ty} (h : r.Height P n t) (hp : p ∈ r.parts t) :
    ∃ m, n = m + 1 ∧ r.Height P m p := by
  cases h with
  | @typeAlias n _ _ _ _ h => cases List.mem_singleton.1 hp; exact ⟨n, rfl, h⟩
  | @union n _ _ c h₁ h₂ =>
    rcases List.mem_cons.1 hp with rfl | hp
    · exact ⟨n, rfl, h₁⟩
    · cases List.mem_singleton.1 hp; exact ⟨n, rfl, h₂⟩
  | _ => cases hp

/-- The arguments of a class type are lower. -/
theorem Height.arg {n : Nat} {d : NodeRef} {as : List Ty} {c : Constraints} {a : Ty}
    (h : r.Height P n (.cls d as c)) (ha : a ∈ as) : ∃ m, n = m + 1 ∧ r.Height P m a := by
  cases h with
  | plain => cases ha
  | @cls n _ _ _ _ h => exact ⟨n, rfl, h a ha⟩

theorem Height.of_literal {n : Nat} {s : String} {c : Constraints}
    (h : r.Height P n (.literal s c)) : ∃ m, n = m + 1 := by
  cases h with
  | literal m => exact ⟨m, rfl⟩

theorem Height.of_module {n : Nat} {i : ModuleId} {l : Option String} {c : Constraints}
    (h : r.Height P n (.module i l c)) : ∃ m, n = m + 1 := by
  cases h with
  | module m => exact ⟨m, rfl⟩

theorem Height.length_args {n : Nat} {d : NodeRef} {as : List Ty} {c : Constraints}
    (h : r.Height P n (.cls d as c)) : as.length = (r.params d).length := by
  cases h with
  | plain _ _ hp => rw [hp]; rfl
  | cls _ hl _ => exact hl

namespace Regular

variable (hr : r.Regular)
include hr

/-- The arguments at an ancestor are arguments of the class type. -/
theorem args_of_projectTo {d e : NodeRef} {as : List Ty} {c : Constraints} {p : ClassTy}
    (hl : as.length = (r.params d).length)
    (hp : (ClassTy.projectTo ⟨d, as, c⟩ e).value r = some p) : ∀ x ∈ p.args, x ∈ as := by
  obtain ⟨m, hm, _⟩ := hr.rooted.projectTo_iff.1 hp
  obtain ⟨_, _, _, _, _, _, _, h⟩ :=
    hr.conform_ascends hm rfl hl hl (conform_self (fun _ => rfl) _ as)
  exact h

/-- If the limit leaves room for both types, it is not the reason for a yes. -/
theorem below_of_height {n m k : Nat} {t u : Ty} (ht : r.Height P m t) (hu : r.Height P k u)
    (hn : m + k < n) (h : r.sub n t u = true) : r.Below t u := by
  induction n generalizing m k t u with
  | zero => omega
  | succ n ih =>
    by_cases hne : t = u
    · rw [hne]; exact below_self u
    have step : (∀ j, r.sub (j + 1) t u = true) → r.Below t u := fun h j => sub_of_succ (h j)
    rcases t.shape with rfl | rfl | hts | htc
    · exact absurd rfl ht.known.ne_unknown
    · exact below_nothing_left u
    · rcases u.shape with rfl | rfl | hus | huc
      · exact below_unknown_right t
      · rw [sub_nothing_right _ _ (Ty.proper_of_isSimple hts)] at h
        cases h
      · cases t with
        | var =>
          cases u with
          | var | cls => exact step (fun j => by simpa using h)
          | module | literal => simp at h
          | _ => cases hus
        | literal s c =>
          obtain ⟨m, rfl⟩ := ht.of_literal
          cases u with
          | literal => exact step (fun j => by simpa using h)
          | cls =>
            rw [sub_literal_cls] at h
            have hb := ih (.plain 0 [] hr.stringParams) hu (by omega) h
            exact step (fun j => by rw [sub_literal_cls]; exact hb j)
          | var | module =>
            obtain ⟨n, rfl⟩ : ∃ j, n = j + 1 := Nat.exists_eq_succ_of_ne_zero (by omega)
            rw [sub_literal_of_ne _ _ _ _ rfl (fun _ _ => Ty.noConfusion)] at h
            simp [Base.stringTy, Base.simple] at h
          | _ => cases hus
        | module i l c =>
          obtain ⟨m, rfl⟩ := ht.of_module
          cases u with
          | module => exact step (fun j => by simpa using h)
          | cls =>
            rw [sub_module_cls] at h
            have hb := ih (.plain 0 [] hr.moduleParams) hu (by omega) h
            exact step (fun j => by rw [sub_module_cls]; exact hb j)
          | var | literal => simp at h
          | _ => cases hus
        | cls d as c =>
          cases u with
          | cls e bs k =>
            obtain ⟨p, hp, hc⟩ := sub_cls_cls.1 h
            refine below_cls_cls.2 ⟨p, hp, hc.of_members (fun x hx y hy => ?_)⟩
            obtain ⟨m, rfl, hm⟩ := ht.arg (hr.args_of_projectTo ht.length_args hp x hx)
            obtain ⟨k, rfl, hk⟩ := hu.arg hy
            exact ⟨ih hm hk (by omega), ih hk hm (by omega)⟩
          | var | module | literal => simp at h
          | _ => cases hus
        | _ => cases hts
      · rw [sub_compound_right _ _ hts huc, List.any_eq_true] at h
        obtain ⟨p, hp, h⟩ := h
        obtain ⟨k, rfl, hk⟩ := hu.part hp
        exact below_of_mem_parts hr.lawful hp (ih ht hk (by omega) h)
    · rcases u.proper_or with hup | rfl | rfl
      · rw [sub_compound_left _ _ htc hup hne, List.all_eq_true] at h
        refine (below_compound_left hr.lawful htc hup).2 (fun p hp => ?_)
        obtain ⟨m, rfl, hm⟩ := ht.part hp
        exact ih hm hu (by omega) (h p hp)
      · exact below_unknown_right t
      · rw [sub_nothing_right _ _ (Ty.proper_of_isCompound htc)] at h
        cases h

/-! ## Questions of a subtype query -/

/-- Types of whatever height are closed under what subtype queries get to. -/
theorem closed_height : r.Closed P (fun t => ∃ m, r.Height P m t) where
  expansion := by
    rintro d as c ⟨m, h⟩
    cases h with
    | typeAlias hd h => exact ⟨hd, _, h⟩
  union := by
    rintro t u c ⟨m, h⟩
    cases h with
    | union _ h₁ h₂ => exact ⟨⟨_, h₁⟩, _, h₂⟩
  arg := by
    rintro d as c ⟨m, h⟩ a ha
    obtain ⟨k, _, hk⟩ := h.arg ha
    exact ⟨k, hk⟩
  ancestor := by
    rintro d e as c p ⟨m, h⟩ hp a ha
    obtain ⟨k, _, hk⟩ := h.arg (hr.args_of_projectTo h.length_args hp a ha)
    exact ⟨k, hk⟩
  string := ⟨0, .plain 0 [] hr.stringParams⟩
  module := ⟨0, .plain 0 [] hr.moduleParams⟩

theorem asks_of_height (hP : ∀ q, q.IsSource → P q) (hs : ∀ d, P (.supertype d)) {n m k : Nat}
    {t u : Ty} (ht : r.Height P m t) (hu : r.Height P k u) : (Ty.isSubtypeUpTo n t u).Asks r P :=
  hr.rooted.asks_of_closed hP hs hr.closed_height ⟨m, ht⟩ ⟨k, hu⟩

end Regular

end Reading

end PklAnalysis
