import PklAnalysis.Proofs.Check.Verdict
import PklAnalysis.Proofs.Session.Subtype

/-!
# Checks and subtyping

Without a constant a check passes exactly if the actual type is a subtype of the expected one
(`checkType_pass_iff_isSubtype`). The check compares alternatives, the subtype query expands one
type after the other, and the two meet in what a type is made of: every expected alternative fits
into the expected type (`Spreads.fits`), and what the actual type is below, all its alternatives are
below.
-/

namespace PklAnalysis

open Session

namespace Session

variable {src : ModuleSource} {attach : Constraints → Ty → Ty}

theorem Gives.reading_expansion {d : NodeRef} {as : List Ty} {c : Constraints} {t : Ty}
    (h : Gives src (Query.expansion d as c) t) : reading src (.expansion d as c) = t :=
  (gives_ask_iff.1 h).2

theorem Unfolds.ne_nil {n : Nat} {t : Ty} {xs : List Ty} (h : Unfolds src attach n t xs) :
    xs ≠ [] := by
  induction h with
  | leaf => exact List.cons_ne_nil _ _
  | union c _ _ ih => simp [ih]
  | typeAlias _ _ ih => exact ih

/-! ## The actual type -/

theorem Unfolds.sub_of_mem {n m : Nat} {t u x : Ty} {xs : List Ty} (h : Splits src m t xs)
    (hu : u ≠ .nothing) (hs : (reading src).sub (n + m) t u = true) (hx : x ∈ xs) :
    (reading src).sub n x u = true := by
  have hr := lawful_reading src
  induction h with
  | leaf =>
    rw [List.mem_singleton.1 hx]
    exact Reading.sub_of_le (Nat.le_add_right n _) hs
  | @union m t v xs ys c _ _ ih₁ ih₂ =>
    rw [List.map_id', List.mem_append] at hx
    have hp : ∀ p ∈ (reading src).parts (.union t v c), (reading src).sub (n + m) p u = true :=
      fun p hp => Reading.sub_of_mem_parts hr hu hp hs
    rcases hx with hx | hx
    · exact ih₁ (hp t List.mem_cons_self) hx
    · exact ih₂ (hp v (List.mem_cons_of_mem t List.mem_cons_self)) hx
  | @typeAlias m d as c t xs hg _ ih =>
    have ht : t ∈ (reading src).parts (.typeAlias d as c) := by
      rw [← hg.reading_expansion]
      exact List.mem_cons_self
    exact ih (Reading.sub_of_mem_parts hr hu ht hs) hx

theorem Unfolds.sub_of_forall {n m : Nat} {t u : Ty} {xs : List Ty} (h : Splits src m t xs)
    (hu : u ≠ .nothing) (hs : ∀ x ∈ xs, (reading src).sub n x u = true) :
    (reading src).sub n t u = true := by
  induction h with
  | leaf => exact hs _ List.mem_cons_self
  | union c _ _ ih₁ ih₂ =>
    rw [List.map_id'] at hs
    have h₁ := ih₁ (fun x hx => hs x (List.mem_append_left _ hx))
    have h₂ := ih₂ (fun x hx => hs x (List.mem_append_right _ hx))
    refine Reading.sub_of_succ (Reading.sub_succ_of_parts rfl hu (fun p hp => ?_))
    rcases List.mem_cons.1 hp with rfl | hp
    · exact h₁
    · rw [List.mem_singleton.1 hp]
      exact h₂
  | typeAlias hg _ ih =>
    refine Reading.sub_of_succ (Reading.sub_succ_of_parts rfl hu (fun p hp => ?_))
    rw [List.mem_singleton.1 hp, hg.reading_expansion]
    exact ih hs

/-! ## The expected type -/

/-- The alternatives of a type fit into it. -/
theorem Unfolds.fits {n : Nat} {t y : Ty} {ys : List Ty} (h : Spreads src n t ys) (hy : y ∈ ys) :
    (reading src).Fits y t := by
  induction h generalizing y with
  | leaf =>
    rw [List.mem_singleton.1 hy]
    exact .alike rfl
  | union c _ _ ih₁ ih₂ =>
    obtain ⟨z, hz, rfl⟩ := List.mem_map.1 hy
    refine .of_alike (Ty.withoutConstraints_addConstraints z c) ?_
    rcases List.mem_append.1 hz with hz | hz
    · exact .part List.mem_cons_self (ih₁ hz)
    · exact .part (List.mem_cons_of_mem _ List.mem_cons_self) (ih₂ hz)
  | typeAlias hg _ ih =>
    refine .part ?_ (ih hy)
    rw [← hg.reading_expansion]
    exact List.mem_cons_self

/-- What is no union and no alias, and is below a type, is below one of its alternatives. -/
theorem Unfolds.exists_sub {n k : Nat} {x t : Ty} {ys : List Ty} (h : Spreads src n t ys)
    (hx : x.isCompound = false) (hs : (reading src).sub (k + n) x t = true) :
    ∃ y ∈ ys, (reading src).sub k x y.withoutConstraints = true := by
  rcases x.shape with rfl | rfl | hx' | hx'
  · obtain ⟨y, hy⟩ := List.exists_mem_of_ne_nil ys h.ne_nil
    exact ⟨y, hy, Reading.sub_unknown_left ..⟩
  · obtain ⟨y, hy⟩ := List.exists_mem_of_ne_nil ys h.ne_nil
    exact ⟨y, hy, Reading.sub_nothing_left ..⟩
  · induction h with
    | @leaf n t ht =>
      refine ⟨t, List.mem_cons_self, ?_⟩
      have hk := Reading.sub_of_le (Nat.le_add_right k n) hs
      rcases t.shape with rfl | rfl | hs' | hs'
      · exact Reading.sub_unknown_right ..
      · exact hk
      · refine Reading.sub_right_alike hx' hs' ?_ hk
        unfold Ty.Alike
        exact (Ty.withConstraints_withConstraints t [] []).symm
      · rw [hs'] at ht
        cases ht
    | @union n t u xs ys c _ _ ih₁ ih₂ =>
      obtain ⟨p, hp, hps⟩ := Reading.exists_part_of_sub hx' rfl hs
      have reach : ∀ zs : List Ty, (∀ z ∈ zs, z ∈ xs ++ ys) →
          (∃ z ∈ zs, (reading src).sub k x z.withoutConstraints = true) →
          ∃ z ∈ (xs ++ ys).map (·.addConstraints c),
            (reading src).sub k x z.withoutConstraints = true := by
        rintro zs hzs ⟨z, hz, hs⟩
        refine ⟨z.addConstraints c, List.mem_map_of_mem (hzs z hz), ?_⟩
        rwa [Ty.withoutConstraints_addConstraints]
      rcases List.mem_cons.1 hp with rfl | hp
      · exact reach xs (fun z => List.mem_append_left ys) (ih₁ hps)
      · rw [List.mem_singleton.1 hp] at hps
        exact reach ys (fun z => List.mem_append_right xs) (ih₂ hps)
    | typeAlias hg _ ih =>
      obtain ⟨p, hp, hps⟩ := Reading.exists_part_of_sub hx' rfl hs
      rw [List.mem_singleton.1 hp, hg.reading_expansion] at hps
      exact ih hps
  · rw [hx'] at hx
    cases hx

/-! ## Checks without a constant -/

/-- What a query asks does not hang on what was asked before. -/
def Steady (src : ModuleSource) {α : Type} (x : Query α) : Prop :=
  x.Asks (reading src) (Settled src)

/-- Where a subtype query says yes with `k` of its levels used up, it says yes with all of them. -/
def Tells (src : ModuleSource) (k : Nat) (t u : Ty) : Prop :=
  (reading src).sub (Limits.subtypeDepth + 1 - k) t u = true →
    (reading src).sub (Limits.subtypeDepth + 1) t u = true

theorem Steady.gives_isSubtype {t u : Ty} (h : Steady src (t.isSubtype u)) :
    Gives src (t.isSubtype u) ((reading src).sub (Limits.subtypeDepth + 1) t u) := gives_value h

namespace Layout

variable {actual expected : Ty} {value : ValueForm}

theorem fits_iff_of_none (hv : value.get = .ok none) {below : Ty → Ty → Bool} {x y : Ty} :
    Check.fits src value below x y = true ↔ y.isUnknown = true ∨ below x y = true := by
  unfold Check.fits
  rw [ModuleSource.accepts_of_none hv, Bool.and_true, Bool.or_eq_true]

theorem not_raises_of_none (L : Layout src actual expected) (hv : value.get = .ok none)
    (e : EvalError) : ¬ L.Raises value e := by
  rintro ⟨_, _, _, _, _, h | ⟨v, h, _⟩⟩
  · rw [hv] at h
    cases h
  · rw [hv] at h
    cases h

theorem expected_ne_nothing (L : Layout src actual expected) (hn : .nothing ∉ L.columns) :
    expected ≠ .nothing := by
  rintro rfl
  rw [L.spreads.eq_singleton rfl] at hn
  exact hn List.mem_cons_self

/-- The alternatives tell whether one type is below the other. -/
theorem passes_iff_sub (L : Layout src actual expected) (hv : value.get = .ok none)
    (hn : .nothing ∉ L.columns)
    (hp : ∀ x ∈ L.rows, ∀ y ∈ L.columns, Steady src (x.isSubtype y.withoutConstraints))
    (hl : ∀ x ∈ L.rows, ∀ y ∈ L.columns,
      Tells src (L.actualDepth + L.expectedDepth) x y.withoutConstraints) :
    L.Passes value ↔ (reading src).sub (Limits.subtypeDepth + 1) actual expected = true := by
  have hr := lawful_reading src
  have he := L.expected_ne_nothing hn
  have hb : ∀ x ∈ L.rows, ∀ y ∈ L.columns,
      L.below x y = (reading src).sub (Limits.subtypeDepth + 1) x y.withoutConstraints :=
    fun x hx y hy => (L.gives_below x hx y hy).unique (hp x hx y hy).gives_isSubtype
  constructor
  · rintro (rfl | h)
    · exact Reading.sub_unknown_right ..
    · refine L.splits.sub_of_forall he (fun x hx => ?_)
      obtain ⟨y, hy, hf⟩ := h x hx
      have hfit := (L.spreads.fits hy).of_alike (t := y.withoutConstraints)
        (Ty.withConstraints_withConstraints y [] [])
      refine Reading.sub_of_fits hr hfit ?_
      rcases (fits_iff_of_none hv).1 hf with hu | hxy
      · cases y with
        | unknown => exact Reading.sub_unknown_right ..
        | _ => cases hu
      · rw [← hb x hx y hy]
        exact hxy
  · intro h
    refine .inr (fun x hx => ?_)
    have hd := L.depth_le
    have hle : L.actualDepth + L.expectedDepth ≤ Limits.subtypeDepth + 1 :=
      Nat.le_trans hd (by decide)
    obtain ⟨k, hk⟩ := Nat.exists_eq_add_of_le' hle
    have hx' := L.splits.isCompound_eq_false hx
    rw [hk, Nat.add_comm L.actualDepth, ← Nat.add_assoc] at h
    obtain ⟨y, hy, hs⟩ := L.spreads.exists_sub hx' (L.splits.sub_of_mem he h hx)
    refine ⟨y, hy, (fits_iff_of_none hv).2 (.inr ?_)⟩
    rw [hb x hx y hy]
    refine hl x hx y hy ?_
    rw [hk, Nat.add_sub_cancel]
    exact hs

/-- Whatever was asked before, and whatever constraints the types carry. -/
theorem checkType_pass_iff_isSubtype (L : Layout src actual expected) (hv : value.get = .ok none)
    (hn : .nothing ∉ L.columns) (hs : Steady src (actual.isSubtype expected))
    (hp : ∀ x ∈ L.rows, ∀ y ∈ L.columns, Steady src (x.isSubtype y.withoutConstraints))
    (hl : ∀ x ∈ L.rows, ∀ y ∈ L.columns,
      Tells src (L.actualDepth + L.expectedDepth) x y.withoutConstraints)
    {m₁ m₂ : Memory} (h₁ : Reachable src m₁) (h₂ : Reachable src m₂) :
    ∃ res, (run src (Check.checkType value actual expected).run m₁).1 = .ok res ∧
      (res.outcome = .pass ↔ (run src (actual.isSubtype expected) m₂).1 = true) := by
  rcases L.yields_table value with h | ⟨e, hr, _⟩
  · obtain ⟨res, hd, hres⟩ := L.exists_describes value h₁ (.inr h)
    refine ⟨res, hres, ?_⟩
    rw [hd.pass_iff, L.passes_iff_sub hv hn hp hl, hs.gives_isSubtype m₂ h₂]
  · exact absurd hr (L.not_raises_of_none hv e)

end Layout

end Session

/-! ### Two kinds of limits -/

namespace Check

def noConstant : ValueForm := Thunk.pure (.ok none)

theorem noConstant_get : noConstant.get = .ok none := rfl

/-- No constraint is looked at. -/
theorem checkType_pass_iff_isSubtype_pets :
    ∃ res, (run ruled (checkType noConstant pets noCats).run {}).1 = .ok res ∧
      res.outcome = .pass := by
  have members : ∀ {x y : Ty}, x ∈ petLayout.rows → y ∈ petLayout.columns →
      (x = .literal "cat" [] ∨ x = .literal "dog" []) ∧
        (y = .literal "cat" [rule] ∨ y = .literal "dog" []) := by
    intro x y hx hy
    simp only [petLayout, List.mem_cons, List.not_mem_nil, or_false] at hx hy
    exact ⟨hx, hy⟩
  have steady : ∀ x ∈ petLayout.rows, ∀ y ∈ petLayout.columns,
      Steady ruled (x.isSubtype y.withoutConstraints) := by
    intro x hx y hy
    obtain ⟨rfl | rfl, rfl | rfl⟩ := members hx hy <;> exact trivial
  have tells : ∀ x ∈ petLayout.rows, ∀ y ∈ petLayout.columns,
      Tells ruled 2 x y.withoutConstraints := by
    intro x hx y hy
    obtain ⟨rfl | rfl, rfl | rfl⟩ := members hx hy <;> exact id
  obtain ⟨res, hres, hp⟩ := petLayout.checkType_pass_iff_isSubtype noConstant_get
    (by decide +kernel) trivial steady tells .fresh .fresh
  exact ⟨res, hres, hp.2 (by decide +kernel)⟩

/-- Lists of lists, `n` levels of them. -/
def shelves (t : Ty) : Nat → Ty
  | 0 => t
  | n + 1 => std.listTy (shelves t n)

/-- As deep as a subtype query goes. -/
def deep (s : String) : Ty := shelves (.literal s []) Limits.subtypeDepth

/-- Lists of lists are below each other if what is in them is, with one more question a level. -/
theorem sub_shelves (src : ModuleSource) (n : Nat) (t u : Ty) (m : Nat) :
    (reading src).sub (n + m) (shelves t m) (shelves u m) = (reading src).sub n t u := by
  obtain ⟨q, hq⟩ := exists_params_list src
  induction m with
  | zero => rfl
  | succ m ih =>
    rw [← ih, Bool.eq_iff_iff]
    refine Reading.sub_cls_cls.trans ⟨fun ⟨p, hp, conform⟩ => ?_, fun h => ?_⟩
    · cases (Reading.projectTo_mk ..).symm.trans hp
      rw [hq] at conform
      exact conform.1
    · refine ⟨_, Reading.projectTo_mk .., ?_⟩
      rw [hq]
      exact ⟨h, trivial⟩

theorem expands_shelves {src : ModuleSource} {n : Nat} {t : Ty} (h : Expands src n t) (m : Nat) :
    Expands src (n + m) (shelves t m) := by
  induction m with
  | zero => exact h
  | succ m ih =>
    refine .cls [] (length_params_of_isClass Standard.isClass_list) (fun a ha => ?_)
    exact List.mem_singleton.1 ha ▸ ih

theorem expands_deep {src : ModuleSource} (s : String) : Expands src (1 + 100) (deep s) :=
  expands_shelves (.literal 0 s []) 100

theorem nowhere_empty {d : NodeRef} {c : Construct} (hd : d.module ≠ ModuleId.base) :
    nowhere.construct? d ≠ some c := by
  intro h
  unfold ModuleSource.construct? ModuleSource.treeOf at h
  rw [if_neg hd] at h
  cases h

theorem plainClasses_nowhere : PlainClasses nowhere :=
  .of_no_class nowhere_empty (modulesRooted_of_no_clause nofun)

theorem gives_deep : Gives nowhere ((deep "a").isSubtype (deep "b")) false ∧
    Gives nowhere ((deep "a").isSubtype std.intTy) false := by
  constructor
  · have apart : (reading nowhere).sub (Limits.subtypeDepth + 1) (deep "a") (deep "b") = false :=
      (sub_shelves nowhere 1 (.literal "a" []) (.literal "b" []) 100).trans (by simp)
    exact apart ▸ plainClasses_nowhere.gives_isSubtype (expands_deep "a") (expands_deep "b")
  · have answer : ((deep "a").isSubtype std.intTy).Asks nowhere.table nowhere.Tabled ∧
        ((deep "a").isSubtype std.intTy).value nowhere.table = false := by
      decide +kernel
    exact answer.2 ▸ gives_table answer.1

def deepLayout : Layout nowhere (deep "a") (.union (deep "b") std.intTy []) where
  rows := [deep "a"]
  columns := [deep "b", std.intTy]
  below _ _ := false
  actualDepth := 0
  expectedDepth := 1
  splits := .leaf 0 rfl
  spreads := .union [] (.leaf 0 rfl) (.leaf 0 rfl)
  depth_le := by decide
  gives_below := by
    intro x hx y hy
    rw [List.mem_singleton.1 hx]
    simp only [List.mem_cons, List.not_mem_nil, or_false] at hy
    rcases hy with rfl | rfl
    · exact gives_deep.1
    · exact gives_deep.2

/-- Types that nest too deep together pass a check, though they are no subtypes, and types that nest
as deep as subtype queries go are subtypes of a union, though none of its sides would pass a
check. -/
theorem checkType_pass_not_isSubtype :
    (Splits nowhere 33 (tower "b" 33) (floors "b" 33) ∧
      Spreads nowhere 32 (tower "c" 32) (floors "c" 32) ∧ .nothing ∉ floors "c" 32 ∧
      (run nowhere ((tower "b" 33).isSubtype (tower "c" 32)) {}).1 = false ∧
      (run nowhere (checkType noConstant (tower "b" 33) (tower "c" 32)).run {}).1 =
        .ok ⟨.pass, false⟩) ∧
    (run nowhere ((deep "a").isSubtype (.union (deep "b") std.intTy [])) {}).1 = true ∧
      ∃ res, (run nowhere (checkType noConstant (deep "a")
        (.union (deep "b") std.intTy [])).run {}).1 = .ok res ∧ res.outcome ≠ .pass := by
  have expands : Expands nowhere 102 (.union (deep "b") std.intTy []) :=
    .union [] (expands_deep "b")
      (.plain 101 [] (reading_params_of_isClass (Standard.isClass_special (by simp [Standard.special]))))
  refine ⟨⟨?_, ?_, ?_, ?_, ?_⟩, ?_, ?_⟩
  · exact unfolds_tower (fun _ => rfl) "b" 33
  · exact unfolds_tower Ty.addConstraints_nil "c" 32
  · decide +kernel
  · decide +kernel
  · decide +kernel
  · -- the question whether one text is another one is not reached
    have cut : (reading nowhere).sub 100 (deep "a") (deep "b") = true := by
      have same := sub_shelves nowhere 0 (.literal "a" []) (.literal "b" []) 100
      rwa [Nat.zero_add] at same
    refine (plainClasses_nowhere.gives_isSubtype (expands_deep "a") expands {} .fresh).trans ?_
    refine (Reading.sub_compound_right _ 100 rfl rfl).trans (List.any_eq_true.2 ?_)
    exact ⟨deep "b", List.mem_cons_self, cut⟩
  · rcases deepLayout.yields_table noConstant with h | ⟨e, hr, _⟩
    · obtain ⟨res, hd, hres⟩ := deepLayout.exists_describes _ .fresh (.inr h)
      refine ⟨res, hres, fun hp => ?_⟩
      rcases hd.pass_iff.1 hp with hu | hall
      · cases hu
      · obtain ⟨y, hy, hf⟩ := hall (deep "a") List.mem_cons_self
        simp only [deepLayout, List.mem_cons, List.not_mem_nil, or_false] at hy
        rcases hy with rfl | rfl <;> cases hf
    · exact absurd hr (deepLayout.not_raises_of_none noConstant_get e)

end Check

end PklAnalysis
