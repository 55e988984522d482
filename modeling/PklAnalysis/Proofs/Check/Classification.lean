import PklAnalysis.Proofs.Session.Null
import PklAnalysis.Proofs.Types.Chosen

/-!
# Mismatches

Where types do not conform and there is no constant, the check tells how they miss each other
(`Layout.checkType_classifies`): they fit except for `null`, or there is nothing in common at all,
which is never said of types of which an alternative conforms. What decides is the rest of the
actual type without `null`. It has alternatives of the actual type, so if it conforms, the two types
overlap. If it does not differ from the actual type, it does not conform either, as long as
subtyping composes. And if it is nothing, then the actual type is `null`, which overlaps with type
parameters and with classes below that of `null`, though it is not below them.
-/

namespace PklAnalysis

open Session

namespace Session

variable {src : ModuleSource}

/-! ## Above null -/

/-- Along superclasses the standard library is not left, `null` is not reached, and parameters do
not come up. -/
theorem steps_superdecl_base {n : Nat} {d e : NodeRef}
    (h : Steps (reading src).superdecl n d e) (hd : d.module = ModuleId.base) :
    e.module = ModuleId.base ∧ (e = std.null → d = std.null) ∧
      ((reading src).params d = [] → (reading src).params e = []) := by
  induction h with
  | here => exact ⟨hd, id, id⟩
  | @up _ d f e hs _ ih =>
    have apart : f ≠ std.null := fun e => superdecl_base_ne_null hd (e ▸ hs)
    obtain ⟨i, rfl⟩ := exists_base hd
    rw [superdecl_base] at hs
    obtain ⟨s, hs, hf⟩ := Option.bind_eq_some_iff.1 hs
    have clause := ((Standard.soundClass_of_supertype hs).2.1 s hs).1
    cases s with
    | cls g args c =>
      cases hf
      obtain ⟨hm, -, -, hl, ha⟩ := clause
      obtain ⟨base, null, params⟩ := ih hm
      refine ⟨base, fun e => absurd (null e) apart, fun none => params ?_⟩
      rw [reading_params_base src rfl] at none
      rw [reading_params_base src hm]
      -- an argument of the superclass would be a parameter of the class
      cases hq : std.tree.params f with
      | nil => rfl
      | cons q qs =>
        rw [hq] at hl ha
        cases args with
        | nil => cases hl
        | cons a args =>
          obtain ⟨p, hp, -⟩ := ha (a, q) (by rw [List.zip_cons_cons]; exact List.mem_cons_self)
          rw [none] at hp
          cases hp
    | _ => exact clause.elim

theorem ClassHierarchy.above_base (h : ClassHierarchy src) {c p : ClassTy} {e : NodeRef}
    (hc : c.decl.module = ModuleId.base) (hp : (c.projectTo e).value (reading src) = some p) :
    (e = std.null → c.decl = std.null) ∧
      ((reading src).params c.decl = [] → (reading src).params e = []) := by
  obtain ⟨n, ha, rfl⟩ := h.rooted.projectTo_iff.1 hp
  exact (steps_superdecl_base (h.rooted.decl_steps ha) hc).2

/-- A type parameter, or a class at or below that of `null`. -/
def MeetsNull (src : ModuleSource) : Ty → Prop
  | .var _ _ => True
  | .cls d as c => ∃ p, (ClassTy.projectTo ⟨d, as, c⟩ std.null).value (reading src) = some p
  | _ => False

theorem MeetsNull.of_alike {v y : Ty} (h : MeetsNull src v) (e : v.Alike y) : MeetsNull src y := by
  cases v with
  | var => cases y <;> trivial
  | cls d as c =>
    obtain ⟨p, hp⟩ := h
    cases y with
    | cls f bs k =>
      cases e
      obtain ⟨q, hq, -⟩ := Reading.projectTo_args (k := k) (.inl rfl) hp
      exact ⟨q, hq⟩
    | _ => cases e
  | _ => exact h.elim

/-- A type of a class without parameters overlaps with the types that lead to this class. -/
theorem ClassHierarchy.overlap_of_projectTo (h : ClassHierarchy src) {n : Nat} {d e : NodeRef}
    {bs : List Ty} {c k : Constraints} {q : ClassTy}
    (hq : (ClassTy.projectTo ⟨e, bs, k⟩ d).value (reading src) = some q) :
    (reading src).overlap (n + 1) (.cls d [] c) (.cls e bs k) = true := by
  rw [Reading.overlap_succ]
  exact (Reading.value_classesOverlap h.rooted.acyclicClasses).2
    ⟨[], q.args, .inr ⟨q, hq, rfl, rfl⟩, rfl⟩

/-- Of two classes that overlap one leads to the other. -/
theorem ClassHierarchy.exists_projectTo (h : ClassHierarchy src) {n : Nat} {d e : NodeRef}
    {as bs : List Ty} {c k : Constraints}
    (ho : (reading src).overlap (n + 1) (.cls d as c) (.cls e bs k) = true) :
    (∃ p, (ClassTy.projectTo ⟨d, as, c⟩ e).value (reading src) = some p) ∨
      ∃ q, (ClassTy.projectTo ⟨e, bs, k⟩ d).value (reading src) = some q := by
  rw [Reading.overlap_succ] at ho
  obtain ⟨xs, ys, facing, -⟩ := (Reading.value_classesOverlap h.rooted.acyclicClasses).1 ho
  exact facing.imp (fun ⟨p, hp, _⟩ => ⟨p, hp⟩) (fun ⟨q, hq, _⟩ => ⟨q, hq⟩)

/-- A class of the standard library without parameters is below the classes that it leads to. -/
theorem ClassHierarchy.sub_of_projectTo (h : ClassHierarchy src) {d e : NodeRef} {as bs : List Ty}
    {c k : Constraints} {p : ClassTy} (hd : Standard.IsClass d 0)
    (hp : (ClassTy.projectTo ⟨d, as, c⟩ e).value (reading src) = some p) (m : Nat) :
    (reading src).sub m (.cls d as c) (.cls e bs k) = true := by
  have none := (h.above_base hd.1 hp).2 (reading_params_of_isClass hd)
  cases m with
  | zero => rfl
  | succ m =>
    refine Reading.sub_cls_cls.2 ⟨p, hp, ?_⟩
    rw [none]
    trivial

theorem MeetsNull.overlap (h : ClassHierarchy src) {n : Nat} {c : Constraints} {v : Ty}
    (hv : MeetsNull src v) : (reading src).overlap n (.cls std.null [] c) v = true := by
  cases n with
  | zero => rfl
  | succ n =>
    cases v with
    | var => rfl
    | cls e bs k =>
      obtain ⟨q, hq⟩ := hv
      exact h.overlap_of_projectTo hq
    | _ => exact hv.elim

/-- Otherwise what overlaps with `null` is above it, where there are questions left to find that
out. -/
theorem ClassHierarchy.meetsNull_or_sub (h : ClassHierarchy src) {n : Nat} (hn : 3 ≤ n) {as : List Ty}
    {c : Constraints} {v : Ty} (hv : v.isSimple = true)
    (ho : (reading src).overlap n (.cls std.null as c) v = true) :
    MeetsNull src v ∨ ∀ m, (reading src).sub m (.cls std.null as c) v = true := by
  obtain ⟨n, rfl⟩ : ∃ m, n = m + 3 := ⟨n - 3, by omega⟩
  have notNull : ∀ {d : NodeRef} {m : Nat} {bs k}, d.module = ModuleId.base → std.null ≠ d →
      (reading src).sub (m + 1) (Base.simple d) (.cls std.null bs k) = true → False := by
    intro d m bs k hd hne hs
    obtain ⟨p, hp, -⟩ := Reading.sub_cls_cls.1 hs
    exact hne ((h.above_base hd hp).1 rfl).symm
  obtain ⟨-, hstring, -, hmodule⟩ := Standard.null_apart
  cases v with
  | var => exact .inl trivial
  | literal s k =>
    rw [Reading.overlap_succ] at ho
    dsimp only at ho
    rw [Reading.sub_literal_cls] at ho
    exact (notNull Standard.isClass_string.1 hstring ho).elim
  | module i l k =>
    rw [Reading.overlap_succ] at ho
    dsimp only at ho
    rw [Reading.sub_cls_module, Bool.false_or, Reading.sub_module_cls] at ho
    exact (notNull Standard.isClass_module.1 hmodule ho).elim
  | cls e bs k =>
    rcases h.exists_projectTo ho with ⟨p, hp⟩ | found
    · exact .inr (h.sub_of_projectTo Standard.isClass_null hp)
    · exact .inl found
  | _ => cases hv

/-! ## Alternatives of a layout -/

section
variable {attach : Constraints → Ty → Ty} (ha : ∀ c t, (attach c t).Alike t)
include ha

theorem Unfolds.exists_chosen {n : Nat} {t x : Ty} {xs : List Ty} (h : Unfolds src attach n t xs)
    (ht : (reading src).Filled t) (hx : x ∈ xs) :
    ∃ i s, (reading src).Chosen i t s ∧ s.Alike x := by
  induction h generalizing x with
  | leaf _ hc =>
    rw [List.mem_singleton.1 hx]
    have hs := ht.simple_or_compound.resolve_right (by rw [hc]; exact Bool.false_ne_true)
    exact ⟨0, _, .self hs, rfl⟩
  | @union _ t u _ _ c _ _ ih₁ ih₂ =>
    obtain ⟨y, hy, rfl⟩ := List.mem_map.1 hx
    have right : u ∈ (reading src).parts (.union t u c) :=
      List.mem_cons_of_mem t (List.mem_singleton_self u)
    rcases List.mem_append.1 hy with hy | hy
    · obtain ⟨i, s, hs, e⟩ := ih₁ (ht.part List.mem_cons_self) hy
      exact ⟨i + 1, s, .part List.mem_cons_self hs, e.trans (ha c y).symm⟩
    · obtain ⟨i, s, hs, e⟩ := ih₂ (ht.part right) hy
      exact ⟨i + 1, s, .part right hs, e.trans (ha c y).symm⟩
  | @typeAlias _ d as c t _ hg _ ih =>
    have hp : t ∈ (reading src).parts (.typeAlias d as c) := by
      rw [← hg.reading_expansion]
      exact List.mem_cons_self
    obtain ⟨i, s, hs, e⟩ := ih (ht.part hp) hx
    exact ⟨i + 1, s, .part hp hs, e⟩

theorem Unfolds.exists_mem {n i : Nat} {t s : Ty} {xs : List Ty} (h : Unfolds src attach n t xs)
    (hs : (reading src).Chosen i t s) : i ≤ n ∧ ∃ x ∈ xs, s.Alike x := by
  induction h generalizing i with
  | leaf n hc =>
    cases hs with
    | self => exact ⟨Nat.zero_le n, _, List.mem_cons_self, rfl⟩
    | part hp =>
      rw [Reading.isCompound_of_mem_parts hp] at hc
      cases hc
  | @union n t u xs ys c _ _ ih₁ ih₂ =>
    obtain ⟨j, p, rfl, hp, hsp⟩ := hs.of_compound rfl
    have found : ∃ zs : List Ty, (∀ z ∈ zs, z ∈ xs ++ ys) ∧ j ≤ n ∧ ∃ z ∈ zs, s.Alike z := by
      rcases List.mem_cons.1 hp with rfl | hp
      · exact ⟨xs, fun z => List.mem_append_left ys, ih₁ hsp⟩
      · cases List.mem_singleton.1 hp
        exact ⟨ys, fun z => List.mem_append_right xs, ih₂ hsp⟩
    obtain ⟨zs, hzs, hj, z, hz, e⟩ := found
    exact ⟨Nat.succ_le_succ hj, attach c z, List.mem_map_of_mem (hzs z hz), e.trans (ha c z).symm⟩
  | typeAlias hg _ ih =>
    obtain ⟨j, p, rfl, hp, hs⟩ := hs.of_compound rfl
    rw [List.mem_singleton.1 hp, hg.reading_expansion] at hs
    obtain ⟨hj, found⟩ := ih hs
    exact ⟨Nat.succ_le_succ hj, found⟩

end

/-! ## Outcomes -/

/-- What decides between the outcomes of a mismatch. -/
theorem FixedDeclarations.run_mismatch (fixed : FixedDeclarations src) (a e : Ty) {m : Memory}
    (hm : Reachable src m) :
    ((run src (Check.mismatch a e) m).1 = .mismatch ↔
      (reading src).overlap (Limits.subtypeDepth + 1) a e.withoutConstraints = false) ∧
    ((run src (Check.mismatch a e) m).1 = .nullableMismatch ↔
      (reading src).overlap (Limits.subtypeDepth + 1) a e.withoutConstraints = true ∧
      (reading src).Sub std.nullTy a ∧
      (reading src).Sub ((reading src).nonNull Limits.aliasNesting a) e.withoutConstraints) := by
  have common : Gives src (a.hasCommonSubtype e.withoutConstraints)
      ((reading src).overlap (Limits.subtypeDepth + 1) a e.withoutConstraints) :=
    gives_value (fixed.asks_hasCommonSubtypeUpTo _ _ _)
  have null : Gives src a.isNullable
      ((reading src).sub (Limits.subtypeDepth + 1) std.nullTy a) := fixed.gives_isSubtype _ _
  have rest := fixed.gives_isSubtype ((reading src).nonNull Limits.aliasNesting a)
    e.withoutConstraints
  unfold Check.mismatch
  rw [common.run_bind hm]
  cases ho : (reading src).overlap (Limits.subtypeDepth + 1) a e.withoutConstraints with
  | false => exact ⟨⟨fun _ => rfl, fun _ => rfl⟩, nofun, fun h => nomatch h.1⟩
  | true =>
    rw [if_neg (by decide), null.run_bind (hm.query _)]
    cases hn : (reading src).sub (Limits.subtypeDepth + 1) std.nullTy a with
    | false => exact ⟨⟨nofun, nofun⟩, nofun, fun h => nomatch hn.symm.trans h.2.1⟩
    | true =>
      rw [if_neg (by decide), (fixed.gives_nonNull a).run_bind ((hm.query _).query _),
        rest.run_bind (((hm.query _).query _).query _)]
      cases hr : (reading src).sub (Limits.subtypeDepth + 1)
          ((reading src).nonNull Limits.aliasNesting a) e.withoutConstraints with
      | false => exact ⟨⟨nofun, nofun⟩, nofun, fun h => nomatch hr.symm.trans h.2.2⟩
      | true => exact ⟨⟨nofun, nofun⟩, fun _ => ⟨rfl, hn, hr⟩, fun _ => rfl⟩

/-- Types of which subtyping has to be transitive: the expected one, and what the actual one is made
of, with and without `null`. -/
inductive Weighed (src : ModuleSource) (actual expected : Ty) : Ty → Prop
  | expected : Weighed src actual expected expected
  | inside {t : Ty} : (reading src).Inside actual t → Weighed src actual expected t
  | nonNull {t : Ty} (k : Nat) : (reading src).Inside actual t →
      Weighed src actual expected ((reading src).nonNull k t)

/-- Subtyping is transitive among them. -/
def TransitiveToward (src : ModuleSource) (actual expected : Ty) : Prop :=
  ∀ a b c, Weighed src actual expected a → Weighed src actual expected b →
    Weighed src actual expected c → Gives src (a.isSubtype b) true →
    Gives src (b.isSubtype c) true → Gives src (a.isSubtype c) true

theorem alike_withoutConstraints (t : Ty) : t.withoutConstraints.Alike t :=
  Ty.withConstraints_withConstraints t [] []

namespace Layout

variable {actual expected : Ty} {value : ValueForm}

/-- Without a constant, a check that does not pass tells how the types miss each other. -/
theorem run_checkType_of_none (L : Layout src actual expected) (hv : value.get = .ok none)
    (he : expected.isUnknown = false) {m : Memory} (hm : Reachable src m) :
    ∃ res, (run src (Check.checkType value actual expected).run m).1 = .ok res ∧
      (L.Passes value ∧ res.outcome = .pass ∨
        ¬ L.Passes value ∧ ∃ k, Reachable src k ∧
          res.outcome = (run src (Check.mismatch actual expected) k).1) := by
  have h : Gives src (Check.conforms value actual expected).run (.ok (L.table value)) := by
    rcases L.yields_table value with h | ⟨e, hr, -⟩
    · exact h
    · exact absurd hr (L.not_raises_of_none hv e)
  rw [L.passes_iff value he]
  cases hc : (L.table value).conforms with
  | true => exact ⟨_, Check.run_checkType_of_conforms he h hm hc, .inl ⟨rfl, rfl⟩⟩
  | false =>
    have hf : (L.table value).failed = [] := by
      refine Classical.byContradiction (fun hf => ?_)
      obtain ⟨v, h⟩ := ((L.violates_iff value).2 hf).exists_value
      rw [hv] at h
      cases h
    obtain ⟨k, hk, hrun⟩ := Check.run_checkType_of_not_failed he h hm hc hf
    exact ⟨_, hrun, .inr ⟨Bool.false_ne_true, k, hk, rfl⟩⟩

section
variable (L : Layout src actual expected) (h : ClassHierarchy src)
  (ha : (reading src).Filled actual) (he : (reading src).Filled expected)
include L h ha he

/-- A type overlaps with what one of its alternatives is below. -/
theorem overlap_of_row {x : Ty} (hx : x ∈ L.rows) (hs : (reading src).Sub x expected) :
    (reading src).overlap (Limits.subtypeDepth + 1) actual expected.withoutConstraints = true := by
  have hr := lawful_reading src
  have bare := (alike_withoutConstraints expected).symm
  obtain ⟨i, s, hs', e⟩ := L.splits.exists_chosen (fun _ _ => rfl) ha hx
  have below := Reading.sub_of_fits hr (.alike bare) (Reading.sub_left_alike hr e.symm hs)
  exact Reading.overlap_of_chosen_sub hr h.rooted ha (he.of_alike hr bare) hs'
    (Reading.sub_of_le (Nat.sub_le _ _) below)

/-- If nothing is left without `null`, the types overlap exactly if the actual one is below the
expected one or some alternative of that meets `null`. -/
theorem overlap_iff_of_null (none : (reading src).nonNull Limits.aliasNesting actual = .nothing) :
    (reading src).overlap (Limits.subtypeDepth + 1) actual expected.withoutConstraints = true ↔
      (reading src).Sub actual expected ∨ ∃ y ∈ L.columns, MeetsNull src y := by
  have hr := lawful_reading src
  have bare := alike_withoutConstraints expected
  have filled := he.of_alike hr bare.symm
  have attach : ∀ (c : Constraints) (t : Ty), (t.addConstraints c).Alike t :=
    fun c t => Ty.withoutConstraints_addConstraints t c
  have isNull : ∀ {i s}, (reading src).Chosen i actual s → ∃ c, s = .cls std.null [] c := by
    intro i s hs
    obtain ⟨as, c, rfl⟩ := Reading.eq_null_of_nonNull _ ha none hs
    have hl := (hs.filled ha).length_args
    rw [reading_params_of_isClass Standard.isClass_null] at hl
    exact ⟨c, by rw [List.eq_nil_of_length_eq_zero hl]⟩
  constructor
  · intro ho
    obtain ⟨i, j, s, v, hs, hv, ho⟩ := Reading.exists_chosen_of_overlap ha.definite filled.definite ho
    obtain ⟨v', hv', e⟩ := hv.alike hr bare
    obtain ⟨hi, -⟩ := L.splits.exists_mem (fun _ _ => rfl) hs
    obtain ⟨hj, y, hy, e'⟩ := L.spreads.exists_mem attach hv'
    obtain ⟨c, rfl⟩ := isNull hs
    have room : 3 ≤ Limits.subtypeDepth + 1 - (i + j) := by
      have := L.depth_le
      have : Limits.typeCheckDepth + 2 ≤ Limits.subtypeDepth := by decide
      omega
    rcases h.meetsNull_or_sub room hv.isSimple ho with meets | below
    · exact .inr ⟨y, hy, meets.of_alike (e.trans e')⟩
    · refine .inl (L.splits.sub_of_forall he.proper.2 (fun x hx => ?_))
      obtain ⟨_, _, hx', e⟩ := L.splits.exists_chosen (fun _ _ => rfl) ha hx
      obtain ⟨k, rfl⟩ := isNull hx'
      have fits := Reading.sub_of_fits hr hv.inside.fits (below (Limits.subtypeDepth + 1))
      exact Reading.sub_left_alike hr e
        (Reading.sub_cls_left k (.inl rfl) (Reading.sub_of_fits hr (.alike bare) fits))
  · rintro (hs | ⟨y, hy, meets⟩)
    · exact (Reading.overlap_of_sub hr h.rooted ha filled
        (Reading.sub_of_fits hr (.alike bare.symm) hs)).1
    · obtain ⟨i, s, hs⟩ := ha.definite.exists_chosen
      obtain ⟨c, rfl⟩ := isNull hs
      obtain ⟨j, v, hv, e⟩ := L.spreads.exists_chosen attach he hy
      obtain ⟨v', hv', e'⟩ := hv.alike hr bare.symm
      exact Reading.overlap_of_chosen hs hv'
        ((meets.of_alike (e.symm.trans e')).overlap h)

/-- Types that do not conform fit except for `null` if what is left without it fits, and is
something or else meets `null`. -/
theorem exceptNull_iff (trans : (reading src).Transitive (Weighed src actual expected))
    (no : ¬ (reading src).Sub actual expected) :
    ((reading src).overlap (Limits.subtypeDepth + 1) actual expected.withoutConstraints = true ∧
      (reading src).Sub std.nullTy actual ∧ (reading src).Sub
        ((reading src).nonNull Limits.aliasNesting actual) expected.withoutConstraints) ↔
    (reading src).Sub ((reading src).nonNull Limits.aliasNesting actual) expected ∧
      ((reading src).nonNull Limits.aliasNesting actual ≠ .nothing ∨
        ∃ y ∈ L.columns, MeetsNull src y) := by
  have hr := lawful_reading src
  have hn : (reading src).params std.null = [] := reading_params_of_isClass Standard.isClass_null
  have bare := alike_withoutConstraints expected
  have filled := he.of_alike hr bare.symm
  constructor
  · rintro ⟨overlap, -, hs⟩
    refine ⟨Reading.sub_of_fits hr (.alike bare) hs, ?_⟩
    by_cases none : (reading src).nonNull Limits.aliasNesting actual = .nothing
    · exact .inr (((L.overlap_iff_of_null h ha he none).1 overlap).resolve_left no)
    · exact .inl none
  · rintro ⟨hs, third⟩
    have hs' := Reading.sub_of_fits hr (.alike bare.symm) hs
    by_cases none : (reading src).nonNull Limits.aliasNesting actual = .nothing
    · obtain ⟨i, s, hc⟩ := ha.definite.exists_chosen
      obtain ⟨as, c, rfl⟩ := Reading.eq_null_of_nonNull _ ha none hc
      have meets := (L.overlap_iff_of_null h ha he none).2 (.inr (third.resolve_left (absurd none)))
      exact ⟨meets, Reading.sub_of_fits hr hc.inside.fits (Reading.null_sub_null hn as c), hs'⟩
    · obtain ⟨i, s, hc, below⟩ :=
        Reading.exists_chosen_of_nonNull_sub hr _ ha filled.proper none hs'
      refine ⟨Reading.overlap_of_chosen_sub hr h.rooted ha filled hc below, ?_, hs'⟩
      -- otherwise nothing was taken away from the actual type, and it would conform with the rest
      refine Classical.byContradiction (fun notNull => no ?_)
      have kept := Reading.sub_nonNull hr hn trans Limits.aliasNesting ha.definite
        ⟨fun hu => .inside hu, fun k hu => .nonNull k hu⟩ notNull
      exact trans (.inside (.refl _)) (.nonNull _ (.refl _)) .expected kept hs

omit h ha in
theorem nothing_not_mem_columns : Ty.nothing ∉ L.columns := by
  intro hy
  obtain ⟨_, s, hs, e⟩ := L.spreads.exists_chosen
    (fun c t => Ty.withoutConstraints_addConstraints t c) he hy
  rw [Ty.Alike.eq_nothing e] at hs
  exact absurd hs.isSimple (by decide)

end

/-- Without a constant, a check reports that the types fit except for `null` exactly if they do, and
if something is left without `null` or an expected alternative meets `null` though it is not above
it. It reports that they have nothing in common only if no alternative conforms. -/
theorem checkType_classifies (fixed : FixedDeclarations src) (h : ClassHierarchy src)
    (L : Layout src actual expected) (ha : (reading src).Filled actual)
    (he : (reading src).Filled expected) (hv : value.get = .ok none)
    (hl : ∀ x ∈ L.rows, ∀ y ∈ L.columns,
      Tells src (L.actualDepth + L.expectedDepth) x y.withoutConstraints)
    (trans : TransitiveToward src actual expected) {m : Memory} (hm : Reachable src m) :
    ∃ rest res, Gives src actual.nonNull rest ∧
      (run src (Check.checkType value actual expected).run m).1 = .ok res ∧
      (res.outcome = .nullableMismatch ↔ Gives src (actual.isSubtype expected) false ∧
        Gives src (rest.isSubtype expected) true ∧
        (rest ≠ .nothing ∨ ∃ y ∈ L.columns, MeetsNull src y)) ∧
      (res.outcome = .mismatch → ∀ x ∈ L.rows, Gives src (x.isSubtype expected) false) := by
  have no_iff : ∀ t, Gives src (t.isSubtype expected) false ↔ ¬ (reading src).Sub t expected := by
    intro t
    show _ ↔ ¬ (reading src).sub _ t expected = true
    rw [Bool.not_eq_true]
    exact ⟨fun hg => (fixed.gives_isSubtype _ _).unique hg, fun e => e ▸ fixed.gives_isSubtype _ _⟩
  have transitive : (reading src).Transitive (Weighed src actual expected) :=
    fun {a b c} ha hb hc hab hbc => fixed.sub_of_gives
      (trans a b c ha hb hc (fixed.gives_true hab) (fixed.gives_true hbc))
  have passes := L.passes_iff_sub hv (L.nothing_not_mem_columns he)
    (fun x _ y _ => fixed.asks_isSubtypeUpTo _ _ _) hl
  obtain ⟨res, hres, hout⟩ := L.run_checkType_of_none hv he.proper.isUnknown hm
  refine ⟨_, res, fixed.gives_nonNull actual, hres, ?_⟩
  simp only [no_iff]
  rcases hout with ⟨hpass, ho⟩ | ⟨hno, k, hk, ho⟩
  · have sub := passes.1 hpass
    rw [ho]
    exact ⟨⟨nofun, fun hc => absurd sub hc.1⟩, nofun⟩
  · have no : ¬ (reading src).Sub actual expected := fun hs => hno (passes.2 hs)
    obtain ⟨apart, except⟩ := fixed.run_mismatch actual expected hk
    rw [ho, apart, except, L.exceptNull_iff h ha he transitive no]
    constructor
    · exact ⟨fun hs => ⟨no, fixed.gives_true hs.1, hs.2⟩,
        fun hs => ⟨fixed.sub_of_gives hs.2.1, hs.2.2⟩⟩
    · intro none x hx hs
      exact nomatch (L.overlap_of_row h ha he hx hs).symm.trans none

end Layout

/-! ## Where it holds -/

/-- Where the limit of subtype queries leaves room for two types beside what is used up, it is not
the reason for a yes. -/
theorem PlainClasses.tells (h : PlainClasses src) {i j k : Nat} {t u : Ty} (ht : Expands src i t)
    (hu : Expands src j u) (hk : i + j + k ≤ Limits.subtypeDepth) : Tells src k t u :=
  fun hs => h.regular.below_of_height ht hu (by omega) hs _

/-- Where it leaves room for twice the height of both types, subtyping is transitive. -/
theorem PlainClasses.transitiveToward (h : PlainClasses src) (fixed : FixedDeclarations src) {n : Nat}
    {t u : Ty} (ht : Expands src n t) (hu : Expands src n u) (hn : 2 * n ≤ Limits.subtypeDepth) :
    TransitiveToward src t u := by
  have height : ∀ {v}, Weighed src t u v → Expands src n v := by
    intro v hv
    cases hv with
    | expected => exact hu
    | inside hi => exact ht.inside hi
    | nonNull k hi =>
      exact (ht.inside hi).nonNull (lawful_reading src) (fun d as c => (fixed.asks_expansion d as c).1) k
  intro a b c ha hb hc hab hbc m hm
  exact isSubtype_trans h (height ha) (height hb) (height hc) (by omega) (by omega) hm hm hm
    (hab m hm) (hbc m hm)

/-- The layout of two types whose alternatives nest less deep than checks are cut off. -/
def FixedDeclarations.layout (fixed : FixedDeclarations src) {actual expected : Ty} {n k : Nat}
    {xs ys : List Ty} (splits : Splits src n actual xs) (spreads : Spreads src k expected ys)
    (depth_le : n + k ≤ Limits.typeCheckDepth) : Layout src actual expected where
  rows := xs
  columns := ys
  below x y := (reading src).sub (Limits.subtypeDepth + 1) x y.withoutConstraints
  actualDepth := n
  expectedDepth := k
  splits := splits
  spreads := spreads
  depth_le := depth_le
  gives_below _ _ _ _ := fixed.gives_isSubtype _ _

/-- `Bird?` -/
def birdOrNull : Ty := .union std.nullTy birdTy []

/-- What may be no bird at all fits except for `null` where a bird or a text is required. -/
theorem checkType_classifies_birds :
    FixedDeclarations aviary ∧ ClassHierarchy aviary ∧ (reading aviary).Filled birdOrNull ∧
    (reading aviary).Filled birdOrNone ∧ TransitiveToward aviary birdOrNull birdOrNone ∧
    ∃ L : Layout aviary birdOrNull birdOrNone,
      (∀ x ∈ L.rows, ∀ y ∈ L.columns,
        Tells aviary (L.actualDepth + L.expectedDepth) x y.withoutConstraints) ∧
      ∃ res, (run aviary (Check.checkType Check.noConstant birdOrNull birdOrNone).run {}).1 = .ok res ∧
        res.outcome = .nullableMismatch := by
  have fixed := scopedDeclarations_aviary.fixed
  have hierarchy := plainClasses_aviary.hierarchy
  have hb : (reading aviary).params bird = [] :=
    reading_params_of_construct (c := .classDecl { name := "Bird" }) rfl rfl
  have hn : (reading aviary).params std.null = [] := reading_params_of_isClass Standard.isClass_null
  have filled : ∀ {d}, (reading aviary).params d = [] → (reading aviary).Filled (Base.simple d) :=
    fun hd => plainClasses_aviary.regular.filled_cls (by rw [hd]; rfl) (fun _ h => absurd h List.not_mem_nil) []
  have actual : (reading aviary).Filled birdOrNull := .union [] (filled hn) (filled hb)
  have expected : (reading aviary).Filled birdOrNone := .union [] (filled hb) (.literal "none" [])
  have expands : Expands aviary 2 birdOrNull := .union [] (.plain 1 [] hn) (.plain 1 [] hb)
  have trans := plainClasses_aviary.transitiveToward fixed expands expands_birdOrNone (by decide)
  let L : Layout aviary birdOrNull birdOrNone := fixed.layout
    (.union [] (.leaf 0 rfl) (.leaf 0 rfl)) (.union [] (.leaf 0 rfl) (.leaf 0 rfl)) (by decide)
  have tells : ∀ x ∈ L.rows, ∀ y ∈ L.columns,
      Tells aviary (L.actualDepth + L.expectedDepth) x y.withoutConstraints := by
    intro x hx y hy
    have row : Expands aviary 1 x := by
      rcases List.mem_cons.1 hx with rfl | hx
      · exact .plain 1 [] hn
      · exact List.mem_singleton.1 hx ▸ .plain 1 [] hb
    have column : Expands aviary 1 y.withoutConstraints := by
      rcases List.mem_cons.1 hy with rfl | hy
      · exact .plain 1 [] hb
      · exact List.mem_singleton.1 hy ▸ .literal 0 "none" []
    exact plainClasses_aviary.tells row column (show 1 + 1 + (1 + 1) ≤ 100 by decide)
  obtain ⟨rest, res, hrest, hres, nullable, -⟩ := L.checkType_classifies fixed hierarchy actual expected
    Check.noConstant_get tells trans .fresh
  have answers : (run aviary birdOrNull.nonNull {}).1 = birdTy ∧
      (run aviary (birdTy.isSubtype birdOrNone) {}).1 = true ∧
      (run aviary (birdOrNull.isSubtype birdOrNone) {}).1 = false :=
    ⟨run_of_table (by decide +kernel), run_of_table (by decide +kernel),
      run_of_table (by decide +kernel)⟩
  obtain ⟨left, fits, no⟩ := answers
  obtain rfl : rest = birdTy := (hrest {} .fresh).symm.trans left
  refine ⟨fixed, hierarchy, actual, expected, trans, L, tells, res, hres, nullable.2 ⟨?_, ?_, ?_⟩⟩
  · exact ((fixed.gives_isSubtype _ _ {} .fresh).symm.trans no) ▸ fixed.gives_isSubtype _ _
  · exact fixed.gives_true (fixed.sub_of_run .fresh fits)
  · exact .inl nofun

/-! ## Where something else decides -/

/-- Neither `unknown` nor `nothing` occurs, however far aliases are expanded. -/
def Ordinary (src : ModuleSource) (t : Ty) : Prop :=
  ∀ x, (reading src).Occurs x t → x ≠ .unknown ∧ x ≠ .nothing

theorem ordinary_cls {d : NodeRef} {as : List Ty} {c : Constraints} (h : ∀ a ∈ as, Ordinary src a) :
    Ordinary src (.cls d as c) := by
  intro x hx
  cases hx with
  | self => exact ⟨nofun, nofun⟩
  | part hp => cases hp
  | arg ha hx => exact h _ ha x hx

theorem ordinary_union {t u : Ty} (ht : Ordinary src t) (hu : Ordinary src u) (c : Constraints) :
    Ordinary src (.union t u c) := by
  intro x hx
  cases hx with
  | self => exact ⟨nofun, nofun⟩
  | part hp hx =>
    rcases List.mem_cons.1 hp with rfl | hp
    · exact ht x hx
    · exact hu x (List.mem_singleton.1 hp ▸ hx)

theorem ordinary_literal (s : String) (c : Constraints) : Ordinary src (.literal s c) := by
  intro x hx
  cases hx with
  | self => exact ⟨nofun, nofun⟩
  | part hp => cases hp

theorem ordinary_var (p : NodeRef) (c : Constraints) : Ordinary src (.var p c) := by
  intro x hx
  cases hx with
  | self => exact ⟨nofun, nofun⟩
  | part hp => cases hp

theorem ordinary_simple (d : NodeRef) : Ordinary src (Base.simple d) := ordinary_cls nofun

theorem ordinary_list {t : Ty} (h : Ordinary src t) : Ordinary src (std.listTy t) :=
  ordinary_cls (fun _ ha => List.mem_singleton.1 ha ▸ h)

/-! ### A class of lists without elements -/

/-- The module `class Empty extends List<nothing>`. -/
def emptiesTree : SyntaxTree where
  uri := "file:///empties.pkl"
  module := 1
  nodes := #[⟨.nothingType, .nowhere, some 1⟩, ⟨.declaredType none "List" [0], .nowhere, some 2⟩,
    ⟨.classDecl { name := "Empty", superclass := some 1 }, .nowhere, some 3⟩,
    ⟨.module { members := [2] }, .nowhere, none⟩]
  root := 3

/-- A session with this module only. -/
def empties : ModuleSource where
  tree m := if m = 1 then some emptiesTree else none
  resolve _ _ := none

def empty : NodeRef := ⟨1, 2⟩

def emptyTy : Ty := .cls empty [] []

theorem gives_supertype_empty :
    Gives empties (Query.supertype empty) (some (std.listTy .nothing)) :=
  gives_supertype_of_clause (t := emptiesTree) (Standard.ne_any nofun) rfl rfl rfl
    ⟨_, .of_settle rfl⟩ (by decide +kernel)

theorem empty_of_class {d : NodeRef} {c : ClassDecl} (hd : d.module ≠ ModuleId.base)
    (h : empties.construct? d = some (.classDecl c)) : d = empty := by
  obtain ⟨i, rfl, hc⟩ := construct?_only (t := emptiesTree) (fun _ => rfl) hd h
  rcases i with _ | _ | _ | _ | i
  · cases hc
  · cases hc
  · rfl
  · cases hc
  · simp [SyntaxTree.construct?, SyntaxTree.node?, emptiesTree] at hc

theorem classHierarchy_empties : ClassHierarchy empties where
  supertype hd hc := by
    obtain rfl := empty_of_class hd hc
    exact ⟨_, _, _, gives_supertype_empty⟩
  chain hd hc := by
    obtain rfl := empty_of_class hd hc
    obtain ⟨i, hi⟩ := exists_base Standard.isClass_list.1
    obtain ⟨n, t, hn, hs, ht⟩ := @steps_base empties i
    have hr := rank_le i
    have up := Reading.superdecl_of_supertype (gives_ask_iff.1 gives_supertype_empty).2
    rw [← hi] at hs
    refine ⟨n + 1, t, ?_, .up up hs, ht⟩
    show n + 1 < 100
    omega

/-- What the session answers about these lists. -/
def emptiesAnswers : Reading
  | .supertype d => if d = empty then some (std.listTy .nothing) else empties.table (.supertype d)
  | q => empties.table q

/-- Whether the supertype of the class is asked for. -/
def isEmptySupertype : Question → Bool
  | .supertype d => d == empty
  | _ => false

theorem run_empties {α : Type} {x : Query α} {a : α}
    (h : x.Asks emptiesAnswers (fun q => isEmptySupertype q = true ∨ empties.Tabled q) ∧
      x.value emptiesAnswers = a) : (run empties x {}).1 = a := by
  refine (gives_of_asks h.1 (fun q hq => ?_) {} .fresh).trans h.2
  cases q with
  | supertype d =>
    show Gives empties _ (if d = empty then _ else _)
    split
    · next e => exact e ▸ gives_supertype_empty
    · next ne => exact gives_tabled (hq.resolve_left (by simpa [isEmptySupertype] using ne))
  | _ => exact gives_tabled (hq.resolve_left Bool.false_ne_true)

/-! ### The limits -/

/-- Whether a type fits into another one except for `null`. -/
def fitsExceptNull (t u : Ty) : Query Bool := do
  let fits ← t.isSubtype u
  let rest ← t.nonNull
  let restFits ← rest.isSubtype u
  pure (!fits && restFits && !rest.isNothing)

/-- `null` or a text, in a union that nests `n` deep. -/
def maybe : Nat → Ty := Ty.stacked std.nullTy (.literal "a" [])

theorem ordinary_stacked {inner side : Ty} (hi : Ordinary src inner) (hs : Ordinary src side)
    (n : Nat) : Ordinary src (Ty.stacked inner side n) :=
  Ty.stacked_of_union (P := Ordinary src) (fun ht hu => ordinary_union ht hu []) hi hs n

/-- A list of integers, or one of texts that nest as deep as subtype queries go. -/
def mixedLists : Ty :=
  .union (std.listTy std.intTy) (std.listTy (Check.tower "b" Limits.subtypeDepth)) []

theorem ordinary_mixedLists : Ordinary src mixedLists :=
  ordinary_union (ordinary_list (ordinary_simple std.int)) (ordinary_list (ordinary_stacked (ordinary_literal "b" []) (ordinary_literal "a" []) _)) []

/-- `Empty|String` -/
def emptyOrString : Ty := .union emptyTy std.stringTy []

/-- Where `null` meets a type parameter, nothing has to be left without it. Where a class hands
`nothing` on, a list conforms that has nothing in common with the expected ones. Where subtype
queries or checks nest too deep, types that fit except for `null` are not told to. -/
theorem checkType_misclassifies :
    (Ordinary Check.nowhere std.nullTy ∧ Ordinary Check.nowhere (.var element []) ∧
      (run Check.nowhere std.nullTy.nonNull {}).1 = .nothing ∧
      (run Check.nowhere (Check.checkType Check.noConstant std.nullTy (.var element [])).run {}).1 =
        .ok ⟨.nullableMismatch, false⟩) ∧
    (ClassHierarchy empties ∧ Ordinary empties emptyOrString ∧
      Ordinary empties (std.listTy std.intTy) ∧
      Splits empties 1 emptyOrString [emptyTy, std.stringTy] ∧
      (run empties (emptyTy.isSubtype (std.listTy std.intTy)) {}).1 = true ∧
      (run empties (Check.checkType Check.noConstant emptyOrString (std.listTy std.intTy)).run {}).1 =
        .ok ⟨.mismatch, false⟩) ∧
    (Ordinary Check.nowhere mixedLists ∧ Ordinary Check.nowhere (std.listTy std.stringTy) ∧
      (run Check.nowhere (fitsExceptNull mixedLists (std.listTy std.stringTy)) {}).1 = true ∧
      (run Check.nowhere
        (Check.checkType Check.noConstant mixedLists (std.listTy std.stringTy)).run {}).1 =
          .ok ⟨.weakMismatch, false⟩) ∧
    Ordinary Check.nowhere (maybe 33) ∧ Ordinary Check.nowhere (Check.tower "a" 32) ∧
      (run Check.nowhere (fitsExceptNull (maybe 33) (Check.tower "a" 32)) {}).1 = true ∧
      (run Check.nowhere (Check.checkType Check.noConstant (maybe 33) (Check.tower "a" 32)).run {}).1 =
        .ok ⟨.pass, false⟩ := by
  suffices answers : ((_ ∧ _) ∧ (_ ∧ _) ∧ (_ ∧ _) ∧ _ ∧ _) ∧ _ ∧ _ by
    obtain ⟨⟨var, lists, deep⟩, handed⟩ := answers
    exact ⟨⟨ordinary_simple _, ordinary_var _ _, run_of_table var.1, run_of_table var.2⟩,
      ⟨classHierarchy_empties, ordinary_union (ordinary_simple _) (ordinary_simple _) [],
        ordinary_list (ordinary_simple _), .union [] (.leaf 0 rfl) (.leaf 0 rfl),
        run_empties handed.1, run_empties handed.2⟩,
      ⟨ordinary_mixedLists, ordinary_list (ordinary_simple _), run_of_table lists.1,
        run_of_table lists.2⟩,
      ordinary_stacked (ordinary_simple _) (ordinary_literal "a" []) 33,
      ordinary_stacked (ordinary_literal _ _) (ordinary_literal "a" []) 32, run_of_table deep.1,
      run_of_table deep.2⟩
  decide +kernel

end Session

end PklAnalysis
