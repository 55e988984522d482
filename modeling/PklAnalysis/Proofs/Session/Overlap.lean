import PklAnalysis.Proofs.Session.Union
import PklAnalysis.Proofs.Types.Overlap

/-!
# Common subtypes in a session

If a type is below two types, and the limit of subtype queries is not the reason, then the session
finds that these have a common subtype, as long as arguments of `in` parameters that it compares
have types below both of them (`hasCommonSubtype_of_below`). Where they have none, the session may
find nothing that two function types have in common although a third one is below both
(`not_hasCommonSubtype_functions`). Where the limit is the reason, it may say that a type is below
two types which it finds to have nothing in common (`not_hasCommonSubtype_too_deep`).
-/

namespace PklAnalysis.Session

variable {src : ModuleSource}

/-- The session says that one type is below another, whatever the limit of the query. -/
def AtAnyDepth (src : ModuleSource) (t u : Ty) : Prop :=
  ∀ n, Gives src (Ty.isSubtypeUpTo n t u) true

theorem ClassHierarchy.asks_isSubtypeUpTo (h : ClassHierarchy src) (hr : (reading src).Regular)
    {i j n : Nat} {t u : Ty} (ht : Expands src i t) (hu : Expands src j u) :
    (Ty.isSubtypeUpTo n t u).Asks (reading src) (Settled src) :=
  hr.asks_of_height (fun _ => settled_source src) h.settled_supertype ht hu

theorem ClassHierarchy.asks_hasCommonSubtypeUpTo (h : ClassHierarchy src)
    (hr : (reading src).Regular) {i j n : Nat} {t u : Ty} (ht : Expands src i t)
    (hu : Expands src j u) : (Ty.hasCommonSubtypeUpTo n t u).Asks (reading src) (Settled src) :=
  hr.closed_height.asks_hasCommonSubtypeUpTo (fun _ => settled_source src)
    (fun c e => hr.rooted.asks_projectFrom (fun _ => settled_source src) h.settled_supertype e _ _ c)
    ⟨i, ht⟩ ⟨j, hu⟩

/-- Where the limit leaves room for both types, it is not the reason for a yes. -/
theorem ClassHierarchy.below_of_run (h : ClassHierarchy src) (hr : (reading src).Regular) {i j : Nat}
    {t u : Ty} (ht : Expands src i t) (hu : Expands src j u) (hij : i + j ≤ Limits.subtypeDepth)
    {m : Memory} (hm : Reachable src m) (hs : (run src (t.isSubtype u) m).1 = true) :
    (reading src).Below t u := by
  have hs : (reading src).sub (Limits.subtypeDepth + 1) t u = true :=
    (gives_value (h.asks_isSubtypeUpTo hr ht hu) m hm).symm.trans hs
  exact hr.below_of_height ht hu (by omega) hs

theorem ClassHierarchy.atAnyDepth (h : ClassHierarchy src) (hr : (reading src).Regular) {i j : Nat}
    {t u : Ty} (ht : Expands src i t) (hu : Expands src j u) (below : (reading src).Below t u) :
    AtAnyDepth src t u :=
  fun n => below n ▸ gives_value (h.asks_isSubtypeUpTo hr ht hu)

/-- Two types that have a type below them have a common subtype, if what they take has one as
well. -/
theorem hasCommonSubtype_of_below (h : ClassHierarchy src) (hr : (reading src).Regular)
    {i j k : Nat} {w t u : Ty} (hw : Expands src i w) (ht : Expands src j t) (hu : Expands src k u)
    (occupied : ¬ (reading src).Occurs .nothing w) (shared : (reading src).Shared t u)
    (hwt : AtAnyDepth src w t) (hwu : AtAnyDepth src w u) :
    Gives src (t.hasCommonSubtype u) true := by
  have below : ∀ {v : Ty} {l : Nat}, Expands src l v → AtAnyDepth src w v →
      (reading src).Below w v := fun hv hwv n =>
    (gives_value (h.asks_isSubtypeUpTo hr hw hv)).unique (hwv n)
  have found := hr.overlap_of_below (reading_params_of_isClass Standard.isClass_any)
    (Limits.subtypeDepth + 1) ⟨hw.known, occupied⟩ ht.known hu.known shared
    (below ht hwt) (below hu hwu)
  exact found ▸ gives_value (h.asks_hasCommonSubtypeUpTo hr ht hu)

/-! ### Functions of birds -/

theorem reading_params_function1 (src : ModuleSource) : ∃ p q,
    (reading src).params function1 = [(p, .contravariant), (q, .covariant)] := by
  obtain ⟨p, q, h⟩ := typeParams_function1
  exact ⟨p, q, congrArg (Query.value (reading src)) h⟩

/-- Functions share what they are to share if their parameters have a type below both, and the
parameters and the results do so in turn. -/
theorem shared_arrow {x y x' y' v : Ty} (solid : (reading src).Solid v)
    (hx : (reading src).Below v x) (hx' : (reading src).Below v x')
    (params : (reading src).Shared x x') (results : (reading src).Shared y y') :
    (reading src).Shared (arrow x y) (arrow x' y') := by
  obtain ⟨p, q, hpq⟩ := reading_params_function1 src
  have self : ∀ as c, (ClassTy.projectTo ⟨function1, as, c⟩ function1).value (reading src) =
      some ⟨function1, as, c⟩ := fun as c => Reading.projectTo_mk ..
  rw [arrow_eq, arrow_eq]
  refine .of_args (fun a b opposed => ?_) (fun as bs facing a b hab => ?_)
  · have first : a = x ∧ b = x' := by
      obtain ⟨i, z, ⟨f, hf, hi, ha, hb⟩ | ⟨f, hf, hi, ha, hb⟩⟩ := opposed <;>
        rw [hpq] at hi <;> cases (self _ _).symm.trans hf
      · match i with
        | 0 => exact ⟨(Option.some.inj ha).symm, (Option.some.inj hb).symm⟩
        | 1 => cases hi
        | _ + 2 => cases hi
      · match i with
        | 0 => exact ⟨(Option.some.inj ha).symm, (Option.some.inj hb).symm⟩
        | 1 => cases hi
        | _ + 2 => cases hi
    exact ⟨v, solid, first.1 ▸ hx, first.2 ▸ hx'⟩
  · have both : (a, b) = (x, x') ∨ (a, b) = (y, y') := by
      rcases facing with ⟨f, hf, rfl, rfl⟩ | ⟨f, hf, rfl, rfl⟩ <;>
        cases (self _ _).symm.trans hf <;> simpa using hab
    rcases both with e | e <;> cases e
    · exact params
    · exact results

/-- `Collection<Typed>` -/
def objects : Ty := Base.generic std.collection [std.typedTy]

/-- `List<Bird|"none">` -/
def someBirds : Ty := std.listTy (.union birdTy (.literal "none" []) [])

/-- A class type without arguments is as free of `in` parameters as its class. -/
theorem inFree_simple {d : NodeRef} (h : (reading src).TakesNothing d) :
    (reading src).InFree (Base.simple d) := by
  intro e as c ho
  cases ho with
  | self => exact h
  | part hp => cases hp
  | arg ha => cases ha

theorem inFree_objects : (reading aviary).InFree objects := by
  have params : ∀ p ∈ std.tree.params std.collection, p.2 ≠ .contravariant := by
    decide +kernel
  have none : (reading aviary).TakesNothing std.typed := by
    rw [Reading.TakesNothing, reading_params_of_isClass Standard.isClass_typed]
    exact fun p hp => absurd hp List.not_mem_nil
  intro d as c h
  cases h with
  | self =>
    rw [Reading.TakesNothing, reading_params_base aviary Standard.isClass_collection.1]
    exact params
  | part hp => cases hp
  | arg ha h =>
    cases List.mem_singleton.1 ha
    exact inFree_simple none d as c h

/-- `nothing` does not occur in a class type unless it does in an argument. -/
theorem occupied_cls {d : NodeRef} {as : List Ty} {c : Constraints}
    (h : ∀ a ∈ as, ¬ (reading src).Occurs .nothing a) :
    ¬ (reading src).Occurs .nothing (.cls d as c) := by
  intro ho
  cases ho with
  | part hp => cases hp
  | arg ha ho => exact h _ ha ho

/-- `(Any) -> List<Bird>`, `(Bird) -> Collection<Typed>` and `(Typed) -> List<Bird|"none">` -/
def hatchery : Ty := arrow std.anyTy (std.listTy birdTy)

@[inherit_doc hatchery]
def birdwatcher : Ty := arrow birdTy objects

@[inherit_doc hatchery]
def keeper : Ty := arrow std.typedTy someBirds

theorem birds_answers : ∀ p ∈ [(birdTy, std.typedTy), (hatchery, birdwatcher), (hatchery, keeper)],
    (p.1.isSubtype p.2).Asks aviary.table aviary.Tabled ∧
      (p.1.isSubtype p.2).value aviary.table = true := by
  decide +kernel

/-- Functions that make lists of birds out of anything are functions of birds that make collections
of objects, and functions of objects that make lists with birds and texts. -/
theorem hasCommonSubtype_of_below_birds :
    ClassHierarchy aviary ∧ (reading aviary).Regular ∧
    ∃ w t u : Ty, Expands aviary 2 w ∧ Expands aviary 2 t ∧ Expands aviary 4 u ∧
      ¬ (reading aviary).Occurs .nothing w ∧ (reading aviary).Shared t u ∧
      AtAnyDepth aviary w t ∧ AtAnyDepth aviary w u ∧ Gives aviary (t.hasCommonSubtype u) true := by
  have hc := plainClasses_aviary.hierarchy
  have hr := plainClasses_aviary.regular
  have hb : (reading aviary).params bird = [] :=
    reading_params_of_construct (c := .classDecl { name := "Bird" }) rfl rfl
  have plain : ∀ {d : NodeRef}, (reading aviary).params d = [] → ∀ n, Expands aviary n (.cls d [] []) :=
    fun h n => .plain n [] h
  have typed := plain (reading_params_of_isClass Standard.isClass_typed)
  have functions : ∀ {n : Nat} {x y : Ty}, Expands aviary n x → Expands aviary n y →
      Expands aviary (n + 1) (arrow x y) := by
    intro n x y hx hy
    rw [arrow_eq]
    refine .cls [] (length_params_of_isClass (Standard.isClass_functions function1_spec.1)) ?_
    exact List.forall_mem_cons.2 ⟨hx, List.forall_mem_singleton.2 hy⟩
  have someBirds_expands : Expands aviary 3 someBirds := by
    refine .cls [] (length_params_of_isClass Standard.isClass_list) ?_
    exact List.forall_mem_singleton.2 (.union [] (.plain 1 [] hb) (.literal 0 "none" []))
  have hw : Expands aviary 2 hatchery :=
    functions (plain (reading_params_of_isClass Standard.isClass_any) 1) expands_birds
  have ht : Expands aviary 2 birdwatcher := functions (plain hb 1) expands_typed
  have hu : Expands aviary 4 keeper := functions (typed 3) someBirds_expands
  have birdsTyped : (reading aviary).Below birdTy std.typedTy :=
    hc.below_of_run hr (plain hb 0) (typed 0) (by decide) .fresh
      (run_of_table (birds_answers (birdTy, std.typedTy) (by simp)))
  have free : (reading aviary).InFree birdTy :=
    inFree_simple (fun p hp => absurd (hb ▸ hp) List.not_mem_nil)
  have empty : ∀ d, ¬ (reading aviary).Occurs .nothing (.cls d [] []) :=
    fun d => occupied_cls (fun a ha => absurd ha List.not_mem_nil)
  have shared : (reading aviary).Shared birdwatcher keeper := by
    refine shared_arrow ⟨(plain hb 0).known, empty bird⟩ (Reading.below_self _) ?_ ?_ ?_
    · exact birdsTyped
    · exact hr.shared_of_inFree (plain hb 0).known (typed 0).known (.inl free)
    · exact hr.shared_of_inFree expands_typed.known someBirds_expands.known (.inl inFree_objects)
  have occupied : ¬ (reading aviary).Occurs .nothing hatchery := by
    rw [hatchery, arrow_eq]
    refine occupied_cls (List.forall_mem_cons.2 ⟨empty _, List.forall_mem_singleton.2 ?_⟩)
    exact occupied_cls (List.forall_mem_singleton.2 (empty bird))
  have hwt := hc.below_of_run hr hw ht (by decide) .fresh
    (run_of_table (birds_answers (hatchery, birdwatcher) (by simp)))
  have hwu := hc.below_of_run hr hw hu (by decide) .fresh
    (run_of_table (birds_answers (hatchery, keeper) (by simp)))
  have toTyped := hc.atAnyDepth hr hw ht hwt
  have toMixed := hc.atAnyDepth hr hw hu hwu
  exact ⟨hc, hr, _, _, _, hw, ht, hu, occupied, shared, toTyped, toMixed,
    hasCommonSubtype_of_below hc hr hw ht hu occupied shared toTyped toMixed⟩

/-! ### Functions that take different things -/

/-- Neither `unknown` nor `nothing` nor a type parameter occurs. -/
def Plain (src : ModuleSource) (t : Ty) : Prop :=
  ∀ x, (reading src).Occurs x t → x ≠ .unknown ∧ x ≠ .nothing ∧ ∀ p c, x ≠ .var p c

theorem plain_cls {d : NodeRef} {as : List Ty} {c : Constraints} (h : ∀ a ∈ as, Plain src a) :
    Plain src (.cls d as c) := by
  intro x hx
  cases hx with
  | self => exact ⟨nofun, nofun, nofun⟩
  | part hp => cases hp
  | arg ha hx => exact h _ ha x hx

theorem plain_simple (d : NodeRef) : Plain src (Base.simple d) :=
  plain_cls (fun _ ha => absurd ha List.not_mem_nil)

theorem plain_literal (s : String) (c : Constraints) : Plain src (.literal s c) := by
  intro x hx
  cases hx with
  | self => exact ⟨nofun, nofun, nofun⟩
  | part hp => cases hp

/-- Types of one class have as much in common as their arguments. -/
theorem overlap_cls_self {r : Reading} {n : Nat} {d : NodeRef} {as bs : List Ty}
    {c k : Constraints} : r.overlap (n + 1) (.cls d as c) (.cls d bs k) =
      (Ty.argsOverlap (Ty.hasCommonSubtypeUpTo n) as bs).value r := by
  rw [Reading.overlap_succ]
  show (Ty.classesOverlap _ ⟨d, as, c⟩ ⟨d, bs, k⟩).value r = _
  unfold Ty.classesOverlap
  rw [Query.value_bind, Reading.projectTo_mk]

theorem argsOverlap_cons_apart {r : Reading} {n : Nat} {x y : Ty} {xs ys : List Ty}
    (hx : x.isUnknown = false) (hy : y.isUnknown = false) (h : r.overlap n x y = false) :
    (Ty.argsOverlap (Ty.hasCommonSubtypeUpTo n) (x :: xs) (y :: ys)).value r = false := by
  unfold Ty.argsOverlap
  rw [hx, hy, Bool.or_self, if_neg Bool.false_ne_true, Query.value_bind]
  show (if r.overlap n x y = true then _ else _ : Query Bool).value r = false
  rw [h, if_neg Bool.false_ne_true]
  rfl

/-- What the standard library says of its numbers. -/
theorem numbers_answers :
    (∀ d ∈ [std.int, std.float],
      ((Base.simple d).isSubtype std.numberTy).Asks Check.nowhere.table Check.nowhere.Tabled ∧
      ((Base.simple d).isSubtype std.numberTy).value Check.nowhere.table = true) ∧
    (Ty.hasCommonSubtypeUpTo 100 std.intTy std.floatTy).Asks Check.nowhere.table
        Check.nowhere.Tabled ∧
      (Ty.hasCommonSubtypeUpTo 100 std.intTy std.floatTy).value Check.nowhere.table = false := by
  decide +kernel

/-- A function of numbers is one of integers and one of floating-point numbers, but functions of
these are taken to have nothing in common, since the search takes parameters as it takes results. -/
theorem not_hasCommonSubtype_functions :
    PlainClasses Check.nowhere ∧
    ∃ w t u : Ty, Plain Check.nowhere w ∧ Plain Check.nowhere t ∧ Plain Check.nowhere u ∧
      (∀ a b c, w ≠ .union a b c) ∧ AtAnyDepth Check.nowhere w t ∧ AtAnyDepth Check.nowhere w u ∧
      (run Check.nowhere (t.hasCommonSubtype u) {}).1 = false := by
  let r := reading Check.nowhere
  have fixed := scopedDeclarations_nowhere.fixed
  obtain ⟨p, q, hpq⟩ := reading_params_function1 Check.nowhere
  have plain : ∀ d, Plain Check.nowhere (arrow (Base.simple d) std.stringTy) := by
    intro d
    rw [arrow_eq]
    refine plain_cls (List.forall_mem_cons.2 ⟨plain_simple d, ?_⟩)
    exact List.forall_mem_singleton.2 (plain_simple _)
  -- parameters are compared the other way round
  have below : ∀ d, r.Below (Base.simple d) std.numberTy →
      AtAnyDepth Check.nowhere (arrow std.numberTy std.stringTy)
        (arrow (Base.simple d) std.stringTy) := by
    intro d hd n
    have deep : r.Below (arrow std.numberTy std.stringTy) (arrow (Base.simple d) std.stringTy) := by
      rw [arrow_eq, arrow_eq]
      refine Reading.below_cls_cls.2 ⟨_, Reading.projectTo_mk .., ?_⟩
      rw [hpq]
      exact ⟨hd, Reading.below_self _, trivial⟩
    exact deep n ▸ gives_value (fixed.asks_isSubtypeUpTo n _ _)
  obtain ⟨numbers, distinct⟩ := numbers_answers
  have number : ∀ d ∈ [std.int, std.float], r.Below (Base.simple d) std.numberTy := by
    intro d hd
    have leaf : ∀ e, (e, 0) ∈ Standard.special → Expands Check.nowhere 0 (Base.simple e) :=
      fun e he => .plain 0 [] (reading_params_of_isClass (Standard.isClass_special he))
    refine Check.plainClasses_nowhere.hierarchy.below_of_run Check.plainClasses_nowhere.regular (leaf d ?_)
      (leaf std.number (by simp [Standard.special])) (by decide) .fresh (run_of_table (numbers d hd))
    rcases List.mem_cons.1 hd with rfl | hd
    · simp [Standard.special]
    · cases List.mem_singleton.1 hd
      simp [Standard.special]
  have apart : r.overlap 100 std.intTy std.floatTy = false :=
    (gives_value (fixed.asks_hasCommonSubtypeUpTo 100 _ _) {} .fresh).symm.trans
      (run_of_table distinct)
  have value : r.overlap 101 (arrow std.intTy std.stringTy) (arrow std.floatTy std.stringTy) =
      false := by
    rw [arrow_eq, arrow_eq]
    exact overlap_cls_self.trans (argsOverlap_cons_apart rfl rfl apart)
  refine ⟨Check.plainClasses_nowhere, arrow std.numberTy std.stringTy, arrow std.intTy std.stringTy,
    arrow std.floatTy std.stringTy, plain _, plain _, plain _, ?_, below _ ?_, below _ ?_, ?_⟩
  · rw [arrow_eq]
    exact fun _ _ _ => Ty.noConfusion
  · exact number std.int (by simp)
  · exact number std.float (by simp)
  · exact (gives_value (fixed.asks_hasCommonSubtypeUpTo _ _ _) {} .fresh).trans value

/-! ### Where the limit comes in -/

theorem plain_shelves {t : Ty} (h : Plain src t) (n : Nat) : Plain src (Check.shelves t n) := by
  induction n with
  | zero => exact h
  | succ n ih => exact plain_cls (List.forall_mem_singleton.2 ih)

/-- Lists of lists have as much in common as what is in them. -/
theorem overlap_shelves {r : Reading} {n : Nat} {t u : Ty} (ht : t.isUnknown = false)
    (hu : u.isUnknown = false) (h : r.overlap n t u = false) (m : Nat) :
    r.overlap (n + m) (Check.shelves t m) (Check.shelves u m) = false := by
  have known : ∀ {v : Ty}, v.isUnknown = false → ∀ m, (Check.shelves v m).isUnknown = false := by
    intro v hv m
    cases m with
    | zero => exact hv
    | succ m => rfl
  induction m with
  | zero => exact h
  | succ m ih =>
    exact overlap_cls_self.trans (argsOverlap_cons_apart (known ht m) (known hu m) ih)

/-- The limit makes lists of texts lists of integers and lists of truth values alike. -/
theorem not_hasCommonSubtype_too_deep :
    PlainClasses Check.nowhere ∧
    ∃ w t u : Ty, Plain Check.nowhere w ∧ Plain Check.nowhere t ∧ Plain Check.nowhere u ∧
      (∀ a b c, w ≠ .union a b c) ∧
      (run Check.nowhere (w.isSubtype t) {}).1 = true ∧
      (run Check.nowhere (w.isSubtype u) {}).1 = true ∧
      (run Check.nowhere (t.hasCommonSubtype u) {}).1 = false := by
  let r := reading Check.nowhere
  have fixed := scopedDeclarations_nowhere.fixed
  -- with one question left, a text is below every class
  have below : ∀ d, (run Check.nowhere ((Check.deep "a").isSubtype
      (Check.shelves (Base.simple d) Limits.subtypeDepth)) {}).1 = true := fun d =>
    fixed.gives_true (Check.sub_shelves Check.nowhere 1 (.literal "a" []) (Base.simple d) 100)
      {} .fresh
  have apart : r.overlap 1 std.intTy std.booleanTy = false := by
    refine (gives_value (fixed.asks_hasCommonSubtypeUpTo 1 _ _) {} .fresh).symm.trans ?_
    exact run_of_table (by decide +kernel)
  refine ⟨Check.plainClasses_nowhere, Check.deep "a", Check.shelves std.intTy Limits.subtypeDepth,
    Check.shelves std.booleanTy Limits.subtypeDepth, plain_shelves (plain_literal _ _) _,
    plain_shelves (plain_simple _) _, plain_shelves (plain_simple _) _, nofun, below _, below _, ?_⟩
  have value := overlap_shelves rfl rfl apart 100
  exact (gives_value (fixed.asks_hasCommonSubtypeUpTo _ _ _) {} .fresh).trans value

end PklAnalysis.Session
