import PklAnalysis.Proofs.Check.Agreement
import PklAnalysis.Proofs.Session.Fixed
import PklAnalysis.Proofs.Session.Subtype
import PklAnalysis.Proofs.Types.Stable

/-!
# Subtype queries under substitution

Where declared supertypes and aliases mention only the parameters of their own declaration, what is
below another type whatever the limit stays so when type parameters are replaced
(`ScopedDeclarations.isSubtype_bind`). A yes that is owed to the limit alone may get lost
(`isSubtype_bind_too_deep`).
-/

namespace PklAnalysis

open Session

/-- Arguments that are parameters mention these parameters only. -/
theorem Aligned.mem_of_mem_vars {ps qs : List (NodeRef × Variance)} {as : List Ty}
    (h : Aligned ps qs as) {p : NodeRef} (hp : p ∈ Ty.varsAll as) : p ∈ ps.map (·.1) := by
  obtain ⟨hl, ha⟩ := h
  induction as generalizing qs with
  | nil => cases hp
  | cons a as ih =>
    cases qs with
    | nil => cases hl
    | cons q qs =>
      rcases List.mem_append.1 hp with hp | hp
      · obtain ⟨x, hx, -, rfl⟩ := ha (a, q) List.mem_cons_self
        cases List.mem_singleton.1 hp
        exact List.mem_map_of_mem hx
      · exact ih hp (Nat.succ.inj hl) (fun y hy => ha y (List.mem_cons_of_mem _ hy))

theorem Bindings.eq_of_get?_single {p q : NodeRef} {x y : Ty}
    (h : (empty.insert p y).get? q = some x) : x = y := by
  by_cases hp : p = q
  · rw [← hp, get?_insert] at h
    exact (Option.some.inj h).symm
  · rw [get?_insert_of_ne _ _ hp] at h
    cases h

theorem Ty.bind_single (p : NodeRef) (x : Ty) :
    (Ty.var p []).bind (Bindings.empty.insert p x) = x := by
  rw [Ty.bind, Bindings.get?_insert]
  exact Ty.addConstraints_nil x

namespace ModuleSource

/-- Types whose class types are of classes. -/
abbrev Classed (src : ModuleSource) : Ty → Prop :=
  Ty.Formed (fun d _ => ∃ c, src.construct? d = some (.classDecl c)) (fun _ _ => True)

end ModuleSource

namespace Session

variable {src : ModuleSource}

/-! ## The standard library -/

theorem reading_params_eq (d : NodeRef) : (reading src).params d = src.params d :=
  reading_params src d

/-- Well-formed types have full argument lists. -/
theorem full_of_formed {t : Ty} (ht : src.Formed t) : (reading src).Full t :=
  ht.mono (fun d _ hd => (reading_params_eq d).symm ▸ hd.2)
    (fun d _ hd => (reading_params_eq d).symm ▸ hd.2)

/-- Every class of the standard library is below `Any`. -/
theorem steps_any {i : NodeIndex} {c : ClassDecl}
    (h : std.tree.construct? i = some (.classDecl c)) :
    ∃ n ≤ Standard.rank i, Steps (reading src).superdecl n ⟨ModuleId.base, i⟩ std.any := by
  induction hk : Standard.rank i using Nat.strongRecOn generalizing i c with
  | ind k ih =>
    subst hk
    by_cases hany : (⟨ModuleId.base, i⟩ : NodeRef) = std.any
    · exact ⟨0, Nat.zero_le _, hany ▸ .here _⟩
    obtain ⟨s, hs⟩ : ∃ s, Standard.supertype? i = some s := by
      unfold Standard.supertype?
      rw [if_neg hany, h]
      obtain ⟨_, _, _, _ | _, _⟩ := c <;> exact ⟨_, rfl⟩
    have hr := (settled_supertype src i).2.trans hs
    have he := ((Standard.soundClass h).2.1 s hs).1
    cases s with
    | cls d args k =>
      obtain ⟨hm, -, hlt, -⟩ := he
      obtain ⟨j, rfl⟩ := exists_base hm
      obtain ⟨⟨b, hb⟩, -⟩ := (formed_supertype src hr).args.1
      rw [src.construct?_base] at hb
      obtain ⟨n, hn, hst⟩ := ih _ hlt hb rfl
      exact ⟨n + 1, Nat.lt_of_le_of_lt hn hlt, .up (Reading.superdecl_of_supertype hr) hst⟩
    | _ => exact he.elim

/-- The aliases of the standard library mention their own parameters only, and what declares no
alias stands for a type that mentions none. -/
theorem settled_expansion_of_base {d : NodeRef}
    (h : ∀ a, src.construct? d = some (.aliasDecl a) → d.module = ModuleId.base) :
    Settled src (.expansion d [] []) ∧
      ∀ p ∈ (reading src (.expansion d [] [])).vars, p ∈ (src.params d).map (·.1) := by
  by_cases hc : ∃ a, src.construct? d = some (.aliasDecl a)
  · obtain ⟨a, ha⟩ := hc
    obtain ⟨i, rfl⟩ := exists_base (h a ha)
    rw [src.construct?_base] at ha
    obtain ⟨hs, he⟩ := settled_expansion src ha [] []
    refine ⟨hs, ?_⟩
    rw [he]
    show ∀ p ∈ (((Standard.target i).bind ((reading src).bindings _ [])).addConstraints []).vars, _
    rw [Reading.bindings_nil, Ty.bind_empty, Ty.addConstraints_nil, src.params_base rfl]
    exact (Standard.soundAlias ha).2
  · obtain ⟨hs, he⟩ := settled_expansion_of_not_alias src (fun a ha => hc ⟨a, ha⟩) [] []
    refine ⟨hs, ?_⟩
    rw [he]
    exact fun p hp => absurd hp List.not_mem_nil

/-! ## Declarations -/

variable (src)

/-- The classes beside the standard library extend class types and lead to `Any` before walks are
cut off, and aliases always stand for the same types. Both mention the parameters of their own
declaration only. -/
structure ScopedDeclarations : Prop where
  supertype : ∀ {d c}, d.module ≠ ModuleId.base → src.construct? d = some (.classDecl c) →
    ∃ e qs k, Gives src (Query.supertype d) (some (.cls e qs k)) ∧
      ∀ p ∈ Ty.varsAll qs, p ∈ (src.params d).map (·.1)
  chain : ∀ {d c}, d.module ≠ ModuleId.base → src.construct? d = some (.classDecl c) →
    ∃ n < Limits.supertypeChain, Steps (reading src).superdecl n d std.any
  expansion : ∀ {d a}, d.module ≠ ModuleId.base → src.construct? d = some (.aliasDecl a) →
    Settled src (.expansion d [] []) ∧
      ∀ p ∈ (reading src (.expansion d [] [])).vars, p ∈ (src.params d).map (·.1)

variable {src}

namespace ScopedDeclarations

variable (h : ScopedDeclarations src)
include h

theorem hierarchy : ClassHierarchy src where
  supertype hd hc := by
    obtain ⟨e, qs, k, hg, -⟩ := h.supertype hd hc
    exact ⟨e, qs, k, hg⟩
  chain hd hc := by
    obtain ⟨n, hn, hs⟩ := h.chain hd hc
    exact ⟨n, std.any, hn, hs, by unfold Reading.superdecl; rw [supertype_any]; rfl⟩

/-- Every class is below `Any`. -/
theorem climbs {d : NodeRef} {c : ClassDecl} (hc : src.construct? d = some (.classDecl c)) :
    (reading src).Climbs d := by
  by_cases hd : d.module = ModuleId.base
  · obtain ⟨i, rfl⟩ := exists_base hd
    rw [src.construct?_base] at hc
    obtain ⟨n, -, hs⟩ := @steps_any src _ _ hc
    exact ⟨n, hs⟩
  · obtain ⟨n, -, hs⟩ := h.chain hd hc
    exact ⟨n, hs⟩

theorem rising {t : Ty} (ht : src.Classed t) : (reading src).Rising t :=
  ht.mono (fun _ _ ⟨_, hc⟩ => h.climbs hc) (fun _ _ h => h)

/-- All expansions are settled, and an alias mentions its own parameters only. -/
theorem settled_expansion (d : NodeRef) : Settled src (.expansion d [] []) ∧
    ∀ p ∈ (reading src (.expansion d [] [])).vars, p ∈ (src.params d).map (·.1) := by
  by_cases hc : ∃ a, src.construct? d = some (.aliasDecl a) ∧ d.module ≠ ModuleId.base
  · obtain ⟨a, ha, hd⟩ := hc
    exact h.expansion hd ha
  · exact settled_expansion_of_base (fun a ha => Decidable.byContradiction (fun hd => hc ⟨a, ha, hd⟩))

theorem stable : (reading src).Stable where
  rooted := h.hierarchy.rooted
  supertype {d e qs k} hs := by
    refine ⟨full_of_formed (formed_supertype src hs), fun p hp => ?_⟩
    by_cases hd : d.module = ModuleId.base
    · obtain ⟨-, e', qs', k', he, ha⟩ := of_supertype_base hd hs
      cases he
      exact ha.mem_of_mem_vars hp
    · by_cases hc : ∃ c, src.construct? d = some (.classDecl c)
      · obtain ⟨c, hc⟩ := hc
        obtain ⟨e', qs', k', hg, hv⟩ := h.supertype hd hc
        have hr : reading src (.supertype d) = _ := (gives_ask_iff.1 hg).2
        rw [hs] at hr
        cases hr
        rw [reading_params_eq]
        exact hv p hp
      · have hp := plainSupertype_of_not_class (fun c e => hc ⟨c, e⟩)
        rw [(settled_plainSupertype hp).2] at hs
        cases hs
  expansion d := by
    obtain ⟨t, ht, he⟩ := exists_expansion src d
    have hb := he [] []
    rw [Reading.bindings_nil, Ty.bind_empty, Ty.addConstraints_nil] at hb
    refine ⟨t, full_of_formed ht, h.rising (ht.mono (fun _ _ hd => hd.1) (fun _ _ _ => trivial)),
      fun p hp => ?_, he⟩
    rw [reading_params_eq]
    exact (h.settled_expansion d).2 p (hb ▸ hp)
  top := reading_params_of_isClass Standard.isClass_any
  string := by
    have hc := Standard.isClass_string
    obtain ⟨c, hd⟩ := (hc.source src).1
    exact ⟨reading_params_of_isClass hc, h.climbs hd⟩
  module := by
    have hc := Standard.isClass_module
    obtain ⟨c, hd⟩ := (hc.source src).1
    exact ⟨reading_params_of_isClass hc, h.climbs hd⟩

/-- Supertypes and expansions do not hang on what was asked before. -/
theorem fixed : FixedDeclarations src where
  supertype := h.hierarchy.settled_supertype
  expansion d := (h.settled_expansion d).1

/-- Whatever the limit, a subtype query comes out the same whenever it is asked. -/
theorem gives_isSubtypeUpTo (n : Nat) (t u : Ty) :
    Gives src (Ty.isSubtypeUpTo n t u) ((reading src).sub n t u) :=
  gives_value (h.fixed.asks_isSubtypeUpTo n t u)

/-- What is below another type whatever the limit stays so under every substitution that does not
put in `nothing` itself. -/
theorem isSubtype_bind {t u : Ty} {s : Bindings} (ht : (reading src).Full t)
    (hu : (reading src).Full u) (hs : ∀ p x, s.get? p = some x → x ≠ .nothing ∧ src.Classed x)
    (htu : ∀ n m, Reachable src m → (run src (Ty.isSubtypeUpTo n t u) m).1 = true) {m : Memory}
    (hm : Reachable src m) : (run src ((t.bind s).isSubtype (u.bind s)) m).1 = true := by
  have below : (reading src).Below t u := by
    intro n
    rw [← h.gives_isSubtypeUpTo n t u {} .fresh]
    exact htu n {} .fresh
  have replaces : (reading src).Replaces s :=
    fun p x hx => ⟨(hs p x hx).1, h.rising (hs p x hx).2⟩
  rw [Ty.isSubtype, h.gives_isSubtypeUpTo _ _ _ m hm]
  exact h.stable.below_bind replaces ht hu below _

end ScopedDeclarations

/-! ### Elements of a list -/

/-- The type parameter of `List`. -/
def element : NodeRef := ((std.tree.params std.list).map (·.1)).headD std.list

theorem scopedDeclarations_aviary : ScopedDeclarations aviary where
  supertype hd h := by
    obtain ⟨rfl, rfl⟩ := bird_of_class hd h
    exact ⟨std.typed, [], [], gives_supertype_bird, fun p hp => absurd hp List.not_mem_nil⟩
  chain hd h := by
    obtain ⟨rfl, rfl⟩ := bird_of_class hd h
    obtain ⟨i, hi⟩ := exists_base Standard.isClass_typed.1
    obtain ⟨c, hc⟩ := (Standard.isClass_typed.source aviary).1
    rw [hi, aviary.construct?_base] at hc
    obtain ⟨n, hn, hs⟩ := @steps_any aviary _ _ hc
    have hr : n ≤ 3 := Nat.le_trans hn (rank_le i)
    have hb := Reading.superdecl_of_supertype (gives_ask_iff.1 gives_supertype_bird).2
    rw [← hi] at hs
    refine ⟨n + 1, ?_, .up hb hs⟩
    show n + 1 < 100
    omega
  expansion {d a} hd h := by
    obtain ⟨i, rfl, hc⟩ := construct?_only (t := aviaryTree) (fun _ => rfl) hd h
    rcases i with _ | _ | i
    · cases hc
    · cases hc
    · simp [SyntaxTree.construct?, SyntaxTree.node?, aviaryTree] at hc

/-- A list of birds or nothing at all is a collection of these, for a list is a collection. -/
theorem isSubtype_bind_birds :
    (run aviary ((std.listTy (.union birdTy (.literal "none" []) [])).isSubtype
      (Base.generic std.collection [.union birdTy (.literal "none" []) []])) {}).1 = true := by
  let s : Bindings := Bindings.empty.insert element (.union birdTy (.literal "none" []) [])
  let list : Ty := std.listTy (.var element [])
  let collection : Ty := Base.generic std.collection [.var element []]
  have params_list : 1 = ((reading aviary).params std.list).length :=
    length_params_of_isClass Standard.isClass_list
  have params_collection : 1 = ((reading aviary).params std.collection).length :=
    length_params_of_isClass Standard.isClass_collection
  have full_var : ∀ a ∈ [Ty.var element []], (reading aviary).Full a :=
    fun a ha => List.mem_singleton.1 ha ▸ .var element []
  have height_var : ∀ a ∈ [Ty.var element []], (reading aviary).Height (Settled aviary) 0 a :=
    fun a ha => List.mem_singleton.1 ha ▸ .var 0 element []
  have answers : (list.isSubtype collection).Asks aviary.table aviary.Tabled ∧
      (list.isSubtype collection).value aviary.table = true := by
    decide +kernel
  have hl : Expands aviary 1 list := .cls [] params_list height_var
  have hc : Expands aviary 1 collection := .cls [] params_collection height_var
  have yes := (gives_table answers.1 {} .fresh).trans answers.2
  rw [plainClasses_aviary.gives_isSubtype hl hc {} .fresh] at yes
  have below := plainClasses_aviary.regular.below_of_height hl hc (by decide) yes
  rw [← Ty.bind_single element (.union birdTy (.literal "none" []) [])]
  refine scopedDeclarations_aviary.isSubtype_bind (t := list) (u := collection) (s := s)
    (.cls [] params_list full_var) (.cls [] params_collection full_var) ?_ ?_ .fresh
  · intro p x hx
    rw [Bindings.eq_of_get?_single hx]
    refine ⟨nofun, .union [] (.cls [] ⟨_, rfl⟩ fun a ha => ?_) (.literal "none" [])⟩
    cases ha
  · intro n m hm
    rw [scopedDeclarations_aviary.gives_isSubtypeUpTo n list collection m hm]
    exact below n

/-! ### Where the limit comes in -/

/-- What is in a list of lists is substituted. -/
theorem shelves_bind (t : Ty) (s : Bindings) (n : Nat) :
    (Check.shelves t n).bind s = Check.shelves (t.bind s) n := by
  induction n with
  | zero => rfl
  | succ n ih => exact congrArg std.listTy ih

theorem full_shelves {src : ModuleSource} {t : Ty} (ht : (reading src).Full t) (n : Nat) :
    (reading src).Full (Check.shelves t n) := by
  induction n with
  | zero => exact ht
  | succ n ih =>
    exact .cls [] (length_params_of_isClass Standard.isClass_list)
      (fun a ha => List.mem_singleton.1 ha ▸ ih)

theorem scopedDeclarations_nowhere : ScopedDeclarations Check.nowhere :=
  ⟨fun hd h => absurd h (Check.nowhere_empty hd), fun hd h => absurd h (Check.nowhere_empty hd),
    fun hd h => absurd h (Check.nowhere_empty hd)⟩

/-- The question whether a text is below an element is not reached to the end, but the question
whether one text is below another one is. -/
theorem isSubtype_bind_too_deep :
    ScopedDeclarations Check.nowhere ∧
    ∃ (t u : Ty) (s : Bindings), (reading Check.nowhere).Full t ∧ (reading Check.nowhere).Full u ∧
      (∀ p x, s.get? p = some x → x ≠ .nothing ∧ Check.nowhere.Classed x) ∧
      (run Check.nowhere (t.isSubtype u) {}).1 = true ∧
      (run Check.nowhere ((t.bind s).isSubtype (u.bind s)) {}).1 = false := by
  have answer : Gives Check.nowhere ((Check.deep "a").isSubtype (Check.shelves (.var element [])
      Limits.subtypeDepth)) true := by
    have cut := Check.sub_shelves Check.nowhere 1 (.literal "a" []) (.var element []) 100
    have gives := Check.plainClasses_nowhere.gives_isSubtype (Check.expands_deep "a")
      (Check.expands_shelves (.var 0 element []) Limits.subtypeDepth)
    exact (cut.trans rfl : _ = true) ▸ gives
  refine ⟨scopedDeclarations_nowhere, Check.deep "a",
    Check.shelves (.var element []) Limits.subtypeDepth,
    Bindings.empty.insert element (.literal "b" []), full_shelves (.literal "a" []) _,
    full_shelves (.var element []) _, fun p x hx => ?_, ?_, ?_⟩
  · rw [Bindings.eq_of_get?_single hx]
    exact ⟨nofun, .literal "b" []⟩
  · exact answer {} .fresh
  · rw [Check.deep, shelves_bind, shelves_bind, Ty.bind_single]
    exact Check.gives_deep.1 {} .fresh

end Session

end PklAnalysis
