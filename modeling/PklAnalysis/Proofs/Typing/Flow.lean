import PklAnalysis.Proofs.Typing.Conditions
import PklAnalysis.Proofs.Typing.Narrowing
import Mathlib.Data.List.Sublists

/-!
# Flow narrowing is sound

Where control gets to a place, the type to which the conditions around it narrow a declaration still
covers the value of the declaration (`narrow_covers`). The subtype queries on the way are asked not
to owe a yes to their depth limit: a type that is deep enough covers everything as far as the limit
can tell, and loses that when members are taken out of it (`narrow_not_covers`).
-/

namespace PklAnalysis

open Session

variable {src : ModuleSource} {t : SyntaxTree} {m : ModuleId} {ρ : NodeRef → Ty}

variable (src t m ρ) in
/-- The types that narrowing a declaration with the type `u` starts from. -/
def Concerns (d : NodeRef) (u : Ty) (x : Ty) : Prop :=
  x = ρ d ∨ x = u ∨ x = std.nullTy ∨ Tested src t m d x

/-- What agrees with the value of a declaration is true of it. -/
theorem Agrees.trueOf {d : NodeRef} {u : Ty} {f : FlowFact}
    (hK : Orderly (.between src) (Involved (.between src) (Concerns src t m ρ d u))) (h : Agrees src t m ρ (d, f)) :
    TrueOf (.between src) (Concerns src t m ρ d u) (ρ d) f := by
  have value : Involved (.between src) (Concerns src t m ρ d u) (ρ d) := .given (.inl rfl)
  cases f with
  | nonNull =>
    have null : Involved (.between src) (Concerns src t m ρ d u) std.nullTy :=
      .given (.inr (.inr (.inl rfl)))
    exact (hK.decides value null).not_below (Stage.admits_of_gives h)
  | is x =>
    have tested : Involved (.between src) (Concerns src t m ρ d u) x := .given (.inr (.inr (.inr h.1)))
    exact ⟨tested, (hK.decides value tested).below (Stage.admits_of_gives h.2)⟩
  | isNot x =>
    have tested : Involved (.between src) (Concerns src t m ρ d u) x := .given (.inr (.inr (.inr h.1)))
    exact ⟨tested, (hK.decides value tested).not_below (Stage.admits_of_gives h.2)⟩

/-- Narrowing by the facts at a place that is reached keeps the type of the value covered. -/
theorem narrow_covers {site : NodeRef} {v : Valuation src t site.module ρ} {d : NodeRef} {u : Ty}
    (ht : src.treeOf site.module = some t) (hv : v.Reaches site.node)
    (hd : (ρ d).isSimple = true)
    (hK : Orderly (.between src) (Involved (.between src) (Concerns src t site.module ρ d u)))
    (hu : Possible src ((ρ d).isSubtype u) true) {k : Memory} (hk : Reachable src k) :
    let facts := run src (FlowFacts.collect site) k
    let narrowed := run src (facts.1.narrow d u) facts.2
    Gives src ((ρ d).isSubtype narrowed.1) true := by
  intro facts narrowed
  have value : Involved (.between src) (Concerns src t site.module ρ d u) (ρ d) := .given (.inl rfl)
  have declared : Involved (.between src) (Concerns src t site.module ρ d u) u := .given (.inr (.inl rfl))
  have agree : ∀ f ∈ facts.1, Agrees src t site.module ρ f :=
    Valuation.collect ht hv fuel k ⟨rfl, hk⟩
  have covered : (reading src).Below (ρ d) u := (hK.decides value declared).below hu
  have facts_true : ∀ f ∈ facts.1.about d, TrueOf (.between src) (Concerns src t site.module ρ d u) (ρ d) f := by
    intro f hf
    obtain ⟨⟨e, g⟩, hg, rfl⟩ := List.mem_map.1 hf
    obtain ⟨hg, he⟩ := List.mem_filter.1 hg
    have e_eq : e = d := eq_of_beq he
    exact (agree (d, g) (e_eq ▸ hg)).trueOf hK
  obtain ⟨w, gw, hw, bw⟩ := hK.narrowByAll hd value facts_true declared covered
  have hn : narrowed.1 = w := Stage.gives_between.1 gw facts.2 (hk.query _)
  obtain ⟨yes, hy, hb⟩ := hK.decides value hw
  rw [hn, ← hb.2 bw]
  exact Stage.gives_between.1 hy

/-! ## One type test

The module `x; y = if (x is "d") null else x`. -/

namespace Session

def choiceTree : SyntaxTree where
  uri := "file:///choice.pkl"
  module := 1
  nodes := #[⟨.property { name := "x" }, .nowhere, some 8⟩,
    ⟨.access "x" none, .nowhere, some 3⟩, ⟨.literalType "d", .nowhere, some 3⟩,
    ⟨.typeTest 1 2, .nowhere, some 6⟩, ⟨.nullLit, .nowhere, some 6⟩,
    ⟨.access "x" none, .nowhere, some 6⟩, ⟨.ifElse 3 4 5, .nowhere, some 7⟩,
    ⟨.property { name := "y", value := some 6 }, .nowhere, some 8⟩,
    ⟨.module { members := [0, 7] }, .nowhere, none⟩]
  root := 8

/-- A session with this module only. -/
def choice : ModuleSource where
  tree i := if i = 1 then some choiceTree else none
  resolve _ _ := none

/-- The `x` of the second branch. -/
def choiceSite : NodeRef := ⟨1, 5⟩

def choiceDecl : NodeRef := ⟨1, 0⟩

theorem choice_construct {i : NodeIndex} {c : Construct} (h : choiceTree.construct? i = some c) :
    c ∈ choiceTree.nodes.toList.map (·.construct) := by
  obtain ⟨n, hn, rfl⟩ := Option.map_eq_some_iff.1 h
  exact List.mem_map_of_mem (Array.mem_toList_iff.2 (Array.mem_of_getElem? hn))

theorem choice_treeOf {k : ModuleId} {t : SyntaxTree} (hk : k ≠ ModuleId.base)
    (h : choice.treeOf k = some t) : t = choiceTree := by
  unfold ModuleSource.treeOf at h
  rw [if_neg hk] at h
  change (if k = 1 then some choiceTree else none) = some t at h
  split at h
  · exact (Option.some.inj h).symm
  · cases h

def tower : Nat → Ty :=
  Ty.stacked (.union (.union (.literal "a" []) (.literal "b" []) []) (.literal "c" []) [])
    (.literal "d" [])

/-- A type whose first two literals are too deep for a subtype query to look at them. -/
@[irreducible]
def highTower : Ty := tower 99

/-- The types that come up when `Int|"d"` is narrowed. -/
def choiceTypes : List Ty :=
  [std.intTy, .union std.intTy (.literal "d" []) [], .literal "d" [], std.nullTy, .nothing]

/-- The types that come up when a tower is narrowed for the value `"z"`. -/
def towerTypes : List Ty :=
  [.literal "z" [], highTower, .literal "d" [], std.nullTy, tower 0]

/-- What the session says of the module, of unions of its types, and of towers. -/
theorem choice_answers :
    (((resolveAccess ⟨1, 1⟩).Asks choice.table choice.Tabled ∧
      ((resolveAccess ⟨1, 1⟩).value choice.table).map (·.decl) = some choiceDecl) ∧
    (typeOfNode ⟨1, 2⟩ .empty).Asks choice.table choice.Tabled ∧
      (typeOfNode ⟨1, 2⟩ .empty).value choice.table = .literal "d" []) ∧
    (∀ t ∈ choiceTypes, ((t.nonNullUpTo 0).Asks choice.table choice.Tabled ∧
        (t.nonNullUpTo 0).value choice.table ∈ choiceTypes) ∧
      ∀ ms ∈ t.members.sublists, (Ty.anyOf ms).Asks choice.table choice.Tabled ∧
        (Ty.anyOf ms).value choice.table ∈ choiceTypes) ∧
    ((FlowFacts.collect choiceSite).Asks choice.table choice.Tabled ∧
      (FlowFacts.collect choiceSite).value choice.table =
        [(choiceDecl, .isNot (.literal "d" []))]) ∧
    ((FlowFacts.narrow [(choiceDecl, .isNot (.literal "d" []))] choiceDecl (highTower)).Asks
        choice.table choice.Tabled ∧
      (FlowFacts.narrow [(choiceDecl, .isNot (.literal "d" []))] choiceDecl (highTower)).value
        choice.table = tower 0) ∧
    ∀ a ∈ towerTypes, ∀ b ∈ towerTypes, (a.isSubtype b).Asks choice.table choice.Tabled ∧
      (a.isSubtype b).value choice.table = (a == b || b == highTower) := by
  decide +kernel

theorem choice_refers {d : NodeRef} (h : Refers choice choiceTree 1 1 d) : d = choiceDecl := by
  cases h with
  | @access _ name found hc hp =>
    have e := (Stage.gives_between.2 (gives_table choice_answers.1.1.1)).eq_of_admits hp
    have hd := choice_answers.1.1.2
    rw [← e] at hd
    exact Option.some.inj hd
  | grouped hc => exact nomatch choice_construct hc

theorem choice_asserted {u : Ty} (h : Possible choice (typeOfNode ⟨1, 2⟩ .empty) u) :
    u = .literal "d" [] := by
  have e := (Stage.gives_between.2 (gives_table choice_answers.1.2.1)).eq_of_admits h
  exact e.trans choice_answers.1.2.2

/-- The test fails if the value of `x` is no `"d"`. -/
def choiceValuation (ρ : NodeRef → Ty)
    (h : Gives choice ((ρ choiceDecl).isSubtype (.literal "d" [])) false) :
    Valuation choice choiceTree 1 ρ where
  holds _ := false
  not h := by simpa [choiceTree] using choice_construct h
  grouped _ := rfl
  and _ := rfl
  or _ := rfl
  eq h := by simpa [choiceTree] using choice_construct h
  notEq h := by simpa [choiceTree] using choice_construct h
  typeTest {i a type d u} hc hr hu := by
    have ha : a = 1 ∧ type = 2 := by simpa [choiceTree] using choice_construct hc
    obtain ⟨rfl, rfl⟩ := ha
    rw [choice_refers hr, choice_asserted hu]
    exact h

theorem choice_reaches {ρ : NodeRef → Ty}
    (h : Gives choice ((ρ choiceDecl).isSubtype (.literal "d" [])) false) :
    (choiceValuation ρ h).Reaches 5 := by
  have up : choiceTree.ancestors 5 = [6, 7, 8] := by rfl
  have enters : ∀ {child parent : NodeIndex} {c : Construct},
      choiceTree.construct? parent = some c → (∀ {k a b}, c = .ifElse k a b → child ≠ a) →
      (∀ {l r}, c = .binary .and l r → child ≠ r) → (choiceValuation ρ h).Enters child parent :=
    fun hc hif hand => ⟨fun e he => absurd he (hif (Option.some.inj (hc.symm.trans e))),
      fun _ _ => rfl, fun e he => absurd he (hand (Option.some.inj (hc.symm.trans e))),
      fun _ _ => rfl⟩
  unfold Valuation.Reaches
  rw [up]
  refine .cons_cons (enters (c := .ifElse 3 4 5) rfl ?_ nofun) (.cons_cons (enters rfl nofun nofun)
    (.cons_cons (enters rfl nofun nofun) (.singleton 8)))
  intro k a b e
  cases e
  decide

/-! ### A number -/

theorem plainClasses_choice : PlainClasses choice := by
  have none : ∀ {d : NodeRef} {c : ClassDecl}, d.module ≠ ModuleId.base →
      choice.construct? d ≠ some (.classDecl c) := by
    intro d c hd h
    obtain ⟨t, ht, hc⟩ := Option.bind_eq_some_iff.1 h
    rw [choice_treeOf hd ht] at hc
    simpa [choiceTree] using choice_construct hc
  refine .of_no_class none (modulesRooted_of_no_clause (fun h => ?_))
  obtain ⟨-, h⟩ := Option.ite_none_right_eq_some.1 h
  cases h
  rfl

theorem expands_choiceTypes {x : Ty} (h : x ∈ choiceTypes) : Expands choice 2 x := by
  have int : ∀ n, Expands choice n std.intTy := fun n =>
    .plain n [] (reading_params_of_isClass (Standard.isClass_special (by simp [Standard.special])))
  simp only [choiceTypes, List.mem_cons, List.not_mem_nil, or_false] at h
  rcases h with rfl | rfl | rfl | rfl | rfl
  · exact int 2
  · exact .union [] (int 1) (.literal 0 "d" [])
  · exact .literal 1 "d" []
  · exact .plain 2 [] (reading_params_of_isClass Standard.isClass_null)
  · exact .nothing 2

/-- Narrowing the types leads to none but them. -/
theorem mem_choiceTypes {S : Ty → Prop} (hS : ∀ x, S x → x ∈ choiceTypes) {x : Ty}
    (h : Involved (.between choice) S x) : x ∈ choiceTypes := by
  have answers := choice_answers.2.1
  have plain : ∀ t ∈ choiceTypes, t.fullyUnaliased = pure t ∧
      ∀ n, t.nonNullUpTo n = t.nonNullUpTo 0 := by
    intro t ht
    simp only [choiceTypes, List.mem_cons, List.not_mem_nil, or_false] at ht
    rcases ht with rfl | rfl | rfl | rfl | rfl <;> exact ⟨rfl, fun n => by cases n <;> rfl⟩
  induction h with
  | given h => exact hS _ h
  | part _ hp ih =>
    simp only [choiceTypes, List.mem_cons, List.not_mem_nil, or_false] at ih
    rcases ih with rfl | rfl | rfl | rfl | rfl
    · cases hp
    · rcases List.mem_cons.1 hp with rfl | hp
      · simp [choiceTypes]
      · simp [choiceTypes, List.mem_singleton.1 hp]
    all_goals cases hp
  | @nonNull t u n _ hu ih =>
    rw [(plain t ih).2 n] at hu
    obtain ⟨asks, mem⟩ := (answers t ih).1
    exact (Stage.gives_between.1 hu).unique (gives_table asks) ▸ mem
  | @anyOf t _ _ ms _ hu hs hv ih =>
    rw [(plain t ih).1] at hu
    cases (Stage.gives_between.1 hu).unique (gives_pure t)
    obtain ⟨asks, mem⟩ := (answers t ih).2 ms (List.mem_sublists.2 hs)
    exact (Stage.gives_between.1 hv).unique (gives_table asks) ▸ mem

theorem orderly_choice {S : Ty → Prop} (hS : ∀ x, S x → x ∈ choiceTypes) :
    Orderly (.between choice) (Involved (.between choice) S) where
  known h := (expands_choiceTypes (mem_choiceTypes hS h)).known.ne_unknown
  expansion h := by
    have hm := mem_choiceTypes hS h
    simp [choiceTypes, Base.intTy, Base.nullTy, Base.simple] at hm
  decides ht hu := plainClasses_choice.decides (expands_choiceTypes (mem_choiceTypes hS ht))
    (expands_choiceTypes (mem_choiceTypes hS hu)) (by decide)
  trans ha hb hc := plainClasses_choice.regular.below_trans
    (expands_choiceTypes (mem_choiceTypes hS ha)).known
    (expands_choiceTypes (mem_choiceTypes hS hb)).known
    (expands_choiceTypes (mem_choiceTypes hS hc)).known

/-- An `Int` that is declared as `Int|"d"` is not narrowed away where it is no `"d"`. -/
theorem narrow_covers_int :
    Gives choice (std.intTy.isSubtype
      (run choice ((run choice (FlowFacts.collect choiceSite) {}).1.narrow choiceDecl
        (.union std.intTy (.literal "d" []) [])) (run choice (FlowFacts.collect choiceSite) {}).2).1)
      true := by
  have int : Expands choice 2 std.intTy := expands_choiceTypes (by simp [choiceTypes])
  have text : Expands choice 2 (.literal "d" []) := expands_choiceTypes (by simp [choiceTypes])
  have either : Expands choice 2 (.union std.intTy (.literal "d" []) []) :=
    expands_choiceTypes (by simp [choiceTypes])
  have no : Gives choice (std.intTy.isSubtype (.literal "d" [])) false := by
    have h := plainClasses_choice.gives_isSubtype int text
    rwa [Base.intTy, Base.simple, Reading.sub_cls_literal] at h
  have yes : Gives choice (std.intTy.isSubtype (.union std.intTy (.literal "d" []) [])) true := by
    have h := plainClasses_choice.gives_isSubtype int either
    rw [Reading.sub_compound_right _ _ rfl rfl] at h
    simpa [Reading.parts] using h
  refine @narrow_covers choice choiceTree (fun _ => std.intTy) choiceSite _ choiceDecl _ rfl
    (choice_reaches no) rfl (orderly_choice (fun x hx => ?_)) (Stage.admits_of_gives yes) _ .fresh
  rcases hx with rfl | rfl | rfl | ⟨i, a, type, hc, hr, hu⟩
  · simp [choiceTypes]
  · simp [choiceTypes]
  · simp [choiceTypes]
  · have ha : a = 1 ∧ type = 2 := by simpa [choiceTree] using choice_construct hc
    obtain ⟨rfl, rfl⟩ := ha
    rw [choice_asserted hu]
    simp [choiceTypes]

/-! ### Where the limit comes in -/

theorem run_towers {a b : Ty} (ha : a ∈ towerTypes) (hb : b ∈ towerTypes) :
    (run choice (a.isSubtype b) {}).1 = (a == b || b == highTower) := by
  obtain ⟨asks, value⟩ := choice_answers.2.2.2.2 a ha b hb
  exact (gives_table asks {} .fresh).trans value

/-- The query whether `"z"` is below a tower stops at its limit. Without the uppermost members it
does not, although subtyping is transitive among all the types that come up. -/
theorem narrow_not_covers :
    (∀ a ∈ towerTypes, ∀ b ∈ towerTypes, ∀ c ∈ towerTypes,
      (run choice (a.isSubtype b) {}).1 = true → (run choice (b.isSubtype c) {}).1 = true →
        (run choice (a.isSubtype c) {}).1 = true) ∧
    ∃ v : Valuation choice choiceTree 1 (fun _ => .literal "z" []), v.Reaches choiceSite.node ∧
      (run choice ((Ty.literal "z" []).isSubtype (highTower)) {}).1 = true ∧
      let facts := run choice (FlowFacts.collect choiceSite) {}
      let narrowed := run choice (facts.1.narrow choiceDecl (highTower)) facts.2
      narrowed.1 ∈ towerTypes ∧
        (run choice ((Ty.literal "z" []).isSubtype narrowed.1) {}).1 = false := by
  have distinct : (Ty.literal "z" [] == .literal "d" [] || .literal "d" [] == highTower) = false ∧
      (Ty.literal "z" [] == tower 0 || tower 0 == highTower) = false := by
    unfold highTower
    decide
  have z : Ty.literal "z" [] ∈ towerTypes := by simp [towerTypes]
  have d : Ty.literal "d" [] ∈ towerTypes := by simp [towerTypes]
  have top : highTower ∈ towerTypes := by simp [towerTypes]
  have bottom : tower 0 ∈ towerTypes := by simp [towerTypes]
  have no : Gives choice ((Ty.literal "z" []).isSubtype (.literal "d" [])) false := by
    obtain ⟨asks, value⟩ := choice_answers.2.2.2.2 _ z _ d
    have g := gives_table asks
    rwa [value, distinct.1] at g
  have facts : (run choice (FlowFacts.collect choiceSite) {}).1 =
      [(choiceDecl, .isNot (.literal "d" []))] :=
    (gives_table choice_answers.2.2.1.1 {} .fresh).trans choice_answers.2.2.1.2
  have narrowed : ∀ {k}, Reachable choice k → (run choice (FlowFacts.narrow
      [(choiceDecl, .isNot (.literal "d" []))] choiceDecl (highTower)) k).1 = tower 0 := by
    intro k hk
    obtain ⟨asks, value⟩ := choice_answers.2.2.2.1
    rw [gives_table asks k hk, value]
  refine ⟨fun a ha b hb c hc hab hbc => ?_, choiceValuation _ no, choice_reaches no, ?_, ?_⟩
  · rw [run_towers ha hb] at hab
    rw [run_towers hb hc] at hbc
    rw [run_towers ha hc]
    simp only [Bool.or_eq_true, beq_iff_eq] at hab hbc ⊢
    rcases hab with rfl | rfl
    · exact hbc
    · exact .inr (hbc.elim Eq.symm id)
  · rw [run_towers z top]
    simp
  · intro f n
    have hn : n.1 = tower 0 := by
      show (run choice (f.1.narrow choiceDecl (highTower)) f.2).1 = tower 0
      rw [facts]
      exact narrowed (Reachable.query _ .fresh)
    rw [hn]
    exact ⟨bottom, (run_towers z bottom).trans distinct.2⟩

end Session

end PklAnalysis
