import PklAnalysis.Proofs.Session.Table

/-!
# Subtype queries in a session

What a session answers to subtype queries is transitive away from `unknown` (`isSubtype_trans`), in
whatever order and between whatever other queries it is asked.
-/

namespace PklAnalysis.Session

variable {src : ModuleSource}

/-- Types with full argument lists, without `unknown` however far their aliases are expanded, at
most `n` high with all aliases expanded, and the session always expands these aliases in the same
way. -/
abbrev Expands (src : ModuleSource) (n : Nat) (t : Ty) : Prop :=
  (reading src).Height (Settled src) n t

theorem PlainClasses.gives_isSubtype (h : PlainClasses src) {m n : Nat} {t u : Ty}
    (ht : Expands src m t) (hu : Expands src n u) :
    Gives src (t.isSubtype u) ((reading src).sub (Limits.subtypeDepth + 1) t u) :=
  gives_value (h.regular.asks_of_height (fun _ => settled_source src) h.hierarchy.settled_supertype ht hu)

theorem isSubtype_trans (h : PlainClasses src) {i j k : Nat} {a b c : Ty} (ha : Expands src i a)
    (hb : Expands src j b) (hc : Expands src k c) (hij : i + j ≤ Limits.subtypeDepth)
    (hjk : j + k ≤ Limits.subtypeDepth) {m₁ m₂ m₃ : Memory} (h₁ : Reachable src m₁)
    (h₂ : Reachable src m₂) (h₃ : Reachable src m₃) (hab : (run src (a.isSubtype b) m₁).1 = true)
    (hbc : (run src (b.isSubtype c) m₂).1 = true) : (run src (a.isSubtype c) m₃).1 = true := by
  have hr := h.regular
  rw [h.gives_isSubtype ha hb m₁ h₁] at hab
  rw [h.gives_isSubtype hb hc m₂ h₂] at hbc
  rw [h.gives_isSubtype ha hc m₃ h₃]
  have below_ab := hr.below_of_height ha hb (by omega) hab
  have below_bc := hr.below_of_height hb hc (by omega) hbc
  exact hr.below_trans ha.known hb.known hc.known below_ab below_bc _

/-! ### Lists -/

/-- Lists have one argument, and the class is covariant in it. -/
theorem exists_params_list (src : ModuleSource) :
    ∃ q, (reading src).params std.list = [(q, .covariant)] := by
  have covariant : (std.tree.params std.list).map (·.2) = [.covariant] := by decide +kernel
  rw [reading_params_base src Standard.isClass_list.1]
  obtain ⟨⟨q, _⟩, single, rfl⟩ := List.map_eq_singleton_iff.1 covariant
  exact ⟨q, single⟩

/-! ### One class -/

/-- The module `class Bird`. -/
def aviaryTree : SyntaxTree where
  uri := "file:///aviary.pkl"
  module := 1
  nodes := #[⟨.classDecl { name := "Bird" }, .nowhere, some 1⟩,
    ⟨.module { members := [0] }, .nowhere, none⟩]
  root := 1

/-- A session with this module only. -/
def aviary : ModuleSource where
  tree i := if i = 1 then some aviaryTree else none
  resolve _ _ := none

def bird : NodeRef := ⟨1, 0⟩

def birdTy : Ty := .cls bird [] []

/-- A session with one module has no other tree beside that of the standard library. -/
theorem treeOf_only {t t' : SyntaxTree} (only : ∀ i, src.tree i = if i = 1 then some t else none)
    {m : ModuleId} (hm : m ≠ ModuleId.base) (h : src.treeOf m = some t') : m = 1 ∧ t' = t := by
  unfold ModuleSource.treeOf at h
  rw [if_neg hm, only] at h
  split at h
  · next hm => exact ⟨hm, (Option.some.inj h).symm⟩
  · cases h

/-- What is declared there beside the standard library stands in this module. -/
theorem construct?_only {t : SyntaxTree} (only : ∀ i, src.tree i = if i = 1 then some t else none)
    {d : NodeRef} {c : Construct} (hd : d.module ≠ ModuleId.base) (h : src.construct? d = some c) :
    ∃ i, d = ⟨1, i⟩ ∧ t.construct? i = some c := by
  obtain ⟨m, i⟩ := d
  obtain ⟨t', ht, hc⟩ := Option.bind_eq_some_iff.1 h
  obtain ⟨rfl, rfl⟩ := treeOf_only only hd ht
  exact ⟨i, rfl, hc⟩

theorem bird_of_class {d : NodeRef} {c : ClassDecl} (hd : d.module ≠ ModuleId.base)
    (h : aviary.construct? d = some (.classDecl c)) : d = bird ∧ c = { name := "Bird" } := by
  obtain ⟨i, rfl, hc⟩ := construct?_only (t := aviaryTree) (fun _ => rfl) hd h
  rcases i with _ | _ | i
  · cases hc
    exact ⟨rfl, rfl⟩
  · cases hc
  · simp [SyntaxTree.construct?, SyntaxTree.node?, aviaryTree] at hc

theorem gives_supertype_bird : Gives aviary (Query.supertype bird) (some std.typedTy) :=
  gives_supertype_of_no_clause (Standard.ne_any nofun) rfl rfl

theorem plainClasses_aviary : PlainClasses aviary where
  params hd h := by
    obtain ⟨rfl, rfl⟩ := bird_of_class hd h
    rfl
  supertype hd h := by
    obtain ⟨rfl, rfl⟩ := bird_of_class hd h
    exact ⟨std.typed, [], gives_supertype_bird, reading_params_of_isClass Standard.isClass_typed⟩
  chain hd h := by
    obtain ⟨rfl, rfl⟩ := bird_of_class hd h
    obtain ⟨i, hi⟩ := exists_base Standard.isClass_typed.1
    obtain ⟨n, t, hn, hs, ht⟩ := @steps_base aviary i
    have hr := rank_le i
    have hb := (gives_ask_iff.1 gives_supertype_bird).2
    have hd := Reading.superdecl_of_supertype hb
    rw [← hi] at hs
    refine ⟨n + 1, t, ?_, .up hd hs, ht⟩
    show n + 1 < 100
    omega
  modules := modulesRooted_of_no_clause (fun h => by
    obtain ⟨-, h⟩ := Option.ite_none_right_eq_some.1 h
    cases h
    rfl)

theorem expands_birds : Expands aviary 1 (std.listTy birdTy) := by
  have hb : (reading aviary).params bird = [] :=
    reading_params_of_construct (c := .classDecl { name := "Bird" }) rfl rfl
  refine .cls [] (length_params_of_isClass Standard.isClass_list) (fun a ha => ?_)
  cases List.mem_singleton.1 ha
  exact .plain 0 [] hb

theorem expands_typed : Expands aviary 1 (Base.generic std.collection [std.typedTy]) := by
  refine .cls [] (length_params_of_isClass Standard.isClass_collection) (fun a ha => ?_)
  cases List.mem_singleton.1 ha
  exact .plain 0 [] (reading_params_of_isClass Standard.isClass_typed)

/-- `Any|"none"` -/
def anyOrNone : Ty := .union std.anyTy (.literal "none" []) []

theorem expands_anyOrNone : Expands aviary 2 anyOrNone :=
  .union [] (.plain 1 [] (reading_params_of_isClass Standard.isClass_any))
    (.literal 0 "none" [])

/-- A list of birds is a collection of objects, and so it is anything. -/
theorem isSubtype_trans_birds :
    (run aviary ((std.listTy birdTy).isSubtype anyOrNone) {}).1 = true := by
  let objects : Ty := Base.generic std.collection [std.typedTy]
  have answers : (((std.listTy birdTy).isSubtype objects).Asks aviary.table aviary.Tabled ∧
        ((std.listTy birdTy).isSubtype objects).value aviary.table = true) ∧
      (objects.isSubtype anyOrNone).Asks aviary.table aviary.Tabled ∧
        (objects.isSubtype anyOrNone).value aviary.table = true := by
    decide +kernel
  obtain ⟨⟨asks, value⟩, asks', value'⟩ := answers
  have hab := (gives_table asks {} .fresh).trans value
  have hbc := (gives_table asks' {} .fresh).trans value'
  exact isSubtype_trans plainClasses_aviary expands_birds expands_typed expands_anyOrNone
    (by decide) (by decide) .fresh .fresh .fresh hab hbc

end PklAnalysis.Session
