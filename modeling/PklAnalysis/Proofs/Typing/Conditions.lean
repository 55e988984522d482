import PklAnalysis.Proofs.Session.Stage
import PklAnalysis.Typing.Flow
import Mathlib.Data.List.Chain

/-!
# Conditions and the facts they give

Every declaration has a value, whose exact type is `ρ d`. A `Valuation` gives the conditions of a
tree truth values: those of connectives come from their parts, and those of null tests and type
tests from `ρ`; all others are free. A place is reached (`Valuation.Reaches`) if the conditions
around it come out as its position says. Then the facts collected there agree with `ρ`
(`Valuation.collect`).
-/

namespace PklAnalysis

open Session

variable {src : ModuleSource} {α β : Type}

namespace Session

variable (src) in
/-- What a query can come out as between other ones. -/
abbrev Possible (x : Query α) (a : α) : Prop := (Stage.between src).Admits x a

variable (src) in
/-- However a query comes out, it has the property `P`. -/
abbrev Always (x : Query α) (P : α → Prop) : Prop := (Stage.between src).Ensures x P

end Session

/-! ## Truth values -/

section

variable (src) (t : SyntaxTree) (m : ModuleId)

/-- The expression is a plain property access, up to parentheses, and can refer to the
declaration. -/
inductive Refers : NodeIndex → NodeRef → Prop
  | access {i : NodeIndex} {name : String} {found : Resolved} :
      t.construct? i = some (.access name none) →
        Possible src (resolveAccess ⟨m, i⟩) (some found) → Refers i found.decl
  | grouped {i inner : NodeIndex} {d : NodeRef} :
      t.construct? i = some (.grouped inner) → Refers inner d → Refers i d

/-- One of two operands is `null`, and `a` is the other one. -/
def ComparedToNull (l r a : NodeIndex) : Prop :=
  t.construct? r = some .nullLit ∧ a = l ∨ t.construct? l = some .nullLit ∧ a = r

/-- The declaration can be what some type test of the tree is about, with that type. -/
def Tested (d : NodeRef) (u : Ty) : Prop :=
  ∃ i a type, t.construct? i = some (.typeTest a type) ∧ Refers src t m a d ∧
    Possible src (typeOfNode ⟨m, type⟩ .empty) u

/-- Truth values of the conditions in a tree, where the value of a declaration `d` has the exact
type `ρ d`. -/
structure Valuation (ρ : NodeRef → Ty) where
  holds : NodeIndex → Bool
  not : ∀ {i a}, t.construct? i = some (.unary .not a) → holds i = !holds a
  grouped : ∀ {i a}, t.construct? i = some (.grouped a) → holds i = holds a
  and : ∀ {i l r}, t.construct? i = some (.binary .and l r) → holds i = (holds l && holds r)
  or : ∀ {i l r}, t.construct? i = some (.binary .or l r) → holds i = (holds l || holds r)
  eq : ∀ {i l r a d}, t.construct? i = some (.binary .eq l r) → ComparedToNull t l r a →
    Refers src t m a d → Gives src ((ρ d).isSubtype std.nullTy) (holds i)
  notEq : ∀ {i l r a d}, t.construct? i = some (.binary .notEq l r) → ComparedToNull t l r a →
    Refers src t m a d → Gives src ((ρ d).isSubtype std.nullTy) (!holds i)
  typeTest : ∀ {i a type d u}, t.construct? i = some (.typeTest a type) → Refers src t m a d →
    Possible src (typeOfNode ⟨m, type⟩ .empty) u → Gives src ((ρ d).isSubtype u) (holds i)

end

namespace Valuation

variable {t : SyntaxTree} {m : ModuleId} {ρ : NodeRef → Ty} (v : Valuation src t m ρ)

/-- The conditions of a construct let control into its part `child`. -/
structure Enters (child parent : NodeIndex) : Prop where
  whenTrue : ∀ {c a b}, t.construct? parent = some (.ifElse c a b) → child = a → v.holds c = true
  whenFalse : ∀ {c a b}, t.construct? parent = some (.ifElse c a b) → child = b → v.holds c = false
  and : ∀ {l r}, t.construct? parent = some (.binary .and l r) → child = r → v.holds l = true
  or : ∀ {l r}, t.construct? parent = some (.binary .or l r) → child = r → v.holds l = false

/-- Control gets to a place through all constructs around it. -/
def Reaches (site : NodeIndex) : Prop := List.IsChain v.Enters (site :: t.ancestors site)

end Valuation

/-! ## Facts of one condition -/

variable (src) in
/-- A fact agrees with the values of the declarations. -/
def Agrees (t : SyntaxTree) (m : ModuleId) (ρ : NodeRef → Ty) : NodeRef × FlowFact → Prop
  | (d, .nonNull) => Gives src ((ρ d).isSubtype std.nullTy) false
  | (d, .is u) => Tested src t m d u ∧ Gives src ((ρ d).isSubtype u) true
  | (d, .isNot u) => Tested src t m d u ∧ Gives src ((ρ d).isSubtype u) false

theorem always_subject (t : SyntaxTree) (m : ModuleId) (n : Nat) (i : NodeIndex) :
    Always src (FlowFacts.subject t m n i)
      (fun found => ∀ d, found = some d → Refers src t m i d) := by
  induction n generalizing i with
  | zero => exact Stage.ensures_pure nofun
  | succ n ih =>
    unfold FlowFacts.subject
    split
    · next name h =>
      refine (Stage.ensures_admits _).bind (fun found hf => Stage.ensures_pure (fun d hd => ?_))
      obtain ⟨f, rfl, rfl⟩ := Option.map_eq_some_iff.1 hd
      exact .access h hf
    · next inner h => exact (ih inner).mono (fun found hf d hd => .grouped h (hf d hd))
    · exact Stage.ensures_pure nofun

theorem eq_nullLit_of_holdsAt {t : SyntaxTree} {i : NodeIndex}
    (h : t.holdsAt i (fun | .nullLit => true | _ => false) = true) :
    t.construct? i = some .nullLit := by
  unfold SyntaxTree.holdsAt at h
  cases hc : t.construct? i with
  | none => rw [hc] at h; cases h
  | some c =>
    rw [hc] at h
    cases c <;> first | rfl | cases h

theorem always_notNull (t : SyntaxTree) (m : ModuleId) (n : Nat) (l r : NodeIndex) :
    Always src (FlowFacts.notNull t m n l r) (fun fs => ∀ f ∈ fs,
      ∃ a d, ComparedToNull t l r a ∧ Refers src t m a d ∧ f = (d, .nonNull)) := by
  have about : ∀ {a : NodeIndex}, ComparedToNull t l r a →
      Always src (do pure ((← FlowFacts.subject t m n a).toList.map fun d => (d, FlowFact.nonNull)))
        (fun fs => ∀ f ∈ fs,
          ∃ a d, ComparedToNull t l r a ∧ Refers src t m a d ∧ f = (d, .nonNull)) := by
    intro a ha
    refine (always_subject t m n a).bind (fun found hf => Stage.ensures_pure (fun f hm => ?_))
    obtain ⟨d, hd, rfl⟩ := List.mem_map.1 hm
    exact ⟨a, d, ha, hf d (Option.mem_toList.1 hd), rfl⟩
  unfold FlowFacts.notNull
  dsimp only
  split
  · next h => exact about (.inl ⟨eq_nullLit_of_holdsAt h, rfl⟩)
  split
  · next h => exact about (.inr ⟨eq_nullLit_of_holdsAt h, rfl⟩)
  · exact Stage.ensures_pure (fun f hf => absurd hf List.not_mem_nil)

theorem always_tested (t : SyntaxTree) (m : ModuleId) (n : Nat) (fact : Ty → FlowFact)
    (a type : NodeIndex) :
    Always src (FlowFacts.tested t m n fact a type) (fun fs => ∀ f ∈ fs,
      ∃ d u, Refers src t m a d ∧ Possible src (typeOfNode ⟨m, type⟩ .empty) u ∧
        f = (d, fact u)) := by
  refine (always_subject t m n a).bind (fun found hf => ?_)
  cases found with
  | none => exact Stage.ensures_pure (fun f hm => absurd hm List.not_mem_nil)
  | some d =>
    refine (Stage.ensures_admits _).bind (fun u hu => Stage.ensures_pure (fun f hm => ?_))
    exact ⟨d, u, hf d rfl, hu, List.mem_singleton.1 hm⟩

namespace Valuation

variable {t : SyntaxTree} {m : ModuleId} {ρ : NodeRef → Ty} (v : Valuation src t m ρ)

/-- What a condition says agrees with `ρ` if the condition has the value it is taken to have. -/
theorem ofCondition (n : Nat) {holds : Bool} {i : NodeIndex} (h : v.holds i = holds) :
    Always src (FlowFacts.ofCondition t m n holds i) (fun fs => ∀ f ∈ fs, Agrees src t m ρ f) := by
  have none : Always src (pure []) (fun fs : FlowFacts => ∀ f ∈ fs, Agrees src t m ρ f) :=
    Stage.ensures_pure (fun f hf => absurd hf List.not_mem_nil)
  have both : ∀ {x y : Query FlowFacts}, Always src x (fun fs => ∀ f ∈ fs, Agrees src t m ρ f) →
      Always src y (fun fs => ∀ f ∈ fs, Agrees src t m ρ f) →
      Always src (do let a ← x; let b ← y; pure (a ++ b)) (fun fs => ∀ f ∈ fs, Agrees src t m ρ f) := by
    intro x y hx hy
    refine hx.bind (fun a ha => hy.bind (fun b hb => Stage.ensures_pure (fun f hf => ?_)))
    exact (List.mem_append.1 hf).elim (ha f) (hb f)
  induction n generalizing holds i with
  | zero => exact none
  | succ n ih =>
    unfold FlowFacts.ofCondition
    split
    · next l r hc =>
      cases holds with
      | false => exact none
      | true =>
        refine (always_notNull t m n l r).mono (fun fs hfs f hf => ?_)
        obtain ⟨a, d, ha, hr, rfl⟩ := hfs f hf
        have hg := v.notEq hc ha hr
        rwa [h] at hg
    · next l r hc =>
      cases holds with
      | true => exact none
      | false =>
        refine (always_notNull t m n l r).mono (fun fs hfs f hf => ?_)
        obtain ⟨a, d, ha, hr, rfl⟩ := hfs f hf
        have hg := v.eq hc ha hr
        rwa [h] at hg
    · next l r hc =>
      cases holds with
      | false => exact none
      | true =>
        obtain ⟨hl, hr⟩ := Bool.and_eq_true_iff.1 ((v.and hc).symm.trans h)
        exact both (ih hr) (ih hl)
    · next l r hc =>
      cases holds with
      | true => exact none
      | false =>
        obtain ⟨hl, hr⟩ := Bool.or_eq_false_iff.1 ((v.or hc).symm.trans h)
        exact both (ih hr) (ih hl)
    · next a type hc =>
      refine (always_tested t m n _ a type).mono (fun fs hfs f hf => ?_)
      obtain ⟨d, u, hr, hu, rfl⟩ := hfs f hf
      have hg := v.typeTest hc hr hu
      rw [h] at hg
      cases holds with
      | true => exact ⟨⟨i, a, type, hc, hr, hu⟩, hg⟩
      | false => exact ⟨⟨i, a, type, hc, hr, hu⟩, hg⟩
    · next a hc =>
      refine ih ?_
      rw [← h, v.not hc, Bool.not_not]
    · next a hc => exact ih ((v.grouped hc).symm.trans h)
    · exact none

/-! ## Facts of a place -/

/-- The condition around a part has the value that the facts are collected for. -/
theorem Enters.conditionFor {v : Valuation src t m ρ} {child parent : NodeIndex} {c : Construct}
    (h : v.Enters child parent) (hc : t.construct? parent = some c) {holds : Bool} {i : NodeIndex}
    (hi : FlowFacts.conditionFor child c = some (holds, i)) : v.holds i = holds := by
  cases c with
  | ifElse k a b =>
    unfold FlowFacts.conditionFor at hi
    dsimp only at hi
    split at hi
    · next e => cases hi; exact h.whenTrue hc e.symm
    · split at hi
      · next e => cases hi; exact h.whenFalse hc e.symm
      · cases hi
  | binary op l r =>
    cases op with
    | and =>
      unfold FlowFacts.conditionFor at hi
      dsimp only at hi
      split at hi
      · next e => cases hi; exact h.and hc e.symm
      · cases hi
    | or =>
      unfold FlowFacts.conditionFor at hi
      dsimp only at hi
      split at hi
      · next e => cases hi; exact h.or hc e.symm
      · cases hi
    | _ => cases hi
  | _ => cases hi

theorem collectFrom {child : NodeIndex} {is : List NodeIndex}
    (h : List.IsChain v.Enters (child :: is)) :
    Always src (FlowFacts.collectFrom t m child is) (fun fs => ∀ f ∈ fs, Agrees src t m ρ f) := by
  induction is generalizing child with
  | nil => exact Stage.ensures_pure (fun f hf => absurd hf List.not_mem_nil)
  | cons i is ih =>
    obtain ⟨enters, rest⟩ := List.isChain_cons_cons.1 h
    unfold FlowFacts.collectFrom
    split
    · exact ih rest
    next c hc =>
    split
    · exact Stage.ensures_pure (fun f hf => absurd hf List.not_mem_nil)
    have onwards : ∀ here : FlowFacts, (∀ f ∈ here, Agrees src t m ρ f) →
        Always src (do pure (here ++ (← FlowFacts.collectFrom t m i is)))
          (fun fs => ∀ f ∈ fs, Agrees src t m ρ f) := by
      intro here hh
      refine (ih rest).bind (fun further hf => Stage.ensures_pure (fun f hm => ?_))
      exact (List.mem_append.1 hm).elim (hh f) (hf f)
    dsimp only
    split
    · next holds condition hi =>
      exact (v.ofCondition _ (enters.conditionFor hc hi)).bind onwards
    · exact onwards [] (fun f hf => absurd hf List.not_mem_nil)

/-- The facts at a place that is reached agree with `ρ`. -/
theorem collect {site : NodeRef} {v : Valuation src t site.module ρ}
    (ht : src.treeOf site.module = some t) (h : v.Reaches site.node) :
    Always src (FlowFacts.collect site) (fun fs => ∀ f ∈ fs, Agrees src t site.module ρ f) := by
  unfold FlowFacts.collect
  have tree : (Stage.between src).Gives (Query.tree site.module) (some t) := by
    rw [← ht]
    exact Stage.gives_between.2 (gives_tree src site.module)
  have reversed : ∀ fs : FlowFacts, (∀ f ∈ fs, Agrees src t site.module ρ f) →
      Always src (pure fs.reverse) (fun fs : FlowFacts => ∀ f ∈ fs, Agrees src t site.module ρ f) :=
    fun fs hf => Stage.ensures_pure (fun f hm => hf f (List.mem_reverse.1 hm))
  exact tree.bind_ensures ((v.collectFrom h).bind reversed)

end Valuation

end PklAnalysis
