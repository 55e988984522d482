import PklAnalysis.Proofs.Scope.Heirs
import PklAnalysis.Proofs.Session.Stage

/-!
# Members of subtypes

Subtyping climbs along classes and modules, and so does the walk over the members of a type. In a
session where every class has one direct superclass, whatever its type arguments are
(`Nominal`), a name that is found among the members of a type is found among those of its subtypes
(`resolves_of_isSubtype`).

* `ensures_classMembers`, `ensures_moduleMembers`: what the walks find, as a statement about classes
  and modules.
* `Leads src n t x`: the type `t` is the simple type `x` behind `n` aliases. Each alias takes one of
  the nested questions of a subtype query, so they have to be fewer than its bound.
-/

namespace PklAnalysis

namespace SyntaxTree

variable (t : SyntaxTree) (mode : LookupMode) (name : String)

/-- Whether one of the nodes declares the name, and not as a local one. -/
def declares (is : List NodeIndex) : Bool :=
  is.any (fun i => !t.hasModifier i .localKw &&
    (t.construct? i).any (fun c => mode.accepts c && c.name? == some name))

end SyntaxTree

namespace ModuleSource

variable (src : ModuleSource) (mode : LookupMode) (name : String)

/-- Whether the name is declared in the body of a class. -/
def classDeclares (d : NodeRef) : Bool :=
  (src.treeOf d.module).any (fun t => t.declares mode name (t.membersOf d.node))

/-- Whether the name is declared at the top level of a module. -/
def moduleDeclares (m : ModuleId) : Bool :=
  (src.treeOf m).any (fun t => t.declares mode name t.moduleMembers)

end ModuleSource

theorem Scope.isSome_find?_candidates (t : SyntaxTree) (mode : LookupMode) (b : Bindings)
    (name : String) (is : List NodeIndex) :
    (((is.filter (fun i => !(true && t.hasModifier i .localKw))).filterMap
      (Scope.candidate? t mode b)).find? (·.name == name)).isSome = t.declares mode name is := by
  have named : ∀ i, (∃ c, Scope.candidate? t mode b i = some c ∧ c.name = name) ↔
      (t.construct? i).any (fun c => mode.accepts c && c.name? == some name) = true := by
    intro i
    unfold Scope.candidate?
    cases t.construct? i with
    | none => simp
    | some c =>
      cases mode.accepts c <;> cases c.name? <;> simp
  rw [Bool.eq_iff_iff, List.find?_isSome]
  simp only [SyntaxTree.declares, List.any_eq_true, List.mem_filterMap, List.mem_filter,
    Bool.true_and, Bool.and_eq_true, ← named, beq_iff_eq]
  constructor
  · rintro ⟨c, ⟨i, hi, hc⟩, hn⟩
    exact ⟨i, hi.1, hi.2, c, hc, hn⟩
  · rintro ⟨i, hi, hl, c, hc, hn⟩
    exact ⟨c, ⟨i, ⟨hi, hl⟩, hc⟩, hn⟩

theorem Ty.not_isAlias_of_isSimple {x : Ty} (h : x.isSimple = true) : ¬ x.isAlias = true := by
  cases x <;> first | exact Bool.false_ne_true | cases h

/-! ## Aliases in subtype queries -/

namespace Ty

variable {n : Nat} {d : NodeRef} {as : List Ty} {c : Constraints}

theorem isSubtypeUpTo_alias_left {u : Ty} (hu : u.Proper) (hne : ¬ Ty.typeAlias d as c = u) :
    isSubtypeUpTo (n + 1) (.typeAlias d as c) u =
      Query.expansion d as c >>= fun t => isSubtypeUpTo n t u := by
  rw [isSubtypeUpTo, if_neg hne]
  · rfl
  · exact hu.1
  · exact hu.2

theorem isSubtypeUpTo_alias_right {t : Ty} (ht : t.isSimple = true) :
    isSubtypeUpTo (n + 1) t (.typeAlias d as c) = Query.expansion d as c >>= isSubtypeUpTo n t := by
  have hne : ¬ t = .typeAlias d as c := by
    rintro rfl
    cases ht
  cases t with
  | var | cls | module | literal => rw [isSubtypeUpTo, if_neg hne] <;> first | rfl | simp
  | _ => cases ht

end Ty

/-! ## The chain of a module -/

namespace Reading

variable {r : Reading}

/-- Where a chain comes to an end before the bound, and past modules that lie below it only, it is
followed to its end. -/
theorem mem_moduleChainFrom {l n : Nat} {m t : ModuleId} {chain : List ModuleId}
    (hc : Steps r.above l m t) (ht : r.above t = none) (hn : l < n)
    (below : ∀ s ∈ chain, ∃ i, l ≤ i ∧ Steps r.above i s t) :
    ((moduleChainFrom n chain m).value r).length ≤ chain.length + l ∧
      ∀ x, x ∈ (moduleChainFrom n chain m).value r ↔
        x ∈ chain ∨ ∃ i, Steps r.above (i + 1) m x := by
  induction hc generalizing n chain with
  | here m =>
    obtain ⟨n, rfl⟩ := Nat.exists_eq_succ_of_ne_zero (Nat.ne_of_gt hn)
    rw [moduleChainFrom_succ, ht]
    refine ⟨Nat.le_refl _, fun x => ⟨.inl, fun h => h.elim id ?_⟩⟩
    rintro ⟨i, _ | ⟨e, -⟩⟩
    rw [ht] at e
    cases e
  | @up l m next t e hnext ih =>
    have fresh : ¬ chain.contains next = true := by
      intro h
      obtain ⟨i, hi, hs⟩ := below next (List.contains_iff_mem.1 h)
      have := hs.unique ht hnext ht
      omega
    obtain ⟨n, rfl⟩ : ∃ k, n = k + 1 := Nat.exists_eq_succ_of_ne_zero (by omega)
    rw [moduleChainFrom_succ, e]
    dsimp only
    rw [if_neg fresh]
    have below' : ∀ s ∈ chain ++ [next], ∃ i, l ≤ i ∧ Steps r.above i s t := by
      intro s hs
      rcases List.mem_append.1 hs with hs | hs
      · obtain ⟨i, hi, hs⟩ := below s hs
        exact ⟨i, by omega, hs⟩
      · cases List.mem_singleton.1 hs
        exact ⟨l, Nat.le_refl l, hnext⟩
    obtain ⟨length, members⟩ := ih (n := n) ht (by omega) below'
    refine ⟨by rw [List.length_append, List.length_singleton] at length; omega, fun x => ?_⟩
    rw [members, List.mem_append, List.mem_singleton, or_assoc]
    refine or_congr_right ⟨?_, ?_⟩
    · rintro (rfl | ⟨i, h⟩)
      · exact ⟨0, .up e (.here _)⟩
      · exact ⟨i + 1, .up e h⟩
    · rintro ⟨i, _ | ⟨e', h⟩⟩
      rw [e] at e'
      cases e'
      cases h with
      | here => exact .inl rfl
      | up e h => exact .inr ⟨_, .up e h⟩

theorem ModulesRooted.mem_moduleChain (h : r.ModulesRooted) (m : ModuleId) :
    ((moduleChain m).value r).length ≤ Limits.moduleChain ∧
      ∀ x, x ∈ (moduleChain m).value r ↔ ∃ i, Steps r.above i m x := by
  obtain ⟨l, t, hl, hc, ht⟩ := h m
  have start : ∀ s ∈ [m], ∃ i, l ≤ i ∧ Steps r.above i s t := by
    intro s hs
    cases List.mem_singleton.1 hs
    exact ⟨l, Nat.le_refl l, hc⟩
  obtain ⟨length, members⟩ := mem_moduleChainFrom hc ht hl start
  refine ⟨Nat.le_trans length (by rw [List.length_singleton]; omega), fun x => ?_⟩
  show x ∈ (moduleChainFrom Limits.moduleChain [m] m).value r ↔ _
  rw [members, List.mem_singleton]
  constructor
  · rintro (rfl | ⟨i, hi⟩)
    · exact ⟨0, .here x⟩
    · exact ⟨i + 1, hi⟩
  · rintro ⟨_, _ | ⟨e, h⟩⟩
    · exact .inl rfl
    · exact .inr ⟨_, .up e h⟩

end Reading

namespace Session

open Scope

variable {src : ModuleSource} {up : NodeRef → Option NodeRef} {mode : LookupMode} {name : String}

/-! ## What the walks find -/

variable (src up mode name) in
/-- A class or one of the classes above it declares the name. -/
def Inherits (d : NodeRef) : Prop := ∃ n e, Steps up n d e ∧ src.classDeclares mode name e = true

variable (src mode name) in
/-- A module or one of the modules along its clauses declares the name. -/
def ModuleInherits (m : ModuleId) : Prop :=
  ∃ n i, Steps (reading src).above n m i ∧ src.moduleDeclares mode name i = true

theorem Inherits.of_steps {n : Nat} {d e : NodeRef} (hs : Steps up n d e)
    (h : Inherits src up mode name e) : Inherits src up mode name d := by
  obtain ⟨k, f, hk, hf⟩ := h
  exact ⟨_, f, hs.trans hk, hf⟩

theorem inherits_iff {d : NodeRef} : Inherits src up mode name d ↔
    src.classDeclares mode name d = true ∨ ∃ e, up d = some e ∧ Inherits src up mode name e := by
  constructor
  · rintro ⟨n, f, _ | ⟨e, h⟩, hf⟩
    · exact .inl hf
    · exact .inr ⟨_, e, _, f, h, hf⟩
  · rintro (h | ⟨e, he, h⟩)
    · exact ⟨0, d, .here d, h⟩
    · exact h.of_steps (.up he (.here e))

variable (src mode name) in
/-- A walk finds the name if and only if `P` holds, whatever was asked before. -/
def Finds (w : Walk Candidate) (P : Prop) : Prop :=
  (Stage.between src).Ensures (w.firstNamed name) (fun c => c.isSome = true ↔ P)

namespace Finds

variable {P Q : Prop} {w w' : Walk Candidate}

theorem congr (h : Finds src name w P) (hpq : P ↔ Q) : Finds src name w Q :=
  Stage.Ensures.mono h (fun _ hc => hc.trans hpq)

theorem done : Finds src name .done False := Stage.ensures_pure (by simp)

theorem append (h : Finds src name w P) (h' : Finds src name w' Q) :
    Finds src name (w ++ w') (P ∨ Q) := by
  unfold Finds
  rw [Walk.firstNamed_append]
  refine Stage.Ensures.bind h (fun c hc => ?_)
  cases c with
  | some c => exact Stage.ensures_pure (by simpa using .inl (hc.1 rfl))
  | none =>
    have no : ¬ P := fun p => nomatch hc.2 p
    exact h'.congr (by simp [no])

theorem after {α : Type} {x : Query α} {f : α → Walk Candidate} {S : α → Prop}
    (hx : (Stage.between src).Ensures x S) (hf : ∀ a, S a → Finds src name (f a) P) :
    Finds src name (.after x f) P := by
  unfold Finds
  rw [Walk.firstNamed_after]
  exact hx.bind hf

theorem offers (t : SyntaxTree) (b : Bindings) (is : List NodeIndex) :
    Finds src name (offers t mode b true is) (t.declares mode name is = true) := by
  unfold Finds Scope.offers
  rw [Walk.firstNamed_ofList]
  exact Stage.ensures_pure (by rw [isSome_find?_candidates])

end Finds

theorem ensures_tree (m : ModuleId) : (Stage.between src).Ensures (Query.tree m) (· = src.treeOf m) :=
  Stage.gives_between.2 (gives_tree src m)

/-! ### Classes -/

variable (src up) in
/-- The superclass of a class is of one declaration, whatever the type arguments are and whatever
was asked before. Every chain comes to an end before walks are cut off. -/
structure Nominal : Prop where
  superclass : ∀ c : ClassTy,
    (Stage.between src).Ensures c.superclass (fun p => p.map (·.decl) = up c.decl)
  chain : ∀ d, ∃ n t, n < Limits.supertypeChain ∧ Steps up n d t ∧ up t = none

namespace Nominal

variable (h : Nominal src up)
include h

/-- What is declared in a module that is not there has no superclass. -/
theorem up_of_no_tree {d : NodeRef} (hd : src.treeOf d.module = none) : up d = none := by
  have plain : src.plainSupertype d = some none := by
    refine plainSupertype_of_not_class (fun c hc => ?_)
    rw [ModuleSource.construct?, hd] at hc
    cases hc
  have none : Gives src (ClassTy.superclass ⟨d, [], []⟩) none :=
    (gives_ask_iff.2 (settled_plainSupertype plain) : Gives src (Query.supertype d) _).bind
      (gives_pure _)
  have := h.superclass ⟨d, [], []⟩ fuel {} ⟨rfl, .fresh⟩
  exact (this.symm.trans (congrArg (Option.map _) (none {} .fresh)) : _)

theorem finds_classMembersFrom_succ {n : Nat} {c : ClassTy} {seen : List NodeRef}
    (fresh : ¬ seen.contains c.decl = true)
    (rest : ∀ p : ClassTy, up c.decl = some p.decl →
      Finds src name (classMembersFrom mode n (c.decl :: seen) true p)
        (Inherits src up mode name p.decl)) :
    Finds src name (classMembersFrom mode (n + 1) seen true c)
      (Inherits src up mode name c.decl) := by
  rw [classMembersFrom, if_neg fresh]
  refine Finds.after (ensures_tree _) (fun t ht => ?_)
  subst ht
  cases ht : src.treeOf c.decl.module with
  | none =>
    refine Finds.done.congr ?_
    rw [inherits_iff, h.up_of_no_tree ht, ModuleSource.classDeclares, ht]
    simp
  | some t =>
    refine Finds.after (Stage.ensures_admits _) (fun b _ => ?_)
    have own : src.classDeclares mode name c.decl = t.declares mode name (t.membersOf c.decl.node) := by
      rw [ModuleSource.classDeclares, ht]
      rfl
    rw [inherits_iff, own]
    refine (Finds.offers t b _).append (Finds.after (h.superclass c) (fun p hp => ?_))
    rw [← hp]
    cases p with
    | none => exact Finds.done.congr (by simp)
    | some p => exact (rest p hp.symm).congr (by simp)

/-- Along a chain that fits into the bound, and past classes that lie below it only, the walk finds
what any class of the chain declares. -/
theorem finds_classMembersFrom {l n : Nat} {c : ClassTy} {t : NodeRef} {seen : List NodeRef}
    (hc : Steps up l c.decl t) (ht : up t = none) (hn : l < n)
    (below : ∀ s ∈ seen, ∃ i, l < i ∧ Steps up i s t) :
    Finds src name (classMembersFrom mode n seen true c) (Inherits src up mode name c.decl) := by
  induction n generalizing l c seen with
  | zero => exact absurd hn (Nat.not_lt_zero l)
  | succ n ih =>
    refine h.finds_classMembersFrom_succ (fun hmem => ?_) (fun p hp => ?_)
    · obtain ⟨i, hi, hs⟩ := below _ (List.contains_iff_mem.1 hmem)
      have := hc.unique ht hs ht
      omega
    · obtain ⟨k, hk, hs⟩ := (Steps.up hp (.here p.decl)).split hc ht
      refine ih hs (by omega) (fun s hs => ?_)
      rcases List.mem_cons.1 hs with rfl | hs
      · exact ⟨l, by omega, hc⟩
      · obtain ⟨i, hi, hs⟩ := below s hs
        exact ⟨i, by omega, hs⟩

theorem finds_classMembers (c : ClassTy) :
    Finds src name (classMembers mode true c) (Inherits src up mode name c.decl) := by
  obtain ⟨l, t, hl, hc, ht⟩ := h.chain c.decl
  exact h.finds_classMembersFrom hc ht hl nofun

end Nominal

/-! ### Modules -/

theorem finds_moduleMembersAlong (ms : List ModuleId) :
    Finds src name (moduleMembersAlong mode true ms)
      (∃ m ∈ ms, src.moduleDeclares mode name m = true) := by
  induction ms with
  | nil => exact Finds.done.congr (by simp)
  | cons m ms ih =>
    refine Finds.after (ensures_tree m) (fun t ht => ?_)
    subst ht
    rw [List.exists_mem_cons_iff]
    cases ht : src.treeOf m with
    | none => exact ih.congr (by simp [ModuleSource.moduleDeclares, ht])
    | some t =>
      refine ((Finds.offers t .empty _).append ih).congr (or_congr_left ?_)
      rw [ModuleSource.moduleDeclares, ht]
      rfl

theorem finds_moduleMembers (h : (reading src).ModulesRooted) (m : ModuleId) :
    Finds src name (moduleMembers mode true m) (ModuleInherits src mode name m) := by
  obtain ⟨length, members⟩ := h.mem_moduleChain m
  have chain : Gives src (moduleChain m) ((moduleChain m).value (reading src)) :=
    gives_source (Query.asks_moduleChainFrom ..)
  refine Finds.after (Stage.gives_between.2 chain) (fun ms hms => ?_)
  subst hms
  rw [List.take_of_length_le length]
  refine (finds_moduleMembersAlong _).congr ?_
  simp only [members, ModuleInherits]
  exact ⟨fun ⟨i, ⟨n, hs⟩, hi⟩ => ⟨n, i, hs, hi⟩, fun ⟨n, i, hs, hi⟩ => ⟨i, ⟨n, hs⟩, hi⟩⟩

/-! ### Simple types -/

variable (src up mode name) in
/-- Whether a type that is neither an alias nor a union has a member of the name. -/
def HasMember : Ty → Prop
  | .var _ _ => Inherits src up mode name std.any
  | .cls d _ _ => Inherits src up mode name d
  | .module m _ _ => ModuleInherits src mode name m ∨ Inherits src up mode name std.module
  | .literal _ _ => Inherits src up mode name std.string
  | _ => False

variable (src) in
/-- A type is a simple one behind `n` aliases, whatever was asked before. -/
inductive Leads : Nat → Ty → Ty → Prop
  | simple {x : Ty} : x.isSimple = true → Leads 0 x x
  | expand {n : Nat} {d : NodeRef} {as : List Ty} {c : Constraints} {t x : Ty} :
      Gives src (Query.expansion d as c) t → Leads n t x → Leads (n + 1) (.typeAlias d as c) x

namespace Leads

variable {j n : Nat} {t x y : Ty}

theorem isSimple (h : Leads src j t x) : x.isSimple = true := by
  induction h with
  | simple hx => exact hx
  | expand _ _ ih => exact ih

theorem proper (h : Leads src j t x) : t.Proper := by
  cases h with
  | simple hx => exact Ty.proper_of_isSimple hx
  | expand => exact Ty.proper_of_isCompound rfl

theorem unique (h : Leads src j t x) (h' : Leads src n t y) : x = y := by
  induction h generalizing n with
  | simple hx =>
    cases h' with
    | simple => rfl
    | expand => cases hx
  | expand ht _ ih =>
    cases h' with
    | simple hx => cases hx
    | expand ht' h' =>
      cases ht.unique ht'
      exact ih h'

theorem gives_expandUpTo (h : Leads src j t x) (hn : j ≤ n) : Gives src (t.expandUpTo n) x := by
  induction h generalizing n with
  | @simple x hx =>
    cases n with
    | zero => exact gives_pure x
    | succ n =>
      rw [Ty.expandUpTo, if_neg (Ty.not_isAlias_of_isSimple hx)]
      exact gives_pure x
  | expand ht _ ih =>
    obtain ⟨n, rfl⟩ : ∃ k, n = k + 1 := Nat.exists_eq_succ_of_ne_zero (by omega)
    rw [Ty.expandUpTo, if_pos (show (Ty.typeAlias _ _ _).isAlias = true from rfl)]
    exact ht.bind (ih (by omega))

theorem gives_fullyUnaliased (h : Leads src j t x) (hj : j ≤ Limits.moduleChain) :
    Gives src t.fullyUnaliased x := by
  refine (h.gives_expandUpTo hj).bind ?_
  rw [if_neg (Ty.not_isAlias_of_isSimple h.isSimple)]
  exact gives_pure x

end Leads

/-! ### Types -/

section Members

variable {j : Nat} {t x : Ty}

theorem Nominal.finds_membersUpTo (h : Nominal src up) (hm : (reading src).ModulesRooted) (n : Nat)
    (hx : x.isSimple = true) :
    Finds src name (membersUpTo mode true n x) (HasMember src up mode name x) := by
  have standard : ∀ d, Finds src name (standardMembers mode d) (Inherits src up mode name d) :=
    fun d => h.finds_classMembers ⟨d, [], []⟩
  cases x with
  | var => cases n <;> exact standard std.any
  | cls d as c => cases n <;> exact h.finds_classMembers ⟨d, as, c⟩
  | module m =>
    have own : Finds src name (moduleMembers mode true m) (ModuleInherits src mode name m) :=
      finds_moduleMembers hm m
    cases n <;> exact own.append (standard std.module)
  | literal => cases n <;> exact standard std.string
  | _ => cases hx

/-- The members of a type are those of the simple type behind its aliases. -/
theorem Nominal.finds_members (h : Nominal src up) (hm : (reading src).ModulesRooted)
    (ht : Leads src j t x) (hj : j ≤ Limits.moduleChain) :
    Finds src name (members mode t) (HasMember src up mode name x) := by
  have hx := ht.isSimple
  cases ht with
  | simple => exact h.finds_membersUpTo hm _ hx
  | @expand n d as c u x hu hl =>
    have unaliased := (Leads.expand hu hl).gives_fullyUnaliased hj
    show Finds src name (membersUpTo mode true (99999 + 1) (.typeAlias d as c)) _
    rw [membersUpTo, membersWith]
    refine Finds.after (Stage.gives_between.2 unaliased) (fun y hy => ?_)
    subst hy
    exact h.finds_membersUpTo hm _ hx

theorem Nominal.ensures_resolve (h : Nominal src up) (hm : (reading src).ModulesRooted)
    (ht : Leads src j t x) (hj : j ≤ Limits.moduleChain) :
    (Stage.between src).Ensures ((members mode t).resolve name)
      (fun a => a.isSome = true ↔ HasMember src up mode name x) := by
  refine Stage.Ensures.bind (h.finds_members hm ht hj) (fun c hc => ?_)
  cases c with
  | none => exact Stage.ensures_pure hc
  | some c =>
    exact Stage.Ensures.bind (Stage.ensures_admits _) (fun a _ => Stage.ensures_pure hc)

end Members

/-! ## What subtyping climbs along -/

namespace Nominal

variable (h : Nominal src up)
include h

theorem ensures_projectFrom (target : NodeRef) (n : Nat) (seen : List NodeRef) (c : ClassTy) :
    (Stage.between src).Ensures (ClassTy.projectFrom target n seen c)
      (fun p => p.isSome = true → ∃ k, Steps up k c.decl target) := by
  induction n generalizing seen c with
  | zero => exact Stage.ensures_pure nofun
  | succ n ih =>
    rw [ClassTy.projectFrom]
    split
    · next hd => exact Stage.ensures_pure (fun _ => ⟨0, hd ▸ .here _⟩)
    split
    · exact Stage.ensures_pure nofun
    refine (h.superclass c).bind (fun p hp => ?_)
    cases p with
    | none => exact Stage.ensures_pure nofun
    | some p =>
      refine (ih (c.decl :: seen) p).mono (fun a ha found => ?_)
      obtain ⟨k, hk⟩ := ha found
      exact ⟨k + 1, .up hp.symm hk⟩

theorem ensures_isSubtypeUpTo_cls (n : Nat) (d e : NodeRef) (as bs : List Ty) (c f : Constraints) :
    (Stage.between src).Ensures (Ty.isSubtypeUpTo (n + 1) (.cls d as c) (.cls e bs f))
      (fun b => b = true → ∃ k, Steps up k d e) := by
  rw [Ty.isSubtypeUpTo]
  split
  · next same =>
    cases same
    exact Stage.ensures_pure (fun _ => ⟨0, .here d⟩)
  refine (h.ensures_projectFrom e _ [] ⟨d, as, c⟩).bind (fun p hp => ?_)
  cases p with
  | none => exact Stage.ensures_pure (fun h => absurd h Bool.false_ne_true)
  | some p => exact (Stage.ensures_admits _).mono (fun _ _ _ => hp rfl)

/-- A member of a simple type is one of its simple subtypes. A literal and a module are compared by
way of a class, which takes a second nested question. -/
theorem ensures_isSubtypeUpTo_simple (hm : (reading src).ModulesRooted) (n : Nat) {x y : Ty}
    (hx : x.isSimple = true) (hy : y.isSimple = true) :
    (Stage.between src).Ensures (Ty.isSubtypeUpTo (n + 2) x y)
      (fun b => b = true → HasMember src up mode name y → HasMember src up mode name x) := by
  by_cases same : x = y
  · subst same
    exact (Stage.ensures_admits _).mono (fun _ _ _ found => found)
  have no : ∀ {P : Prop}, (Stage.between src).Ensures (pure false) (fun b => b = true → P) :=
    Stage.ensures_pure (fun h => absurd h Bool.false_ne_true)
  cases x with
  | var p c =>
    cases y with
    | var =>
      rw [Ty.isSubtypeUpTo, if_neg same]
      exact Stage.ensures_pure (fun _ found => found)
    | cls e bs f =>
      rw [Ty.isSubtypeUpTo, if_neg same]
      refine Stage.ensures_pure (fun top found => ?_)
      rwa [HasMember, beq_iff_eq.1 top] at found
    | module | literal => rw [Ty.isSubtypeUpTo, if_neg same] <;> first | exact no | simp
    | _ => cases hy
  | cls d as c =>
    cases y with
    | cls e bs f =>
      refine (h.ensures_isSubtypeUpTo_cls (n + 1) d e as bs c f).mono (fun b hb yes found => ?_)
      obtain ⟨k, hk⟩ := hb yes
      exact Inherits.of_steps hk found
    | var | module | literal => rw [Ty.isSubtypeUpTo, if_neg same] <;> first | exact no | simp
    | _ => cases hy
  | module i l c =>
    cases y with
    | module k =>
      rw [Ty.isSubtypeUpTo, if_neg same]
      have asks := Query.asks_moduleExtendsFrom (reading src) k Limits.moduleChain [] i
      have extends' := gives_source asks
      refine (Stage.gives_between.2 extends').mono (fun b hb yes found => ?_)
      obtain ⟨k, hk⟩ := (Reading.moduleExtends_iff hm).1 (hb.symm.trans yes)
      refine found.imp_left (fun inherited => ?_)
      obtain ⟨l, e, hl, he⟩ := inherited
      exact ⟨k + l, e, hk.trans hl, he⟩
    | cls e bs f =>
      rw [Ty.isSubtypeUpTo, if_neg same]
      refine (h.ensures_isSubtypeUpTo_cls n std.module e [] bs [] f).mono (fun b hb yes found => ?_)
      obtain ⟨k, hk⟩ := hb yes
      exact .inr (Inherits.of_steps hk found)
    | var | literal => rw [Ty.isSubtypeUpTo, if_neg same] <;> first | exact no | simp
    | _ => cases hy
  | literal s c =>
    cases y with
    | literal =>
      rw [Ty.isSubtypeUpTo, if_neg same]
      exact Stage.ensures_pure (fun _ found => found)
    | cls e bs f =>
      rw [Ty.isSubtypeUpTo, if_neg same]
      · refine (h.ensures_isSubtypeUpTo_cls n std.string e [] bs [] f).mono (fun b hb yes found => ?_)
        obtain ⟨k, hk⟩ := hb yes
        exact Inherits.of_steps hk found
      all_goals simp
    | var | module =>
      rw [Ty.isSubtypeUpTo, if_neg same]
      · show (Stage.between src).Ensures (Ty.isSubtypeUpTo (n + 1) (.cls std.string [] []) _) _
        rw [Ty.isSubtypeUpTo, if_neg (by simp)] <;> first | exact no | simp
      all_goals simp
    | _ => cases hy
  | _ => cases hx

/-- On the way to the simple types each alias takes one nested question. -/
theorem ensures_isSubtypeUpTo (hm : (reading src).ModulesRooted) {j k n : Nat} {t u x y : Ty}
    (ht : Leads src j t x) (hu : Leads src k u y) (hn : j + k + 2 ≤ n) :
    (Stage.between src).Ensures (Ty.isSubtypeUpTo n t u)
      (fun b => b = true → HasMember src up mode name y → HasMember src up mode name x) := by
  have equal : ∀ {n j k t x y}, Leads src j t x → Leads src k t y →
      (Stage.between src).Ensures (Ty.isSubtypeUpTo n t t)
        (fun b => b = true → HasMember src up mode name y → HasMember src up mode name x) := by
    intro n j k t x y ht hu
    cases ht.unique hu
    exact (Stage.ensures_admits _).mono (fun _ _ _ found => found)
  induction ht generalizing k n u with
  | @simple x hx =>
    induction hu generalizing n with
    | simple hy =>
      obtain ⟨n, rfl⟩ : ∃ l, n = l + 2 := ⟨n - 2, by omega⟩
      exact h.ensures_isSubtypeUpTo_simple hm n hx hy
    | @expand k d as c u y hu hl ih =>
      obtain ⟨n, rfl⟩ : ∃ l, n = l + 1 := ⟨n - 1, by omega⟩
      rw [Ty.isSubtypeUpTo_alias_right hx]
      exact (Stage.gives_between.2 hu).bind_ensures (ih (by omega))
  | @expand j d as c t x ht hl ih =>
    obtain ⟨n, rfl⟩ : ∃ l, n = l + 1 := ⟨n - 1, by omega⟩
    by_cases same : Ty.typeAlias d as c = u
    · subst same
      exact equal (.expand ht hl) hu
    rw [Ty.isSubtypeUpTo_alias_left hu.proper same]
    exact (Stage.gives_between.2 ht).bind_ensures (ih hu (by omega))

end Nominal

/-- A subtype has every member of its supertype, if both are simple types behind few enough aliases
and every class has one direct superclass. -/
theorem resolves_of_isSubtype (h : Nominal src up) (hm : (reading src).ModulesRooted) {j k : Nat}
    {t u x y : Ty} (ht : Leads src j t x) (hu : Leads src k u y)
    (room : j + k < Limits.subtypeDepth) {m₁ m₂ m₃ : Memory} (h₁ : Reachable src m₁)
    (h₂ : Reachable src m₂) (h₃ : Reachable src m₃)
    (below : (run src (t.isSubtype u) m₁).1 = true)
    (found : (run src ((members mode u).resolve name) m₂).1.isSome = true) :
    (run src ((members mode t).resolve name) m₃).1.isSome = true := by
  have bound : Limits.subtypeDepth = 100 ∧ Limits.moduleChain = 100 := ⟨rfl, rfl⟩
  have member : HasMember src up mode name y :=
    (h.ensures_resolve hm hu (by omega) fuel m₂ ⟨rfl, h₂⟩).1 found
  refine (h.ensures_resolve hm ht (by omega) fuel m₃ ⟨rfl, h₃⟩).2 ?_
  exact h.ensures_isSubtypeUpTo hm ht hu (by omega) fuel m₁ ⟨rfl, h₁⟩ below member

/-- Where classes extend class types, each has one direct superclass. -/
theorem ClassHierarchy.nominal (h : ClassHierarchy src) : Nominal src (reading src).superdecl where
  superclass c := by
    have supertype : Gives src (Query.supertype c.decl) (reading src (.supertype c.decl)) :=
      gives_ask_iff.2 ⟨h.settled_supertype c.decl, rfl⟩
    refine (Stage.gives_between.2 supertype).bind_ensures ?_
    unfold Reading.superdecl
    cases hs : reading src (.supertype c.decl) with
    | none => exact Stage.ensures_pure rfl
    | some s =>
      obtain ⟨e, qs, k, rfl⟩ := h.rooted.isClass hs
      exact Stage.Ensures.bind (Stage.ensures_admits _) (fun _ _ => Stage.ensures_pure rfl)
  chain := h.rooted.chain

/-- A bird has the methods of all values. -/
theorem resolves_of_isSubtype_bird :
    (run aviary (birdTy.isSubtype std.anyTy) {}).1 = true ∧
      (run aviary ((members .method birdTy).resolve "toString") {}).1.isSome = true := by
  have answers : ((birdTy.isSubtype std.anyTy).Asks aviary.table aviary.Tabled ∧
        (birdTy.isSubtype std.anyTy).value aviary.table = true) ∧
      ((members .method std.anyTy).resolve "toString").Asks aviary.table aviary.Tabled ∧
        (((members .method std.anyTy).resolve "toString").value aviary.table).isSome = true := by
    decide +kernel
  obtain ⟨below, asks, value⟩ := answers
  have found := congrArg Option.isSome (gives_table asks {} .fresh)
  exact ⟨run_of_table below, resolves_of_isSubtype plainClasses_aviary.hierarchy.nominal
    plainClasses_aviary.modules (.simple rfl) (.simple rfl) (by decide) .fresh .fresh .fresh
    (run_of_table below) (found.trans value)⟩

/-! ### Where members get lost -/

/-- The right-hand side of an alias that asks the source alone is what the alias stands for. -/
theorem gives_expansion_of_reads {d : NodeRef} {t : Ty} (h : (aliasTarget d).Reads src (pure t))
    (as : List Ty) (c : Constraints) : Gives src (Query.expansion d as c)
      ((t.bind ((reading src).bindings d as)).addConstraints c) := by
  intro m hm
  obtain ⟨k, hk, answers⟩ := answer_expansion hm d
  have target : (answer src (1504 + 1) (.aliased d) k).1 = t := by
    rw [answer_aliased]
    cases ht : k.aliased[d]? with
    | some u =>
      have derived : Derives src (.aliased d) t := .ask rfl (.of_reads h (.done t)) (.done t)
      rw [memoized_some ht]
      exact ((hk (derivedOnly src)).remembers.aliased ht).unique derived
    | none =>
      obtain ⟨m', -, run_eq⟩ := run_reads h 1504 (hk (derivedOnly src))
      rw [memoized_none ht, run_eq]
      rfl
  show (answer src fuel (.expansion d as c) m).1 = _
  rw [answers as c, target]

/-- The module `typealias Same<T> = T`. -/
def sameTree : SyntaxTree where
  uri := "file:///same.pkl"
  module := 1
  nodes := #[⟨.typeParam { name := "T" }, .nowhere, some 2⟩,
    ⟨.declaredType none "T" [], .nowhere, some 2⟩,
    ⟨.aliasDecl { name := "Same", typeParams := [0], target := 1 }, .nowhere, some 3⟩,
    ⟨.module { members := [2] }, .nowhere, none⟩]
  root := 3

def same : ModuleSource where
  tree i := if i = 1 then some sameTree else none
  resolve _ _ := none

/-- A type behind `n` aliases. -/
def sames (t : Ty) : Nat → Ty
  | 0 => t
  | n + 1 => .typeAlias ⟨1, 2⟩ [sames t n] []

/-- An alias that stands for its only parameter. -/
theorem gives_sames_of (params : (reading src).params ⟨1, 2⟩ = [(⟨1, 0⟩, .invariant)])
    (target : (aliasTarget ⟨1, 2⟩).Reads src (pure (.var ⟨1, 0⟩ []))) (t : Ty) :
    Gives src (Query.expansion ⟨1, 2⟩ [t] []) t := by
  have bound : (reading src).bindings ⟨1, 2⟩ [t] = Bindings.empty.extend [(⟨1, 0⟩, t)] := by
    rw [Reading.bindings_eq, params]
    rfl
  have expanded := gives_expansion_of_reads target [t] []
  rw [bound] at expanded
  have value : (Ty.bind (Bindings.empty.extend [(⟨1, 0⟩, t)]) (.var ⟨1, 0⟩ [])).addConstraints [] = t := by
    show (t.addConstraints []).addConstraints [] = t
    rw [Ty.addConstraints_nil, Ty.addConstraints_nil]
  rwa [value] at expanded

theorem reads_same : (aliasTarget ⟨1, 2⟩).Reads same (pure (.var ⟨1, 0⟩ [])) := .of_settle rfl

theorem gives_sames (t : Ty) : Gives same (Query.expansion ⟨1, 2⟩ [t] []) t :=
  gives_sames_of (by rw [reading_params]; rfl) reads_same t

theorem leads_sames {x : Ty} (hx : x.isSimple = true) (n : Nat) : Leads same n (sames x n) x := by
  induction n with
  | zero => exact .simple hx
  | succ n ih => exact .expand (gives_sames _) ih

theorem plainClasses_same : PlainClasses same := by
  have noClass : ∀ {d c}, d.module ≠ ModuleId.base → same.construct? d ≠ some (.classDecl c) := by
    intro d c hd h
    obtain ⟨i, rfl, hc⟩ := construct?_only (t := sameTree) (fun _ => rfl) hd h
    rcases i with _ | _ | _ | _ | i
    · cases hc
    · cases hc
    · cases hc
    · cases hc
    · simp [SyntaxTree.construct?, SyntaxTree.node?, sameTree] at hc
  refine .of_no_class noClass (modulesRooted_of_no_clause (fun h => ?_))
  obtain ⟨-, h⟩ := Option.ite_none_right_eq_some.1 h
  cases h
  rfl

/-- What its alias stands for. -/
def sameAnswers : (q : Question) → Option q.Answer
  | .expansion d [t] [] => if d = ⟨1, 2⟩ then some t else none
  | _ => none

theorem sound_sameAnswers (h : ∀ t, Gives src (Query.expansion ⟨1, 2⟩ [t] []) t) {q : Question}
    {a : q.Answer} (hq : sameAnswers q = some a) : Gives src (.ask q .done) a := by
  unfold sameAnswers at hq
  split at hq
  · split at hq
    · next e =>
      subst e
      cases hq
      exact h _
    · cases hq
  · cases hq

/-- The module `class Like<in T> extends T`. -/
def likeTree : SyntaxTree where
  uri := "file:///like.pkl"
  module := 1
  nodes := #[⟨.typeParam { name := "T", variance := .contravariant }, .nowhere, some 2⟩,
    ⟨.declaredType none "T" [], .nowhere, some 2⟩,
    ⟨.classDecl { name := "Like", typeParams := [0], superclass := some 1 }, .nowhere, some 3⟩,
    ⟨.module { members := [2] }, .nowhere, none⟩]
  root := 3

def like : ModuleSource where
  tree i := if i = 1 then some likeTree else none
  resolve _ _ := none

theorem gives_supertype_like : Gives like (Query.supertype ⟨1, 2⟩) (some (.var ⟨1, 0⟩ [])) := by
  have declared : (declaredSupertype ⟨1, 2⟩).Reads like (.ask (.superclause ⟨1, 2⟩ ⟨1, 1⟩) .done) :=
    reads_superclause (t := likeTree) (Standard.ne_any nofun) rfl rfl rfl
  have clause : ∃ next, (typeOfNode ⟨1, 1⟩ .empty).Reads like (.ask (.supertype ⟨1, 2⟩) next) ∧
      (next none).Reads like (pure (.var ⟨1, 0⟩ [])) := ⟨_, .of_settle rfl, .of_settle rfl⟩
  obtain ⟨next, clause, rest⟩ := clause
  exact gives_supertype declared clause rest

/-- What its class extends. -/
def likeAnswers : (q : Question) → Option q.Answer
  | .supertype d => if d = ⟨1, 2⟩ then some (some (.var ⟨1, 0⟩ [])) else none
  | _ => none

theorem sound_likeAnswers {q : Question} {a : q.Answer} (h : likeAnswers q = some a) :
    Gives like (.ask q .done) a := by
  unfold likeAnswers at h
  split at h
  · split at h
    · next e =>
      subst e
      cases h
      exact gives_supertype_like
    · cases h
  · cases h

/-- `Like<x>` -/
def likeTy (x : Ty) : Ty := .cls ⟨1, 2⟩ [x] []

/-- Behind a hundred aliases `null` counts as a text, but it has no `length`. A consumer of anything
is one of texts, but a class that extends its parameter has a `length` with texts only. -/
theorem member_lost :
    (PlainClasses same ∧ Leads same 100 (sames std.nullTy 100) std.nullTy ∧
      Leads same 1 (sames std.stringTy 1) std.stringTy ∧
      (run same ((sames std.nullTy 100).isSubtype (sames std.stringTy 1)) {}).1 = true ∧
      (run same ((members .property (sames std.stringTy 1)).resolve "length") {}).1.isSome = true ∧
      (run same ((members .property (sames std.nullTy 100)).resolve "length") {}).1.isSome = false) ∧
    (run like ((likeTy std.anyTy).isSubtype (likeTy std.stringTy)) {}).1 = true ∧
    (run like ((members .property (likeTy std.stringTy)).resolve "length") {}).1.isSome = true ∧
    (run like ((members .property (likeTy std.anyTy)).resolve "length") {}).1.isSome = false := by
  have resolves : ∀ {src : ModuleSource} {known : (q : Question) → Option q.Answer}
      (_ : ∀ {q a}, known q = some a → Gives src (.ask q .done) a) {x : Query (Option Resolved)} {b : Bool}
      (_ : x.Asks (src.knowing known) (fun q => (known q).isSome = true ∨ src.Tabled q) ∧
        (x.value (src.knowing known)).isSome = b), (run src x {}).1.isSome = b := by
    intro src known sound x b h
    exact (congrArg Option.isSome (gives_known sound ⟨h.1, rfl⟩ {} .fresh)).trans h.2
  suffices answers : (_ ∧ _ ∧ _) ∧ _ ∧ _ ∧ _ by
    obtain ⟨⟨below, some, none⟩, below', some', none'⟩ := answers
    exact ⟨⟨plainClasses_same, leads_sames rfl 100, leads_sames rfl 1,
      gives_known (sound_sameAnswers gives_sames) below {} .fresh,
      resolves (sound_sameAnswers gives_sames) some, resolves (sound_sameAnswers gives_sames) none⟩,
      gives_known sound_likeAnswers below' {} .fresh, resolves sound_likeAnswers some',
      resolves sound_likeAnswers none'⟩
  decide +kernel

end Session

end PklAnalysis
