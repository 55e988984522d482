import PklAnalysis.Proofs.Scope.Inheritance
import PklAnalysis.Proofs.Session.Elaboration

/-!
# Types of modules

The type of a module names the topmost module that its `amends` clauses lead to. Subtyping of such
types goes along clauses of both kinds, from one topmost module to the other. Where the chain of
every module comes to an end, that respects the chains as they are written: if clauses lead from
one module to another, then they lead from the topmost module of the one to that of the other
(`Reading.moduleExtends_amendsRoot`), in whatever order the two kinds come.
-/

namespace PklAnalysis

/-- If some steps are of a narrower kind, then what they lead to lies above what any steps lead to,
or else these stop on the way. -/
theorem Steps.meet {α : Type} {next next' : α → Option α}
    (narrower : ∀ {a b}, next' a = some b → next a = some b) {k i : Nat} {a b c : α}
    (h : Steps next' k a b) (h' : Steps next i a c) :
    (∃ j, Steps next' j c b) ∨ ∃ j, Steps next j b c := by
  induction h generalizing i with
  | here a => exact .inr ⟨i, h'⟩
  | up e h ih =>
    cases h' with
    | here => exact .inl ⟨_, .up e h⟩
    | up e' h' =>
      rw [narrower e] at e'
      cases e'
      exact ih h'

namespace Reading

variable {r : Reading}

variable (r) in
/-- The module that a module amends. -/
def amended (m : ModuleId) : Option ModuleId :=
  if (clauseKind m).value r = some .amending then r.above m else none

theorem above_of_amended {m n : ModuleId} (h : r.amended m = some n) : r.above m = some n := by
  unfold amended at h
  split at h
  · exact h
  · cases h

theorem steps_above {k : Nat} {m n : ModuleId} (h : Steps r.amended k m n) : Steps r.above k m n :=
  h.map (f := id) above_of_amended

/-! ## The topmost module -/

theorem amendsRootFrom_succ (n : Nat) (seen : List ModuleId) (m : ModuleId) :
    (amendsRootFrom (n + 1) seen m).value r =
      if seen.contains m then m
      else match r.amended m with
        | some next => (amendsRootFrom n (m :: seen) next).value r
        | none => m := by
  rw [amendsRootFrom, Query.value_ite]
  refine if_congr Iff.rfl rfl ?_
  rw [Query.value_bind, Query.value_ite, amended]
  by_cases kind : (clauseKind m).value r = some .amending
  · rw [if_neg (by simp [kind]), if_pos kind, Query.value_bind]
    show Query.value r (match r.above m with | some next => _ | none => _) = _
    cases r.above m <;> rfl
  · rw [if_pos (by simpa using kind), if_neg kind]
    rfl

/-- A module that lies above the ones seen is not among them. -/
theorem not_contains_of_below {l : Nat} {m u : ModuleId} {seen : List ModuleId}
    (hc : Steps r.above l m u) (hu : r.above u = none)
    (hseen : ∀ s ∈ seen, ∃ i, l < i ∧ Steps r.above i s u) : ¬ seen.contains m = true := by
  intro met
  obtain ⟨i, hi, hs⟩ := hseen m (List.contains_iff_mem.1 met)
  have := hc.unique hu hs hu
  omega

/-- Past modules that lie below it only, the walk follows `amends` clauses as far as they lead. -/
theorem amendsRootFrom_of_steps {k l n : Nat} {m t u : ModuleId} {seen : List ModuleId}
    (ha : Steps r.amended k m t) (ht : r.amended t = none) (hc : Steps r.above l m u)
    (hu : r.above u = none) (hn : k < n) (hseen : ∀ s ∈ seen, ∃ i, l < i ∧ Steps r.above i s u) :
    (amendsRootFrom n seen m).value r = t := by
  induction ha generalizing l n seen with
  | here t =>
    obtain ⟨n, rfl⟩ := Nat.exists_eq_succ_of_ne_zero (Nat.ne_of_gt hn)
    rw [amendsRootFrom_succ, if_neg (not_contains_of_below hc hu hseen), ht]
  | @up k m next t e ha ih =>
    obtain ⟨n, rfl⟩ : ∃ j, n = j + 1 := Nat.exists_eq_succ_of_ne_zero (by omega)
    obtain ⟨l', hl', hc'⟩ := (Steps.up (above_of_amended e) (.here next)).split hc hu
    rw [amendsRootFrom_succ, if_neg (not_contains_of_below hc hu hseen), e]
    refine ih ht hc' (by omega) (fun s hs => ?_)
    rcases List.mem_cons.1 hs with rfl | hs
    · exact ⟨l, by omega, hc⟩
    · obtain ⟨i, hi, hs⟩ := hseen s hs
      exact ⟨i, by omega, hs⟩

/-- Along a chain that comes to an end, `amends` clauses come to an end. -/
theorem exists_amends_end {l : Nat} {m u : ModuleId} (hc : Steps r.above l m u)
    (hu : r.above u = none) : ∃ k t, Steps r.amended k m t ∧ r.amended t = none := by
  have none_of_above : ∀ {m}, r.above m = none → r.amended m = none := by
    intro m h
    unfold amended
    split
    · exact h
    · rfl
  induction hc with
  | here u => exact ⟨0, u, .here u, none_of_above hu⟩
  | @up l m next u e _ ih =>
    cases ha : r.amended m with
    | none => exact ⟨0, m, .here m, ha⟩
    | some next' =>
      cases e.symm.trans (above_of_amended ha)
      obtain ⟨k, t, hk, ht⟩ := ih hu
      exact ⟨k + 1, t, .up ha hk, ht⟩

namespace ModulesRooted

variable (h : r.ModulesRooted)
include h

theorem amendsRoot_of_steps {k : Nat} {m t : ModuleId} (ha : Steps r.amended k m t)
    (ht : r.amended t = none) : (amendsRoot m).value r = t := by
  obtain ⟨l, u, hl, hc, hu⟩ := h m
  obtain ⟨j, hj, -⟩ := (steps_above ha).split hc hu
  exact amendsRootFrom_of_steps ha ht hc hu (by omega) nofun

theorem steps_amendsRoot (m : ModuleId) : ∃ k, Steps r.amended k m ((amendsRoot m).value r) ∧
    r.amended ((amendsRoot m).value r) = none := by
  obtain ⟨l, u, -, hc, hu⟩ := h m
  obtain ⟨k, t, hk, ht⟩ := exists_amends_end hc hu
  rw [h.amendsRoot_of_steps hk ht]
  exact ⟨k, hk, ht⟩

/-- A module has the topmost module of the one that it amends. -/
theorem amendsRoot_of_amended {m n : ModuleId} (e : r.amended m = some n) :
    (amendsRoot m).value r = (amendsRoot n).value r := by
  obtain ⟨k, hk, ht⟩ := h.steps_amendsRoot n
  exact h.amendsRoot_of_steps (.up e hk) ht

/-- The topmost module is its own topmost module. -/
theorem amendsRoot_amendsRoot (m : ModuleId) :
    (amendsRoot ((amendsRoot m).value r)).value r = (amendsRoot m).value r := by
  obtain ⟨k, -, ht⟩ := h.steps_amendsRoot m
  exact h.amendsRoot_of_steps (.here _) ht

/-- The topmost module extends that of every module that clauses lead to. -/
theorem moduleExtends_amendsRoot {i : Nat} {m n : ModuleId} (hn : Steps r.above i m n) :
    (moduleExtends ((amendsRoot m).value r) ((amendsRoot n).value r)).value r = true := by
  obtain ⟨k, hk, ht⟩ := h.steps_amendsRoot m
  obtain ⟨l, hl, hu⟩ := h.steps_amendsRoot n
  refine (moduleExtends_iff h).2 ?_
  -- either `n` lies on the way to the topmost module of `m`, or above that
  rcases Steps.meet above_of_amended hk hn with ⟨j, below⟩ | ⟨j, beyond⟩
  · rw [h.amendsRoot_of_steps below ht]
    exact ⟨0, .here _⟩
  · exact ⟨j + l, beyond.trans (steps_above hl)⟩

end ModulesRooted

end Reading

namespace Session

variable {src : ModuleSource}

variable (src) in
/-- The clause of a module is `amends` and leads to a module. -/
def Amends (m n : ModuleId) : Prop := ∃ t c, src.treeOf m = some t ∧ t.clause? = some c ∧
  c.kind = .amending ∧ Gives src (Query.reference m c.uri) (some n)

/-- A clause that leads back to its own module is passed over. -/
theorem Amends.amended {m n : ModuleId} (h : Amends src m n) :
    m = n ∨ (reading src).amended m = some n := by
  obtain ⟨t, c, ht, hc, kind, target⟩ := h
  have value : (Query.reference m c.uri).value (reading src) = some n := by
    refine (gives_value ?_).unique target
    unfold Query.reference
    split
    · trivial
    · exact ⟨(settled_reference src m c.uri).1, trivial⟩
  have amending : (clauseKind m).value (reading src) = some .amending := by
    rw [clauseKind, Query.value_bind, Query.value_pure, value_tree, ht, Option.bind_some, hc]
    exact congrArg some kind
  have above : (reading src).above m = (some n).filter (· != m) := by
    rw [Reading.above, supermodule, Query.value_bind, value_tree, ht]
    dsimp only
    rw [hc]
    dsimp only
    rw [Query.value_bind, Query.value_pure, value]
  by_cases same : m = n
  · exact .inl same
  · right
    rw [Reading.amended, if_pos amending, above]
    simpa using Ne.symm same

theorem gives_ofModule (m : ModuleId) (name : Option String) :
    Gives src (Ty.ofModule m name) (.module ((amendsRoot m).value (reading src)) name []) := by
  have value : (Ty.ofModule m name).value (reading src) =
      .module ((amendsRoot m).value (reading src)) name [] := by
    rw [Ty.ofModule, Query.value_bind, Query.value_pure]
  rw [← value]
  exact gives_source (Query.asks_ofModule ..)

theorem gives_isSubtype_module {i j : ModuleId} {a b : Option String}
    (h : (moduleExtends i j).value (reading src) = true) :
    Gives src ((Ty.module i a []).isSubtype (.module j b [])) true := by
  show Gives src (Ty.isSubtypeUpTo (100 + 1) (.module i a []) (.module j b [])) true
  by_cases same : Ty.module i a [] = .module j b []
  · rw [Ty.isSubtypeUpTo, if_pos same]
    exact gives_pure true
  · rw [Ty.isSubtypeUpTo, if_neg same, ← h]
    · exact gives_source (Query.asks_moduleExtendsFrom ..)

/-- Types of modules respect clauses where all chains come to an end: a module has the type of the
one that it amends, the module that a type names has this type itself, and the types are ordered as
the chains are. -/
theorem ofModule_ordered (h : (reading src).ModulesRooted) : ∃ root : ModuleId → ModuleId,
    (∀ m name, Gives src (Ty.ofModule m name) (.module (root m) name [])) ∧
    (∀ m n, Amends src m n → root m = root n) ∧
    (∀ m, root (root m) = root m) ∧
    ∀ m n chain, Gives src (moduleChain m) chain → n ∈ chain → ∀ a b,
      Gives src ((Ty.module (root m) a []).isSubtype (.module (root n) b [])) true := by
  refine ⟨fun m => (amendsRoot m).value (reading src), gives_ofModule, fun m n hn => ?_,
    h.amendsRoot_amendsRoot, fun m n chain hchain hn a b => ?_⟩
  · rcases hn.amended with rfl | e
    · rfl
    · exact h.amendsRoot_of_amended e
  · have value : (moduleChain m).value (reading src) = chain :=
      (gives_source (Query.asks_moduleChainFrom ..)).unique hchain
    obtain ⟨i, steps⟩ := ((h.mem_moduleChain m).2 n).1 (value ▸ hn)
    exact gives_isSubtype_module (h.moduleExtends_amendsRoot steps)

/-! ### Clauses of both kinds in turns -/

/-- A module whose only node is the module itself. -/
def nestTree (m : ModuleId) (clause : Option ClauseKind) : SyntaxTree where
  uri := "file:///nest.pkl"
  module := m
  nodes := #[⟨.module { clause := clause.map (⟨·, "next.pkl", ⟨0, 0⟩⟩) }, .nowhere, none⟩]
  root := 0

/-- Four modules, of which the first amends the second, which extends the third, which amends the
last. -/
def nests : ModuleSource where
  tree
    | 1 => some (nestTree 1 (some .amending))
    | 2 => some (nestTree 2 (some .extending))
    | 3 => some (nestTree 3 (some .amending))
    | 4 => some (nestTree 4 none)
    | _ => none
  resolve m _ := some (m + 1)

theorem above_nests {m n : ModuleId} (h : (supermodule m).Asks nests.table nests.Tabled ∧
    (supermodule m).value nests.table = some n) : (reading nests).above m = some n :=
  ((gives_source (Query.asks_supermodule ..)).unique (gives_table h.1)).trans h.2

theorem modulesRooted_nests : (reading nests).ModulesRooted := by
  have first : (reading nests).above 1 = some 2 := above_nests (by decide +kernel)
  have second : (reading nests).above 2 = some 3 := above_nests (by decide +kernel)
  have third : (reading nests).above 3 = some 4 := above_nests (by decide +kernel)
  have last : (reading nests).above 4 = none :=
    above_of_no_clause (fun t ht => by cases ht; rfl)
  have end3 : Steps (reading nests).above 1 3 4 := .up third (.here 4)
  intro m
  match m with
  | 0 =>
    refine ⟨0, 0, by decide, .here _, above_of_no_clause (fun t ht => ?_)⟩
    rw [← Option.some.inj ht, Standard.no_clause]
  | 1 => exact ⟨3, 4, by decide, .up first (.up second end3), last⟩
  | 2 => exact ⟨2, 4, by decide, .up second end3, last⟩
  | 3 => exact ⟨1, 4, by decide, end3, last⟩
  | 4 => exact ⟨0, 4, by decide, .here _, last⟩
  | m + 5 => exact ⟨0, m + 5, by decide, .here _, above_of_no_clause (fun t ht => by cases ht)⟩

/-- The first module has the type of the second one, and it is below the type of the third one,
which is the type of the last one. -/
theorem ofModule_ordered_nests : (reading nests).ModulesRooted ∧
    Gives nests (Ty.ofModule 1 none) (.module 2 none []) ∧
    Gives nests (Ty.ofModule 3 none) (.module 4 none []) ∧
    Gives nests ((Ty.module 2 none []).isSubtype (.module 4 none [])) true := by
  obtain ⟨root, named, -, -, ordered⟩ := ofModule_ordered modulesRooted_nests
  have types : ((Ty.ofModule 1 none).Asks nests.table nests.Tabled ∧
      (Ty.ofModule 1 none).value nests.table = .module 2 none []) ∧
      (Ty.ofModule 3 none).Asks nests.table nests.Tabled ∧
      (Ty.ofModule 3 none).value nests.table = .module 4 none [] := by decide +kernel
  have chain : (moduleChain 1).Asks nests.table nests.Tabled ∧
      (moduleChain 1).value nests.table = [1, 2, 3, 4] := by decide +kernel
  have one : Gives nests (Ty.ofModule 1 none) (.module 2 none []) :=
    types.1.2 ▸ gives_table types.1.1
  have three : Gives nests (Ty.ofModule 3 none) (.module 4 none []) :=
    types.2.2 ▸ gives_table types.2.1
  have below := ordered 1 3 [1, 2, 3, 4] (chain.2 ▸ gives_table chain.1) (by decide) none none
  have root_one : root 1 = 2 := (Ty.module.inj ((named 1 none).unique one)).1
  have root_three : root 3 = 4 := (Ty.module.inj ((named 3 none).unique three)).1
  rw [root_one, root_three] at below
  exact ⟨modulesRooted_nests, one, three, below⟩

end Session

end PklAnalysis
