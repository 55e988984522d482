import Mathlib.Data.List.Nodup
import PklAnalysis.Proofs.Scope.Questions
import PklAnalysis.Proofs.Session.Table

/-!
# The two walks along clauses

`moduleChain` lists the modules that the clauses of a module lead to, and `moduleExtends` looks for
one of them. Both stop where a module comes back, and after `Limits.moduleChain` rounds. But a round
of the first adds a module to the one it starts with, and a round of the second examines a module.
So a chain that is cut off has one module more than the search gets to.

* `moduleExtends_eq`: the search finds what is among the first `Limits.moduleChain` modules of the
  chain.
* `Session.moduleExtends_iff_mem_moduleChain`: so the walks part at the last module of a chain that
  is cut off and nowhere else.
-/

namespace PklAnalysis

namespace Reading

variable (r : Reading)

/-- The modules met within `n` steps above a module, up to the first one that was seen before. -/
def supermodulesFrom : Nat → List ModuleId → ModuleId → List ModuleId
  | 0, _, _ => []
  | n + 1, seen, m =>
    match r.above m with
    | some next => if next ∈ seen then [] else next :: supermodulesFrom n (next :: seen) next
    | none => []

theorem length_supermodulesFrom (n : Nat) (seen : List ModuleId) (m : ModuleId) :
    (r.supermodulesFrom n seen m).length ≤ n := by
  induction n generalizing seen m with
  | zero => exact Nat.le_refl 0
  | succ n ih =>
    unfold supermodulesFrom
    cases r.above m with
    | none => exact Nat.zero_le _
    | some next =>
      dsimp only
      split
      · exact Nat.zero_le _
      · exact Nat.succ_le_succ (ih ..)

theorem nodup_supermodulesFrom (n : Nat) (seen : List ModuleId) (m : ModuleId) :
    (r.supermodulesFrom n seen m).Nodup ∧ ∀ x ∈ r.supermodulesFrom n seen m, x ∉ seen := by
  induction n generalizing seen m with
  | zero => exact ⟨List.nodup_nil, nofun⟩
  | succ n ih =>
    unfold supermodulesFrom
    cases r.above m with
    | none => exact ⟨List.nodup_nil, nofun⟩
    | some next =>
      dsimp only
      split
      · exact ⟨List.nodup_nil, nofun⟩
      · next fresh =>
        obtain ⟨nodup, unseen⟩ := ih (next :: seen) next
        refine ⟨List.nodup_cons.2 ⟨fun h => unseen _ h List.mem_cons_self, nodup⟩, fun x hx => ?_⟩
        rcases List.mem_cons.1 hx with rfl | hx
        · exact fresh
        · exact fun h => unseen x hx (List.mem_cons_of_mem _ h)

/-- Of one step more only the last module is lost. -/
theorem take_supermodulesFrom (n : Nat) (seen : List ModuleId) (m : ModuleId) :
    (r.supermodulesFrom (n + 1) seen m).take n = r.supermodulesFrom n seen m := by
  induction n generalizing seen m with
  | zero => rfl
  | succ n ih =>
    unfold supermodulesFrom
    cases r.above m with
    | none => rfl
    | some next =>
      dsimp only
      split
      · rfl
      · rw [List.take_succ_cons, ih]

variable {r}

/-- The chain is what was listed before, followed by the modules above. -/
theorem value_moduleChainFrom {chain seen : List ModuleId} (h : ∀ x, x ∈ chain ↔ x ∈ seen) (n : Nat)
    (m : ModuleId) :
    (moduleChainFrom n chain m).value r = chain ++ r.supermodulesFrom n seen m := by
  induction n generalizing chain seen m with
  | zero => exact (List.append_nil chain).symm
  | succ n ih =>
    rw [moduleChainFrom_succ, supermodulesFrom]
    cases r.above m with
    | none => exact (List.append_nil chain).symm
    | some next =>
      dsimp only
      by_cases met : next ∈ seen
      · rw [if_pos (List.contains_iff_mem.2 ((h next).2 met)), if_pos met, List.append_nil]
      · rw [if_neg (fun hc => met ((h next).1 (List.contains_iff_mem.1 hc))), if_neg met]
        have h' : ∀ x, x ∈ chain ++ [next] ↔ x ∈ next :: seen := fun x => by
          rw [List.mem_append, List.mem_singleton, List.mem_cons, h x, or_comm]
        rw [ih h', List.append_assoc, List.singleton_append]

/-- Past modules that are not the one it looks for, the search finds what is met one step earlier. -/
theorem moduleExtendsFrom_iff {sup m : ModuleId} {seen : List ModuleId} (hsup : sup ∉ m :: seen)
    (hm : m ∉ seen) (n : Nat) : (moduleExtendsFrom sup (n + 1) seen m).value r = true ↔
      sup ∈ r.supermodulesFrom n (m :: seen) m := by
  have passed : ∀ {seen : List ModuleId} {m : ModuleId}, m ∉ seen → ¬ seen.contains m = true :=
    fun hm h => hm (List.contains_iff_mem.1 h)
  induction n generalizing seen m with
  | zero =>
    rw [moduleExtendsFrom_succ, if_neg (List.ne_of_not_mem_cons hsup).symm, if_neg (passed hm)]
    cases r.above m <;> exact iff_of_false Bool.false_ne_true List.not_mem_nil
  | succ n ih =>
    rw [moduleExtendsFrom_succ, if_neg (List.ne_of_not_mem_cons hsup).symm, if_neg (passed hm),
      supermodulesFrom]
    cases r.above m with
    | none => exact iff_of_false Bool.false_ne_true List.not_mem_nil
    | some next =>
      dsimp only
      by_cases same : next = sup
      · rw [moduleExtendsFrom_succ, if_pos same, if_neg (same ▸ hsup)]
        exact iff_of_true rfl (same ▸ List.mem_cons_self)
      by_cases met : next ∈ m :: seen
      · rw [moduleExtendsFrom_succ, if_neg same, if_pos (List.contains_iff_mem.2 met), if_pos met]
        exact iff_of_false Bool.false_ne_true List.not_mem_nil
      · have hsup' : sup ∉ next :: m :: seen := fun h =>
          (List.mem_cons.1 h).elim (Ne.symm same) hsup
        rw [if_neg met, List.mem_cons, or_iff_right (Ne.symm same)]
        exact ih hsup' met

variable (r)

theorem value_moduleChain (m : ModuleId) :
    (moduleChain m).value r = m :: r.supermodulesFrom Limits.moduleChain [m] m :=
  value_moduleChainFrom (fun _ => Iff.rfl) Limits.moduleChain m

theorem nodup_moduleChain (m : ModuleId) : ((moduleChain m).value r).Nodup := by
  obtain ⟨nodup, unseen⟩ := r.nodup_supermodulesFrom Limits.moduleChain [m] m
  rw [value_moduleChain]
  exact List.nodup_cons.2 ⟨fun h => unseen m h (List.mem_singleton_self m), nodup⟩

theorem length_moduleChain (m : ModuleId) :
    ((moduleChain m).value r).length ≤ Limits.moduleChain + 1 := by
  rw [value_moduleChain]
  exact Nat.succ_le_succ (r.length_supermodulesFrom ..)

/-- The search gets to the first modules of the chain, as many as the limit says. -/
theorem moduleExtends_iff_mem_take (m sup : ModuleId) : (moduleExtends m sup).value r = true ↔
    sup ∈ ((moduleChain m).value r).take Limits.moduleChain := by
  have cut : ((moduleChain m).value r).take Limits.moduleChain = m :: r.supermodulesFrom 99 [m] m := by
    rw [value_moduleChain]
    show m :: (r.supermodulesFrom (99 + 1) [m] m).take 99 = _
    rw [take_supermodulesFrom]
  show (moduleExtendsFrom sup (99 + 1) [] m).value r = true ↔ _
  rw [cut, List.mem_cons]
  by_cases same : m = sup
  · rw [moduleExtendsFrom_succ, if_pos same]
    exact iff_of_true rfl (.inl same.symm)
  · rw [moduleExtendsFrom_iff (fun h => same (List.mem_singleton.1 h).symm) List.not_mem_nil,
      or_iff_right (Ne.symm same)]

/-- At most the last module of the chain is out of reach. -/
theorem moduleExtends_iff_mem (m sup : ModuleId) : (moduleExtends m sup).value r = true ↔
    sup ∈ (moduleChain m).value r ∧ ((moduleChain m).value r)[Limits.moduleChain]? ≠ some sup := by
  have nodup := r.nodup_moduleChain m
  have length := r.length_moduleChain m
  rw [moduleExtends_iff_mem_take, List.mem_take_iff_getElem, List.mem_iff_getElem]
  constructor
  · rintro ⟨i, hi, rfl⟩
    refine ⟨⟨i, by omega, rfl⟩, fun e => ?_⟩
    obtain ⟨hn, e⟩ := List.getElem?_eq_some_iff.1 e
    have := nodup.getElem_inj_iff.1 e
    omega
  · rintro ⟨⟨i, hi, rfl⟩, hne⟩
    have : i ≠ Limits.moduleChain := fun e => hne (e ▸ List.getElem?_eq_getElem hi)
    exact ⟨i, by omega, rfl⟩

end Reading

namespace Session

variable (src : ModuleSource)

/-- A chain lists no module twice and has at most one module more than the limit. Except for this
one, a module extends exactly the modules of its chain. -/
theorem moduleExtends_iff_mem_moduleChain (m : ModuleId) : ∃ chain, Gives src (moduleChain m) chain ∧
    chain.Nodup ∧ chain.length ≤ Limits.moduleChain + 1 ∧ ∀ sup,
      Gives src (moduleExtends m sup)
        (decide (sup ∈ chain ∧ chain[Limits.moduleChain]? ≠ some sup)) := by
  let r := reading src
  have chain : Gives src (moduleChain m) ((moduleChain m).value r) :=
    gives_value (Query.asks_mono (fun _ => settled_source src) (Query.asks_moduleChainFrom ..))
  refine ⟨_, chain, r.nodup_moduleChain m, r.length_moduleChain m, fun sup => ?_⟩
  have found : Gives src (moduleExtends m sup) ((moduleExtends m sup).value r) :=
    gives_value (Query.asks_mono (fun _ => settled_source src) (Query.asks_moduleExtendsFrom ..))
  have value : (moduleExtends m sup).value r = decide (sup ∈ (moduleChain m).value r ∧
      ((moduleChain m).value r)[Limits.moduleChain]? ≠ some sup) := by
    rw [Bool.eq_iff_iff, r.moduleExtends_iff_mem, decide_eq_true_iff]
  rwa [value] at found

/-! ### A row that is too long -/

/-- A module that amends the next one. -/
def rowTree (m : ModuleId) : SyntaxTree where
  uri := "file:///row.pkl"
  module := m
  nodes := #[⟨.module { clause := some ⟨.amending, "next.pkl", ⟨0, 0⟩⟩ }, .nowhere, none⟩]
  root := 0

/-- A hundred and one modules, each of which amends the next one. -/
def row : ModuleSource where
  tree m := if 0 < m ∧ m ≤ 101 then some (rowTree m) else none
  resolve m _ := if m < 101 then some (m + 1) else none

/-- The last module of the row is in the chain of the first one, which does not extend it. -/
theorem last_of_row : 101 ∈ (run row (moduleChain 1) {}).1 ∧
    (run row (moduleExtends 1 101) {}).1 = false := by
  have chain : (run row (moduleChain 1) {}).1 = List.range' 1 101 :=
    run_of_table (by decide +kernel)
  refine ⟨?_, run_of_table (by decide +kernel)⟩
  rw [chain]
  decide

end Session

end PklAnalysis
