import Mathlib.Logic.Relation
import PklAnalysis.Proofs.Session.Reading

/-!
# Superclasses and supermodules under a reading

`r.parent c` is the direct superclass of a class type when `r` answers the questions, and
`r.Ascends n c p` says that `n` such steps lead from `c` to `p`. In a rooted hierarchy, where every
declared supertype is a class and every class reaches a root before the walk is cut off, the walk
that looks for a class finds exactly the ancestors: `Rooted.projectTo_iff`. Neither the bound nor
the test for repeated classes ever decides there. `moduleExtends_iff` says the same of modules.

* `Steps.split`, `Steps.eq_zero_of_cycle`: steps of a partial function that come to an end.
* `Rooted.ancestor_unique`: a class has one ancestor of each declaration.
-/

namespace PklAnalysis

/-! ## Steps -/

/-- `n` steps of a partial function lead from one point to another. -/
inductive Steps {α : Type} (next : α → Option α) : Nat → α → α → Prop
  | here (a : α) : Steps next 0 a a
  | up {n : Nat} {a b c : α} : next a = some b → Steps next n b c → Steps next (n + 1) a c

namespace Steps

variable {α β : Type} {next : α → Option α} {m n : Nat} {a b c t u : α}

theorem trans (h : Steps next m a b) (h' : Steps next n b c) : Steps next (m + n) a c := by
  induction h with
  | here a => rwa [Nat.zero_add]
  | up hb _ ih => rw [Nat.succ_add]; exact .up hb (ih h')

theorem map {next' : β → Option β} {f : α → β}
    (hf : ∀ {a b}, next a = some b → next' (f a) = some (f b)) (h : Steps next n a b) :
    Steps next' n (f a) (f b) := by
  induction h with
  | here a => exact .here _
  | up hb _ ih => exact .up (hf hb) ih

/-- On the way to an end every point has the rest of the steps before it. -/
theorem split (h : Steps next n a b) (h' : Steps next m a t) (ht : next t = none) :
    ∃ l, m = n + l ∧ Steps next l b t := by
  induction h generalizing m with
  | here a => exact ⟨m, (Nat.zero_add m).symm, h'⟩
  | up hb _ ih =>
    cases h' with
    | here => rw [ht] at hb; cases hb
    | up hb' h' =>
      rw [hb] at hb'
      cases hb'
      obtain ⟨l, hl, hs⟩ := ih h'
      exact ⟨l, by omega, hs⟩

theorem unique (h : Steps next m a t) (ht : next t = none) (h' : Steps next n a u)
    (hu : next u = none) : m = n := by
  obtain ⟨l, hl, hs⟩ := h.split h' hu
  cases hs with
  | here => exact hl.symm
  | up hb _ => rw [ht] at hb; cases hb

/-- Steps that come to an end never come back. -/
theorem eq_zero_of_cycle (h : Steps next n a a) (h' : Steps next m a t) (ht : next t = none) :
    n = 0 := by
  obtain ⟨l, hl, hs⟩ := h.split h' ht
  have := h'.unique ht hs ht
  omega

/-- Of two points that steps lead to, one leads to the other. -/
theorem compare (hb : Steps next m a b) (hc : Steps next n a c) :
    (∃ k, Steps next k b c) ∨ ∃ k, Steps next k c b := by
  induction hb generalizing n with
  | here => exact .inl ⟨n, hc⟩
  | up e h ih =>
    cases hc with
    | here => exact .inr ⟨_, .up e h⟩
    | up e' hc =>
      rw [e] at e'
      cases e'
      exact ih hc

/-- Steps to what no step leads to are none. -/
theorem eq_of_unreached (h : Steps next n a b) (hb : ∀ c, next c ≠ some b) : a = b := by
  induction h with
  | here => rfl
  | up e _ ih =>
    cases ih hb
    exact absurd e (hb _)

end Steps

namespace Reading

variable (r : Reading)

/-! ## Classes -/

/-- The type parameters of a declaration. -/
def params (d : NodeRef) : List (NodeRef × Variance) := (typeParams d).value r

/-- The type parameters of a declaration bound to arguments. -/
def bindings (d : NodeRef) (as : List Ty) : Bindings := (Bindings.forDeclaration d as).value r

/-- The direct superclass of a class type. -/
def parent (c : ClassTy) : Option ClassTy := c.superclass.value r

/-- The declaration of the direct superclass. -/
def superdecl (d : NodeRef) : Option NodeRef := (r (.supertype d)).bind Ty.classDecl?

/-- `n` steps to the direct superclass lead from one class type to another. -/
abbrev Ascends (n : Nat) (c p : ClassTy) : Prop := Steps r.parent n c p

theorem bindings_eq (d : NodeRef) (as : List Ty) :
    r.bindings d as = Bindings.empty.extend (((r.params d).map (·.1)).zip as) := by
  unfold bindings params Bindings.forDeclaration
  rw [Query.value_bind, Query.value_pure]

theorem parent_eq (c : ClassTy) :
    r.parent c = match r (.supertype c.decl) with
      | none => none
      | some s => ((s.bind (r.bindings c.decl c.args)).unaliased.value r).class? := by
  unfold parent ClassTy.superclass bindings
  rw [Query.value_bind, Query.value_supertype]
  cases r (.supertype c.decl) with
  | none => rfl
  | some s => simp only [Query.value_bind, Query.value_pure]

/-- Declared supertypes are classes, and every class reaches one without a supertype before walks
along superclasses are cut off. -/
structure Rooted : Prop where
  isClass : ∀ {d s}, r (.supertype d) = some s → ∃ e qs k, s = .cls e qs k
  chain : ∀ d, ∃ n t, n < Limits.supertypeChain ∧ Steps r.superdecl n d t ∧ r.superdecl t = none

/-- Some class type of one declaration has one of another for its direct superclass. -/
def Extends (d e : NodeRef) : Prop := ∃ as k p, r.parent ⟨d, as, k⟩ = some p ∧ p.decl = e

/-- No class is among its own superclasses, however long the chains are. -/
def AcyclicClasses : Prop := ∀ d, ¬ Relation.TransGen r.Extends d d

variable {r}

theorem superdecl_of_supertype {d e : NodeRef} {qs : List Ty} {k : Constraints}
    (h : r (.supertype d) = some (.cls e qs k)) : r.superdecl d = some e := by
  unfold superdecl
  rw [h]
  rfl

theorem parent_of_supertype {d e : NodeRef} {as qs : List Ty} {k c : Constraints}
    (h : r (.supertype d) = some (.cls e qs k)) :
    r.parent ⟨d, as, c⟩ = some ⟨e, Ty.bindAll (r.bindings d as) qs, k⟩ := by
  simp only [parent_eq, h]
  rfl

/-- A class without a supertype is its own only ancestor. -/
theorem eq_of_ascends_root {n : Nat} {c p : ClassTy} (ha : r.Ascends n c p)
    (hc : r (.supertype c.decl) = none) : c = p := by
  cases ha with
  | here => rfl
  | up hq _ =>
    rw [parent_eq, hc] at hq
    cases hq

namespace Rooted

variable (h : r.Rooted)
include h

theorem exists_supertype {c p : ClassTy} (hp : r.parent c = some p) :
    ∃ e qs k, r (.supertype c.decl) = some (.cls e qs k) ∧
      p = ⟨e, Ty.bindAll (r.bindings c.decl c.args) qs, k⟩ := by
  cases hs : r (.supertype c.decl) with
  | none => rw [parent_eq, hs] at hp; cases hp
  | some s =>
    obtain ⟨e, qs, k, rfl⟩ := h.isClass hs
    rw [@parent_of_supertype r c.decl e c.args qs k c.constraints hs] at hp
    exact ⟨e, qs, k, rfl, (Option.some.inj hp).symm⟩

theorem superdecl_of_parent {c p : ClassTy} (hp : r.parent c = some p) :
    r.superdecl c.decl = some p.decl := by
  obtain ⟨e, qs, k, hs, rfl⟩ := h.exists_supertype hp
  exact superdecl_of_supertype hs

theorem decl_steps {n : Nat} {c p : ClassTy} (ha : r.Ascends n c p) :
    Steps r.superdecl n c.decl p.decl := ha.map h.superdecl_of_parent

/-- A class comes back to its declaration in no steps only. -/
theorem eq_of_ascends {n : Nat} {c p : ClassTy} (ha : r.Ascends n c p) (hd : p.decl = c.decl) :
    c = p := by
  obtain ⟨m, t, _, hc, ht⟩ := h.chain c.decl
  have hs := h.decl_steps ha
  rw [hd] at hs
  cases hs.eq_zero_of_cycle hc ht
  cases ha
  rfl

/-- Chains that come to an end do not come back. -/
theorem acyclicClasses : r.AcyclicClasses := by
  have steps : ∀ {d e}, Relation.TransGen r.Extends d e → ∃ n, Steps r.superdecl (n + 1) d e := by
    intro d e he
    induction he with
    | single he =>
      obtain ⟨as, k, p, hp, rfl⟩ := he
      exact ⟨0, .up (h.superdecl_of_parent hp) (.here _)⟩
    | tail _ he ih =>
      obtain ⟨as, k, p, hp, rfl⟩ := he
      obtain ⟨n, hn⟩ := ih
      exact ⟨n + 1, hn.trans (.up (h.superdecl_of_parent hp) (.here _))⟩
  intro d hd
  obtain ⟨n, hn⟩ := steps hd
  obtain ⟨m, t, -, hc, ht⟩ := h.chain d
  cases hn.eq_zero_of_cycle hc ht

/-- A class has one ancestor of each declaration. -/
theorem ancestor_unique {m n : Nat} {c p q : ClassTy} (hp : r.Ascends m c p)
    (hq : r.Ascends n c q) (hd : p.decl = q.decl) : p = q := by
  induction hp generalizing n with
  | here c => exact h.eq_of_ascends hq hd.symm
  | up e hp ih =>
    cases hq with
    | here => exact (h.eq_of_ascends (.up e hp) hd).symm
    | up e' hq =>
      rw [e] at e'
      cases e'
      exact ih hq hd

end Rooted

/-! ## Looking for an ancestor -/

theorem projectFrom_succ (target : NodeRef) (n : Nat) (seen : List NodeRef) (c : ClassTy) :
    (ClassTy.projectFrom target (n + 1) seen c).value r =
      if c.decl = target then some c
      else if seen.contains c.decl then none
      else match r.parent c with
        | some p => (ClassTy.projectFrom target n (c.decl :: seen) p).value r
        | none => none := by
  rw [ClassTy.projectFrom, Query.value_ite, Query.value_ite, Query.value_bind]
  show (if _ then _ else if _ then _ else
    Query.value r (match r.parent c with | some p => _ | none => _)) = _
  cases r.parent c <;> rfl

/-- Along a chain that fits into the bound, and past classes that lie below it only, the walk finds
every ancestor. -/
theorem Rooted.projectFrom_of_ascends (h : r.Rooted) {m n l : Nat} {c p : ClassTy} {t : NodeRef}
    {seen : List NodeRef} (ha : r.Ascends m c p) (hc : Steps r.superdecl l c.decl t)
    (ht : r.superdecl t = none) (hn : m < n)
    (hseen : ∀ s ∈ seen, ∃ i, l < i ∧ Steps r.superdecl i s t) :
    (ClassTy.projectFrom p.decl n seen c).value r = some p := by
  induction ha generalizing n l seen with
  | here c =>
    obtain ⟨n, rfl⟩ := Nat.exists_eq_succ_of_ne_zero (Nat.ne_of_gt hn)
    rw [projectFrom_succ, if_pos rfl]
  | @up m c q p hq hqp ih =>
    obtain ⟨n, rfl⟩ : ∃ k, n = k + 1 := Nat.exists_eq_succ_of_ne_zero (by omega)
    have hne : ¬ c.decl = p.decl := by
      intro hd
      have hs := h.decl_steps (.up hq hqp)
      rw [← hd] at hs
      have := hs.eq_zero_of_cycle hc ht
      omega
    have hnot : ¬ seen.contains c.decl = true := by
      intro hmem
      obtain ⟨i, hi, hci⟩ := hseen _ (List.contains_iff_mem.1 hmem)
      have := hc.unique ht hci ht
      omega
    obtain ⟨l', hl', hc'⟩ := (h.decl_steps (.up hq (.here q))).split hc ht
    rw [projectFrom_succ, if_neg hne, if_neg hnot, hq]
    refine ih hc' (by omega) (fun s hs => ?_)
    rcases List.mem_cons.1 hs with rfl | hs
    · exact ⟨l, by omega, hc⟩
    · obtain ⟨i, hi, hci⟩ := hseen s hs
      exact ⟨i, by omega, hci⟩

theorem ascends_of_projectFrom {target : NodeRef} {n : Nat} {seen : List NodeRef} {c p : ClassTy}
    (hp : (ClassTy.projectFrom target n seen c).value r = some p) :
    ∃ m, r.Ascends m c p ∧ p.decl = target := by
  induction n generalizing seen c with
  | zero => cases hp
  | succ n ih =>
    rw [projectFrom_succ] at hp
    split at hp
    · next hd => cases hp; exact ⟨0, .here _, hd⟩
    · split at hp
      · cases hp
      · cases hq : r.parent c with
        | none => rw [hq] at hp; cases hp
        | some q =>
          rw [hq] at hp
          obtain ⟨m, hm, hd⟩ := ih hp
          exact ⟨m + 1, .up hq hm, hd⟩

/-- In a rooted hierarchy the walk finds exactly the ancestors. -/
theorem Rooted.projectTo_iff (h : r.Rooted) {c p : ClassTy} {target : NodeRef} :
    (c.projectTo target).value r = some p ↔ ∃ m, r.Ascends m c p ∧ p.decl = target := by
  constructor
  · exact ascends_of_projectFrom
  · rintro ⟨m, hm, rfl⟩
    obtain ⟨n, t, hn, hc, ht⟩ := h.chain c.decl
    obtain ⟨l, hl, _⟩ := (h.decl_steps hm).split hc ht
    exact h.projectFrom_of_ascends hm hc ht (by omega) (fun s hs => absurd hs List.not_mem_nil)

theorem projectTo_self (c : ClassTy) : (c.projectTo c.decl).value r = some c := by
  show (ClassTy.projectFrom c.decl (99 + 1) [] c).value r = some c
  rw [projectFrom_succ, if_pos rfl]

theorem projectTo_mk (d : NodeRef) (as : List Ty) (c : Constraints) :
    (ClassTy.projectTo ⟨d, as, c⟩ d).value r = some ⟨d, as, c⟩ := projectTo_self ⟨d, as, c⟩

theorem extends_of_ascends {m : Nat} {c p : ClassTy} (h : r.Ascends m c p) :
    c = p ∨ Relation.TransGen r.Extends c.decl p.decl := by
  induction h with
  | here => exact .inl rfl
  | @up _ c q p hq _ ih =>
    have step : r.Extends c.decl q.decl := ⟨c.args, c.constraints, q, hq, rfl⟩
    rcases ih with rfl | ih
    · exact .inr (.single step)
    · exact .inr (.head step ih)

/-- Of two classes that are ancestors of each other, both are the same one. -/
theorem AcyclicClasses.projectTo_antisymm (h : r.AcyclicClasses) {c e p q : ClassTy}
    (hp : (c.projectTo e.decl).value r = some p) (hq : (e.projectTo c.decl).value r = some q) :
    p = c ∧ q = e := by
  obtain ⟨m, hm, hpe⟩ := ascends_of_projectFrom hp
  obtain ⟨n, hn, hqc⟩ := ascends_of_projectFrom hq
  rcases extends_of_ascends hm with rfl | there
  · rcases extends_of_ascends hn with rfl | back
    · exact ⟨rfl, rfl⟩
    · rw [hqc, hpe] at back
      exact absurd back (h e.decl)
  · rw [hpe] at there
    rcases extends_of_ascends hn with rfl | back
    · rw [hqc] at there
      exact absurd there (h c.decl)
    · rw [hqc] at back
      exact absurd (there.trans back) (h c.decl)

/-! ## Modules -/

variable (r) in
/-- The module that the clause of a module leads to. -/
def above (m : ModuleId) : Option ModuleId := (supermodule m).value r

variable (r) in
/-- The chain of every module comes to an end before walks along clauses are cut off. -/
def ModulesRooted : Prop :=
  ∀ m, ∃ n t, n < Limits.moduleChain ∧ Steps r.above n m t ∧ r.above t = none

theorem moduleExtendsFrom_succ (sup : ModuleId) (n : Nat) (seen : List ModuleId) (m : ModuleId) :
    (moduleExtendsFrom sup (n + 1) seen m).value r =
      if m = sup then true
      else if seen.contains m then false
      else match r.above m with
        | some next => (moduleExtendsFrom sup n (m :: seen) next).value r
        | none => false := by
  rw [moduleExtendsFrom, Query.value_ite, Query.value_ite, Query.value_bind]
  show (if _ then _ else if _ then _ else
    Query.value r (match r.above m with | some next => _ | none => _)) = _
  cases r.above m <;> rfl

theorem moduleChainFrom_succ (n : Nat) (chain : List ModuleId) (m : ModuleId) :
    (moduleChainFrom (n + 1) chain m).value r = match r.above m with
      | some next =>
        if chain.contains next then chain else (moduleChainFrom n (chain ++ [next]) next).value r
      | none => chain := by
  rw [moduleChainFrom, Query.value_bind]
  show Query.value r (match r.above m with | some next => _ | none => _) = _
  cases r.above m with
  | none => rfl
  | some next => exact Query.value_ite ..

theorem moduleExtendsFrom_of_steps {m n l : Nat} {i sup t : ModuleId} {seen : List ModuleId}
    (ha : Steps r.above m i sup) (hc : Steps r.above l i t) (ht : r.above t = none) (hn : m < n)
    (hseen : ∀ s ∈ seen, ∃ j, l < j ∧ Steps r.above j s t) :
    (moduleExtendsFrom sup n seen i).value r = true := by
  induction ha generalizing n l seen with
  | here i =>
    obtain ⟨n, rfl⟩ := Nat.exists_eq_succ_of_ne_zero (Nat.ne_of_gt hn)
    rw [moduleExtendsFrom_succ, if_pos rfl]
  | @up m i next sup hq _ ih =>
    obtain ⟨n, rfl⟩ : ∃ k, n = k + 1 := Nat.exists_eq_succ_of_ne_zero (by omega)
    have hnot : ¬ seen.contains i = true := by
      intro hmem
      obtain ⟨j, hj, hci⟩ := hseen _ (List.contains_iff_mem.1 hmem)
      have := hc.unique ht hci ht
      omega
    obtain ⟨l', hl', hc'⟩ := (Steps.up hq (.here next)).split hc ht
    rw [moduleExtendsFrom_succ, if_neg hnot, hq]
    split
    · rfl
    refine ih hc' (by omega) (fun s hs => ?_)
    rcases List.mem_cons.1 hs with rfl | hs
    · exact ⟨l, by omega, hc⟩
    · obtain ⟨j, hj, hcj⟩ := hseen s hs
      exact ⟨j, by omega, hcj⟩

theorem steps_of_moduleExtendsFrom {sup : ModuleId} {n : Nat} {seen : List ModuleId} {i : ModuleId}
    (h : (moduleExtendsFrom sup n seen i).value r = true) : ∃ m, Steps r.above m i sup := by
  induction n generalizing seen i with
  | zero => cases h
  | succ n ih =>
    rw [moduleExtendsFrom_succ] at h
    split at h
    · next hd => exact hd ▸ ⟨0, .here _⟩
    · split at h
      · cases h
      · cases hq : r.above i with
        | none => rw [hq] at h; cases h
        | some q =>
          rw [hq] at h
          obtain ⟨m, hm⟩ := ih h
          exact ⟨m + 1, .up hq hm⟩

/-- Where chains come to an end, a module extends exactly the modules that its clauses lead to. -/
theorem moduleExtends_iff (h : r.ModulesRooted) {i sup : ModuleId} :
    (moduleExtends i sup).value r = true ↔ ∃ m, Steps r.above m i sup := by
  constructor
  · exact steps_of_moduleExtendsFrom
  · rintro ⟨m, hm⟩
    obtain ⟨n, t, hn, hc, ht⟩ := h i
    obtain ⟨l, hl, _⟩ := hm.split hc ht
    exact moduleExtendsFrom_of_steps hm hc ht (by omega) (fun s hs => absurd hs List.not_mem_nil)

theorem moduleExtends_trans (h : r.ModulesRooted) {i j k : ModuleId}
    (hij : (moduleExtends i j).value r = true) (hjk : (moduleExtends j k).value r = true) :
    (moduleExtends i k).value r = true := by
  obtain ⟨m, hm⟩ := (moduleExtends_iff h).1 hij
  obtain ⟨n, hn⟩ := (moduleExtends_iff h).1 hjk
  exact (moduleExtends_iff h).2 ⟨m + n, hm.trans hn⟩

end Reading

end PklAnalysis
