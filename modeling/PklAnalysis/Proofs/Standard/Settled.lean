import PklAnalysis.Proofs.Session.Source
import PklAnalysis.Proofs.Standard.Clauses

/-!
# Sessions and the standard library

Whatever modules a session has and whatever it was asked before, the classes of the standard library
have the supertypes of their clauses and its aliases stand for their right-hand sides
(`settled_supertype`, `settled_expansion`). What makes this true of every memory is that a supertype
with a clause is never remembered: the question for it comes up again inside, where it is refused.
-/

namespace PklAnalysis

namespace Standard

theorem hierarchy_supertype (i : NodeIndex) :
    hierarchy (.supertype ⟨ModuleId.base, i⟩) = supertype? i := by
  show (if ModuleId.base = ModuleId.base then supertype? i else none) = supertype? i
  rw [if_pos rfl]

/-- An alias of the standard library with its arguments put in. -/
def expanded (src : ModuleSource) (i : NodeIndex) (as : List Ty) (c : Constraints) : Ty :=
  ((target i).bind ((Session.reading src).bindings ⟨ModuleId.base, i⟩ as)).addConstraints c

/-- There is room for another key, and no clause is being resolved. -/
def Idle (ks : List GuardKey) : Prop :=
  ks.length < Limits.exprTypeDepth ∧ ∀ d, GuardKey.superclass d ∉ ks

variable {src : ModuleSource} {P : (q : Question) → q.Answer → Prop}

theorem construct_base {d : NodeRef} (hd : d.module = ModuleId.base) :
    Query.construct d =
      pure ((std.tree.construct? d.node).map (fun c => (std.tree, c))) := by
  unfold Query.construct Query.tree
  rw [if_pos hd]
  rfl

/-- The supertype of a class lies within the bounds if its clause does. -/
theorem within_declaredSupertype {S : Option Ty → Prop} {i : NodeIndex}
    (hnone : clause? i = none → S (supertype? i))
    (hsome : ∀ c, clause? i = some c → supertype? i = some (clauseTy c) →
      ∀ a, P (.superclause ⟨ModuleId.base, i⟩ ⟨ModuleId.base, c⟩) a → S a) :
    (declaredSupertype ⟨ModuleId.base, i⟩).Within P S := by
  unfold declaredSupertype
  unfold clause? supertype? at hnone hsome
  by_cases ha : (⟨ModuleId.base, i⟩ : NodeRef) = std.any
  · rw [if_pos ha, if_pos ha] at hnone
    rw [if_pos ha]
    exact Query.within_pure (hnone rfl)
  rw [if_neg ha, if_neg ha] at hnone hsome
  rw [if_neg ha, construct_base rfl]
  cases hc : std.tree.construct? i with
  | none =>
    rw [hc] at hnone
    exact Query.within_pure (hnone rfl)
  | some c =>
    rw [hc] at hnone hsome
    cases c with
    | classDecl c =>
      obtain ⟨_, _, _, _ | clause, _⟩ := c
      · exact Query.within_pure (hnone rfl)
      · exact Query.within_ask (hsome clause rfl rfl)
    | _ => exact Query.within_pure (hnone rfl)

/-- Inside itself the question for a supertype comes to nothing, so a clause has its type. -/
theorem within_clause {i c : NodeIndex} (hc : clause? i = some c)
    (hP : ∀ a, P (.supertype ⟨ModuleId.base, i⟩) a → a = none) :
    (typeOfNode ⟨ModuleId.base, c⟩ .empty).Within P (· = clauseTy c) := by
  refine (asksItself hc c hc).2.within (fun q a hq ha => ?_)
  cases q with
  | supertype d =>
    cases beq_iff_eq.1 hq
    exact hP a ha
  | _ => cases hq

/-- The question does come up. -/
theorem within_clause_of_false {S : Ty → Prop} {i c : NodeIndex} (hc : clause? i = some c)
    (hP : ∀ a, ¬ P (.supertype ⟨ModuleId.base, i⟩) a) :
    (typeOfNode ⟨ModuleId.base, c⟩ .empty).Within P S := by
  obtain ⟨hd, ha⟩ := asksItself hc c hc
  cases hx : typeOfNode ⟨ModuleId.base, c⟩ .empty with
  | done a => rw [hx] at hd; cases hd
  | ask q next =>
    rw [hx] at ha
    cases q with
    | supertype d =>
      cases beq_iff_eq.1 ha.1
      exact fun a h => absurd h (hP a)
    | _ => cases ha.1

/-- An alias has its right-hand side if supertypes have their clauses. -/
theorem within_aliasTarget {i : NodeIndex} {a : AliasDecl}
    (h : std.tree.construct? i = some (.aliasDecl a))
    (hP : ∀ j b, P (.supertype ⟨ModuleId.base, j⟩) b → b = supertype? j) :
    (aliasTarget ⟨ModuleId.base, i⟩).Within P (· = target i) := by
  refine (soundAlias h).1.within (fun q b hq hb => ?_)
  cases q with
  | supertype d =>
    obtain ⟨m, j⟩ := d
    obtain rfl : m = ModuleId.base := beq_iff_eq.1 hq
    rw [hierarchy_supertype]
    exact hP j b hb
  | _ => cases hq

theorem within_expandAlias (src : ModuleSource) {i : NodeIndex} {as : List Ty} {c : Constraints}
    (ht : ∀ a, P (.aliased ⟨ModuleId.base, i⟩) a → a = target i)
    (hs : ∀ q a, Question.IsSource q → P q a → a = Session.reading src q) :
    (expandAlias ⟨ModuleId.base, i⟩ as c).Within P (· = expanded src i as c) := by
  refine Query.Within.bind (Query.within_ask ht) (fun a ha => ?_)
  have hf := Query.asks_forDeclaration (Session.reading src) ⟨ModuleId.base, i⟩ as
  refine Query.Within.bind (hf.within hs) (fun b hb => ?_)
  rw [ha, hb]
  exact Query.within_pure rfl

/-! ## The bounds -/

/-- What may be remembered: no supertype with a clause, and no clause. -/
def Stored (src : ModuleSource) : (q : Question) → q.Answer → Prop
  | .supertype d, a => ∀ i, d = ⟨ModuleId.base, i⟩ → clause? i = none ∧ a = supertype? i
  | .superclause d k, _ => ∀ i c, d = ⟨ModuleId.base, i⟩ → k = ⟨ModuleId.base, c⟩ → clause? i ≠ some c
  | .aliased d, a => ∀ i al, d = ⟨ModuleId.base, i⟩ →
      std.tree.construct? i = some (.aliasDecl al) → a = target i
  | .expansion d as c, a => ∀ i al, d = ⟨ModuleId.base, i⟩ →
      std.tree.construct? i = some (.aliasDecl al) → a = expanded src i as c
  | q, a => (Envelope.source src).stored q a

/-- What may be answered while the keys `ks` are entered. -/
def Given (src : ModuleSource) (n : Nat) (ks : List GuardKey) : (q : Question) → q.Answer → Prop
  | .supertype d, a => ∀ i, d = ⟨ModuleId.base, i⟩ →
      (2 ≤ n → ks.length < Limits.exprTypeDepth → GuardKey.superclass d ∉ ks →
        a = supertype? i) ∧
      (clause? i ≠ none → GuardKey.superclass d ∈ ks → a = none)
  | .superclause d k, a => ∀ i c, d = ⟨ModuleId.base, i⟩ → k = ⟨ModuleId.base, c⟩ →
      clause? i = some c →
      (1 ≤ n → ks.length < Limits.exprTypeDepth → GuardKey.superclass d ∉ ks →
        a = some (clauseTy c)) ∧
      (GuardKey.superclass d ∈ ks → a = none)
  | .aliased d, a => ∀ i al, d = ⟨ModuleId.base, i⟩ →
      std.tree.construct? i = some (.aliasDecl al) → 3 ≤ n → Idle ks → a = target i
  | .expansion d as c, a => ∀ i al, d = ⟨ModuleId.base, i⟩ →
      std.tree.construct? i = some (.aliasDecl al) → 4 ≤ n → ks = [] → a = expanded src i as c
  | q, a => (Envelope.source src).given n ks q a

theorem given_of_stored {n : Nat} {ks : List GuardKey} {q : Question} {a : q.Answer}
    (h : Stored src q a) : Given src n ks q a := by
  cases q with
  | supertype d =>
    intro i hd
    obtain ⟨hc, ha⟩ := h i hd
    exact ⟨fun _ _ _ => ha, fun hn => absurd hc hn⟩
  | superclause d k => exact fun i c hd hk hc => absurd hc (h i c hd hk)
  | aliased d => exact fun i al hd hal _ _ => h i al hd hal
  | expansion d as c => exact fun i al hd hal _ _ => h i al hd hal
  | _ => exact (Envelope.source src).given_of_stored h

theorem eq_reading_of_given {n : Nat} {ks : List GuardKey} {q : Question} {a : q.Answer}
    (hq : q.IsSource) (h : Given src n ks q a) : a = Session.reading src q := by
  cases q with
  | tree | reference => exact @Session.eq_reading_of_source src n ks _ _ hq h
  | _ => cases hq

theorem given_zero (ks : List GuardKey) (q : Question) (hq : q.isSource = false) :
    Given src 0 ks q (Session.fallback q) := by
  cases q with
  | supertype d => exact fun i _ => ⟨fun h => absurd h (by omega), fun _ _ => rfl⟩
  | superclause d k => exact fun i c _ _ _ => ⟨fun h => absurd h (by omega), fun _ => rfl⟩
  | aliased d => exact fun i al _ _ h => absurd h (by omega)
  | expansion d as c => exact fun i al _ _ h => absurd h (by omega)
  | _ => exact (Envelope.source src).given_zero ks _ hq

theorem given_refused (n : Nat) (ks : List GuardKey) (q : Question) (hq : q.Refused ks) :
    Given src n ks q (Session.fallback q) := by
  have hk := hq
  obtain ⟨k, hk, hr⟩ := hk
  cases q with
  | superclause d k =>
    cases hk
    intro i c _ _ _
    refine ⟨fun _ hl hn => ?_, fun _ => rfl⟩
    rcases hr with hl' | hm
    · omega
    · exact absurd hm hn
  | expansion d as c =>
    intro i al _ _ _ hks
    subst hks
    rcases hr with hl | hm
    · exact absurd hl (by decide)
    · cases hm
  | supertype | aliased => cases hk
  | _ => exact (Envelope.source src).given_refused n ks _ hq

theorem stored_body (q : Question) (hq : q.isSource = false) :
    (Session.body q).Within (Stored src) (Stored src q) := by
  cases q with
  | supertype d =>
    by_cases hd : ∃ i, d = ⟨ModuleId.base, i⟩
    · obtain ⟨i, rfl⟩ := hd
      refine within_declaredSupertype (fun hn j hj => ?_) (fun c hc _ a ha => ?_)
      · cases hj
        exact ⟨hn, rfl⟩
      · exact absurd hc (ha i c rfl rfl)
    · exact Query.within_true.mono (fun _ _ i h => absurd ⟨i, h⟩ hd)
  | superclause d k =>
    by_cases hc : ∃ i c, d = ⟨ModuleId.base, i⟩ ∧ k = ⟨ModuleId.base, c⟩ ∧ clause? i = some c
    · obtain ⟨i, c, rfl, rfl, hc⟩ := hc
      refine Query.Within.bind (T := fun _ => False) (within_clause_of_false hc ?_)
        (fun _ h => h.elim)
      intro a ha
      rw [(ha i rfl).1] at hc
      cases hc
    · exact Query.within_true.mono (fun _ _ i c hd hk h => hc ⟨i, c, hd, hk, h⟩)
  | aliased d =>
    by_cases hd : ∃ i al, d = ⟨ModuleId.base, i⟩ ∧ std.tree.construct? i = some (.aliasDecl al)
    · obtain ⟨i, al, rfl, hal⟩ := hd
      refine (within_aliasTarget hal (fun j b hb => (hb j rfl).2)).mono (fun a ha j _ hj _ => ?_)
      cases hj
      exact ha
    · exact Query.within_true.mono (fun _ _ i al h hal => absurd ⟨i, al, h, hal⟩ hd)
  | expansion d as c =>
    by_cases hd : ∃ i al, d = ⟨ModuleId.base, i⟩ ∧ std.tree.construct? i = some (.aliasDecl al)
    · obtain ⟨i, al, rfl, hal⟩ := hd
      refine (within_expandAlias src (fun a ha => ha i al rfl hal) (fun q a hq h => ?_)).mono
        (fun a ha j _ hj _ => ?_)
      · exact eq_reading_of_given hq (@given_of_stored src 0 [] q a h)
      · cases hj
        exact ha
    · exact Query.within_true.mono (fun _ _ i al h hal => absurd ⟨i, al, h, hal⟩ hd)
  | tree | reference => cases hq
  | _ => exact Query.within_true

theorem given_succ (n : Nat) (ks : List GuardKey) (q : Question) (hq : q.isSource = false)
    (hr : ¬ q.Refused ks) :
    (Session.body q).Within (Given src n (q.entered ks)) (Given src (n + 1) ks q) := by
  cases q with
  | supertype d =>
    by_cases hd : ∃ i, d = ⟨ModuleId.base, i⟩
    · obtain ⟨i, rfl⟩ := hd
      refine within_declaredSupertype (fun hc j hj => ?_) (fun c hc hs a ha j hj => ?_)
      · cases hj
        exact ⟨fun _ _ _ => rfl, fun hn => absurd hc hn⟩
      · cases hj
        obtain ⟨h₁, h₂⟩ := ha i c rfl rfl hc
        exact ⟨fun hn hl hk => (h₁ (by omega) hl hk).trans hs.symm, fun _ hk => h₂ hk⟩
    · exact Query.within_true.mono (fun _ _ i h => absurd ⟨i, h⟩ hd)
  | superclause d k =>
    by_cases hc : ∃ i c, d = ⟨ModuleId.base, i⟩ ∧ k = ⟨ModuleId.base, c⟩ ∧ clause? i = some c
    · obtain ⟨i, c, rfl, rfl, hc⟩ := hc
      have hn : clause? i ≠ none := by
        rw [hc]
        exact nofun
      have hk : GuardKey.superclass ⟨ModuleId.base, i⟩ ∉ ks := fun h => hr ⟨_, rfl, .inr h⟩
      refine Query.Within.bind (within_clause hc (fun a ha => ?_)) (fun a ha => ?_)
      · exact (ha i rfl).2 hn List.mem_cons_self
      · refine Query.within_pure (fun j e hj he _ => ⟨fun _ _ _ => ?_, fun h => ?_⟩)
        · cases he
          exact congrArg some ha
        · cases hj
          exact absurd h hk
    · exact Query.within_true.mono (fun _ _ i c hd hk h => absurd ⟨i, c, hd, hk, h⟩ hc)
  | aliased d =>
    by_cases hd : ∃ i al, d = ⟨ModuleId.base, i⟩ ∧ std.tree.construct? i = some (.aliasDecl al) ∧
        3 ≤ n + 1 ∧ Idle ks
    · obtain ⟨i, al, rfl, hal, hn, hks⟩ := hd
      refine (within_aliasTarget hal (fun j b hb => ?_)).mono (fun a ha j _ hj _ _ _ => ?_)
      · exact (hb j rfl).1 (by omega) hks.1 (hks.2 _)
      · cases hj
        exact ha
    · exact Query.within_true.mono (fun _ _ i al h hal hn hks => absurd ⟨i, al, h, hal, hn, hks⟩ hd)
  | expansion d as c =>
    by_cases hd : ∃ i al, d = ⟨ModuleId.base, i⟩ ∧ std.tree.construct? i = some (.aliasDecl al) ∧
        4 ≤ n + 1 ∧ ks = []
    · obtain ⟨i, al, rfl, hal, hn, rfl⟩ := hd
      have idle : Idle [GuardKey.expansion ⟨ModuleId.base, i⟩] :=
        ⟨Nat.lt_of_sub_eq_succ rfl, fun d h => nomatch List.mem_singleton.1 h⟩
      refine (within_expandAlias src (fun a ha => ?_) (fun q a hq h => ?_)).mono
        (fun a ha j _ hj _ _ _ => ?_)
      · exact ha i al rfl hal (by omega) idle
      · exact eq_reading_of_given hq h
      · cases hj
        exact ha
    · exact Query.within_true.mono (fun _ _ i al h hal hn hks => absurd ⟨i, al, h, hal, hn, hks⟩ hd)
  | tree | reference => cases hq
  | _ => exact Query.within_true

theorem stored_tree {src : ModuleSource} (i : ModuleId) : Stored src (.tree i) (src.tree i) := rfl

theorem stored_reference {src : ModuleSource} (m : ModuleId) (uri : String) :
    Stored src (.reference m uri) (src.resolve m uri) := rfl

def envelope (src : ModuleSource) : Envelope src where
  stored := Stored src
  given := Given src
  given_of_stored := given_of_stored
  stored_tree := stored_tree
  stored_reference := stored_reference
  given_zero := given_zero
  given_refused := given_refused
  given_succ := given_succ
  stored_body := stored_body

end Standard

namespace Session

open Standard

variable (src : ModuleSource)

/-- The classes of the standard library have the supertypes of their clauses. -/
theorem settled_supertype (i : NodeIndex) :
    Settled src (.supertype ⟨ModuleId.base, i⟩) ∧
      reading src (.supertype ⟨ModuleId.base, i⟩) = supertype? i := by
  refine (envelope src).settled_of_unique (fun b hb => ?_)
  exact (hb i rfl).1 (by rw [fuel_eq]; omega) (by decide) List.not_mem_nil

/-- The aliases of the standard library stand for their right-hand sides. -/
theorem settled_expansion {i : NodeIndex} {a : AliasDecl}
    (h : std.tree.construct? i = some (.aliasDecl a)) (as : List Ty) (c : Constraints) :
    Settled src (.expansion ⟨ModuleId.base, i⟩ as c) ∧
      reading src (.expansion ⟨ModuleId.base, i⟩ as c) = expanded src i as c := by
  refine (envelope src).settled_of_unique (fun b hb => ?_)
  exact hb i a rfl h (by rw [fuel_eq]; omega) rfl

end Session

end PklAnalysis
