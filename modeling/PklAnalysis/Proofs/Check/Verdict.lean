import PklAnalysis.Proofs.Check.Distribution

/-!
# Verdicts

What a check reports can be read off its table. A `Layout` of a check has the alternatives of both
types and says which are below which; `Layout.Describes` tells the result in these terms, and
`checkType_describes` says that every check comes out that way, unless the constant or a constraint
that it has to be held against raises an error.
-/

namespace PklAnalysis

open Session

/-- The text of constraints, without those of modules that have no tree. -/
def ModuleSource.constraintText (src : ModuleSource) (cs : Constraints) : String :=
  ", ".intercalate (cs.filterMap (fun c => (src.treeOf c.module).map (·.print c.node)))

namespace Session

variable {src : ModuleSource} {α β : Type}

theorem gives_mapM {f : α → Query β} {g : α → β} {l : List α} (h : ∀ a, Gives src (f a) (g a)) :
    Gives src (l.mapM f) (l.map g) := by
  induction l with
  | nil => exact gives_pure []
  | cons a l ih =>
    rw [List.mapM_cons]
    exact (h a).bind (ih.bind (gives_pure _))

theorem Gives.run_bind {x : Query α} {f : α → Query β} {a : α} {m : Memory} (h : Gives src x a)
    (hm : Reachable src m) : run src (x >>= f) m = run src (f a) (run src x m).2 := by
  rw [Session.run_bind, h m hm]

theorem Gives.run_check {x : Check α} {f : α → Check β} {a : α} {m : Memory}
    (h : Gives src x.run (.ok a)) (hm : Reachable src m) :
    run src (x >>= f).run m = run src (f a).run (run src x.run m).2 := h.run_bind hm

theorem Gives.run_check_error {x : Check α} {f : α → Check β} {e : EvalError} {m : Memory}
    (h : Gives src x.run (.error e)) (hm : Reachable src m) :
    (run src (x >>= f).run m).1 = .error e := congrArg Prod.fst (h.run_bind hm)

theorem run_query (x : Query α) (f : α → Check β) (m : Memory) :
    run src (Check.query x >>= f).run m = run src (f (run src x m).1).run (run src x m).2 := by
  unfold Check.query
  rw [ExceptT.run_bind_lift, Session.run_bind]

/-- The alternatives of two types that are checked against each other. The session always says the
same about which of them are below which. -/
structure Layout (src : ModuleSource) (actual expected : Ty) where
  rows : List Ty
  columns : List Ty
  below : Ty → Ty → Bool
  actualDepth : Nat
  expectedDepth : Nat
  splits : Splits src actualDepth actual rows
  spreads : Spreads src expectedDepth expected columns
  depth_le : actualDepth + expectedDepth ≤ Limits.typeCheckDepth
  gives_below : ∀ x ∈ rows, ∀ y ∈ columns, Gives src (x.isSubtype y.withoutConstraints) (below x y)

namespace Layout

variable {actual expected : Ty} (L : Layout src actual expected) (value : ValueForm)

/-- Every actual alternative conforms to some expected one. -/
def Passes : Prop :=
  expected = .unknown ∨ ∀ x ∈ L.rows, ∃ y ∈ L.columns, Check.fits src value L.below x y = true

/-- An actual alternative conforms to no expected one, though for one of them only the constraints
are to blame. -/
def Violates : Prop :=
  ∃ x ∈ L.rows, (∀ y ∈ L.columns, Check.fits src value L.below x y = false) ∧
    ∃ y ∈ L.columns, Check.fails src value L.below x y = true

/-- The constant is needed to tell whether constraints hold. -/
def Consults : Prop := ∃ x ∈ L.rows, ∃ y ∈ L.columns, Check.consults L.below x y = true

/-- The constraint lists of the places that fail, row by row. -/
def violated : List Constraints :=
  L.rows.flatMap (fun x => Check.missed src value L.below x L.columns)

/-- The constant, or a constraint that it is held against, raises an error. -/
def Raises (e : EvalError) : Prop :=
  ∃ x ∈ L.rows, ∃ y ∈ L.columns, Check.consults L.below x y = true ∧
    src.Raises value y.constraints e

/-- What the result of a check says. -/
structure Describes (res : CheckResult) : Prop where
  pass_iff : res.outcome = .pass ↔ L.Passes value
  violation_iff : (∃ required found, res.outcome = .violation required found) ↔
    ¬ L.Passes value ∧ L.Violates value
  violation_text : ∀ required found, res.outcome = .violation required found →
    required = " or ".intercalate ((L.violated value).map src.constraintText) ∧
      ∃ v, value.get = .ok (some v) ∧ found = v.render
  consulted_iff : res.consulted = true ↔ L.Consults

end Layout

end Session

namespace Check

variable {src : ModuleSource} {value : ValueForm} {below : Ty → Ty → Bool}

theorem gives_constraintTexts (cs : Constraints) :
    Gives src (constraintTexts cs)
      (cs.filterMap (fun c => (src.treeOf c.module).map (·.print c.node))) := by
  have ht : ∀ c : NodeRef, Gives src
      (do let t ← Query.tree c.module
          pure (t.map (·.print c.node)) : Query (Option String))
      ((src.treeOf c.module).map (·.print c.node)) :=
    fun c => (gives_tree src c.module).bind (gives_pure _)
  refine (gives_mapM ht).bind ?_
  rw [List.filterMap_map]
  exact gives_pure _

theorem gives_requiredText (failed : List Constraints) :
    Gives src (requiredText failed) (" or ".intercalate (failed.map src.constraintText)) :=
  (gives_mapM (g := src.constraintText)
    (fun cs => (gives_constraintTexts cs).bind (gives_pure _))).bind (gives_pure _)

/-- Types that do not conform are neither reported as conforming nor as a violation. -/
theorem run_mismatch (a e : Ty) (m : Memory) :
    (run src (mismatch a e) m).1 = .mismatch ∨ (run src (mismatch a e) m).1 = .weakMismatch ∨
      (run src (mismatch a e) m).1 = .nullableMismatch := by
  unfold mismatch
  rw [Session.run_bind]
  split
  · exact .inl rfl
  rw [Session.run_bind]
  split
  · exact .inr (.inl rfl)
  rw [Session.run_bind, Session.run_bind]
  split
  · exact .inr (.inr rfl)
  · exact .inr (.inl rfl)

/-! ## The table -/

theorem grid_conforms_iff {xs ys : List Ty} :
    (grid src value below xs ys).conforms = true ↔
      ∀ x ∈ xs, ∃ y ∈ ys, fits src value below x y = true := by
  show xs.all (fun x => ys.any (fits src value below x)) = true ↔ _
  rw [List.all_eq_true]
  simp only [List.any_eq_true]

theorem grid_consulted_iff {xs ys : List Ty} :
    (grid src value below xs ys).consulted = true ↔
      ∃ x ∈ xs, ∃ y ∈ ys, consults below x y = true := by
  show xs.any (fun x => ys.any (consults below x)) = true ↔ _
  rw [List.any_eq_true]
  simp only [List.any_eq_true]

theorem missed_ne_nil_iff {x : Ty} {ys : List Ty} :
    missed src value below x ys ≠ [] ↔
      (∀ y ∈ ys, fits src value below x y = false) ∧ ∃ y ∈ ys, fails src value below x y = true := by
  unfold missed
  split
  · next h =>
    obtain ⟨y, hy, hf⟩ := List.any_eq_true.1 h
    exact ⟨fun hn => absurd rfl hn, fun hn => absurd (hn.1 y hy) (by rw [hf]; decide)⟩
  · next h =>
    rw [ne_eq, List.map_eq_nil_iff, List.filter_eq_nil_iff]
    constructor
    · intro hn
      constructor
      · exact fun y hy => Bool.eq_false_iff.2 (fun hf => h (List.any_eq_true.2 ⟨y, hy, hf⟩))
      · exact Classical.byContradiction (fun hno => hn (fun y hy hf => hno ⟨y, hy, hf⟩))
    · rintro ⟨_, y, hy, hf⟩ hn
      exact hn y hy hf

theorem grid_failed_iff {xs ys : List Ty} :
    (grid src value below xs ys).failed ≠ [] ↔
      ∃ x ∈ xs, (∀ y ∈ ys, fits src value below x y = false) ∧
        ∃ y ∈ ys, fails src value below x y = true := by
  show xs.flatMap (fun x => missed src value below x ys) ≠ [] ↔ _
  rw [ne_eq, List.flatMap_eq_nil_iff, Classical.not_forall]
  simp only [Classical.not_imp, ← ne_eq, missed_ne_nil_iff]

/-- Where constraints fail, there is a constant. -/
theorem value_of_fails {x y : Ty} (h : fails src value below x y = true) :
    ∃ v, value.get = .ok (some v) := by
  unfold fails ModuleSource.accepts at h
  split at h
  · next v hv => exact ⟨v, hv⟩
  · simp at h

/-! ## The result -/

section
variable {a e : Ty} {table : Conformity} {m : Memory}

theorem run_checkType_of_conforms (he : e.isUnknown = false)
    (h : Gives src (conforms value a e).run (.ok table)) (hm : Reachable src m)
    (hc : table.conforms = true) :
    (run src (checkType value a e).run m).1 = .ok ⟨.pass, table.consulted⟩ := by
  unfold checkType
  rw [if_neg (by rw [he]; decide), h.run_check hm, if_pos hc]
  rfl

theorem run_checkType_of_not_failed (he : e.isUnknown = false)
    (h : Gives src (conforms value a e).run (.ok table)) (hm : Reachable src m)
    (hc : table.conforms = false) (hf : table.failed = []) :
    ∃ k, Reachable src k ∧ (run src (checkType value a e).run m).1 =
      .ok ⟨(run src (mismatch a e) k).1, table.consulted⟩ := by
  unfold checkType
  rw [if_neg (by rw [he]; decide), h.run_check hm, if_neg (by rw [hc]; decide),
    if_pos (by rw [hf]; rfl)]
  refine ⟨(run src (conforms value a e).run m).2, hm.query _, ?_⟩
  rw [run_query]
  rfl

theorem run_checkType_of_failed (he : e.isUnknown = false)
    (h : Gives src (conforms value a e).run (.ok table)) (hm : Reachable src m)
    (hc : table.conforms = false) (hf : table.failed ≠ []) {v : Constant}
    (hv : value.get = .ok (some v)) :
    (run src (checkType value a e).run m).1 =
      .ok ⟨.violation (" or ".intercalate (table.failed.map src.constraintText)) v.render,
        table.consulted⟩ := by
  unfold checkType
  rw [if_neg (by rw [he]; decide), h.run_check hm, if_neg (by rw [hc]; decide),
    if_neg (by rw [List.isEmpty_iff]; exact hf)]
  rw [run_query, gives_requiredText _ _ (hm.query _), hv]
  rfl

end

end Check

namespace Session.Layout

variable {src : ModuleSource} {actual expected : Ty} (L : Layout src actual expected)
  (value : ValueForm) {m : Memory}

/-- The table of the layout. -/
def table : Conformity := Check.grid src value L.below L.rows L.columns

theorem yields_table :
    Yields src (L.Raises value) (Check.conforms value actual expected) (L.table value) := by
  have hd := L.depth_le
  refine Check.yields_grid L.splits L.spreads (Nat.lt_succ_of_le hd) (Nat.le_trans hd (by decide)) ?_
  intro x hx y hy
  exact ⟨L.gives_below x hx y hy, fun hc e he => ⟨x, hx, y, hy, hc, he⟩⟩

theorem passes_iff (he : expected.isUnknown = false) :
    L.Passes value ↔ (L.table value).conforms = true := by
  refine Iff.trans ?_ Check.grid_conforms_iff.symm
  exact or_iff_right (fun h => by rw [h] at he; cases he)

theorem violates_iff : L.Violates value ↔ (L.table value).failed ≠ [] := Check.grid_failed_iff.symm

theorem consults_iff : L.Consults ↔ (L.table value).consulted = true :=
  Check.grid_consulted_iff.symm

theorem columns_of_unknown (L : Layout src actual .unknown) : L.columns = [.unknown] :=
  L.spreads.eq_singleton rfl

variable {L value}

/-- Where an actual alternative conforms to nothing, the check does not pass. -/
theorem Violates.not_passes (h : L.Violates value) : ¬ L.Passes value := by
  obtain ⟨x, hx, hno, _⟩ := h
  rintro (rfl | hp)
  · have hu := hno .unknown (by rw [columns_of_unknown]; exact List.mem_cons_self)
    cases hu
  · obtain ⟨y, hy, hf⟩ := hp x hx
    rw [hno y hy] at hf
    cases hf

theorem Violates.exists_value (h : L.Violates value) : ∃ v, value.get = .ok (some v) := by
  obtain ⟨_, _, _, y, _, hf⟩ := h
  exact Check.value_of_fails hf

theorem describes_pass {b : Bool} (hp : L.Passes value) (hb : b = true ↔ L.Consults) :
    L.Describes value ⟨.pass, b⟩ where
  pass_iff := ⟨fun _ => hp, fun _ => rfl⟩
  violation_iff := ⟨fun ⟨_, _, h⟩ => (nomatch h), fun h => absurd hp h.1⟩
  violation_text := nofun
  consulted_iff := hb

theorem describes_violation {b : Bool} {v : Constant} (hv : value.get = .ok (some v))
    (h : L.Violates value) (hb : b = true ↔ L.Consults) :
    L.Describes value
      ⟨.violation (" or ".intercalate ((L.violated value).map src.constraintText)) v.render, b⟩ where
  pass_iff := ⟨nofun, fun hp => absurd hp h.not_passes⟩
  violation_iff := ⟨fun _ => ⟨h.not_passes, h⟩, fun _ => ⟨_, _, rfl⟩⟩
  violation_text := by
    intro required found h
    cases h
    exact ⟨rfl, v, hv, rfl⟩
  consulted_iff := hb

theorem describes_mismatch {o : Outcome} {b : Bool}
    (ho : o = .mismatch ∨ o = .weakMismatch ∨ o = .nullableMismatch) (hp : ¬ L.Passes value)
    (hn : ¬ L.Violates value) (hb : b = true ↔ L.Consults) : L.Describes value ⟨o, b⟩ where
  pass_iff := by
    refine ⟨fun h => ?_, fun h => absurd h hp⟩
    rcases ho with rfl | rfl | rfl <;> cases h
  violation_iff := by
    refine ⟨fun ⟨_, _, h⟩ => ?_, fun h => absurd h.2 hn⟩
    rcases ho with rfl | rfl | rfl <;> cases h
  violation_text := by
    intro _ _ h
    rcases ho with rfl | rfl | rfl <;> cases h
  consulted_iff := hb

variable (L value)

theorem describes_unknown (L : Layout src actual .unknown) : L.Describes value ⟨.pass, false⟩ := by
  refine describes_pass (.inl rfl) ⟨nofun, ?_⟩
  rintro ⟨x, _, y, hy, hc⟩
  rw [columns_of_unknown, List.mem_singleton] at hy
  rw [hy] at hc
  cases hc

/-- The check makes what it reports out of the table. -/
theorem exists_describes (hm : Reachable src m) (h : expected.isUnknown = true ∨
      Gives src (Check.conforms value actual expected).run (.ok (L.table value))) :
    ∃ res, L.Describes value res ∧
      (run src (Check.checkType value actual expected).run m).1 = .ok res := by
  cases he : expected.isUnknown with
  | true =>
    cases expected with
    | unknown => exact ⟨_, describes_unknown value L, rfl⟩
    | _ => cases he
  | false =>
    rw [he, or_iff_right Bool.false_ne_true] at h
    have hb := (L.consults_iff value).symm
    cases hc : (L.table value).conforms with
    | true =>
      have hp := (L.passes_iff value he).2 hc
      exact ⟨_, describes_pass hp hb, Check.run_checkType_of_conforms he h hm hc⟩
    | false =>
      have hp : ¬ L.Passes value := by
        rw [L.passes_iff value he, hc]
        exact Bool.false_ne_true
      by_cases hf : (L.table value).failed = []
      · obtain ⟨k, -, hk⟩ := Check.run_checkType_of_not_failed he h hm hc hf
        have hn : ¬ L.Violates value := fun hn => (L.violates_iff value).1 hn hf
        exact ⟨_, describes_mismatch (Check.run_mismatch actual expected k) hp hn hb, hk⟩
      · have hviol := (L.violates_iff value).2 hf
        obtain ⟨v, hv⟩ := hviol.exists_value
        exact ⟨_, describes_violation hv hviol hb, Check.run_checkType_of_failed he h hm hc hf hv⟩

theorem checkType_describes (hm : Reachable src m) :
    (∃ e, L.Raises value e ∧
      (run src (Check.checkType value actual expected).run m).1 = .error e) ∨
    ∃ res, L.Describes value res ∧
      (run src (Check.checkType value actual expected).run m).1 = .ok res := by
  rcases L.yields_table value with h | ⟨e, hr, h⟩
  · exact .inr (L.exists_describes value hm (.inr h))
  · cases he : expected.isUnknown with
    | true => exact .inr (L.exists_describes value hm (.inl he))
    | false =>
      refine .inl ⟨e, hr, ?_⟩
      unfold Check.checkType
      rw [if_neg (by rw [he]; decide), h.run_check_error hm]

end Session.Layout

/-! ### A violation -/

instance Except.decidableEq {ε α : Type} [DecidableEq ε] [DecidableEq α] :
    DecidableEq (Except ε α)
  | .ok a, .ok b => decidable_of_iff (a = b) ⟨congrArg Except.ok, Except.ok.inj⟩
  | .error a, .error b => decidable_of_iff (a = b) ⟨congrArg Except.error, Except.error.inj⟩
  | .ok _, .error _ => isFalse nofun
  | .error _, .ok _ => isFalse nofun

namespace Check

/-- The constraint `false`, in a module of its own. -/
def ruleTree : SyntaxTree where
  uri := "file:///rule.pkl"
  module := 1
  nodes := #[⟨.boolLit false, .nowhere, some 1⟩, ⟨.module {}, .nowhere, none⟩]
  root := 1

def ruled : ModuleSource where
  tree i := if i = 1 then some ruleTree else none
  resolve _ _ := none

def rule : NodeRef := ⟨1, 0⟩

/-- `"cat"|"dog"` -/
def pets : Ty := .union (.literal "cat" []) (.literal "dog" []) []

/-- `"cat"(false)|"dog"` -/
def noCats : Ty := .union (.literal "cat" [rule]) (.literal "dog" []) []

def cat : ValueForm := Thunk.pure (.ok (some (.string "cat")))

def petLayout : Layout ruled pets noCats where
  rows := [.literal "cat" [], .literal "dog" []]
  columns := [.literal "cat" [rule], .literal "dog" []]
  below x y := decide (x.withoutConstraints = y.withoutConstraints)
  actualDepth := 1
  expectedDepth := 1
  splits := .union [] (.leaf 0 rfl) (.leaf 0 rfl)
  spreads := .union [] (.leaf 0 rfl) (.leaf 0 rfl)
  depth_le := by decide
  gives_below := by
    intro x hx y hy
    simp only [List.mem_cons, List.not_mem_nil, or_false] at hx hy
    rcases hx with rfl | rfl <;> rcases hy with rfl | rfl <;> exact fun _ _ => rfl

theorem not_raises_pets (e : EvalError) : ¬ petLayout.Raises cat e := by
  have hrule : ruleTree.satisfies (.string "cat") 0 = .ok .no := by decide +kernel
  rintro ⟨x, _, y, hy, hc, he | ⟨v, hv, c, hmem, t, ht, he⟩⟩
  · cases he
  · cases hv
    simp only [petLayout, List.mem_cons, List.not_mem_nil, or_false] at hy
    rcases hy with rfl | rfl
    · cases List.mem_singleton.1 hmem
      cases ht
      rw [show rule.node = 0 from rfl, hrule] at he
      cases he
    · cases hmem

/-- Whoever may be a dog or a cat may not be a cat here. -/
theorem checkType_describes_pets :
    ∃ res, (run ruled (checkType cat pets noCats).run {}).1 = .ok res ∧
      res.outcome = .violation "false" "\"cat\"" := by
  rcases petLayout.checkType_describes cat .fresh with ⟨e, he, _⟩ | ⟨res, hd, hres⟩
  · exact absurd he (not_raises_pets e)
  · refine ⟨res, hres, ?_⟩
    have hviol : petLayout.Violates cat :=
      ⟨.literal "cat" [], List.mem_cons_self, by decide +kernel, by decide +kernel⟩
    obtain ⟨required, found, ho⟩ := hd.violation_iff.2 ⟨hviol.not_passes, hviol⟩
    obtain ⟨hr, v, hv, hf⟩ := hd.violation_text required found ho
    cases hv
    have hreq : " or ".intercalate ((petLayout.violated cat).map ruled.constraintText) = "false" := by
      decide +kernel
    have hval : (Constant.string "cat").render = "\"cat\"" := by decide +kernel
    rw [ho, hr, hf, hreq, hval]

/-! ### Where the limit comes in -/

/-- Literals in a union that nests `n` deep. -/
def tower (s : String) : Nat → Ty := Ty.stacked (.literal s []) (.literal "a" [])

def floors (s : String) : Nat → List Ty
  | 0 => [.literal s []]
  | n + 1 => floors s n ++ [.literal "a" []]

/-- A session without modules. -/
def nowhere : ModuleSource where
  tree _ := none
  resolve _ _ := none

theorem unfolds_tower {attach : Constraints → Ty → Ty} (h : ∀ t, attach [] t = t) (s : String)
    (n : Nat) : Unfolds nowhere attach n (tower s n) (floors s n) := by
  induction n with
  | zero => exact .leaf 0 rfl
  | succ n ih =>
    have hu := Unfolds.union [] ih (.leaf n (t := .literal "a" []) rfl)
    rwa [List.map_congr_left (g := id) (fun t _ => h t), List.map_id] at hu

theorem literal_mem_floors (s : String) (n : Nat) : Ty.literal s [] ∈ floors s n := by
  induction n with
  | zero => exact List.mem_cons_self
  | succ n ih => exact List.mem_append_left _ ih

/-- Two types that nest less deep than the limit may be too deep together, and a constraint of a
module without a tree is not evaluated at all. -/
theorem checkType_too_deep :
    (∃ xs ys, Splits nowhere 33 (tower "b" 33) xs ∧ Spreads nowhere 32 (tower "c" 32) ys ∧
      Ty.literal "b" [] ∈ xs ∧
      (∀ y ∈ ys, y.isUnknown = false ∧
        (run nowhere ((Ty.literal "b" []).isSubtype y) {}).1 = false) ∧
      (run nowhere (checkType (Thunk.pure (.ok none)) (tower "b" 33) (tower "c" 32)).run {}).1 =
        .ok ⟨.pass, false⟩) ∧
    nowhere.treeOf rule.module = none ∧
      (run nowhere (checkType cat (.literal "cat" []) (.literal "cat" [rule])).run {}).1 =
        .ok ⟨.pass, true⟩ := by
  refine ⟨⟨floors "b" 33, floors "c" 32, ?_, ?_, ?_, ?_, ?_⟩, ?_, ?_⟩
  · exact unfolds_tower (fun _ => rfl) "b" 33
  · exact unfolds_tower Ty.addConstraints_nil "c" 32
  · exact literal_mem_floors "b" 33
  · decide +kernel
  · decide +kernel
  · decide +kernel
  · decide +kernel

end Check

end PklAnalysis
