import PklAnalysis.Diagnostic.Report
import PklAnalysis.Proofs.Session.Afresh
import PklAnalysis.Proofs.Session.Ledger

/-!
# Switching checks off

The checks of a module run node by node in one session, each after the others, so that each may find
in memory what another one has left there. `diagnostics_filtered` says when that makes no
difference: if the report has an answer afresh, then it holds what the checks find that are switched
on, each alone in a session of its own.

It can make a difference where a session refuses a computation that is not a repetition. The key of
an expression does not tell under which bindings its type is asked for; a method that is called
with another type inside its own body is refused there, unless the answer is remembered already
(`not_filtered_relay`).
-/

namespace PklAnalysis

/-! ## Order -/

namespace Diagnostic

theorem mem_withoutRepeats {d : Diagnostic} (ds : List Diagnostic) :
    d ∈ withoutRepeats ds ↔ d ∈ ds := by
  induction ds using withoutRepeats.induct with
  | case1 e ds ih =>
    rw [withoutRepeats, if_pos rfl, ih]
    simp
  | case2 e e' ds h ih =>
    rw [withoutRepeats, if_neg h, List.mem_cons, ih, List.mem_cons (b := e)]
  | case3 ds h =>
    rw [withoutRepeats]
    exact h

theorem mem_sorted {d : Diagnostic} {ds : List Diagnostic} : d ∈ sorted ds ↔ d ∈ ds :=
  (mem_withoutRepeats _).trans List.mem_mergeSort

end Diagnostic

/-! ## Single checks -/

namespace ReportOptions

def onlyValues : ReportOptions := ⟨true, false, false⟩
def onlyReferences : ReportOptions := ⟨false, true, false⟩
def onlyModifiers : ReportOptions := ⟨false, false, true⟩

/-- The checks that are switched on, each of them alone. -/
def singles (o : ReportOptions) : List ReportOptions :=
  (if o.values then [onlyValues] else []) ++ (if o.references then [onlyReferences] else []) ++
    (if o.modifiers then [onlyModifiers] else [])

theorem mem_singles {o s : ReportOptions} : s ∈ o.singles ↔ (s = onlyValues ∧ o.values = true) ∨
    (s = onlyReferences ∧ o.references = true) ∨ (s = onlyModifiers ∧ o.modifiers = true) := by
  simp only [singles, List.mem_append, or_assoc]
  cases o.values <;> cases o.references <;> cases o.modifiers <;> simp

/-- A single check is the only one that is switched on. -/
theorem eq_of_mem_singles {o s : ReportOptions} (h : s ∈ o.singles) :
    (s.values = true → s = onlyValues) ∧ (s.references = true → s = onlyReferences) ∧
      (s.modifiers = true → s = onlyModifiers) := by
  rcases mem_singles.1 h with ⟨rfl, -⟩ | ⟨rfl, -⟩ | ⟨rfl, -⟩ <;> decide

theorem onlyValues_mem_singles {o : ReportOptions} : onlyValues ∈ o.singles ↔ o.values = true := by
  rw [mem_singles]
  simp [onlyValues, onlyReferences, onlyModifiers]

theorem onlyReferences_mem_singles {o : ReportOptions} :
    onlyReferences ∈ o.singles ↔ o.references = true := by
  rw [mem_singles]
  simp [onlyValues, onlyReferences, onlyModifiers]

theorem onlyModifiers_mem_singles {o : ReportOptions} :
    onlyModifiers ∈ o.singles ↔ o.modifiers = true := by
  rw [mem_singles]
  simp [onlyValues, onlyReferences, onlyModifiers]

end ReportOptions

open ReportOptions

variable {f : (q : Question) → Option q.Answer} {o : ReportOptions} {α β : Type}

/-- What a check comes to if `f` answers its questions. -/
def Check.outcome (f : (q : Question) → Option q.Answer) (x : Check α) :
    Option (Except EvalError α) := ExceptT.run x |>.run f

/-- Two lists of problems, one behind the other. -/
def Check.append (x y : Check (List Diagnostic)) : Check (List Diagnostic) := do
  let a ← x
  let b ← y
  return a ++ b

/-- Of the checks `x s` under all switches `s`, those under `o` find what is found under its single
switches. Only a check of values can be broken off. -/
structure Filters (f : (q : Question) → Option q.Answer) (o : ReportOptions)
    (x : ReportOptions → Check (List Diagnostic)) : Prop where
  ok : ∀ ds, (x o).outcome f = some (.ok ds) → ∃ part : ReportOptions → List Diagnostic,
    (∀ s ∈ o.singles, (x s).outcome f = some (.ok (part s))) ∧
      ∀ d, d ∈ ds ↔ ∃ s ∈ o.singles, d ∈ part s
  error : ∀ e, (x o).outcome f = some (.error e) →
    onlyValues ∈ o.singles ∧ (x onlyValues).outcome f = some (.error e)

namespace Check

theorem outcome_bind (x : Check α) (g : α → Check β) : (x >>= g).outcome f =
    (x.outcome f).bind fun
      | .ok a => (g a).outcome f
      | .error e => some (.error e) := by
  unfold outcome
  rw [ExceptT.run_bind, Query.run_bind]
  refine congrArg (Option.bind _) (funext fun r => ?_)
  cases r <;> rfl

theorem outcome_query (x : Query α) : (query x).outcome f = (x.run f).map .ok := by
  unfold outcome query
  rw [ExceptT.run_lift, map_eq_pure_bind, Query.run_bind]
  cases x.run f <;> rfl

theorem outcome_query_ne_error {x : Query α} {e : EvalError} :
    (query x).outcome f ≠ some (.error e) := by
  rw [outcome_query]
  cases x.run f <;> simp

theorem outcome_bind_eq_ok {x : Check α} {g : α → Check β} {b : β} :
    (x >>= g).outcome f = some (.ok b) ↔
      ∃ a, x.outcome f = some (.ok a) ∧ (g a).outcome f = some (.ok b) := by
  rw [outcome_bind]
  cases x.outcome f with
  | none => simp
  | some r => cases r <;> simp

theorem outcome_bind_eq_error {x : Check α} {g : α → Check β} {e : EvalError} :
    (x >>= g).outcome f = some (.error e) ↔ x.outcome f = some (.error e) ∨
      ∃ a, x.outcome f = some (.ok a) ∧ (g a).outcome f = some (.error e) := by
  rw [outcome_bind]
  cases x.outcome f with
  | none => simp
  | some r => cases r <;> simp

end Check

namespace Filters

variable {x y : ReportOptions → Check (List Diagnostic)}

/-- One check that is made under the switch `p`. -/
theorem switch {p : ReportOptions → Bool} {c : Check (List Diagnostic)} (only : ReportOptions)
    (on : p only = true) (mem : only ∈ o.singles ↔ p o = true)
    (alone : ∀ s ∈ o.singles, p s = true → s = only)
    (sound : ∀ e, c.outcome f = some (.error e) → only = onlyValues) :
    Filters f o (fun s => if p s then c else pure []) := by
  by_cases h : p o = true
  · have self := mem.2 h
    refine ⟨fun ds hd => ⟨fun s => if p s then ds else [], fun s _ => ?_, fun d => ?_⟩, fun e he => ?_⟩
    · rw [if_pos h] at hd
      dsimp only
      split
      · exact hd
      · rfl
    · refine ⟨fun hd => ⟨only, self, by simpa [on] using hd⟩, fun ⟨s, _, hd⟩ => ?_⟩
      dsimp only at hd
      split at hd
      · exact hd
      · cases hd
    · rw [if_pos h] at he
      cases sound e he
      exact ⟨self, by rwa [if_pos on]⟩
  · have off : ∀ s ∈ o.singles, ¬ p s = true := fun s hs hp => h (mem.1 (alone s hs hp ▸ hs))
    refine ⟨fun ds hd => ⟨fun _ => [], fun s hs => ?_, fun d => ?_⟩, fun e he => ?_⟩
    · rw [if_neg (off s hs)]
      rfl
    · rw [if_neg h] at hd
      cases hd
      simp
    · rw [if_neg h] at he
      cases he

theorem append (hx : Filters f o x) (hy : Filters f o y) :
    Filters f o (fun s => (x s).append (y s)) := by
  refine ⟨fun ds hd => ?_, fun e he => ?_⟩
  · obtain ⟨a, ha, hd⟩ := Check.outcome_bind_eq_ok.1 hd
    obtain ⟨b, hb, hd⟩ := Check.outcome_bind_eq_ok.1 hd
    cases hd
    obtain ⟨part, hpart, mem⟩ := hx.ok a ha
    obtain ⟨part', hpart', mem'⟩ := hy.ok b hb
    refine ⟨fun s => part s ++ part' s, fun s hs => ?_, fun d => ?_⟩
    · exact Check.outcome_bind_eq_ok.2 ⟨_, hpart s hs,
        Check.outcome_bind_eq_ok.2 ⟨_, hpart' s hs, rfl⟩⟩
    · simp only [List.mem_append, mem, mem', and_or_left, exists_or]
  · rcases Check.outcome_bind_eq_error.1 he with he | ⟨a, ha, he⟩
    · obtain ⟨hs, he⟩ := hx.error e he
      exact ⟨hs, Check.outcome_bind_eq_error.2 (.inl he)⟩
    · have he := (Check.outcome_bind_eq_error.1 he).resolve_right (fun ⟨_, _, h⟩ => by cases h)
      obtain ⟨hs, he⟩ := hy.error e he
      obtain ⟨part, hpart, -⟩ := hx.ok a ha
      exact ⟨hs, Check.outcome_bind_eq_error.2
        (.inr ⟨_, hpart _ hs, Check.outcome_bind_eq_error.2 (.inl he)⟩)⟩

theorem sorted (hx : Filters f o x) : Filters f o (fun s => Diagnostic.sorted <$> x s) := by
  simp only [map_eq_pure_bind]
  refine ⟨fun ds hd => ?_, fun e he => ?_⟩
  · obtain ⟨a, ha, hd⟩ := Check.outcome_bind_eq_ok.1 hd
    cases hd
    obtain ⟨part, hpart, mem⟩ := hx.ok a ha
    refine ⟨fun s => Diagnostic.sorted (part s), fun s hs => ?_, fun d => ?_⟩
    · exact Check.outcome_bind_eq_ok.2 ⟨_, hpart s hs, rfl⟩
    · simp only [Diagnostic.mem_sorted, mem]
  · have he := (Check.outcome_bind_eq_error.1 he).resolve_right (fun ⟨_, _, h⟩ => by cases h)
    obtain ⟨hs, he⟩ := hx.error e he
    exact ⟨hs, Check.outcome_bind_eq_error.2 (.inl he)⟩

/-- Checks that depend on the answer of one query. -/
theorem after {y : Query α} {x : α → ReportOptions → Check (List Diagnostic)}
    (hx : ∀ a, Filters f o (x a)) : Filters f o (fun s => Check.query y >>= fun a => x a s) := by
  refine ⟨fun ds hd => ?_, fun e he => ?_⟩
  · obtain ⟨a, ha, hd⟩ := Check.outcome_bind_eq_ok.1 hd
    obtain ⟨part, hpart, mem⟩ := (hx a).ok ds hd
    exact ⟨part, fun s hs => Check.outcome_bind_eq_ok.2 ⟨a, ha, hpart s hs⟩, mem⟩
  · rcases Check.outcome_bind_eq_error.1 he with he | ⟨a, ha, he⟩
    · exact absurd he Check.outcome_query_ne_error
    · obtain ⟨hs, he⟩ := (hx a).error e he
      exact ⟨hs, Check.outcome_bind_eq_error.2 (.inr ⟨a, ha, he⟩)⟩

theorem modifiers (c : Query (List Diagnostic)) :
    Filters f o (fun s => if s.modifiers then Check.query c else pure []) :=
  switch onlyModifiers rfl onlyModifiers_mem_singles (fun _ hs => (eq_of_mem_singles hs).2.2)
    (fun _ h => absurd h Check.outcome_query_ne_error)

theorem references (c : Query (List Diagnostic)) :
    Filters f o (fun s => if s.references then Check.query c else pure []) :=
  switch onlyReferences rfl onlyReferences_mem_singles (fun _ hs => (eq_of_mem_singles hs).2.1)
    (fun _ h => absurd h Check.outcome_query_ne_error)

theorem values (c : Check (List Diagnostic)) :
    Filters f o (fun s => if s.values then c else pure []) :=
  switch onlyValues rfl onlyValues_mem_singles (fun _ hs => (eq_of_mem_singles hs).1) (fun _ _ => rfl)

theorem nothing : Filters f o (fun _ => pure []) := by
  refine ⟨fun ds hd => ?_, fun e he => by cases he⟩
  cases hd
  exact ⟨fun _ => [], fun _ _ => rfl, fun d => by simp⟩

end Filters

/-! ## Reports -/

namespace Report

variable (t : SyntaxTree) (m : ModuleId)

/-- The problems of a node are those of three checks, one behind the other. -/
theorem ofNode_eq (s : ReportOptions) (i : NodeIndex) : ofNode s t m i =
    ((if s.modifiers then Check.query (checkModifiers t ⟨m, i⟩) else pure []).append
      (if s.references then Check.query (checkReferences t ⟨m, i⟩) else pure [])).append
        (if s.values then checkValue t ⟨m, i⟩ else pure []) := by
  obtain ⟨v, r, m⟩ := s
  cases v <;> cases r <;> cases m <;> simp [ofNode, Check.append, -List.append_assoc]

theorem filters_ofNode (i : NodeIndex) : Filters f o (fun s => ofNode s t m i) := by
  simp only [ofNode_eq]
  exact ((Filters.modifiers _).append (Filters.references _)).append (Filters.values _)

theorem filters_ofNodes (is : List NodeIndex) : Filters f o (fun s => ofNodes s t m is) := by
  induction is with
  | nil => exact .nothing
  | cons i is ih => exact (filters_ofNode t m i).append ih

end Report

theorem diagnostics_eq (s : ReportOptions) (m : ModuleId) : diagnostics s m =
    Check.query (Query.tree m) >>= fun t => t.elim (pure []) (fun t => Diagnostic.sorted <$>
      (if s.references then Check.query (checkClause t m) else pure []).append
        (Report.ofNodes s t m t.indices)) := by
  refine congrArg (Check.query (Query.tree m) >>= ·) (funext fun t => ?_)
  cases t with
  | none => rfl
  | some t => cases s.references <;> simp [Check.append]

theorem filters_diagnostics (m : ModuleId) : Filters f o (fun s => diagnostics s m) := by
  simp only [diagnostics_eq]
  refine .after fun t => ?_
  cases t with
  | none => exact .nothing
  | some t => exact ((Filters.references _).append (Report.filters_ofNodes t m _)).sorted

namespace Session

variable {src : ModuleSource}

/-- The diagnostics of a module in a session that remembers `memory`. -/
def report (src : ModuleSource) (o : ReportOptions) (m : ModuleId) (memory : Memory) :
    Except EvalError (List Diagnostic) :=
  (run src (diagnostics o m).run memory).1

/-- Switching checks off only filters the report, provided that it has an answer afresh: it holds
what the checks find that are switched on, each of them alone in another session. It is broken off
just where the check of values is. -/
theorem diagnostics_filtered {o : ReportOptions} {m : ModuleId}
    (h : ((diagnostics o m).run.run (afresh src fuel [])).isSome) {memory memory' : Memory}
    (hm : Reachable src memory) (hm' : Reachable src memory') :
    (∀ e, report src o m memory = .error e ↔
      onlyValues ∈ o.singles ∧ report src onlyValues m memory' = .error e) ∧
    ∀ ds, report src o m memory = .ok ds → ∃ part : ReportOptions → List Diagnostic,
      (∀ s ∈ o.singles, report src s m memory' = .ok (part s)) ∧
        ∀ d, d ∈ ds ↔ ∃ s ∈ o.singles, d ∈ part s := by
  have filters := filters_diagnostics (f := afresh src fuel []) (o := o) m
  obtain ⟨r, hr⟩ := Option.isSome_iff_exists.1 h
  have whole : report src o m memory = r := run_eq_of_afresh hm hr
  have alone : ∀ {s r}, (diagnostics s m).outcome (afresh src fuel []) = some r →
      report src s m memory' = r := fun h => run_eq_of_afresh hm' h
  rw [whole]
  refine ⟨fun e => ⟨?_, fun ⟨hs, he⟩ => ?_⟩, ?_⟩
  · rintro rfl
    obtain ⟨hs, he⟩ := filters.error e hr
    exact ⟨hs, alone he⟩
  · cases r with
    | error e' =>
      obtain ⟨-, he'⟩ := filters.error e' hr
      exact (alone he').symm.trans he
    | ok ds =>
      obtain ⟨part, hpart, -⟩ := filters.ok ds hr
      exact absurd ((alone (hpart _ hs)).symm.trans he) (by simp)
  · rintro ds rfl
    obtain ⟨part, hpart, mem⟩ := filters.ok ds hr
    exact ⟨part, fun s hs => alone (hpart s hs), mem⟩

/-! ### Declarations that depend on each other -/

/-- The module `a = b`, `b = a`, `n: String = 1`. -/
def mutualTree : SyntaxTree where
  uri := "file:///mutual.pkl"
  module := 1
  nodes := #[⟨.access "b" none, .nowhere, some 1⟩,
    ⟨.property { name := "a", value := some 0 }, .nowhere, some 7⟩,
    ⟨.access "a" none, .nowhere, some 3⟩,
    ⟨.property { name := "b", value := some 2 }, .nowhere, some 7⟩,
    ⟨.declaredType none "String" [], .nowhere, some 6⟩,
    ⟨.intLit 1, .nowhere, some 6⟩,
    ⟨.property { name := "n", type := some 4, value := some 5 }, .nowhere, some 7⟩,
    ⟨.module { members := [1, 3, 6] }, .nowhere, none⟩]
  root := 7

/-- A session with this module only. -/
def mutuals : ModuleSource where
  tree i := if i = 1 then some mutualTree else none
  resolve _ _ := none

/-- `a` and `b` are refused while they are being computed, which is a repetition. -/
theorem afresh_mutuals : ((diagnostics {} 1).run.run (afresh mutuals fuel [])).isSome := by
  decide +kernel

/-- A report by the codes of its problems, evaluated on lists. -/
theorem exists_report {src : ModuleSource} {o : ReportOptions} {m : ModuleId}
    {codes : List DiagnosticCode}
    (h : (Ledger.run src (diagnostics o m).run {}).1.toOption.map (·.map (·.code)) = some codes) :
    ∃ ds, report src o m {} = .ok ds ∧ ds.map (·.code) = codes := by
  have same : report src o m {} = (Ledger.run src (diagnostics o m).run {}).1 :=
    (Ledger.run_eq Ledger.mirrors_empty _).1
  rw [same]
  cases e : (Ledger.run src (diagnostics o m).run {}).1 with
  | error e' => rw [e] at h; cases h
  | ok ds => rw [e] at h; exact ⟨ds, rfl, Option.some.inj h⟩

/-- The number is found by the check of values, also where it is made alone. -/
theorem diagnostics_filtered_mutuals : ∃ ds, report mutuals {} 1 {} = .ok ds ∧
    ds.map (·.code) = [.typeMismatch] ∧
    ∃ part : ReportOptions → List Diagnostic,
      (∀ s ∈ singles {}, report mutuals s 1 {} = .ok (part s)) ∧
        ∀ d, d ∈ ds ↔ ∃ s ∈ singles {}, d ∈ part s := by
  have evaluated : (Ledger.run mutuals (diagnostics {} 1).run {}).1.toOption.map (·.map (·.code)) =
      some [.typeMismatch] := by decide +kernel
  obtain ⟨ds, hds, codes⟩ := exists_report evaluated
  exact ⟨ds, hds, codes, (diagnostics_filtered afresh_mutuals .fresh .fresh).2 ds hds⟩

/-! ### A method that is called inside its own body -/

/-- The module `text: String = pass(module)`, `y = foo.abs`, `foo = pass(import("file:///end.pkl"))`,
`function pass<T>(x: T) = (x as T).foo`. -/
def relayTree : SyntaxTree where
  uri := "file:///relay.pkl"
  module := 1
  nodes := #[⟨.access "foo" none, .nowhere, some 1⟩,
    ⟨.memberAccess 0 "abs" none false, .nowhere, some 2⟩,
    ⟨.property { name := "y", value := some 1 }, .nowhere, some 18⟩,
    ⟨.moduleExpr, .nowhere, some 4⟩,
    ⟨.access "pass" (some [3]), .nowhere, some 6⟩,
    ⟨.declaredType none "String" [], .nowhere, some 6⟩,
    ⟨.property { name := "text", type := some 5, value := some 4 }, .nowhere, some 18⟩,
    ⟨.importExpr "file:///end.pkl" false, .nowhere, some 8⟩,
    ⟨.access "pass" (some [7]), .nowhere, some 9⟩,
    ⟨.property { name := "foo", value := some 8 }, .nowhere, some 18⟩,
    ⟨.typeParam { name := "T" }, .nowhere, some 17⟩,
    ⟨.declaredType none "T" [], .nowhere, some 12⟩,
    ⟨.param { name := "x", type := some 11 }, .nowhere, some 17⟩,
    ⟨.access "x" none, .nowhere, some 15⟩,
    ⟨.declaredType none "T" [], .nowhere, some 15⟩,
    ⟨.typeCast 13 14, .nowhere, some 16⟩,
    ⟨.memberAccess 15 "foo" none false, .nowhere, some 17⟩,
    ⟨.method { name := "pass", typeParams := [10], params := [12], body := some 16 }, .nowhere, some 18⟩,
    ⟨.module { members := [2, 6, 9, 17] }, .nowhere, none⟩]
  root := 18

/-- The module `foo: Int`. -/
def endTree : SyntaxTree where
  uri := "file:///end.pkl"
  module := 2
  nodes := #[⟨.declaredType none "Int" [], .nowhere, some 1⟩,
    ⟨.property { name := "foo", type := some 0 }, .nowhere, some 2⟩,
    ⟨.module { members := [1] }, .nowhere, none⟩]
  root := 2

/-- A session with these two modules. -/
def relay : ModuleSource where
  tree i := if i = 1 then some relayTree else if i = 2 then some endTree else none
  resolve _ _ := some 2

/-- The call with the own module leads back into the body of the method, which is refused: there is
nothing to report. If the names are checked as well, the type of `foo` is known before. -/
theorem not_filtered_relay : ¬ ∀ (src : ModuleSource) (o : ReportOptions) (m : ModuleId)
    (memory : Memory) (ds : List Diagnostic), Reachable src memory →
      report src o m memory = .ok ds → ∃ part : ReportOptions → List Diagnostic,
        (∀ s ∈ o.singles, report src s m {} = .ok (part s)) ∧
          ∀ d, d ∈ ds ↔ ∃ s ∈ o.singles, d ∈ part s := by
  intro claim
  have ⟨reported, evaluated⟩ :
      (Ledger.run relay (diagnostics {} 1).run {}).1.toOption.map (·.map (·.code)) =
        some [.typeMismatch] ∧
      ∀ s ∈ singles {},
        (Ledger.run relay (diagnostics s 1).run {}).1.toOption.map (·.map (·.code)) = some [] := by
    decide +kernel
  obtain ⟨ds, hds, codes⟩ := exists_report reported
  have silent : ∀ s ∈ singles {}, report relay s 1 {} = .ok [] := by
    intro s hs
    obtain ⟨found, hf, none⟩ := exists_report (evaluated s hs)
    rw [hf, List.map_eq_nil_iff.1 none]
  obtain ⟨part, hpart, mem⟩ := claim relay {} 1 {} ds .fresh hds
  cases ds with
  | nil => cases codes
  | cons d ds =>
    obtain ⟨s, hs, hd⟩ := (mem d).1 List.mem_cons_self
    rw [Except.ok.inj ((hpart s hs).symm.trans (silent s hs))] at hd
    exact List.not_mem_nil hd

end Session

end PklAnalysis
