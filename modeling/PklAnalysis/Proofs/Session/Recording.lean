import PklAnalysis.Proofs.Session.Ledger

/-!
# The guard during a run

A `Recording` is a memory together with every change that was made to its guard and with the guards
around every question that was answered. `Recording.run` is the run of a session that takes notes;
apart from the notes it is `Session.run` (`Recording.run_erase`).

Keys are entered and left like parentheses: nothing that is done between entering a key and leaving
it touches the keys below (`Tidy`). So every note of every run is sound (`guard_balanced`), however
declarations depend on each other and whatever is refused on the way.
-/

namespace PklAnalysis

/-! ## Notes -/

/-- The guard counts its keys, none of them twice, and there is room for them. -/
structure Guard.Balanced (g : Guard) : Prop where
  nodup : g.visiting.Nodup
  depth : g.depth = g.visiting.length
  bounded : g.depth ≤ Limits.exprTypeDepth

/-- What happens to a guard. -/
inductive GuardEvent where
  | entered (k : GuardKey)
  | refused (k : GuardKey)
  | left (k : GuardKey)
  /-- No further question may be nested. -/
  | exhausted
  /-- A question was answered, with all that this took. -/
  | answered (q : Question)

/-- An event with the guards before and after it. -/
structure Moment where
  event : GuardEvent
  before : Guard
  after : Guard

/-- Both guards are balanced. A key is entered where it is not among the keys, the key that is left
was entered last, and everything else leaves the keys as they were. -/
def Moment.Sound (moment : Moment) : Prop :=
  moment.before.Balanced ∧ moment.after.Balanced ∧ match moment.event with
    | .entered k => k ∉ moment.before.visiting ∧ moment.after.visiting = k :: moment.before.visiting
    | .left k => moment.before.visiting = k :: moment.after.visiting
    | .refused _ | .exhausted | .answered _ =>
      moment.after.visiting = moment.before.visiting ∧ moment.after.depth = moment.before.depth

/-- A memory and the notes taken so far, newest first. -/
structure Recording where
  memory : Memory
  moments : List Moment := []

namespace Recording

open Session

variable {α β : Type}

/-- Change the guard and take note of it. -/
def note (r : Recording) (e : GuardEvent) (g : Guard) : Recording :=
  ⟨{ r.memory with guard := g }, ⟨e, r.memory.guard, g⟩ :: r.moments⟩

/-- A computation in which there is nothing to note. -/
def silent (x : StateM Memory α) : StateM Recording α := fun r =>
  ((x r.memory).1, { r with memory := (x r.memory).2 })

/-- Compute under a key of the guard. -/
def guarded (k : GuardKey) (fallback : α) (compute : StateM Recording α) : StateM Recording α :=
  fun r => match r.memory.guard.enter k with
  | .error _ => (fallback, r.note (.refused k) r.memory.guard.refuse)
  | .ok g =>
    let (a, r) := compute (r.note (.entered k) g)
    (a, r.note (.left k) (r.memory.guard.leave k))

/-- Look a result up, or compute it. -/
def memoized (read : Memory → Option α) (store : α → Memory → Memory)
    (compute : StateM Recording α) : StateM Recording α := fun r =>
  match read r.memory with
  | some a => (a, r)
  | none =>
    let before := r.memory.guard.fallbacks
    let (a, r) := compute r
    (a, if r.memory.guard.fallbacks = before then { r with memory := store a r.memory } else r)

/-- Take note that a question was answered. -/
def answered (q : Question) (compute : StateM Recording α) : StateM Recording α := fun r =>
  let (a, after) := compute r
  (a, { after with moments := ⟨.answered q, r.memory.guard, after.memory.guard⟩ :: after.moments })

variable (src : ModuleSource)

/-- How the computation of an answer is kept. -/
def keep : (q : Question) → StateM Recording q.Answer → StateM Recording q.Answer
  | .tree i, _ => silent (loadTree src i)
  | .reference source uri, _ => silent (findModule src source uri)
  | .supertype cls, x =>
    memoized (·.supertypes[cls]?) (fun t m => { m with supertypes := m.supertypes.insert cls t }) x
  | .superclause cls _, x => guarded (.superclass cls) none x
  | .aliased decl, x =>
    memoized (·.aliased[decl]?) (fun t m => { m with aliased := m.aliased.insert decl t }) x
  | .expansion decl _ _, x => guarded (.expansion decl) .unknown x
  | .declared decl, x =>
    memoized (·.declared[decl]?) (fun t m => { m with declared := m.declared.insert decl t }) x
  | .member decl, x => guarded (.member decl) .unknown x
  | .expr e _, x => guarded (.expr e) .unknown x
  | .bodyThis b, x => guarded (.this b) .unknown x
  | .property p, x => guarded (.expected p) .unknown x
  | .expected e, x => guarded (.expected e) .unknown x

/-- Answer a question; at most `n` questions are nested in it. -/
def answer : Nat → (q : Question) → StateM Recording q.Answer
  | 0, q => answered q (keep src q fun r => (fallback q, r.note .exhausted r.memory.guard.refuse))
  | n + 1, q => answered q (keep src q ((body q).run (answer n)))

/-- The answer of a query. -/
def run (x : Query α) : StateM Recording α := x.run (answer src fuel)

variable {src}

/-! ## Without the notes -/

/-- The two computations are the same, apart from the notes. -/
def Records (y : StateM Recording α) (x : StateM Memory α) : Prop :=
  ∀ r, (y r).1 = (x r.memory).1 ∧ (y r).2.memory = (x r.memory).2

theorem records_silent (x : StateM Memory α) : Records (silent x) x := fun _ => ⟨rfl, rfl⟩

theorem Records.guarded {y : StateM Recording α} {x : StateM Memory α} (h : Records y x)
    (k : GuardKey) (fb : α) : Records (guarded k fb y) (Session.guarded k fb x) := by
  intro r
  unfold Recording.guarded Session.guarded
  cases r.memory.guard.enter k with
  | error e => exact ⟨rfl, rfl⟩
  | ok g =>
    obtain ⟨same, memory⟩ := h (r.note (.entered k) g)
    exact ⟨same, congrArg (fun m : Memory => { m with guard := m.guard.leave k }) memory⟩

theorem Records.memoized {y : StateM Recording α} {x : StateM Memory α} (h : Records y x)
    (read : Memory → Option α) (store : α → Memory → Memory) :
    Records (memoized read store y) (Session.memoized read store x) := by
  intro r
  unfold Recording.memoized Session.memoized
  cases read r.memory with
  | some a => exact ⟨rfl, rfl⟩
  | none =>
    obtain ⟨same, memory⟩ := h r
    refine ⟨same, ?_⟩
    show Recording.memory (if (y r).2.memory.guard.fallbacks = r.memory.guard.fallbacks then
        { (y r).2 with memory := store (y r).1 (y r).2.memory } else (y r).2) =
      if (x r.memory).2.guard.fallbacks = r.memory.guard.fallbacks then
        store (x r.memory).1 (x r.memory).2 else (x r.memory).2
    rw [same, memory]
    split
    · rfl
    · exact memory

theorem Records.keep {q : Question} {y : StateM Recording q.Answer} {x : StateM Memory q.Answer}
    (h : Records y x) : Records (keep src q y) (Session.keep src q x) := by
  cases q with
  | tree | reference => exact records_silent _
  | supertype | aliased | declared => exact h.memoized _ _
  | superclause | expansion | member | expr | bodyThis | property | expected => exact h.guarded _ _

theorem records_run {h : (q : Question) → StateM Recording q.Answer}
    {h' : (q : Question) → StateM Memory q.Answer} (hh : ∀ q, Records (h q) (h' q)) (x : Query α) :
    Records (x.run h) (x.run h') := by
  induction x with
  | done a => exact fun _ => ⟨rfl, rfl⟩
  | ask q next ih =>
    intro r
    obtain ⟨same, memory⟩ := hh q r
    have rest := ih (h q r).1 (h q r).2
    show ((next (h q r).1).run h (h q r).2).1 =
        ((next (h' q r.memory).1).run h' (h' q r.memory).2).1 ∧
      ((next (h q r).1).run h (h q r).2).2.memory =
        ((next (h' q r.memory).1).run h' (h' q r.memory).2).2
    rw [← same, ← memory]
    exact rest

theorem records_answer (n : Nat) (q : Question) : Records (answer src n q) (Session.answer src n q) := by
  induction n generalizing q with
  | zero => exact Records.keep (fun _ => ⟨rfl, rfl⟩)
  | succ n ih => exact Records.keep (records_run ih (body q))

variable (src) in
/-- Apart from the notes, the session runs as it does without them. -/
theorem run_erase (x : Query α) : Records (run src x) (Session.run src x) :=
  records_run (records_answer fuel) x

/-! ## Parentheses -/

/-- Exactly the keys `ks` are entered. -/
structure Rests (ks : List GuardKey) (r : Recording) : Prop where
  visiting : r.memory.guard.visiting = ks
  depth : r.memory.guard.depth = ks.length
  maxDepth : r.memory.guard.maxDepth = Limits.exprTypeDepth
  nodup : ks.Nodup
  bounded : ks.length ≤ Limits.exprTypeDepth
  sound : ∀ moment ∈ r.moments, moment.Sound

/-- A computation that leaves the keys as they are and whose notes are sound. -/
def Tidy (ks : List GuardKey) (x : StateM Recording α) : Prop := ∀ r, Rests ks r → Rests ks (x r).2

variable {ks : List GuardKey} {r r' : Recording}

theorem Rests.balanced (h : Rests ks r) : r.memory.guard.Balanced :=
  ⟨h.visiting ▸ h.nodup, by rw [h.depth, h.visiting], h.depth ▸ h.bounded⟩

theorem Rests.of_guard {m : Memory} (h : Rests ks r) (hg : m.guard = r.memory.guard) :
    Rests ks { r with memory := m } :=
  ⟨hg ▸ h.visiting, hg ▸ h.depth, hg ▸ h.maxDepth, h.nodup, h.bounded, h.sound⟩

/-- One more sound note. -/
theorem Rests.cons (h : Rests ks r) {moment : Moment} (hm : moment.Sound) :
    Rests ks { r with moments := moment :: r.moments } :=
  ⟨h.visiting, h.depth, h.maxDepth, h.nodup, h.bounded, List.forall_mem_cons.2 ⟨hm, h.sound⟩⟩

theorem Rests.refuse (h : Rests ks r) {e : GuardEvent} (he : e = .exhausted ∨ ∃ k, e = .refused k) :
    Rests ks (r.note e r.memory.guard.refuse) := by
  have kept : Rests ks { r with memory := { r.memory with guard := r.memory.guard.refuse } } :=
    ⟨h.visiting, h.depth, h.maxDepth, h.nodup, h.bounded, h.sound⟩
  refine kept.cons ⟨h.balanced, kept.balanced, ?_⟩
  rcases he with rfl | ⟨k, rfl⟩ <;> exact ⟨rfl, rfl⟩

/-- A key that is entered is a new one, and there is room for it. -/
theorem Rests.enter (h : Rests ks r) {k : GuardKey} {g : Guard}
    (he : r.memory.guard.enter k = .ok g) : Rests (k :: ks) (r.note (.entered k) g) := by
  unfold Guard.enter Guard.isVisiting at he
  rw [h.maxDepth, h.depth, h.visiting] at he
  split at he
  · cases he
  next room =>
  split at he
  · cases he
  next other =>
  have fresh : k ∉ ks := fun hk => other (List.contains_iff_mem.2 hk)
  obtain ⟨visiting, depth, maxDepth⟩ : g.visiting = k :: ks ∧ g.depth = ks.length + 1 ∧
      g.maxDepth = Limits.exprTypeDepth := by cases he; exact ⟨rfl, rfl, rfl⟩
  have inner : Rests (k :: ks) { r with memory := { r.memory with guard := g } } :=
    ⟨visiting, depth, maxDepth, List.nodup_cons.2 ⟨fresh, h.nodup⟩, Nat.lt_of_not_le room, h.sound⟩
  exact inner.cons ⟨h.balanced, inner.balanced, h.visiting ▸ fresh, by rw [h.visiting, visiting]⟩

/-- The key that is left is the one that was entered last. -/
theorem Rests.leave {k : GuardKey} (h : Rests (k :: ks) r) :
    Rests ks (r.note (.left k) (r.memory.guard.leave k)) := by
  have visiting : (r.memory.guard.leave k).visiting = ks := by
    show r.memory.guard.visiting.erase k = ks
    rw [h.visiting, List.erase_cons_head]
  have depth : (r.memory.guard.leave k).depth = ks.length := by
    show r.memory.guard.depth - 1 = ks.length
    rw [h.depth, List.length_cons, Nat.add_sub_cancel]
  have outer : Rests ks { r with memory := { r.memory with guard := r.memory.guard.leave k } } :=
    ⟨visiting, depth, h.maxDepth, (List.nodup_cons.1 h.nodup).2, Nat.le_of_succ_le h.bounded, h.sound⟩
  exact outer.cons ⟨h.balanced, outer.balanced, by rw [h.visiting, visiting]⟩

theorem tidy_refuse {fb : α} : Tidy ks (fun r => (fb, r.note .exhausted r.memory.guard.refuse)) :=
  fun _ h => h.refuse (.inl rfl)

/-- Whatever is done under a key, it is left again. -/
theorem Tidy.guarded {k : GuardKey} {fb : α} {x : StateM Recording α} (h : Tidy (k :: ks) x) :
    Tidy ks (guarded k fb x) := by
  intro r hr
  unfold Recording.guarded
  cases he : r.memory.guard.enter k with
  | error e => exact hr.refuse (.inr ⟨k, rfl⟩)
  | ok g => exact (h _ (hr.enter he)).leave

theorem Tidy.memoized {x : StateM Recording α} (h : Tidy ks x) (read : Memory → Option α)
    {store : α → Memory → Memory} (hs : ∀ a m, (store a m).guard = m.guard) :
    Tidy ks (memoized read store x) := by
  intro r hr
  unfold Recording.memoized
  cases read r.memory with
  | some a => exact hr
  | none =>
    show Rests ks (if (x r).2.memory.guard.fallbacks = r.memory.guard.fallbacks then
      { (x r).2 with memory := store (x r).1 (x r).2.memory } else (x r).2)
    split
    · exact (h r hr).of_guard (hs _ _)
    · exact h r hr

theorem tidy_silent {x : StateM Memory α} (h : ∀ m, (x m).2.guard = m.guard) :
    Tidy ks (silent x) := fun r hr => hr.of_guard (h r.memory)

theorem loadTree_guard (i : ModuleId) (m : Memory) : (loadTree src i m).2.guard = m.guard := by
  unfold loadTree
  dsimp only
  split <;> rfl

theorem findModule_guard (source : ModuleId) (uri : String) (m : Memory) :
    (findModule src source uri m).2.guard = m.guard := by
  unfold findModule
  split <;> rfl

theorem Tidy.answered {x : StateM Recording α} (h : Tidy ks x) (q : Question) :
    Tidy ks (answered q x) := by
  intro r hr
  have hx := h r hr
  exact hx.cons ⟨hr.balanced, hx.balanced, hx.visiting.trans hr.visiting.symm,
    hx.depth.trans hr.depth.symm⟩

/-- However the answer is kept, computing it must be tidy under one more key at most. -/
theorem tidy_keep {q : Question} {x : StateM Recording q.Answer} (h : ∀ ks, Tidy ks x) :
    Tidy ks (keep src q x) := by
  cases q with
  | tree i => exact tidy_silent (loadTree_guard i)
  | reference source uri => exact tidy_silent (findModule_guard source uri)
  | supertype | aliased | declared => exact (h ks).memoized _ (fun _ _ => rfl)
  | superclause | expansion | member | expr | bodyThis | property | expected =>
    exact (h _).guarded

theorem tidy_run {h : (q : Question) → StateM Recording q.Answer} (hh : ∀ q, Tidy ks (h q))
    (x : Query α) : Tidy ks (x.run h) := by
  induction x with
  | done a => exact fun _ hr => hr
  | ask q next ih => exact fun r hr => ih (h q r).1 _ (hh q r hr)

variable (src) in
theorem tidy_answer (n : Nat) (q : Question) (ks : List GuardKey) : Tidy ks (answer src n q) := by
  induction n generalizing q ks with
  | zero => exact (tidy_keep (fun _ => tidy_refuse)).answered q
  | succ n ih => exact (tidy_keep (fun ks => tidy_run (fun q => ih q ks) (body q))).answered q

/-- Between two queries no key is entered. -/
theorem rests_of_reachable {m : Memory} (h : Reachable src m) : Rests [] ⟨m, []⟩ := by
  induction h with
  | fresh =>
    exact ⟨rfl, rfl, rfl, List.nodup_nil, Nat.zero_le _, fun _ h => absurd h List.not_mem_nil⟩
  | @query β x m _ ih =>
    have rests := tidy_run (tidy_answer src fuel · []) x _ ih
    obtain ⟨-, memory⟩ := run_erase src x ⟨m, []⟩
    have kept : Rests [] ⟨(Session.run src x m).2, (run src x ⟨m, []⟩).2.moments⟩ :=
      rests.of_guard (congrArg Memory.guard memory.symm)
    exact ⟨kept.visiting, kept.depth, kept.maxDepth, kept.nodup, kept.bounded,
      fun _ h => absurd h List.not_mem_nil⟩

end Recording

namespace Session

variable {src : ModuleSource} {α : Type}

/-- Whatever a session was asked before and is asked now, its guard is balanced at every moment, it
is after every question what it was before, and it is idle between queries. The moments are those of
the run itself. -/
theorem guard_balanced {m : Memory} (h : Reachable src m) (x : Query α) :
    (∀ moment ∈ (Recording.run src x ⟨m, []⟩).2.moments, moment.Sound) ∧
      (Recording.run src x ⟨m, []⟩).1 = (run src x m).1 ∧
      (Recording.run src x ⟨m, []⟩).2.memory = (run src x m).2 ∧
      m.guard.visiting = [] ∧ m.guard.depth = 0 ∧
      (run src x m).2.guard.visiting = [] ∧ (run src x m).2.guard.depth = 0 := by
  have before := Recording.rests_of_reachable h
  have during := Recording.tidy_run (Recording.tidy_answer src fuel · []) x _ before
  have after := Recording.rests_of_reachable (h.query x)
  obtain ⟨same, memory⟩ := Recording.run_erase src x ⟨m, []⟩
  exact ⟨during.sound, same, memory, before.visiting, before.depth, after.visiting, after.depth⟩

/-- A session with one module, in which `x = x`. -/
def echo : ModuleSource where
  tree m := if m = 1 then some {
    uri := "file:///echo.pkl"
    module := 1
    nodes := #[⟨.access "x" none, .nowhere, some 1⟩,
      ⟨.property { name := "x", value := some 0 }, .nowhere, some 2⟩,
      ⟨.module { members := [1] }, .nowhere, none⟩]
    root := 2 } else none
  resolve _ _ := none

/-- Asking for the property takes a refusal, and asking once more still finds the guard idle. -/
theorem guard_balanced_echo :
    Reachable echo (run echo (Query.declared ⟨1, 1⟩) {}).2 ∧
      (run echo (Query.declared ⟨1, 1⟩) {}).2.guard.fallbacks = 1 ∧
      (run echo (Query.declared ⟨1, 1⟩) (run echo (Query.declared ⟨1, 1⟩) {}).2).2.guard.visiting =
        [] := by
  have once := Ledger.run_eq (Ledger.mirrors_empty : Ledger.Mirrors echo {} {}) (Query.declared ⟨1, 1⟩)
  have reached : Reachable echo (run echo (Query.declared ⟨1, 1⟩) {}).2 := Reachable.fresh.query _
  refine ⟨reached, ?_, (guard_balanced reached (Query.declared ⟨1, 1⟩)).2.2.2.2.2.1⟩
  rw [once.2.guard]
  decide +kernel

end Session

end PklAnalysis
