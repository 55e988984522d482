import PklAnalysis.Proofs.Session.Derivation

/-!
# Answers computed afresh

A session remembers answers, and it refuses computations under keys that name less than the whole
question. `Session.afresh` answers a question with neither: nothing is remembered, and a computation
is refused only if the very same question is being answered. Where a session would refuse it for
another reason, because another question with the same key is being answered or because there are
too many of them, there is no answer.

Where there is an answer, every session gives it (`run_eq_of_afresh`), whatever was asked before.
What is remembered was derived without a refusal, and a question that is being answered is never
needed to derive one of the questions below it (`Nested`). So an answer from memory is the one that
the computation would have come to.
-/

namespace PklAnalysis

deriving instance DecidableEq for Bindings

deriving instance DecidableEq for Question

/-- What the modules of a session say to a question about them. -/
def ModuleSource.reply (src : ModuleSource) : (q : Question) → q.Answer
  | .tree i => src.tree i
  | .reference m uri => src.resolve m uri
  | q => Session.fallback q

namespace Session

variable {src : ModuleSource} {α : Type} {x : Query α} {q : Question} {n : Nat}
  {pending : List Question}

/-- The keys under which questions are answered. -/
def keys (pending : List Question) : List GuardKey := pending.filterMap Question.key?

/-- The answer to a question while others are pending. Only the repetition of a question is
refused. There is no answer if a session would refuse it for another reason, or if more than `n`
questions are nested. -/
def afresh (src : ModuleSource) : Nat → List Question → (q : Question) → Option q.Answer
  | 0, _, _ => none
  | n + 1, pending, q =>
    if q.isSource then some (src.reply q)
    else match q.key? with
      | none => (body q).run (afresh src n pending)
      | some k =>
        if q ∈ pending then some (fallback q)
        else if Limits.exprTypeDepth ≤ (keys pending).length ∨ k ∈ keys pending then none
        else (body q).run (afresh src n (q :: pending))

/-- The answer to a question for which nothing is refused, if at most `n` questions are nested. -/
def derived (src : ModuleSource) : Nat → (q : Question) → Option q.Answer
  | 0, _ => none
  | n + 1, q => if q.isSource then some (src.reply q) else (body q).run (derived src n)

/-! ## Derivations by height -/

theorem run_ask_eq_some {f : (q : Question) → Option q.Answer} {next : q.Answer → Query α} {a : α} :
    (Query.ask q next).run f = some a ↔ ∃ b, f q = some b ∧ (next b).run f = some a := by
  rw [Query.run_ask]
  exact Option.bind_eq_some_iff

theorem run_eq_some_mono {f g : (q : Question) → Option q.Answer}
    (h : ∀ q a, f q = some a → g q = some a) {a : α} (hx : x.run f = some a) :
    x.run g = some a := by
  induction x with
  | done b => exact hx
  | ask q next ih =>
    obtain ⟨b, hb, hn⟩ := run_ask_eq_some.1 hx
    exact run_ask_eq_some.2 ⟨b, h q b hb, ih b hn⟩

theorem derived_succ {a : q.Answer} (h : derived src n q = some a) :
    derived src (n + 1) q = some a := by
  induction n generalizing q with
  | zero => cases h
  | succ n ih =>
    unfold derived at h ⊢
    split at h
    · next hs => rwa [if_pos hs]
    · next hs => rw [if_neg hs]; exact run_eq_some_mono (fun _ _ => ih) h

theorem derived_le {n' : Nat} (h : n ≤ n') {a : q.Answer} (hd : derived src n q = some a) :
    derived src n' q = some a := by
  induction h with
  | refl => exact hd
  | step _ ih => exact derived_succ ih

theorem run_derived_le {n' : Nat} (h : n ≤ n') {a : α} (hx : x.run (derived src n) = some a) :
    x.run (derived src n') = some a :=
  run_eq_some_mono (fun _ _ => derived_le h) hx

theorem derived_unique {n' : Nat} {a b : q.Answer} (ha : derived src n q = some a)
    (hb : derived src n' q = some b) : a = b :=
  Option.some.inj ((derived_le (Nat.le_max_left n n') ha).symm.trans
    (derived_le (Nat.le_max_right n n') hb))

/-- Every conclusion has a height. -/
theorem Concludes.exists_derived {a : α} (h : Concludes src α x a) :
    ∃ n, x.run (derived src n) = some a := by
  induction h with
  | done => exact ⟨0, rfl⟩
  | tree _ ih | reference _ ih =>
    obtain ⟨n, hn⟩ := ih
    exact ⟨n + 1, run_ask_eq_some.2 ⟨_, rfl, run_derived_le n.le_succ hn⟩⟩
  | @ask _ q next b a hs _ _ ihb ih =>
    obtain ⟨n, hb⟩ := ihb
    obtain ⟨k, hn⟩ := ih
    refine ⟨max n k + 1, run_ask_eq_some.2 ⟨b, ?_, run_derived_le (by omega) hn⟩⟩
    rw [derived, if_neg (by rw [hs]; exact Bool.false_ne_true)]
    exact run_derived_le (Nat.le_max_left n k) hb

theorem Derives.exists_derived {a : q.Answer} (h : Derives src q a) :
    ∃ n, derived src n q = some a := by
  obtain ⟨n, hn⟩ := Concludes.exists_derived h
  obtain ⟨b, hb, e⟩ := run_ask_eq_some.1 hn
  cases e
  exact ⟨n, hb⟩

/-! ## Pending questions -/

/-- A derivation of a pending question goes through one of `x`, which is smaller. -/
def Nested (src : ModuleSource) (pending : List Question) (x : Query α) : Prop :=
  ∀ p ∈ pending, ∀ n b, derived src n p = some b → ∃ k < n, ∃ a, x.run (derived src k) = some a

theorem nested_nil : Nested src [] x := fun _ h => by cases h

namespace Nested

variable {next : q.Answer → Query α}

theorem ask (h : Nested src pending (.ask q next)) : Nested src pending (.ask q .done) := by
  intro p hp n b hd
  obtain ⟨k, hk, a, ha⟩ := h p hp n b hd
  obtain ⟨c, hc, -⟩ := run_ask_eq_some.1 ha
  exact ⟨k, hk, c, run_ask_eq_some.2 ⟨c, hc, rfl⟩⟩

/-- Going on with the answer, provided that it is the one that is derived. -/
theorem advance (h : Nested src pending (.ask q next)) {c : q.Answer}
    (hc : ∀ k c', derived src k q = some c' → c = c') : Nested src pending (next c) := by
  intro p hp n b hd
  obtain ⟨k, hk, a, ha⟩ := h p hp n b hd
  obtain ⟨c', hc', hn⟩ := run_ask_eq_some.1 ha
  cases hc k c' hc'
  exact ⟨k, hk, a, hn⟩

theorem body (h : Nested src pending (.ask q .done)) (hs : ¬ q.isSource) :
    Nested src pending (body q) := by
  intro p hp n b hd
  obtain ⟨k, hk, a, ha⟩ := h p hp n b hd
  obtain ⟨c, hc, -⟩ := run_ask_eq_some.1 ha
  cases k with
  | zero => cases hc
  | succ k =>
    rw [derived, if_neg hs] at hc
    exact ⟨k, by omega, c, hc⟩

theorem enter (h : Nested src pending (.ask q .done)) (hs : ¬ q.isSource) :
    Nested src (q :: pending) (Session.body q) := by
  intro p hp n b hd
  rcases List.mem_cons.1 hp with rfl | hp
  · cases n with
    | zero => cases hd
    | succ n =>
      rw [derived, if_neg hs] at hd
      exact ⟨n, n.lt_succ_self, b, hd⟩
  · exact h.body hs p hp n b hd

/-- What can be derived is not pending: its derivation would be smaller than itself. -/
theorem notMem (h : Nested src pending (.ask q .done)) {a : q.Answer}
    (hd : derived src n q = some a) : q ∉ pending := by
  induction n using Nat.strongRecOn generalizing a with
  | ind n ih =>
    intro hq
    obtain ⟨k, hk, c, hc⟩ := h q hq n a hd
    obtain ⟨c, hc, -⟩ := run_ask_eq_some.1 hc
    exact ih k hk hc hq

end Nested

/-! ## Sessions -/

/-- An answer computed afresh is the one that is derived, if there is one. The induction over the
query follows both computations. -/
theorem run_afresh_unique {f : Nat}
    (h : ∀ {q : Question} {a b : q.Answer}, Nested src pending (.ask q .done) →
      derived src n q = some a → afresh src f pending q = some b → b = a)
    (hx : Nested src pending x) {a b : α} (ha : x.run (derived src n) = some a)
    (hb : x.run (afresh src f pending) = some b) : b = a := by
  induction x with
  | done c =>
    cases ha
    cases hb
    rfl
  | ask q next ih =>
    obtain ⟨c, hc, ha⟩ := run_ask_eq_some.1 ha
    obtain ⟨d, hd, hb⟩ := run_ask_eq_some.1 hb
    cases h hx.ask hc hd
    exact ih c (hx.advance fun _ _ => derived_unique hc) ha hb

theorem afresh_unique {f : Nat} {a b : q.Answer} (hq : Nested src pending (.ask q .done))
    (ha : derived src n q = some a) (hb : afresh src f pending q = some b) : b = a := by
  induction f generalizing pending q n with
  | zero => cases hb
  | succ f ih =>
    cases n with
    | zero => cases ha
    | succ n =>
      have fresh := hq.notMem ha
      unfold derived at ha
      unfold afresh at hb
      by_cases hs : q.isSource = true
      · rw [if_pos hs] at ha hb
        exact Option.some.inj (hb.symm.trans ha)
      rw [if_neg hs] at ha hb
      split at hb
      · exact run_afresh_unique (fun h ha hb => ih h ha hb) (hq.body hs) ha hb
      · rw [if_neg fresh] at hb
        split at hb
        · cases hb
        · exact run_afresh_unique (fun h ha hb => ih h ha hb) (hq.enter hs) ha hb

/-- A question that enters no key is answered by its computation or from memory, which holds what
was derived. -/
theorem keep_of_no_key {m : Memory} (hm : (derivedOnly src).Remembers m) (hs : ¬ q.isSource)
    (hk : q.key? = none) (y : StateM Memory q.Answer) :
    (keep src q y m).1 = (y m).1 ∨ Derives src q (keep src q y m).1 := by
  have look : ∀ {β : Type} {P : β → Prop} (read : Memory → Option β) (store : β → Memory → Memory)
      (y : StateM Memory β), (∀ a, read m = some a → P a) →
        (memoized read store y m).1 = (y m).1 ∨ P (memoized read store y m).1 := by
    intro β P read store y h
    unfold memoized
    cases e : read m with
    | some a => exact .inr (h a e)
    | none => exact .inl rfl
  cases q with
  | tree | reference => exact absurd rfl hs
  | supertype c => exact look _ _ y fun _ => hm.supertypes
  | aliased d => exact look _ _ y fun _ => hm.aliased
  | declared d => exact look _ _ y fun _ => hm.declared
  | superclause | expansion | member | expr | bodyThis | property | expected => cases hk

theorem keep_of_source {m : Memory} (hm : (derivedOnly src).Remembers m) (hs : q.isSource)
    (y : StateM Memory q.Answer) : (keep src q y m).1 = src.reply q := by
  cases q with
  | tree i => rfl
  | reference s uri =>
    show (findModule src s uri m).1 = _
    unfold findModule
    split
    · next found e =>
      exact Concludes.unique (hm.references e) (.reference (.done _))
    · rfl
  | _ => cases hs

/-- The induction over a query whose questions are answered as they are afresh. -/
theorem run_answer_of_afresh
    (h : ∀ {q : Question} {a : q.Answer} {m : Memory}, Nested src pending (.ask q .done) →
      (derivedOnly src).Holds (keys pending) m → afresh src n pending q = some a →
        (answer src n q m).1 = a)
    (hx : Nested src pending x) {m : Memory} (hm : (derivedOnly src).Holds (keys pending) m) {a : α}
    (ha : x.run (afresh src n pending) = some a) : (x.run (answer src n) m).1 = a := by
  induction x generalizing m with
  | done c =>
    cases ha
    rfl
  | ask q next ih =>
    obtain ⟨c, hc, ha⟩ := run_ask_eq_some.1 ha
    obtain ⟨-, hm', -, -⟩ := (derivedOnly src).answer_bounded n (keys pending) q m hm
    show ((next (answer src n q m).1).run (answer src n) (answer src n q m).2).1 = a
    rw [h hx.ask hm hc]
    exact ih c (hx.advance fun _ _ hd => afresh_unique hx.ask hd hc) hm' ha

theorem answer_of_afresh {m : Memory} (hq : Nested src pending (.ask q .done))
    (hm : (derivedOnly src).Holds (keys pending) m) {a : q.Answer}
    (ha : afresh src n pending q = some a) : (answer src n q m).1 = a := by
  induction n generalizing pending q m with
  | zero => cases ha
  | succ n ih =>
    have fresh := fun k c (hd : derived src k q = some c) => afresh_unique hq hd ha
    unfold afresh at ha
    unfold answer
    by_cases hs : q.isSource = true
    · rw [if_pos hs] at ha
      exact (keep_of_source hm.remembers hs _).trans (Option.some.inj ha)
    rw [if_neg hs] at ha
    cases hk : q.key? with
    | none =>
      rw [hk] at ha
      rcases keep_of_no_key hm.remembers hs hk ((body q).run (answer src n)) with e | e
      · exact e.trans (run_answer_of_afresh (fun h hm ha => ih h hm ha) (hq.body hs) hm ha)
      · obtain ⟨k, hd⟩ := e.exists_derived
        exact (fresh k _ hd).symm
    | some k =>
      rw [hk] at ha
      rw [Envelope.keep_of_key hk]
      dsimp only at ha
      split at ha
      · next hp =>
        -- The key is entered, since the question is pending.
        obtain ⟨r, he⟩ := hm.enter_refused (.inr (List.mem_filterMap.2 ⟨q, hp, hk⟩))
        rw [Envelope.guarded_refused he]
        exact Option.some.inj ha
      split at ha
      · cases ha
      · next hr =>
        obtain ⟨g, he, hm', -⟩ := hm.enter_ok hr
        rw [Envelope.guarded_ok he]
        have entered : keys (q :: pending) = k :: keys pending := List.filterMap_cons_some hk
        exact run_answer_of_afresh (fun h hm ha => ih h hm ha) (hq.enter hs) (entered ▸ hm') ha

/-- A query that has an answer afresh has that answer in every session, whatever was asked
before. -/
theorem run_eq_of_afresh {m : Memory} (hm : Reachable src m) {a : α}
    (h : x.run (afresh src fuel []) = some a) : (run src x m).1 = a :=
  run_answer_of_afresh (fun hq hm ha => answer_of_afresh hq hm ha) nested_nil
    ((derivedOnly src).holds_of_reachable hm) h

end Session

end PklAnalysis
