import PklAnalysis.Proofs.Session.Reading

/-!
# Envelopes

What a session answers is bounded without following its memory. An `Envelope` bounds two things:
what memory may hold, which was computed without a refusal, and what may be answered while certain
keys of the guard are entered. If every question keeps to the bounds as long as the questions below
it do, then every run does (`Envelope.answer_bounded`), and so does every memory a session can have
(`Envelope.holds_of_reachable`).
-/

namespace PklAnalysis

/-! ## Results within bounds -/

namespace Query

variable {α β : Type}

/-- Every result lies in `S` if every answer on the way lies in `P`. -/
def Within (P : (q : Question) → q.Answer → Prop) (S : α → Prop) : Query α → Prop
  | done a => S a
  | ask q next => ∀ a, P q a → (next a).Within P S

variable {P : (q : Question) → q.Answer → Prop} {S T : α → Prop}

theorem within_pure {a : α} (h : S a) : (pure a : Query α).Within P S := h

theorem within_ask {q : Question} {S : q.Answer → Prop} (h : ∀ a, P q a → S a) :
    (ask q done).Within P S := h

theorem Within.bind {x : Query α} {f : α → Query β} {S : β → Prop} (hx : x.Within P T)
    (hf : ∀ a, T a → (f a).Within P S) : (x >>= f).Within P S := by
  induction x with
  | done a => exact hf a hx
  | ask q next ih => exact fun a ha => ih a (hx a ha)

theorem Within.mono {x : Query α} (hx : x.Within P T) (h : ∀ a, T a → S a) : x.Within P S := by
  induction x with
  | done a => exact h a hx
  | ask q next ih => exact fun a ha => ih a (hx a ha)

theorem Within.weaken {x : Query α} {Q : (q : Question) → q.Answer → Prop} (hx : x.Within P S)
    (h : ∀ q a, Q q a → P q a) : x.Within Q S := by
  induction x with
  | done a => exact hx
  | ask q next ih => exact fun a ha => ih a (hx a (h q a ha))

theorem Within.and {x : Query α} (hS : x.Within P S) (hT : x.Within P T) :
    x.Within P (fun a => S a ∧ T a) := by
  induction x with
  | done a => exact ⟨hS, hT⟩
  | ask q next ih => exact fun a ha => ih a (hS a ha) (hT a ha)

theorem within_true {x : Query α} : x.Within P (fun _ => True) := by
  induction x with
  | done a => trivial
  | ask q next ih => exact fun a _ => ih a

/-- The value of a query lies within the bounds if the reading does. -/
theorem Within.value {x : Query α} {r : Reading} (hx : x.Within P S) (hr : ∀ q, P q (r q)) :
    S (x.value r) := by
  induction x with
  | done a => exact hx
  | ask q next ih => exact ih (r q) (hx (r q) (hr q))

/-- If a reading and the bounds agree on every question that comes up, only one result is left. -/
theorem Asks.within {x : Query α} {r : Reading} {Q : Question → Prop} (hx : x.Asks r Q)
    (h : ∀ q a, Q q → P q a → a = r q) : x.Within P (· = x.value r) := by
  induction x with
  | done a => rfl
  | ask q next ih =>
    intro a ha
    cases h q a hx.1 ha
    exact ih (r q) hx.2

end Query

namespace Question

/-- Questions about the source are answered by the source alone. -/
def isSource : Question → Bool
  | .tree _ => true
  | .reference _ _ => true
  | _ => false

/-- The key under which the answer to a question is computed. -/
def key? : Question → Option GuardKey
  | .superclause cls _ => some (.superclass cls)
  | .expansion decl _ _ => some (.expansion decl)
  | .member decl => some (.member decl)
  | .expr e _ => some (.expr e)
  | .bodyThis b => some (.this b)
  | .property p => some (.expected p)
  | .expected e => some (.expected e)
  | _ => none

/-- The keys entered while a question is answered, when `ks` were entered before. -/
def entered (q : Question) (ks : List GuardKey) : List GuardKey := q.key?.toList ++ ks

/-- Whether a question is refused when `ks` are entered. -/
def Refused (q : Question) (ks : List GuardKey) : Prop :=
  ∃ k, q.key? = some k ∧ (Limits.exprTypeDepth ≤ ks.length ∨ k ∈ ks)

end Question

/-- Bounds on what a session with the modules `src` remembers and answers. `given n ks` bounds the
answers while `ks` are entered and at most `n` questions may still be nested. -/
structure Envelope (src : ModuleSource) where
  stored : (q : Question) → q.Answer → Prop
  given : Nat → List GuardKey → (q : Question) → q.Answer → Prop
  given_of_stored : ∀ {n ks q a}, stored q a → given n ks q a
  stored_tree : ∀ i, stored (.tree i) (src.tree i)
  stored_reference : ∀ m uri, stored (.reference m uri) (src.resolve m uri)
  given_zero : ∀ ks q, q.isSource = false → given 0 ks q (Session.fallback q)
  given_refused : ∀ n ks q, q.Refused ks → given n ks q (Session.fallback q)
  given_succ : ∀ n ks q, q.isSource = false → ¬ q.Refused ks →
    (Session.body q).Within (given n (q.entered ks)) (given (n + 1) ks q)
  stored_body : ∀ q, q.isSource = false → (Session.body q).Within stored (stored q)

namespace Envelope

open Session

variable {src : ModuleSource} (E : Envelope src) {α : Type}

/-- The entries of a memory lie within the bounds. -/
structure Remembers (m : Memory) : Prop where
  references : ∀ {s uri a}, m.references[(s, uri)]? = some a → E.stored (.reference s uri) a
  supertypes : ∀ {c a}, m.supertypes[c]? = some a → E.stored (.supertype c) a
  aliased : ∀ {d a}, m.aliased[d]? = some a → E.stored (.aliased d) a
  declared : ∀ {d a}, m.declared[d]? = some a → E.stored (.declared d) a

/-- A memory within the bounds under whose guard exactly `ks` are entered. -/
structure Holds (ks : List GuardKey) (m : Memory) : Prop where
  remembers : E.Remembers m
  visiting : m.guard.visiting = ks
  depth : m.guard.depth = ks.length
  maxDepth : m.guard.maxDepth = Limits.exprTypeDepth

/-- A computation that keeps memory within the bounds, leaves the guard as it was, and has its
results in `S`, and in `T` unless something is refused. -/
def Bounded (ks : List GuardKey) (S T : α → Prop) (x : StateM Memory α) : Prop :=
  ∀ m, E.Holds ks m → S (x m).1 ∧ E.Holds ks (x m).2 ∧
    m.guard.fallbacks ≤ (x m).2.guard.fallbacks ∧
    ((x m).2.guard.fallbacks = m.guard.fallbacks → T (x m).1)

variable {E} {ks : List GuardKey} {S T : α → Prop}

theorem Remembers.of_eq {m m' : Memory} (h : E.Remembers m) (hr : m'.references = m.references)
    (hs : m'.supertypes = m.supertypes) (ha : m'.aliased = m.aliased)
    (hd : m'.declared = m.declared) : E.Remembers m' :=
  ⟨by rw [hr]; exact h.references, by rw [hs]; exact h.supertypes, by rw [ha]; exact h.aliased,
    by rw [hd]; exact h.declared⟩

theorem Bounded.mono {S' T' : α → Prop} {x : StateM Memory α} (h : E.Bounded ks S T x)
    (hS : ∀ a, S a → S' a) (hT : ∀ a, T a → T' a) : E.Bounded ks S' T' x := by
  intro m hm
  obtain ⟨h₁, h₂, h₃, h₄⟩ := h m hm
  exact ⟨hS _ h₁, h₂, h₃, fun e => hT _ (h₄ e)⟩

/-- The induction is on the query; that the earlier answers were not refused goes into `C`. -/
theorem bounded_run_of {P : (q : Question) → q.Answer → Prop}
    {h : (q : Question) → StateM Memory q.Answer}
    (hh : ∀ q, E.Bounded ks (P q) (E.stored q) (h q)) {x : Query α} {C : Prop} (hS : x.Within P S)
    (hT : C → x.Within E.stored T) : E.Bounded ks S (fun a => C → T a) (x.run h) := by
  induction x generalizing C with
  | done a => exact fun m hm => ⟨hS, hm, Nat.le_refl _, fun _ => hT⟩
  | ask q next ih =>
    intro m hm
    obtain ⟨hP, hm', hle, hst⟩ := hh q m hm
    have key := ih (h q m).1 (C := C ∧ E.stored q (h q m).1) (hS _ hP) (fun c => hT c.1 _ c.2)
    obtain ⟨h₁, h₂, h₃, h₄⟩ := key _ hm'
    refine ⟨h₁, h₂, Nat.le_trans hle h₃, fun e c => ?_⟩
    have e' : (h q m).2.guard.fallbacks = m.guard.fallbacks := Nat.le_antisymm (e ▸ h₃) hle
    exact h₄ (e.trans e'.symm) ⟨c, hst e'⟩

/-- A query is bounded if its questions are and its results are. -/
theorem bounded_run {P : (q : Question) → q.Answer → Prop}
    {h : (q : Question) → StateM Memory q.Answer}
    (hh : ∀ q, E.Bounded ks (P q) (E.stored q) (h q)) {x : Query α} (hS : x.Within P S)
    (hT : x.Within E.stored T) : E.Bounded ks S T (x.run h) :=
  (bounded_run_of (C := True) hh hS (fun _ => hT)).mono (fun _ h => h) (fun _ h => h trivial)

/-! ## Keeping answers -/

theorem bounded_refuse {a : α} (hS : S a) :
    E.Bounded ks S T (fun m => (a, { m with guard := m.guard.refuse })) := by
  intro m hm
  refine ⟨hS, ⟨hm.remembers.of_eq rfl rfl rfl rfl, hm.visiting, hm.depth, hm.maxDepth⟩,
    Nat.le_succ _, fun e => ?_⟩
  have : m.guard.fallbacks + 1 = m.guard.fallbacks := e
  omega

/-- A key is refused where there is no room for it, or where it is entered. -/
theorem Holds.enter_refused {k : GuardKey} {m : Memory} (hm : E.Holds ks m)
    (hk : Limits.exprTypeDepth ≤ ks.length ∨ k ∈ ks) : ∃ r, m.guard.enter k = .error r := by
  unfold Guard.enter Guard.isVisiting
  rw [hm.maxDepth, hm.depth, hm.visiting]
  split
  · exact ⟨_, rfl⟩
  · rw [if_pos (by simpa using hk.resolve_left ‹_›)]
    exact ⟨_, rfl⟩

/-- Everywhere else it is entered, and nothing else changes. -/
theorem Holds.enter_ok {k : GuardKey} {m : Memory} (hm : E.Holds ks m)
    (hk : ¬ (Limits.exprTypeDepth ≤ ks.length ∨ k ∈ ks)) :
    ∃ g, m.guard.enter k = .ok g ∧ E.Holds (k :: ks) { m with guard := g } ∧
      g.fallbacks = m.guard.fallbacks := by
  let g : Guard := { m.guard with visiting := k :: m.guard.visiting, depth := m.guard.depth + 1 }
  refine ⟨g, ?_, ⟨hm.remembers.of_eq rfl rfl rfl rfl, congrArg (k :: ·) hm.visiting,
    congrArg (· + 1) hm.depth, hm.maxDepth⟩, rfl⟩
  unfold Guard.enter Guard.isVisiting
  rw [hm.maxDepth, hm.depth, hm.visiting]
  rw [if_neg (fun h => hk (.inl h)), if_neg (fun h => hk (.inr (by simpa using h)))]
  simp only [g, hm.maxDepth, hm.depth, hm.visiting]

theorem guarded_refused {k : GuardKey} {fb : α} {x : StateM Memory α} {m : Memory} {r : Refusal}
    (h : m.guard.enter k = .error r) :
    guarded k fb x m = (fb, { m with guard := m.guard.refuse }) := by
  unfold guarded
  rw [h]

theorem guarded_ok {k : GuardKey} {fb : α} {x : StateM Memory α} {m : Memory} {g : Guard}
    (h : m.guard.enter k = .ok g) :
    guarded k fb x m = ((x { m with guard := g }).1, { (x { m with guard := g }).2 with
      guard := (x { m with guard := g }).2.guard.leave k }) := by
  unfold guarded
  rw [h]
  rfl

/-- A refused key gives the fallback; another one is entered, and left again. -/
theorem bounded_guarded {k : GuardKey} {fb : α} {x : StateM Memory α}
    (hfb : Limits.exprTypeDepth ≤ ks.length ∨ k ∈ ks → S fb)
    (hx : ¬ (Limits.exprTypeDepth ≤ ks.length ∨ k ∈ ks) → E.Bounded (k :: ks) S T x) :
    E.Bounded ks S T (guarded k fb x) := by
  intro m hm
  by_cases hk : Limits.exprTypeDepth ≤ ks.length ∨ k ∈ ks
  · obtain ⟨r, he⟩ := hm.enter_refused hk
    rw [guarded_refused he]
    exact bounded_refuse (hfb hk) m hm
  · obtain ⟨g, he, hm₁, hf⟩ := hm.enter_ok hk
    obtain ⟨h₁, h₂, h₃, h₄⟩ := hx hk _ hm₁
    rw [guarded_ok he]
    refine ⟨h₁, ⟨h₂.remembers.of_eq rfl rfl rfl rfl, ?_, ?_, h₂.maxDepth⟩, hf ▸ h₃,
      fun e => h₄ (e.trans hf.symm)⟩
    · show (x { m with guard := g }).2.guard.visiting.erase k = ks
      rw [h₂.visiting, List.erase_cons_head]
    · show (x { m with guard := g }).2.guard.depth - 1 = ks.length
      rw [h₂.depth, List.length_cons, Nat.add_sub_cancel]

/-- A result that is kept in memory lies in `T`; so does one that is found there. -/
theorem bounded_memoized {read : Memory → Option α} {store : α → Memory → Memory}
    {x : StateM Memory α} (hr : ∀ m a, E.Remembers m → read m = some a → T a)
    (hs : ∀ m a, E.Remembers m → T a → E.Remembers (store a m))
    (hg : ∀ m a, (store a m).guard = m.guard) (hTS : ∀ a, T a → S a) (hx : E.Bounded ks S T x) :
    E.Bounded ks S T (memoized read store x) := by
  intro m hm
  cases hread : read m with
  | some a =>
    have e : memoized read store x m = (a, m) := by unfold memoized; rw [hread]
    have ha := hr m a hm.remembers hread
    rw [e]
    exact ⟨hTS a ha, hm, Nat.le_refl _, fun _ => ha⟩
  | none =>
    obtain ⟨h₁, h₂, h₃, h₄⟩ := hx m hm
    have e : memoized read store x m = ((x m).1,
        if (x m).2.guard.fallbacks = m.guard.fallbacks then store (x m).1 (x m).2 else (x m).2) := by
      unfold memoized
      rw [hread]
      rfl
    rw [e]
    split
    · next hf =>
      have hT := h₄ hf
      refine ⟨h₁, ⟨hs _ _ h₂.remembers hT, ?_, ?_, ?_⟩, ?_, fun _ => hT⟩
      · rw [hg, h₂.visiting]
      · rw [hg, h₂.depth]
      · rw [hg, h₂.maxDepth]
      · rw [hg]; exact h₃
    · exact ⟨h₁, h₂, h₃, h₄⟩

/-! ## Runs -/

theorem getElem?_insert_some {κ β : Type} [BEq κ] [Hashable κ] [LawfulBEq κ] [LawfulHashable κ]
    {t : Std.HashMap κ β} {k j : κ} {b c : β} (h : (t.insert k b)[j]? = some c) :
    (k = j ∧ b = c) ∨ t[j]? = some c := by
  rw [Std.HashMap.getElem?_insert] at h
  split at h
  · next e => exact .inl ⟨beq_iff_eq.1 e, Option.some.inj h⟩
  · exact .inr h

theorem keep_of_key {q : Question} {k : GuardKey} (h : q.key? = some k) (x : StateM Memory q.Answer) :
    keep src q x = guarded k (fallback q) x := by
  cases q <;> cases h <;> rfl

theorem bounded_loadTree (i : ModuleId) :
    E.Bounded ks (· = src.tree i) (· = src.tree i) (loadTree src i) := by
  intro m hm
  refine ⟨rfl, ?_, ?_, fun _ => rfl⟩
  · show E.Holds ks (if m.loaded.contains i then m else { m with loaded := i :: m.loaded })
    split
    · exact hm
    · exact ⟨hm.remembers.of_eq rfl rfl rfl rfl, hm.visiting, hm.depth, hm.maxDepth⟩
  · show m.guard.fallbacks ≤ (if m.loaded.contains i then m
      else { m with loaded := i :: m.loaded }).guard.fallbacks
    split <;> exact Nat.le_refl _

theorem bounded_findModule (s : ModuleId) (uri : String) :
    E.Bounded ks (E.stored (.reference s uri)) (E.stored (.reference s uri))
      (findModule src s uri) := by
  intro m hm
  unfold findModule
  split
  · next found h =>
    have hf := hm.remembers.references h
    exact ⟨hf, hm, Nat.le_refl _, fun _ => hf⟩
  · have hf := E.stored_reference s uri
    refine ⟨hf, ⟨⟨fun h => ?_, hm.remembers.supertypes, hm.remembers.aliased,
      hm.remembers.declared⟩, hm.visiting, hm.depth, hm.maxDepth⟩, Nat.le_refl _, fun _ => hf⟩
    rcases getElem?_insert_some h with ⟨e, rfl⟩ | h
    · cases e; exact hf
    · exact hm.remembers.references h

/-- A computation for a question is kept within the bounds if it stays within them where it is not
refused. -/
theorem bounded_keep {n : Nat} {q : Question} {x : StateM Memory q.Answer}
    (hx : q.isSource = false → ¬ q.Refused ks →
      E.Bounded (q.entered ks) (E.given n ks q) (E.stored q) x) :
    E.Bounded ks (E.given n ks q) (E.stored q) (keep src q x) := by
  have memo : ∀ {q : Question} {x : StateM Memory q.Answer}, q.key? = none →
      (¬ q.Refused ks → E.Bounded (q.entered ks) (E.given n ks q) (E.stored q) x) →
      E.Bounded ks (E.given n ks q) (E.stored q) x := by
    intro q x hk hx
    have h := hx (fun ⟨k, e, _⟩ => by rw [hk] at e; cases e)
    rwa [Question.entered, hk] at h
  cases hk : q.key? with
  | some k =>
    rw [keep_of_key hk]
    refine bounded_guarded (fun h => E.given_refused n ks q ⟨k, hk, h⟩) (fun h => ?_)
    have hs : q.isSource = false := by cases q <;> first | rfl | cases hk
    have hb := hx hs (fun ⟨j, e, hj⟩ => h (by rw [hk] at e; cases e; exact hj))
    rwa [Question.entered, hk] at hb
  | none =>
    cases q with
    | tree i =>
      exact (bounded_loadTree i).mono (fun _ h => h ▸ E.given_of_stored (E.stored_tree i))
        (fun _ h => h ▸ E.stored_tree i)
    | reference s uri =>
      exact (bounded_findModule s uri).mono (fun _ => E.given_of_stored) (fun _ h => h)
    | supertype c =>
      refine bounded_memoized (fun m a hm h => hm.supertypes h) (fun m a hm ha => ?_)
        (fun _ _ => rfl) (fun _ => E.given_of_stored) (memo hk (hx rfl))
      refine ⟨hm.references, fun h => ?_, hm.aliased, hm.declared⟩
      rcases getElem?_insert_some h with ⟨rfl, rfl⟩ | h
      · exact ha
      · exact hm.supertypes h
    | aliased d =>
      refine bounded_memoized (fun m a hm h => hm.aliased h) (fun m a hm ha => ?_)
        (fun _ _ => rfl) (fun _ => E.given_of_stored) (memo hk (hx rfl))
      refine ⟨hm.references, hm.supertypes, fun h => ?_, hm.declared⟩
      rcases getElem?_insert_some h with ⟨rfl, rfl⟩ | h
      · exact ha
      · exact hm.aliased h
    | declared d =>
      refine bounded_memoized (fun m a hm h => hm.declared h) (fun m a hm ha => ?_)
        (fun _ _ => rfl) (fun _ => E.given_of_stored) (memo hk (hx rfl))
      refine ⟨hm.references, hm.supertypes, hm.aliased, fun h => ?_⟩
      rcases getElem?_insert_some h with ⟨rfl, rfl⟩ | h
      · exact ha
      · exact hm.declared h
    | superclause | expansion | member | expr | bodyThis | property | expected => cases hk

variable (E)

/-- Every answer lies within the bounds, and it leaves memory within them. -/
theorem answer_bounded (n : Nat) (ks : List GuardKey) (q : Question) :
    E.Bounded ks (E.given n ks q) (E.stored q) (answer src n q) := by
  induction n generalizing ks q with
  | zero => exact bounded_keep (fun hs _ => bounded_refuse (E.given_zero ks q hs))
  | succ n ih =>
    refine bounded_keep (fun hs hr => ?_)
    exact bounded_run (ih (q.entered ks)) (E.given_succ n ks q hs hr) (E.stored_body q hs)

theorem remembers_empty : E.Remembers {} :=
  ⟨fun h => by simp at h, fun h => by simp at h, fun h => by simp at h, fun h => by simp at h⟩

/-- Every memory of a session lies within the bounds, and its guard is idle between queries. -/
theorem holds_of_reachable {m : Memory} (h : Reachable src m) : E.Holds [] m := by
  induction h with
  | fresh => exact ⟨E.remembers_empty, rfl, rfl, rfl⟩
  | query x _ ih =>
    have hb : E.Bounded [] (fun _ => True) (fun _ => True) (run src x) :=
      bounded_run (E.answer_bounded fuel []) (Query.within_true) (Query.within_true)
    exact (hb _ ih).2.1

/-- A session answers within the bounds for an idle guard. -/
theorem given_answer {m : Memory} (h : Reachable src m) (q : Question) :
    E.given fuel [] q (answer src fuel q m).1 :=
  (E.answer_bounded fuel [] q m (E.holds_of_reachable h)).1

/-- If the bounds leave one answer, the question is settled. -/
theorem settled_of_unique {q : Question} {a : q.Answer} (h : ∀ b, E.given fuel [] q b → b = a) :
    Settled src q ∧ reading src q = a := by
  have hr : reading src q = a := h _ (E.given_answer .fresh q)
  exact ⟨fun m hm => (h _ (E.given_answer hm q)).trans hr.symm, hr⟩

end Envelope

end PklAnalysis
