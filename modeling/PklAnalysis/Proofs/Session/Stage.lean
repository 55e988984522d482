import PklAnalysis.Proofs.Standard.Settled

/-!
# Stages of a session

A question may come up between two queries or in the middle of one, while keys of the guard are
entered and less fuel is left. A `Stage` is a set of such moments that answering does not lead out
of. What `C.Gives x a` says of one is that the query `x` comes out as `a` at each of them;
`C.Admits x a` says that it does so at one of them at least.

`Stage.between` holds the moments between two queries, which are those that `Session.Gives` is
about, and `Stage.typing` those at which the type of an expression is computed inside of at most so
many other ones.
-/

namespace PklAnalysis.Session

variable {src : ModuleSource} {α β : Type}

/-! ## Moments -/

variable (src) in
/-- The memories of a session while the keys `ks` are entered, each of them one question further
in. -/
inductive Entered : List GuardKey → Memory → Prop
  | idle {m : Memory} : Reachable src m → Entered [] m
  | enter {ks : List GuardKey} {m : Memory} {k : GuardKey} {g : Guard} :
      Entered ks m → m.guard.enter k = .ok g → Entered (k :: ks) { m with guard := g }
  | answer {ks : List GuardKey} {m : Memory} (q : Question) :
      Entered ks m → Entered ks (answer src (fuel - ks.length) q m).2

theorem holds_enter {E : Envelope src} {ks : List GuardKey} {m : Memory} {k : GuardKey} {g : Guard}
    (h : E.Holds ks m) (hg : m.guard.enter k = .ok g) : E.Holds (k :: ks) { m with guard := g } := by
  unfold Guard.enter at hg
  split at hg
  · cases hg
  · split at hg
    · cases hg
    · cases hg
      exact ⟨h.remembers.of_eq rfl rfl rfl rfl, congrArg (k :: ·) h.visiting,
        congrArg (· + 1) h.depth, h.maxDepth⟩

theorem Entered.holds (E : Envelope src) {ks : List GuardKey} {m : Memory} (h : Entered src ks m) :
    E.Holds ks m := by
  induction h with
  | idle h => exact E.holds_of_reachable h
  | enter _ hg ih => exact holds_enter ih hg
  | answer q _ ih => exact (E.answer_bounded _ _ q _ ih).2.1

theorem Entered.given (E : Envelope src) {ks : List GuardKey} {m : Memory} (h : Entered src ks m)
    (q : Question) :
    E.given (fuel - ks.length) ks q (Session.answer src (fuel - ks.length) q m).1 :=
  (E.answer_bounded _ ks q m (h.holds E)).1

/-- A question with a key is refused, or its answer is computed one key further in. -/
theorem Entered.answer_of_key {ks : List GuardKey} {m : Memory} (h : Entered src ks m)
    (hf : ks.length < fuel) {q : Question} {k : GuardKey} (hk : q.key? = some k) :
    (Session.answer src (fuel - ks.length) q m).1 = fallback q ∨
      ∃ m', Entered src (k :: ks) m' ∧ (Session.answer src (fuel - ks.length) q m).1 =
        ((body q).run (Session.answer src (fuel - (k :: ks).length)) m').1 := by
  obtain ⟨n, hn⟩ : ∃ n, fuel - ks.length = n + 1 := ⟨fuel - ks.length - 1, by omega⟩
  have hn' : fuel - (k :: ks).length = n := by rw [List.length_cons]; omega
  rw [hn, hn', answer_succ, Envelope.keep_of_key hk]
  cases hg : m.guard.enter k with
  | error r =>
    left
    unfold guarded
    rw [hg]
  | ok g =>
    right
    refine ⟨_, h.enter hg, ?_⟩
    unfold guarded
    rw [hg]
    rfl

/-! ## Stages -/

variable (src) in
/-- Moments of a session: the memory, and how many questions may be nested. -/
structure Stage where
  At : Nat → Memory → Prop
  answer : ∀ {n : Nat} {m : Memory} (q : Question), At n m → At n (Session.answer src n q m).2

namespace Stage

variable (C : Stage src)

/-- Every result of a query lies in `S`. -/
def Ensures (x : Query α) (S : α → Prop) : Prop :=
  ∀ n m, C.At n m → S (x.run (Session.answer src n) m).1

/-- A query comes out as `a` whenever it is asked. -/
def Gives (x : Query α) (a : α) : Prop := C.Ensures x (· = a)

/-- A query may come out as `a`. -/
def Admits (x : Query α) (a : α) : Prop :=
  ∃ n m, C.At n m ∧ (x.run (Session.answer src n) m).1 = a

variable {C} {S T : α → Prop} {a : α}

theorem at_run {n : Nat} {m : Memory} (h : C.At n m) (x : Query α) :
    C.At n (x.run (Session.answer src n) m).2 := by
  induction x generalizing m with
  | done a => exact h
  | ask q next ih => exact ih _ (C.answer q h)

theorem run_bind (n : Nat) (x : Query α) (f : α → Query β) (m : Memory) :
    (x >>= f).run (Session.answer src n) m =
      (f (x.run (Session.answer src n) m).1).run (Session.answer src n)
        (x.run (Session.answer src n) m).2 := by
  rw [Query.run_bind]
  rfl

theorem ensures_pure (h : S a) : C.Ensures (pure a) S := fun _ _ _ => h

theorem Ensures.bind {x : Query α} {f : α → Query β} {U : β → Prop} (hx : C.Ensures x S)
    (hf : ∀ a, S a → C.Ensures (f a) U) : C.Ensures (x >>= f) U := by
  intro n m h
  rw [run_bind]
  exact hf _ (hx n m h) n _ (at_run h x)

theorem Ensures.mono {x : Query α} (hx : C.Ensures x S) (h : ∀ a, S a → T a) : C.Ensures x T :=
  fun n m hm => h _ (hx n m hm)

theorem Ensures.and {x : Query α} (hx : C.Ensures x S) (hy : C.Ensures x T) :
    C.Ensures x (fun a => S a ∧ T a) := fun n m hm => ⟨hx n m hm, hy n m hm⟩

theorem Ensures.of_admits {x : Query α} (hx : C.Ensures x S) (h : C.Admits x a) : S a := by
  obtain ⟨n, m, hm, rfl⟩ := h
  exact hx n m hm

theorem ensures_admits (x : Query α) : C.Ensures x (C.Admits x) := fun n m hm => ⟨n, m, hm, rfl⟩

theorem gives_pure (a : α) : C.Gives (pure a) a := fun _ _ _ => rfl

theorem Gives.bind_ensures {x : Query α} {f : α → Query β} {U : β → Prop} (hx : C.Gives x a)
    (hf : C.Ensures (f a) U) : C.Ensures (x >>= f) U :=
  Ensures.bind hx (fun _ e => e ▸ hf)

theorem Gives.bind {x : Query α} {f : α → Query β} {b : β} (hx : C.Gives x a)
    (hf : C.Gives (f a) b) : C.Gives (x >>= f) b := hx.bind_ensures hf

theorem Gives.ensures {x : Query α} (hx : C.Gives x a) (h : S a) : C.Ensures x S :=
  hx.mono (fun _ e => e ▸ h)

theorem Gives.eq_of_admits {x : Query α} {b : α} (hx : C.Gives x a) (h : C.Admits x b) : b = a := by
  obtain ⟨n, m, hm, rfl⟩ := h
  exact hx n m hm

/-- A query has its value under a reading if the answers of this reading are given to every question
that comes up. -/
theorem gives_of_asks {x : Query α} {r : Reading} {P : Question → Prop} (hx : x.Asks r P)
    (h : ∀ q, P q → C.Gives (.ask q .done) (r q)) : C.Gives x (x.value r) := by
  induction x with
  | done a => exact gives_pure a
  | ask q next ih => exact (h q hx.1).bind (ih (r q) hx.2)

/-- What holds at a stage holds at every part of it. -/
theorem Ensures.restrict {D : Stage src} (hD : ∀ n m, D.At n m → C.At n m) {x : Query α}
    (hx : C.Ensures x S) : D.Ensures x S := fun n m hm => hx n m (hD n m hm)

theorem Admits.extend {D : Stage src} (hD : ∀ n m, D.At n m → C.At n m) {x : Query α}
    (hx : D.Admits x a) : C.Admits x a := by
  obtain ⟨n, m, hm, e⟩ := hx
  exact ⟨n, m, hD n m hm, e⟩

/-! ## Between two queries -/

variable (src) in
/-- The moments between two queries. -/
def between : Stage src where
  At n m := n = fuel ∧ Reachable src m
  answer := by
    rintro n m q ⟨rfl, h⟩
    exact ⟨rfl, h.answer q⟩

theorem gives_between {x : Query α} : (between src).Gives x a ↔ Session.Gives src x a := by
  constructor
  · exact fun h m hm => h fuel m ⟨rfl, hm⟩
  · rintro h _ m ⟨rfl, hm⟩
    exact h m hm

theorem admits_between {x : Query α} :
    (between src).Admits x a ↔ ∃ m, Reachable src m ∧ (run src x m).1 = a := by
  constructor
  · rintro ⟨_, m, ⟨rfl, hm⟩, e⟩
    exact ⟨m, hm, e⟩
  · rintro ⟨m, hm, e⟩
    exact ⟨fuel, m, ⟨rfl, hm⟩, e⟩

theorem admits_of_gives {x : Query α} (h : Session.Gives src x a) : (between src).Admits x a :=
  admits_between.2 ⟨{}, .fresh, h {} .fresh⟩

/-! ## While an expression is typed -/

variable (src) in
/-- The moments at which exactly `ks` are entered. -/
def under (ks : List GuardKey) : Stage src where
  At n m := n = fuel - ks.length ∧ Entered src ks m
  answer := by
    rintro n m q ⟨rfl, h⟩
    exact ⟨rfl, h.answer q⟩

/-- The types of at most `d` expressions are being computed, and nothing else. -/
def TypesOnly (d : Nat) (ks : List GuardKey) : Prop :=
  ks.length ≤ d ∧ ∀ k ∈ ks, ∃ e, k = .expr e

theorem TypesOnly.cons {d : Nat} {ks : List GuardKey} (h : TypesOnly d ks) (e : NodeRef) :
    TypesOnly (d + 1) (.expr e :: ks) := by
  refine ⟨Nat.succ_le_succ h.1, fun k hk => ?_⟩
  rcases List.mem_cons.1 hk with rfl | hk
  · exact ⟨e, rfl⟩
  · exact h.2 k hk

theorem TypesOnly.mono {c d : Nat} {ks : List GuardKey} (h : TypesOnly c ks) (hcd : c ≤ d) :
    TypesOnly d ks := ⟨Nat.le_trans h.1 hcd, h.2⟩

variable (src) in
/-- The moments at which the types of at most `d` expressions, one inside the other, are
computed. -/
def typing (d : Nat) : Stage src where
  At n m := ∃ ks, TypesOnly d ks ∧ (under src ks).At n m
  answer := by
    rintro n m q ⟨ks, hks, h⟩
    exact ⟨ks, hks, (under src ks).answer q h⟩

theorem under_le_typing {d : Nat} {ks : List GuardKey} (h : TypesOnly d ks) (n : Nat) (m : Memory)
    (hm : (under src ks).At n m) : (typing src d).At n m := ⟨ks, h, hm⟩

theorem between_le_typing (d n : Nat) (m : Memory) (h : (between src).At n m) :
    (typing src d).At n m :=
  ⟨[], ⟨Nat.zero_le d, nofun⟩, h.1, .idle h.2⟩

/-- The type of an expression is computed one key further in, or it is `unknown`. -/
theorem ensures_expr {d : Nat} {ks : List GuardKey} (hks : TypesOnly d ks) (hd : d < fuel)
    {e : NodeRef} {b : Bindings} {S : Ty → Prop} (hu : S .unknown)
    (h : (under src (.expr e :: ks)).Ensures (exprType e b) S) :
    (under src ks).Ensures (Query.expr e b) S := by
  rintro n m ⟨rfl, hm⟩
  have key : (Question.expr e b).key? = some (.expr e) := rfl
  rcases hm.answer_of_key (Nat.lt_of_le_of_lt hks.1 hd) key with hr | ⟨m', hm', hr⟩
  · show S (Session.answer src (fuel - ks.length) (.expr e b) m).1
    rw [hr]
    exact hu
  · show S (Session.answer src (fuel - ks.length) (.expr e b) m).1
    rw [hr]
    exact h _ m' ⟨rfl, hm'⟩

/-! ## The standard library -/

/-- A question for the supertype of a class of the standard library. -/
abbrev IsBaseSupertype : Question → Prop := Question.IsSupertype (·.module == ModuleId.base)

/-- No clause is being resolved while expressions are typed, so the classes of the standard library
have the supertypes of their clauses. -/
theorem gives_base {d : Nat} (hd : d < Limits.exprTypeDepth) {x : Query α}
    (hx : x.Asks Standard.hierarchy IsBaseSupertype) :
    (typing src d).Gives x (x.value Standard.hierarchy) := by
  refine gives_of_asks hx (fun q hq => ?_)
  cases q with
  | supertype c =>
    obtain ⟨m, i⟩ := c
    obtain rfl : m = ModuleId.base := beq_iff_eq.1 hq
    rintro n k ⟨ks, ⟨hl, he⟩, rfl, hk⟩
    have given := hk.given (Standard.envelope src) (.supertype ⟨ModuleId.base, i⟩)
    have hf : fuel = 1506 := rfl
    have hd : d < 500 := hd
    refine ((given i rfl).1 (by omega) (Nat.lt_of_le_of_lt hl hd) (fun hs => ?_)).trans ?_
    · obtain ⟨e, he⟩ := he _ hs
      cases he
    · exact (Standard.hierarchy_supertype i).symm
  | _ => cases hq

end Stage

end PklAnalysis.Session
