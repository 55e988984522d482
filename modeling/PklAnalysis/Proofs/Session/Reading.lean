import PklAnalysis.Session

/-!
# Readings

A query is decided by the answers to its questions. `Query.value r` is its result when every
question is answered by the reading `r`, and `Query.Asks r P` says that only questions with the
property `P` come up on the way.

A session answers from memory and under a guard, so what it says may hang on what it was asked
before. `Session.reading src` is what a fresh session answers, a question is `Settled` if every
later answer is the same one, and `Session.Gives src x a` says that `x` comes out as `a` whenever it
is asked. `Session.gives_value` connects the two: a query that asks settled questions only has its
value.
-/

namespace PklAnalysis

/-- An answer to every question. -/
abbrev Reading := (q : Question) → q.Answer

namespace Query

/-! ## Values -/

section
variable {α β : Type} (r : Reading)

/-- The result of a query whose questions are answered by `r`. -/
def value : Query α → α
  | done a => a
  | ask q next => (next (r q)).value

@[simp] theorem value_pure (a : α) : (pure a : Query α).value r = a := rfl
@[simp] theorem value_done (a : α) : (done a).value r = a := rfl
@[simp] theorem value_ask (q : Question) (next : q.Answer → Query α) :
    (ask q next).value r = (next (r q)).value r := rfl

@[simp] theorem value_bind (x : Query α) (f : α → Query β) :
    (x >>= f).value r = (f (x.value r)).value r := by
  induction x with
  | done a => rfl
  | ask q next ih => exact ih (r q)

@[simp] theorem value_map (x : Query α) (f : α → β) : (f <$> x).value r = f (x.value r) := by
  rw [← bind_pure_comp, value_bind, value_pure]

theorem value_ite (c : Prop) [Decidable c] (x y : Query α) :
    (if c then x else y).value r = if c then x.value r else y.value r := by
  split <;> rfl

@[simp] theorem value_supertype (d : NodeRef) : (supertype d).value r = r (.supertype d) := rfl
@[simp] theorem value_expansion (d : NodeRef) (as : List Ty) (c : Constraints) :
    (expansion d as c).value r = r (.expansion d as c) := rfl

/-! ## Questions that come up -/

/-- Every question that comes up while `r` answers has the property `P`. -/
def Asks (P : Question → Prop) : Query α → Prop
  | done _ => True
  | ask q next => P q ∧ (next (r q)).Asks P

variable {r} {P : Question → Prop}

@[simp] theorem asks_pure (a : α) : (pure a : Query α).Asks r P := trivial
@[simp] theorem asks_done (a : α) : (done a).Asks r P := trivial
@[simp] theorem asks_ask (q : Question) (next : q.Answer → Query α) :
    (ask q next).Asks r P ↔ P q ∧ (next (r q)).Asks r P := Iff.rfl

@[simp] theorem asks_bind (x : Query α) (f : α → Query β) :
    (x >>= f).Asks r P ↔ x.Asks r P ∧ (f (x.value r)).Asks r P := by
  induction x with
  | done a => exact (and_iff_right trivial).symm
  | ask q next ih =>
    show P q ∧ (next (r q) >>= f).Asks r P ↔ (P q ∧ (next (r q)).Asks r P) ∧ _
    rw [ih (r q), and_assoc]
    rfl

theorem asks_mono {Q : Question → Prop} (h : ∀ q, P q → Q q) {x : Query α} (hx : x.Asks r P) :
    x.Asks r Q := by
  induction x with
  | done a => trivial
  | ask q next ih => exact ⟨h q hx.1, ih (r q) hx.2⟩

theorem asks_of_forall (h : ∀ q, P q) (x : Query α) : x.Asks r P := by
  induction x with
  | done a => trivial
  | ask q next ih => exact ⟨h q, ih (r q)⟩

end

end Query

/-! ## What sessions answer -/

namespace Session

variable (src : ModuleSource) {α β : Type}

/-- The memories that a session can have between two queries. -/
inductive Reachable : Memory → Prop
  | fresh : Reachable {}
  | query {α : Type} (x : Query α) {m : Memory} : Reachable m → Reachable (run src x m).2

/-- A query comes out as `a` whatever the session was asked before. -/
def Gives (x : Query α) (a : α) : Prop := ∀ m, Reachable src m → (run src x m).1 = a

/-- What a session that was asked nothing before answers. -/
def reading : Reading := fun q => (answer src fuel q {}).1

/-- What the session answers to a question does not hang on what it was asked before. -/
def Settled (q : Question) : Prop := ∀ m, Reachable src m → (answer src fuel q m).1 = reading src q

theorem answer_succ (n : Nat) (q : Question) :
    answer src (n + 1) q = keep src q ((body q).run (answer src n)) := rfl

theorem fuel_eq : fuel = 1505 + 1 := rfl

theorem run_done (a : α) (m : Memory) : run src (.done a) m = (a, m) := rfl

theorem run_ask (q : Question) (next : q.Answer → Query α) (m : Memory) :
    run src (.ask q next) m =
      run src (next (answer src fuel q m).1) (answer src fuel q m).2 := rfl

theorem run_bind (x : Query α) (f : α → Query β) (m : Memory) :
    run src (x >>= f) m = run src (f (run src x m).1) (run src x m).2 := by
  show (x >>= f).run (answer src fuel) m = _
  rw [Query.run_bind]
  rfl

variable {src}

theorem Reachable.answer {m : Memory} (h : Reachable src m) (q : Question) :
    Reachable src (answer src fuel q m).2 := h.query (.ask q .done)

theorem Gives.unique {x : Query α} {a b : α} (ha : Gives src x a) (hb : Gives src x b) : a = b :=
  (ha _ .fresh).symm.trans (hb _ .fresh)

theorem gives_pure (a : α) : Gives src (pure a) a := fun _ _ => rfl

theorem Gives.bind {x : Query α} {f : α → Query β} {a : α} {b : β} (hx : Gives src x a)
    (hf : Gives src (f a) b) : Gives src (x >>= f) b := by
  intro m hm
  rw [run_bind, hx m hm]
  exact hf _ (hm.query x)

/-- A question with one answer is settled, and a fresh session gives this answer. -/
theorem gives_ask_iff {q : Question} {a : q.Answer} :
    Gives src (.ask q .done) a ↔ Settled src q ∧ reading src q = a := by
  constructor
  · intro h
    have hr : reading src q = a := h _ .fresh
    exact ⟨fun m hm => (h m hm).trans hr.symm, hr⟩
  · rintro ⟨h, rfl⟩ m hm
    exact h m hm

/-- A query has its value under a reading if the session gives the answers of this reading to every
question that comes up. -/
theorem gives_of_asks {x : Query α} {r : Reading} {P : Question → Prop} (hx : x.Asks r P)
    (h : ∀ q, P q → Gives src (.ask q .done) (r q)) : Gives src x (x.value r) := by
  induction x with
  | done a => exact gives_pure a
  | ask q next ih => exact (h q hx.1).bind (ih (r q) hx.2)

/-- A query that asks settled questions only has its value whenever it is asked. -/
theorem gives_value {x : Query α} (h : x.Asks (reading src) (Settled src)) :
    Gives src x (x.value (reading src)) :=
  gives_of_asks h (fun _ hq => gives_ask_iff.2 ⟨hq, rfl⟩)

end Session

end PklAnalysis
