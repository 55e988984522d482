import PklAnalysis.Proofs.Session.Source
import PklAnalysis.Scope.Walk

/-!
# What walks offer

A walk is followed by a visitor. Each time it is offered something the visitor may put queries of
its own, and so change what the session remembers, before the walk goes on; it may also stop.
`Session.Offers src n m w b` says that some visitor is offered `b` by `w`.

What a walk can offer is bounded like the results of a query: everything that it offers lies in `S`
if every answer on the way lies in `P` (`Walk.Within`), whatever the visitor does (`Offers.within`).
If a reading answers the questions, a walk is a list (`Walk.list`).
-/

namespace PklAnalysis

namespace Walk

variable {α β : Type} {P : (q : Question) → q.Answer → Prop} {S T : β → Prop}

/-- Everything offered lies in `S` if every answer on the way lies in `P`. -/
def Within (P : (q : Question) → q.Answer → Prop) (S : β → Prop) : Walk β → Prop
  | done => True
  | offer b rest => S b ∧ rest.Within P S
  | ask q next => ∀ a, P q a → (next a).Within P S

theorem within_done : (done : Walk β).Within P S := trivial

theorem Within.mono {w : Walk β} (h : w.Within P S) (hST : ∀ b, S b → T b) : w.Within P T := by
  induction w with
  | done => trivial
  | offer b rest ih => exact ⟨hST b h.1, ih h.2⟩
  | ask q next ih => exact fun a ha => ih a (h a ha)

theorem within_ite {c : Prop} [Decidable c] {x y : Walk β} (hx : x.Within P S) (hy : y.Within P S) :
    (if c then x else y).Within P S := by
  split
  · exact hx
  · exact hy

theorem within_append {x y : Walk β} (hx : x.Within P S) (hy : y.Within P S) :
    (x ++ y).Within P S := by
  induction x with
  | done => exact hy
  | offer b rest ih => exact ⟨hx.1, ih hx.2⟩
  | ask q next ih => exact fun a ha => ih a (hx a ha)

theorem within_ofList {bs : List β} (h : ∀ b ∈ bs, S b) : (ofList bs).Within P S := by
  induction bs with
  | nil => trivial
  | cons b bs ih =>
    exact ⟨h b List.mem_cons_self, ih (fun c hc => h c (List.mem_cons_of_mem b hc))⟩

theorem within_after {x : Query α} {A : α → Prop} {f : α → Walk β} (hx : x.Within P A)
    (hf : ∀ a, A a → (f a).Within P S) : (after x f).Within P S := by
  induction x with
  | done a => exact hf a hx
  | ask q next ih => exact fun a ha => ih a (hx a ha)

/-! ## Walks under a reading -/

section

variable (r : Reading) {Q : Question → Prop} (w x y : Walk β)

/-- What a walk offers when `r` answers the questions. -/
def list : Walk β → List β
  | done => []
  | offer b rest => b :: rest.list
  | ask q next => (next (r q)).list

/-- Every question that comes up while `r` answers has the property `Q`. -/
def Asks (Q : Question → Prop) : Walk β → Prop
  | done => True
  | offer _ rest => rest.Asks Q
  | ask q next => Q q ∧ (next (r q)).Asks Q

theorem list_append : (x ++ y).list r = x.list r ++ y.list r := by
  induction x with
  | done => rfl
  | offer b rest ih => exact congrArg (b :: ·) ih
  | ask q next ih => exact ih (r q)

theorem value_toList : w.toList.value r = w.list r := by
  induction w with
  | done => rfl
  | offer b rest ih =>
    rw [toList, Query.value_bind, ih]
    rfl
  | ask q next ih => exact ih (r q)

variable {r} {w x y}

theorem Asks.mono {Q' : Question → Prop} (h : w.Asks r Q) (hQ : ∀ q, Q q → Q' q) : w.Asks r Q' := by
  induction w with
  | done => trivial
  | offer b rest ih => exact ih h
  | ask q next ih => exact ⟨hQ q h.1, ih _ h.2⟩

theorem asks_append (hx : x.Asks r Q) (hy : y.Asks r Q) : (x ++ y).Asks r Q := by
  induction x with
  | done => exact hy
  | offer b rest ih => exact ih hx
  | ask q next ih => exact ⟨hx.1, ih _ hx.2⟩

theorem asks_ofList (bs : List β) : (ofList bs).Asks r Q := by
  induction bs with
  | nil => trivial
  | cons b bs ih => exact ih

theorem asks_ite {c : Prop} [Decidable c] (hx : x.Asks r Q) (hy : y.Asks r Q) :
    (if c then x else y).Asks r Q := by
  split
  · exact hx
  · exact hy

theorem asks_after {z : Query α} {f : α → Walk β} (hz : z.Asks r Q) (hf : ∀ a, (f a).Asks r Q) :
    (after z f).Asks r Q := by
  induction z with
  | done a => exact hf a
  | ask q next ih => exact ⟨hz.1, ih _ hz.2⟩

theorem asks_toList (h : w.Asks r Q) : w.toList.Asks r Q := by
  induction w with
  | done => trivial
  | offer b rest ih => exact (Query.asks_bind ..).2 ⟨ih h, trivial⟩
  | ask q next ih => exact ⟨h.1, ih _ h.2⟩

/-- A walk offers nothing outside its bounds if the reading keeps to them. -/
theorem Within.of_mem_list (h : w.Within P S) (hr : ∀ q, P q (r q)) {b : β} (hb : b ∈ w.list r) :
    S b := by
  induction w with
  | done => cases hb
  | offer a rest ih =>
    rcases List.mem_cons.1 hb with rfl | hb
    · exact h.1
    · exact ih h.2 hb
  | ask q next ih => exact ih _ (h _ (hr q)) hb

end

end Walk

namespace Session

variable {α β : Type}

/-- Starting with the memory `m`, a walk offers something to a visitor that puts queries of its own
between what it is offered; at most `n` questions are nested. -/
inductive Offers (src : ModuleSource) (n : Nat) : Memory → Walk β → β → Prop
  | here {m : Memory} {b : β} {rest : Walk β} : Offers src n m (.offer b rest) b
  | later {m : Memory} {a b : β} {rest : Walk β} {α : Type} (x : Query α) :
      Offers src n (x.run (answer src n) m).2 rest b → Offers src n m (.offer a rest) b
  | ask {m : Memory} {b : β} {q : Question} {next : q.Answer → Walk β} :
      Offers src n (answer src n q m).2 (next (answer src n q m).1) b → Offers src n m (.ask q next) b

variable {src : ModuleSource} {n : Nat} {m : Memory} {w : Walk β} {b : β}

theorem Offers.within {P : (q : Question) → q.Answer → Prop} {S : β → Prop}
    (hP : ∀ q m, P q (answer src n q m).1) (h : Offers src n m w b) (hw : w.Within P S) : S b := by
  induction h with
  | here => exact hw.1
  | later x _ ih => exact ih hw.2
  | ask _ ih => exact ih (hw _ (hP _ _))

end Session

/-! ## Answers about trees -/

namespace ModuleSource

/-- Questions for trees are answered by the source; other answers may be anything. -/
def TellsTrees (src : ModuleSource) : (q : Question) → q.Answer → Prop
  | .tree i, a => a = src.tree i
  | _, _ => True

variable {src : ModuleSource}

theorem tellsTrees_answer (n : Nat) (q : Question) (m : Memory) :
    src.TellsTrees q (Session.answer src n q m).1 := by
  cases q with
  | tree i => cases n <;> rfl
  | _ => trivial

theorem within_tellsTrees (m : ModuleId) :
    (Query.tree m).Within src.TellsTrees (· = src.treeOf m) :=
  Query.within_tree (fun _ _ h => h) m

end ModuleSource

end PklAnalysis
