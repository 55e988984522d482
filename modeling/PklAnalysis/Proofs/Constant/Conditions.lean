import Mathlib.Logic.Relation
import Mathlib.Tactic.IntervalCases
import PklAnalysis.Constant.Eval
import PklAnalysis.Proofs.Syntax.WellFormed

/-!
# Conditions and values

An expression can be evaluated as a condition or for its value. The two evaluations call each other,
they treat `&&`, `||`, `!` and parentheses each in a way of its own, and a condition takes up to
twice as much of the depth as a value. Where the depth suffices for both, a condition holds if the
value is `true`, fails if it is `false`, and is undecided otherwise (`Eval.truth_eq`). What refers
to nothing but its own parts has the same value under every receiver (`Eval.value_of_closed`).

* `Eval.construct_congr`: what a construct comes to hangs on what its parts come to.
* `Eval.condition_construct`: if the parts are conditions just as they are values, so is the whole.
-/

namespace PklAnalysis

/-- What a result says as a condition. -/
def Truth.ofResult : Option Constant → Truth
  | some (.bool b) => .ofBool b
  | _ => .undecided

namespace Construct

/-- The parts of a construct that its evaluation may look at. -/
def evaluated : Construct → List NodeIndex
  | .grouped i => [i]
  | .unary _ i => [i]
  | .binary _ l r => [l, r]
  | .ifElse c a b => [c, a, b]
  | .access _ args => args.getD []
  | .memberAccess i _ args _ => i :: args.getD []
  | _ => []

/-- Whether the construct refers to the value that a constraint is about: by `this`, or by a name,
which is that of a parameter or of a member of the value. `Regex` alone is a name of its own. -/
def mentionsThis : Construct → Bool
  | .this => true
  | .access _ none => true
  | .access name (some _) => name != "Regex"
  | _ => false

end Construct

namespace SyntaxTree

variable (t : SyntaxTree)

/-- The parts of an expression that its evaluation may look at. -/
def evaluated (i : NodeIndex) : List NodeIndex :=
  ((t.construct? i).map Construct.evaluated).getD []

/-- What is evaluated of an expression nests less than `n` deep. -/
def NestsBelow : Nat → NodeIndex → Prop
  | 0, _ => False
  | n + 1, i => ∀ j ∈ t.evaluated i, NestsBelow n j

instance decidableNestsBelow : ∀ n i, Decidable (t.NestsBelow n i)
  | 0, _ => isFalse id
  | n + 1, i =>
    have := decidableNestsBelow n
    inferInstanceAs (Decidable (∀ j ∈ t.evaluated i, t.NestsBelow n j))

/-- Nothing that is evaluated of an expression refers to the value that a constraint is about. -/
def Closed (e : NodeIndex) : Prop :=
  ∀ i, Relation.ReflTransGen (fun i j => j ∈ t.evaluated i) e i →
    ∀ c, t.construct? i = some c → c.mentionsThis = false

variable {t}

theorem mem_evaluated {i j : NodeIndex} {c : Construct} (hc : t.construct? i = some c)
    (hj : j ∈ c.evaluated) : j ∈ t.evaluated i := by
  rw [evaluated, hc]
  exact hj

theorem Closed.part {i j : NodeIndex} (h : t.Closed i) (hj : j ∈ t.evaluated i) : t.Closed j :=
  fun k hk => h k (.head hj hk)

end SyntaxTree

namespace Eval

variable {r r' : Receiver} {value value' : NodeIndex → Eval Constant}
  {truth truth' : NodeIndex → Except EvalError Truth}

/-! ## What a construct hangs on -/

theorem mapM_congr {f g : NodeIndex → Eval Constant} {is : List NodeIndex}
    (h : ∀ i ∈ is, f i = g i) : is.mapM f = is.mapM g := by
  induction is with
  | nil => rfl
  | cons i is ih =>
    rw [List.mapM_cons, List.mapM_cons, h i List.mem_cons_self,
      ih (fun j hj => h j (List.mem_cons_of_mem _ hj))]

theorem construct_congr {c : Construct} (hv : ∀ i ∈ c.evaluated, value i = value' i)
    (ht : ∀ i ∈ c.evaluated, truth i = truth' i) :
    construct r value truth c = construct r value' truth' c := by
  cases c with
  | grouped i => exact hv i (List.mem_singleton_self i)
  | unary op i =>
    have hi : value i = value' i := hv i (List.mem_singleton_self i)
    simp only [construct, hi]
  | binary op l r =>
    obtain ⟨hl, hr⟩ : value l = value' l ∧ value r = value' r := by
      simpa [Construct.evaluated] using hv
    obtain ⟨tl, tr⟩ : truth l = truth' l ∧ truth r = truth' r := by
      simpa [Construct.evaluated] using ht
    cases op <;> simp only [construct, conjunction, disjunction, hl, hr, tl, tr]
  | ifElse c a b =>
    obtain ⟨hc, ha, hb⟩ : value c = value' c ∧ value a = value' a ∧ value b = value' b := by
      simpa [Construct.evaluated] using hv
    simp only [construct, hc, ha, hb]
  | access name args =>
    cases args with
    | none => rfl
    | some args =>
      have hs : args.mapM value = args.mapM value' := mapM_congr hv
      simp only [construct, hs]
  | memberAccess i name args nullSafe =>
    have hi : value i = value' i := hv i List.mem_cons_self
    cases args with
    | none => simp only [construct, hi]
    | some args =>
      have hs : args.mapM value = args.mapM value' :=
        mapM_congr (fun j hj => hv j (List.mem_cons_of_mem _ hj))
      simp only [construct, hi, hs]
  | _ => rfl

/-- The receiver plays no part in a construct that does not refer to it. -/
theorem construct_receiver {c : Construct} (h : c.mentionsThis = false) :
    construct r value truth c = construct r' value truth c := by
  cases c with
  | this => cases h
  | access name args =>
    cases args with
    | none => cases h
    | some args =>
      have regex : name = "Regex" := by simpa [Construct.mentionsThis] using h
      simp only [construct, if_pos regex]
  | binary op i j => cases op <;> rfl
  | _ => rfl

/-! ## Conditions -/

/-- To look for a boolean is to read the result as a condition. -/
theorem condition_other (truth : NodeIndex → Except EvalError Truth) (x : Eval Constant) :
    condition truth x none = Truth.ofResult <$> x.run := by
  show (x.run >>= fun a => _) = _
  rw [map_eq_pure_bind]
  refine congrArg (x.run >>= ·) (funext fun a => ?_)
  rcases a with _ | (_ | _ | _ | _ | _ | _) <;> rfl

theorem ofResult_ofTruth (x : Except EvalError Truth) : Truth.ofResult <$> (ofTruth x).run = x := by
  rcases x with e | (_ | _ | _) <;> rfl

/-- The value of a negation says the opposite of what its operand says. -/
theorem ofResult_not (x : Eval Constant) :
    Truth.ofResult <$> (x >>= fun v => ofOption (Constant.unary .not v)).run =
      Truth.not <$> (Truth.ofResult <$> x.run) := by
  rcases x with e | (_ | (_ | b | _ | _ | _ | _))
  case ok.some.bool => cases b <;> rfl
  all_goals rfl

theorem condition_construct {c : Construct}
    (h : ∀ i ∈ c.evaluated, truth i = Truth.ofResult <$> (value i).run) :
    condition truth (construct r value truth c) (some c) =
      Truth.ofResult <$> (construct r value truth c).run := by
  cases c with
  | grouped i => exact h i (List.mem_singleton_self i)
  | unary op i =>
    cases op with
    | neg => exact condition_other truth _
    | not =>
      have hi := h i (List.mem_singleton_self i)
      show Truth.not <$> truth i = _
      rw [hi]
      exact (ofResult_not (value i)).symm
  | binary op l r =>
    cases op with
    | and => exact (ofResult_ofTruth (conjunction truth l r)).symm
    | or => exact (ofResult_ofTruth (disjunction truth l r)).symm
    | _ => exact condition_other truth _
  | _ => exact condition_other truth _

/-! ## Expressions -/

variable {t : SyntaxTree}

theorem value_succ (n : Nat) (i : NodeIndex) : Eval.value t r (n + 1) i =
    ((t.construct? i).elim failure (construct r (Eval.value t r n) (Eval.truth t r n))) := by
  rw [Eval.value]
  cases t.construct? i <;> rfl

/-- An expression that nests less than `k` deep has its value from a depth of `2 * k - 1` on, and
its truth, which is that of its value, from `2 * k` on. -/
theorem settled_of_nestsBelow {k : Nat} {i : NodeIndex} (h : t.NestsBelow k i) :
    (∀ m n, 2 * k ≤ m + 1 → 2 * k ≤ n + 1 → Eval.value t r m i = Eval.value t r n i) ∧
      ∀ n, 2 * k ≤ n → Eval.truth t r n i = Truth.ofResult <$> (Eval.value t r n i).run := by
  induction k generalizing i with
  | zero => exact h.elim
  | succ k ih =>
    have parts : ∀ m n, 2 * k ≤ m → 2 * k ≤ n → ∀ j ∈ t.evaluated i,
        Eval.value t r m j = Eval.value t r n j ∧ Eval.truth t r m j = Eval.truth t r n j := by
      intro m n hm hn j hj
      obtain ⟨value, truth⟩ := ih (h j hj)
      have same := value m n (by omega) (by omega)
      exact ⟨same, by rw [truth m hm, truth n hn, same]⟩
    have value : ∀ m n, 2 * (k + 1) ≤ m + 1 → 2 * (k + 1) ≤ n + 1 →
        Eval.value t r m i = Eval.value t r n i := by
      intro m n hm hn
      obtain ⟨m, rfl⟩ : ∃ j, m = j + 1 := Nat.exists_eq_succ_of_ne_zero (by omega)
      obtain ⟨n, rfl⟩ : ∃ j, n = j + 1 := Nat.exists_eq_succ_of_ne_zero (by omega)
      rw [value_succ, value_succ]
      cases hc : t.construct? i with
      | none => rfl
      | some c =>
        have same := fun j hj => parts m n (by omega) (by omega) j (t.mem_evaluated hc hj)
        exact construct_congr (fun j hj => (same j hj).1) (fun j hj => (same j hj).2)
    refine ⟨value, fun n hn => ?_⟩
    obtain ⟨n, rfl⟩ : ∃ j, n = j + 1 := Nat.exists_eq_succ_of_ne_zero (by omega)
    -- a condition that is none of its own kind spends one more step on its value
    rw [Eval.truth, value n (n + 1) (by omega) (by omega), value_succ]
    cases hc : t.construct? i with
    | none => exact condition_other _ _
    | some c => exact condition_construct (fun j hj =>
        (ih (h j (t.mem_evaluated hc hj))).2 n (by omega))

/-- Where the depth suffices, truth is what the value says. -/
theorem truth_eq {k n : Nat} {i : NodeIndex} (h : t.NestsBelow k i) (hn : 2 * k ≤ n) :
    Eval.truth t r n i = Truth.ofResult <$> (Eval.value t r n i).run :=
  (settled_of_nestsBelow h).2 n hn

/-- Under every receiver a closed expression has the same value. -/
theorem value_of_closed (r r' : Receiver) {k n : Nat} {i : NodeIndex} (h : t.NestsBelow k i)
    (closed : t.Closed i) (hn : 2 * k ≤ n + 1) : Eval.value t r n i = Eval.value t r' n i := by
  induction k generalizing i n with
  | zero => exact h.elim
  | succ k ih =>
    obtain ⟨n, rfl⟩ : ∃ j, n = j + 1 := Nat.exists_eq_succ_of_ne_zero (by omega)
    rw [value_succ, value_succ]
    cases hc : t.construct? i with
    | none => rfl
    | some c =>
      have value : ∀ j ∈ c.evaluated, Eval.value t r n j = Eval.value t r' n j := by
        intro j hj
        have hj := t.mem_evaluated hc hj
        exact ih (h j hj) (closed.part hj) (by omega)
      have truth : ∀ j ∈ c.evaluated, Eval.truth t r n j = Eval.truth t r' n j := by
        intro j hj
        have nests := h j (t.mem_evaluated hc hj)
        rw [truth_eq nests (by omega), truth_eq nests (by omega), value j hj]
      have own : c.mentionsThis = false := closed i .refl c hc
      exact (construct_congr value truth).trans (construct_receiver own)

end Eval

namespace SyntaxTree

variable {t : SyntaxTree}

theorem satisfies_of_not_lambda {e : NodeIndex} (he : ∀ ps b, t.construct? e ≠ some (.lambda ps b))
    (v : Constant) :
    t.satisfies v e = Eval.truth t ⟨some v, none⟩ Limits.constantDepth e := by
  unfold satisfies
  split
  · next p b h => exact absurd h (he _ _)
  · next h => exact absurd h (he _ _)
  · rfl

/-- An expression that nests less than half as deep as the limit is a condition just as it is a
value, under every receiver: it holds, fails, is undecided or is broken off as its value says. If
it is closed and no lambda, then as a constraint it says of every value what its own value says. -/
theorem truth_coincides_value {e : NodeIndex} (h : t.NestsBelow (Limits.constantDepth / 2) e) :
    (∀ r, Eval.truth t r Limits.constantDepth e =
      Truth.ofResult <$> (Eval.value t r Limits.constantDepth e).run) ∧
    (t.Closed e → (∀ ps b, t.construct? e ≠ some (.lambda ps b)) → ∀ v,
      t.satisfies v e = Truth.ofResult <$> t.constant? e) := by
  refine ⟨fun r => Eval.truth_eq h (by decide), fun closed he v => ?_⟩
  have same := Eval.value_of_closed ⟨some v, none⟩ {} h closed
    (show 2 * (Limits.constantDepth / 2) ≤ Limits.constantDepth + 1 by decide)
  rw [satisfies_of_not_lambda he, Eval.truth_eq h (by decide), same]
  rfl

/-! ### An example -/

/-- The expression `!(1 == 2) && "ab".isEmpty`. -/
def guardTree : SyntaxTree where
  uri := "file:///guard.pkl"
  module := 1
  nodes := #[⟨.intLit 1, .nowhere, some 2⟩, ⟨.intLit 2, .nowhere, some 2⟩,
    ⟨.binary .eq 0 1, .nowhere, some 3⟩, ⟨.grouped 2, .nowhere, some 4⟩,
    ⟨.unary .not 3, .nowhere, some 7⟩, ⟨.stringLit "ab", .nowhere, some 6⟩,
    ⟨.memberAccess 5 "isEmpty" none false, .nowhere, some 7⟩,
    ⟨.binary .and 4 6, .nowhere, none⟩]
  root := 7

theorem closed_guard : guardTree.Closed 7 := by
  intro i _ c hc
  have bound : i < 8 := lt_size_of_construct hc
  interval_cases i <;> cases hc <;> rfl

/-- The expression nests less than four deep. As a constraint it fails for every value. -/
theorem truth_coincides_value_guard : guardTree.NestsBelow (Limits.constantDepth / 2) 7 ∧
    ∀ v, guardTree.satisfies v 7 = .ok .no := by
  have nests : guardTree.NestsBelow (Limits.constantDepth / 2) 7 := by decide
  refine ⟨nests, fun v => ?_⟩
  rw [(truth_coincides_value nests).2 closed_guard nofun v]
  rfl

end SyntaxTree

end PklAnalysis
