import PklAnalysis.Proofs.Constant.Conditions
import PklAnalysis.Proofs.Constant.Kinds

/-!
# More information

An expression that is not understood has no value, and a condition that needs it is undecided. If a
literal is put in its place, then whatever was known stays as it is: every construct, under the
depth that both evaluations share, either passes on that a part has no value or does without this
part (`improves_construct`, `refines_condition`).

An evaluation can also be broken off, when a text is repeated too often. A literal can be what such
a call was lacking, so that a condition that was decided without it is broken off then
(`not_kept_overflow`). Otherwise decisions are kept (`SyntaxTree.decision_kept`).
-/

namespace PklAnalysis

namespace Construct

/-- An expression that has no value, whatever its parts are. -/
def isUnevaluated : Construct → Bool
  | .outer | .moduleExpr | .superAccess _ _ | .newObject _ _ | .amend _ _ | .binary .pipe _ _
  | .nonNull _ | .typeTest _ _ | .typeCast _ _ | .letIn _ _ _ | .lambda _ _ | .importExpr _ _
  | .subscript _ _ | .throwExpr _ => true
  | _ => false

def isLiteral : Construct → Bool
  | .stringLit _ | .intLit _ | .floatLit _ | .boolLit _ | .nullLit => true
  | _ => false

theorem name_of_isUnevaluated {c : Construct} (h : c.isUnevaluated = true) : c.name? = none := by
  cases c <;> first | rfl | cases h

theorem name_of_isLiteral {c : Construct} (h : c.isLiteral = true) : c.name? = none := by
  cases c <;> first | rfl | cases h

end Construct

/-- The second tree has a literal where the first one has an expression that is not evaluated.
Everywhere else they have the same constructs. -/
structure Fills (t t' : SyntaxTree) (hole : NodeIndex) : Prop where
  before : ∃ c, t.construct? hole = some c ∧ c.isUnevaluated = true
  after : ∃ c, t'.construct? hole = some c ∧ c.isLiteral = true
  elsewhere : ∀ i, i ≠ hole → t'.construct? i = t.construct? i

theorem Fills.name_eq {t t' : SyntaxTree} {hole : NodeIndex} (h : Fills t t' hole) (i : NodeIndex) :
    t'.name? i = t.name? i := by
  unfold SyntaxTree.name?
  by_cases hi : i = hole
  · obtain ⟨c, hc, unevaluated⟩ := h.before
    obtain ⟨c', hc', literal⟩ := h.after
    rw [hi, hc, hc', Option.bind_some, Option.bind_some,
      Construct.name_of_isUnevaluated unevaluated, Construct.name_of_isLiteral literal]
  · rw [h.elsewhere i hi]

namespace Eval

variable {α β : Type}

/-! ## Values -/

/-- If the first evaluation has a value, then the second one has the same value or is broken off. -/
def Improves (x y : Eval α) : Prop := ∀ a, x = pure a → y = pure a ∨ ∃ e, y.run = .error e

theorem Improves.refl (x : Eval α) : Improves x x := fun _ => .inl

theorem improves_of_ne_pure {x : Eval α} (h : ∀ a, x ≠ pure a) (y : Eval α) : Improves x y :=
  fun a ha => absurd ha (h a)

theorem Improves.bind {x y : Eval α} {f g : α → Eval β} (h : Improves x y)
    (hf : ∀ a, Improves (f a) (g a)) : Improves (x >>= f) (y >>= g) := by
  intro b hb
  obtain ⟨a, hx, ha⟩ := bind_eq_pure hb
  rcases h a hx with hy | ⟨e, hy⟩
  · rw [hy]
    exact hf a b ha
  · right
    exact ⟨e, by rw [OptionT.run_bind, hy]; rfl⟩

theorem improves_mapM {f g : NodeIndex → Eval Constant} (h : ∀ i, Improves (f i) (g i))
    (is : List NodeIndex) : Improves (is.mapM f) (is.mapM g) := by
  induction is with
  | nil => exact .refl _
  | cons i is ih =>
    rw [List.mapM_cons, List.mapM_cons]
    exact (h i).bind (fun v => ih.bind (fun vs => .refl _))

/-! ## Truths -/

/-- If the first condition is decided, then the second one is decided alike or broken off. -/
def Refines (x y : Except EvalError Truth) : Prop :=
  ∀ b, b ≠ .undecided → x = .ok b → y = .ok b ∨ ∃ e, y = .error e

theorem refines_undecided (y : Except EvalError Truth) : Refines (.ok .undecided) y := by
  intro b hb h
  cases h
  exact absurd rfl hb

theorem Refines.not {x y : Except EvalError Truth} (h : Refines x y) :
    Refines (Truth.not <$> x) (Truth.not <$> y) := by
  intro b hb hx
  rcases x with e | a
  · cases hx
  have ha : a ≠ .undecided := by
    rintro rfl
    cases hx
    exact hb rfl
  rcases h a ha rfl with rfl | ⟨e, rfl⟩
  · exact .inl hx
  · exact .inr ⟨e, rfl⟩

section

variable {truth truth' : NodeIndex → Except EvalError Truth}
  (h : ∀ i, Refines (truth i) (truth' i))
include h

theorem refines_conjunction (l r : NodeIndex) :
    Refines (conjunction truth l r) (conjunction truth' l r) := by
  intro b hb hx
  unfold conjunction at hx ⊢
  cases hl : truth l with
  | error e => rw [hl] at hx; cases hx
  | ok left =>
    rw [hl] at hx
    cases left with
    | no =>
      cases hx
      rcases h l .no nofun hl with hl' | ⟨e, hl'⟩ <;> rw [hl']
      · exact .inl rfl
      · exact .inr ⟨e, rfl⟩
    | yes =>
      have hr : truth r = .ok b := by
        rcases hr : truth r with e | (_ | _ | _) <;> rw [hr] at hx <;> cases hx <;> rfl
      rcases h l .yes nofun hl with hl' | ⟨e, hl'⟩ <;> rw [hl']
      · rcases h r b hb hr with hr' | ⟨e, hr'⟩ <;> rw [hr']
        · left; cases b <;> rfl
        · exact .inr ⟨e, rfl⟩
      · exact .inr ⟨e, rfl⟩
    | undecided =>
      -- the left side was done without, so it is the right side that fails
      obtain ⟨rfl, hr⟩ : b = .no ∧ truth r = .ok .no := by
        rcases hr : truth r with e | (_ | _ | _) <;> rw [hr] at hx <;> cases hx
        · exact absurd rfl hb
        · exact ⟨rfl, rfl⟩
        · exact absurd rfl hb
      rcases truth' l with e | left'
      · exact .inr ⟨e, rfl⟩
      · rcases h r .no nofun hr with hr' | ⟨e, hr'⟩ <;> rw [hr'] <;> cases left'
        all_goals first
          | exact .inl rfl
          | exact .inr ⟨_, rfl⟩

omit h in
theorem disjunction_eq (l r : NodeIndex) : disjunction truth l r =
    Truth.not <$> conjunction (fun i => Truth.not <$> truth i) l r := by
  unfold disjunction conjunction
  beta_reduce
  rcases truth l with e | (_ | _ | _) <;> rcases truth r with e' | (_ | _ | _) <;> rfl

theorem refines_disjunction (l r : NodeIndex) :
    Refines (disjunction truth l r) (disjunction truth' l r) := by
  rw [disjunction_eq, disjunction_eq]
  exact (refines_conjunction (fun i => (h i).not) l r).not

end

theorem improves_ofTruth {x y : Except EvalError Truth} (h : Refines x y) :
    Improves (ofTruth x) (ofTruth y) := by
  intro v hv
  rcases x with e | b
  · cases hv
  have hb : b ≠ .undecided := by
    rintro rfl
    cases hv
  rcases h b hb rfl with rfl | ⟨e, rfl⟩
  · exact .inl hv
  · exact .inr ⟨e, rfl⟩

theorem refines_ofResult {x y : Eval Constant} (h : Improves x y) :
    Refines (Truth.ofResult <$> x.run) (Truth.ofResult <$> y.run) := by
  intro b hb hx
  rcases x with e | (_ | v)
  · cases hx
  · cases hx
    exact absurd rfl hb
  · rcases h v rfl with hy | ⟨e, hy⟩
    · rw [hy]
      exact .inl hx
    · rw [hy]
      exact .inr ⟨e, rfl⟩

/-! ## Constructs -/

section

variable {r : Receiver} {value value' : NodeIndex → Eval Constant}
  {truth truth' : NodeIndex → Except EvalError Truth}

theorem construct_of_isUnevaluated {c : Construct} (h : c.isUnevaluated = true) (v : Constant) :
    construct r value truth c ≠ pure v := by
  intro hv
  cases c with
  | binary op i j =>
    cases op with
    | pipe =>
      obtain ⟨a, -, hv⟩ := bind_eq_pure hv
      obtain ⟨b, -, hv⟩ := bind_eq_pure hv
      cases ofOption_eq_pure hv
    | _ => cases h
  | outer | moduleExpr | superAccess | newObject | amend | nonNull | typeTest | typeCast | letIn
  | lambda | importExpr | subscript | throwExpr => exact failure_ne_pure hv
  | _ => cases h

theorem condition_of_isUnevaluated {c : Construct} (h : c.isUnevaluated = true)
    (x : Eval Constant) : condition truth x (some c) = Truth.ofResult <$> x.run := by
  cases c with
  | binary op i j =>
    cases op with
    | pipe => exact condition_other truth x
    | _ => cases h
  | unary | grouped => cases h
  | _ => exact condition_other truth x

variable (hv : ∀ i, Improves (value i) (value' i)) (ht : ∀ i, Refines (truth i) (truth' i))
include hv ht

/-- Every construct passes on that a part has no value, or does without this part. -/
theorem improves_construct (c : Construct) :
    Improves (construct r value truth c) (construct r value' truth' c) := by
  cases c with
  | grouped i => exact hv i
  | unary op i => exact (hv i).bind (fun v => .refl _)
  | binary op i j =>
    cases op with
    | and => exact improves_ofTruth (refines_conjunction ht i j)
    | or => exact improves_ofTruth (refines_disjunction ht i j)
    | coalesce =>
      refine (hv i).bind (fun v => ?_)
      split
      · exact hv j
      · exact .refl _
    | _ => exact (hv i).bind (fun a => (hv j).bind (fun b => .refl _))
  | ifElse c a b =>
    refine (hv c).bind (fun v => ?_)
    split
    · exact hv a
    · exact hv b
    · exact .refl _
  | access name args =>
    cases args with
    | none => exact .refl _
    | some args => exact (improves_mapM hv args).bind (fun vs => .refl _)
  | memberAccess i name args nullSafe =>
    refine (hv i).bind (fun v => ?_)
    split
    · exact .refl _
    · cases args with
      | none => exact .refl _
      | some args => exact (improves_mapM hv args).bind (fun vs => .refl _)
  | _ => exact .refl _

omit hv in
theorem refines_condition {x y : Eval Constant} (hx : Improves x y) (c : Option Construct) :
    Refines (condition truth x c) (condition truth' y c) := by
  have other : ∀ {c}, condition truth x c = Truth.ofResult <$> x.run →
      condition truth' y c = Truth.ofResult <$> y.run →
      Refines (condition truth x c) (condition truth' y c) := by
    intro c h h'
    rw [h, h']
    exact refines_ofResult hx
  cases c with
  | none => exact other (condition_other truth x) (condition_other truth' y)
  | some c =>
    cases c with
    | grouped i => exact ht i
    | unary op i =>
      cases op with
      | not => exact (ht i).not
      | neg => exact other (condition_other truth x) (condition_other truth' y)
    | binary op i j =>
      cases op with
      | and => exact refines_conjunction ht i j
      | or => exact refines_disjunction ht i j
      | _ => exact other (condition_other truth x) (condition_other truth' y)
    | _ => exact other (condition_other truth x) (condition_other truth' y)

end

/-! ## Trees -/

variable {t t' : SyntaxTree} {hole : NodeIndex} {r : Receiver}

theorem value_of_isUnevaluated {i : NodeIndex} {c : Construct} (hc : t.construct? i = some c)
    (h : c.isUnevaluated = true) (n : Nat) (v : Constant) : value t r n i ≠ pure v := by
  cases n with
  | zero => exact fun hv => failure_ne_pure hv
  | succ n =>
    rw [value_succ, hc]
    exact construct_of_isUnevaluated h v

theorem refines_of_isUnevaluated {i : NodeIndex} {c : Construct} (hc : t.construct? i = some c)
    (h : c.isUnevaluated = true) (n : Nat) (y : Except EvalError Truth) :
    Refines (truth t r n i) y := by
  cases n with
  | zero => exact refines_undecided y
  | succ n =>
    rw [truth, hc, condition_of_isUnevaluated h]
    intro b hb hx
    -- only a boolean decides
    rcases hv : value t r n i with e | (_ | v) <;> rw [hv] at hx
    · cases hx
    · cases hx
      exact absurd rfl hb
    · exact absurd hv (value_of_isUnevaluated hc h n v)

/-- What is known stays known when a literal is put in. -/
theorem improves_of_fills (h : Fills t t' hole) (r : Receiver) (n : Nat) :
    (∀ i, Improves (value t r n i) (value t' r n i)) ∧
      ∀ i, Refines (truth t r n i) (truth t' r n i) := by
  obtain ⟨c, hc, unevaluated⟩ := h.before
  induction n with
  | zero => exact ⟨fun i => .refl _, fun i => refines_undecided _⟩
  | succ n ih =>
    obtain ⟨hv, ht⟩ := ih
    refine ⟨fun i => ?_, fun i => ?_⟩
    · by_cases hi : i = hole
      · exact improves_of_ne_pure (hi ▸ value_of_isUnevaluated hc unevaluated (n + 1)) _
      · rw [value_succ, value_succ, h.elsewhere i hi]
        cases t.construct? i with
        | none => exact .refl _
        | some c => exact improves_construct hv ht c
    · by_cases hi : i = hole
      · exact hi ▸ refines_of_isUnevaluated hc unevaluated (n + 1) _
      · rw [truth, truth, h.elsewhere i hi]
        exact refines_condition ht (hv i) _

/-! ## Evaluations that are broken off -/

/-- The evaluation is broken off in this case only. -/
def BreaksOnlyIf (P : Prop) (x : Except EvalError α) : Prop := ∀ e, x = .error e → P

section

variable {P : Prop}

theorem breaksOnlyIf_ok (a : α) : BreaksOnlyIf P (.ok a : Except EvalError α) := nofun

theorem BreaksOnlyIf.bind {x : Except EvalError α} {f : α → Except EvalError β}
    (h : BreaksOnlyIf P x) (hf : ∀ a, x = .ok a → BreaksOnlyIf P (f a)) :
    BreaksOnlyIf P (x >>= f) := by
  cases x with
  | error e => exact fun _ _ => h e rfl
  | ok a => exact hf a rfl

theorem BreaksOnlyIf.map {x : Except EvalError α} (h : BreaksOnlyIf P x) (f : α → β) :
    BreaksOnlyIf P (f <$> x) := by
  rw [map_eq_pure_bind]
  exact h.bind (fun a _ => breaksOnlyIf_ok (f a))

theorem BreaksOnlyIf.run_bind {x : Eval α} {f : α → Eval β} (h : BreaksOnlyIf P x.run)
    (hf : ∀ a, x = pure a → BreaksOnlyIf P (f a).run) : BreaksOnlyIf P (x >>= f).run := by
  rcases x with e | (_ | a)
  · exact fun _ _ => h e rfl
  · exact breaksOnlyIf_ok none
  · exact hf a rfl

theorem breaksOnlyIf_ofOption (x : Option α) : BreaksOnlyIf P (ofOption x).run := breaksOnlyIf_ok x

theorem breaksOnlyIf_failure : BreaksOnlyIf P (failure : Eval α).run := breaksOnlyIf_ok none

theorem breaksOnlyIf_mapM {f : NodeIndex → Eval Constant} (h : ∀ i, BreaksOnlyIf P (f i).run)
    (is : List NodeIndex) : BreaksOnlyIf P (is.mapM f).run := by
  induction is with
  | nil => exact breaksOnlyIf_ok (some [])
  | cons i is ih =>
    rw [List.mapM_cons]
    exact (h i).run_bind (fun v _ => ih.run_bind (fun vs _ => breaksOnlyIf_ok (some (v :: vs))))

end

/-- A method is broken off only if it repeats a text too often. -/
theorem method_breaksOnlyIf (v : Constant) (name : String) (args : List Constant) :
    BreaksOnlyIf (∃ s k, v = .string s ∧ name = "repeat" ∧ args = [.int k] ∧
      Constant.maxTextSize < s.utf8ByteSize * k.toInt.toNat) (v.method name args).run := by
  cases v with
  | string s =>
    unfold Constant.method Constant.stringMethod
    dsimp only
    split
    case h_9 k =>
      split
      · exact breaksOnlyIf_failure
      refine BreaksOnlyIf.run_bind (fun e h => ?_) (fun text _ => breaksOnlyIf_ok _)
      unfold Constant.repeated at h
      split at h
      · next long => exact ⟨s, k, rfl, rfl, rfl, long⟩
      · split at h <;> cases h
    all_goals exact breaksOnlyIf_ok _
  | _ => exact breaksOnlyIf_ok _

/-- The call of a method with the value it is called on, its name and its arguments. -/
inductive Calls (r : Receiver) (value : NodeIndex → Eval Constant) :
    Construct → Constant → String → List Constant → Prop
  | onThis {name : String} {args : List NodeIndex} {v : Constant} {vs : List Constant} :
    r.value = some v → args.mapM value = pure vs →
    Calls r value (.access name (some args)) v name vs
  | onMember {i : NodeIndex} {name : String} {args : List NodeIndex} {nullSafe : Bool}
    {v : Constant} {vs : List Constant} : value i = pure v → args.mapM value = pure vs →
    Calls r value (.memberAccess i name (some args) nullSafe) v name vs

section

variable {P : Prop} {r : Receiver} {value : NodeIndex → Eval Constant}
  {truth : NodeIndex → Except EvalError Truth} (hv : ∀ i, BreaksOnlyIf P (value i).run)
  (ht : ∀ i, BreaksOnlyIf P (truth i))

include ht in
theorem breaksOnlyIf_conjunction (l r : NodeIndex) : BreaksOnlyIf P (conjunction truth l r) := by
  refine (ht l).bind (fun left _ => ?_)
  split
  · exact breaksOnlyIf_ok _
  · exact (ht r).bind (fun right _ => breaksOnlyIf_ok _)

include ht in
theorem breaksOnlyIf_disjunction (l r : NodeIndex) : BreaksOnlyIf P (disjunction truth l r) := by
  rw [disjunction_eq]
  exact (breaksOnlyIf_conjunction (fun i => (ht i).map _) l r).map _

theorem breaksOnlyIf_ofTruth {x : Except EvalError Truth} (h : BreaksOnlyIf P x) :
    BreaksOnlyIf P (ofTruth x).run := by
  rcases x with e | b
  · exact fun _ _ => h e rfl
  · cases b <;> exact breaksOnlyIf_ok _

include hv ht in
/-- A construct is broken off only if one of its parts is or the method it calls is. -/
theorem breaksOnlyIf_construct {c : Construct}
    (hc : ∀ v name args, Calls r value c v name args → BreaksOnlyIf P (v.method name args).run) :
    BreaksOnlyIf P (construct r value truth c).run := by
  cases c with
  | grouped i => exact hv i
  | unary op i => exact (hv i).run_bind (fun v _ => breaksOnlyIf_ofOption _)
  | binary op i j =>
    cases op with
    | and => exact breaksOnlyIf_ofTruth (breaksOnlyIf_conjunction ht i j)
    | or => exact breaksOnlyIf_ofTruth (breaksOnlyIf_disjunction ht i j)
    | coalesce =>
      refine (hv i).run_bind (fun v _ => ?_)
      split
      · exact hv j
      · exact breaksOnlyIf_ok _
    | _ => exact (hv i).run_bind (fun a _ => (hv j).run_bind (fun b _ => breaksOnlyIf_ofOption _))
  | ifElse c a b =>
    refine (hv c).run_bind (fun v _ => ?_)
    split
    · exact hv a
    · exact hv b
    · exact breaksOnlyIf_failure
  | access name args =>
    cases args with
    | none =>
      show BreaksOnlyIf P (if _ then _ else _ : Eval Constant).run
      split <;> exact breaksOnlyIf_ofOption _
    | some args =>
      refine (breaksOnlyIf_mapM hv args).run_bind (fun vs hargs => ?_)
      split
      · exact breaksOnlyIf_ofOption _
      · split
        · next v hthis => exact hc v name vs (.onThis hthis hargs)
        · exact breaksOnlyIf_failure
  | memberAccess i name args nullSafe =>
    refine (hv i).run_bind (fun v hi => ?_)
    split
    · exact breaksOnlyIf_ok _
    · cases args with
      | none => exact breaksOnlyIf_ofOption _
      | some args =>
        exact (breaksOnlyIf_mapM hv args).run_bind (fun vs hargs =>
          hc v name vs (.onMember hi hargs))
  | _ => exact breaksOnlyIf_ok _

include ht in
theorem breaksOnlyIf_condition {x : Eval Constant} (hx : BreaksOnlyIf P x.run)
    (c : Option Construct) : BreaksOnlyIf P (condition truth x c) := by
  have other : BreaksOnlyIf P (condition truth x none) := by
    rw [condition_other]
    exact hx.map _
  cases c with
  | none => exact other
  | some c =>
    cases c with
    | grouped i => exact ht i
    | unary op i =>
      cases op with
      | not => exact (ht i).map _
      | neg => exact other
    | binary op i j =>
      cases op with
      | and => exact breaksOnlyIf_conjunction ht i j
      | or => exact breaksOnlyIf_disjunction ht i j
      | _ => exact other
    | _ => exact other

end

end Eval

namespace SyntaxTree

variable {t t' : SyntaxTree} {hole : NodeIndex}

variable (t) in
/-- Somewhere in the tree `repeat` is called for a text longer than any text can be. -/
def RepeatsTooLong (r : Receiver) : Prop :=
  ∃ n < Limits.constantDepth, ∃ i c s k, t.construct? i = some c ∧
    Eval.Calls r (Eval.value t r n) c (.string s) "repeat" [.int k] ∧
    Constant.maxTextSize < s.utf8ByteSize * k.toInt.toNat

/-- Nothing but such a call breaks off an evaluation. -/
theorem breaksOnlyIf_repeatsTooLong (t : SyntaxTree) (r : Receiver) {n : Nat}
    (hn : n ≤ Limits.constantDepth) :
    (∀ i, Eval.BreaksOnlyIf (t.RepeatsTooLong r) (Eval.value t r n i).run) ∧
      ∀ i, Eval.BreaksOnlyIf (t.RepeatsTooLong r) (Eval.truth t r n i) := by
  induction n with
  | zero => exact ⟨fun i => Eval.breaksOnlyIf_failure, fun i => Eval.breaksOnlyIf_ok _⟩
  | succ n ih =>
    obtain ⟨hv, ht⟩ := ih (by omega)
    refine ⟨fun i => ?_, fun i => Eval.breaksOnlyIf_condition ht (hv i) _⟩
    rw [Eval.value_succ]
    cases hc : t.construct? i with
    | none => exact Eval.breaksOnlyIf_failure
    | some c =>
      refine Eval.breaksOnlyIf_construct hv ht (fun v name args call e h => ?_)
      obtain ⟨s, k, rfl, rfl, rfl, long⟩ := Eval.method_breaksOnlyIf v name args e h
      exact ⟨n, hn, i, c, s, k, hc, call, long⟩

/-! ## Constraints -/

/-- A constraint is the same condition under the same receiver in both trees, or it is a lambda that
does not have one parameter. -/
theorem satisfies_of_fills (h : Fills t t' hole) {e : NodeIndex}
    (he : e = hole → ∀ ps body, t.construct? e ≠ some (.lambda ps body)) (v : Constant) :
    t.satisfies v e = .ok .undecided ∨ ∃ param body,
      t.satisfies v e = Eval.truth t ⟨some v, param⟩ Limits.constantDepth body ∧
      t'.satisfies v e = Eval.truth t' ⟨some v, param⟩ Limits.constantDepth body := by
  by_cases lambda : ∃ ps body, t.construct? e = some (.lambda ps body)
  · obtain ⟨ps, body, hc⟩ := lambda
    have hc' : t'.construct? e = some (.lambda ps body) :=
      (h.elsewhere e (fun hole => he hole ps body hc)).trans hc
    unfold satisfies
    rw [hc, hc']
    match ps with
    | [p] => exact .inr ⟨t.name? p, body, rfl, by dsimp only; rw [h.name_eq]⟩
    | [] | _ :: _ :: _ => exact .inl rfl
  · have not_lambda : ∀ ps body, t.construct? e ≠ some (.lambda ps body) :=
      fun ps body hc => lambda ⟨ps, body, hc⟩
    refine .inr ⟨none, e, satisfies_of_not_lambda not_lambda v, satisfies_of_not_lambda ?_ v⟩
    by_cases hole : e = hole
    · obtain ⟨c, hc, literal⟩ := h.after
      rintro ps body hc'
      cases (hole ▸ hc').symm.trans hc
      cases literal
    · rwa [h.elsewhere e hole]

/-- A constraint that is decided without an expression that is not understood is decided alike if a
literal stands in its place, unless the literal makes a text too long. A lambda that is itself the
constraint is understood. -/
theorem decision_kept (h : Fills t t' hole) {e : NodeIndex}
    (he : e = hole → ∀ ps body, t.construct? e ≠ some (.lambda ps body)) {v : Constant} {b : Truth}
    (hb : b ≠ .undecided) (decided : t.satisfies v e = .ok b) :
    t'.satisfies v e = .ok b ∨
      t'.satisfies v e = .error .textTooLong ∧ ∃ param, t'.RepeatsTooLong ⟨some v, param⟩ := by
  rcases satisfies_of_fills h he v with undecided | ⟨param, body, before, after⟩
  · rw [undecided] at decided
    cases decided
    exact absurd rfl hb
  rw [before] at decided
  rw [after]
  refine ((Eval.improves_of_fills h _ _).2 body b hb decided).imp_right ?_
  rintro ⟨⟨⟩, broken⟩
  exact ⟨broken, param, (breaksOnlyIf_repeatsTooLong t' _ (Nat.le_refl _)).2 body _ broken⟩

/-- The condition `outer || true`, with a construct of choice in place of `outer`. -/
def eitherTree (c : Construct) : SyntaxTree where
  uri := "file:///either.pkl"
  module := 1
  nodes := #[⟨c, .nowhere, some 2⟩, ⟨.boolLit true, .nowhere, some 2⟩,
    ⟨.binary .or 0 1, .nowhere, none⟩]
  root := 2

theorem fills_either : Fills (eitherTree .outer) (eitherTree (.boolLit false)) 0 where
  before := ⟨.outer, rfl, rfl⟩
  after := ⟨.boolLit false, rfl, rfl⟩
  elsewhere
    | 0, h => absurd rfl h
    | 1, _ | 2, _ | _ + 3, _ => rfl

/-- `false || true` holds because `outer || true` does. -/
theorem decision_kept_either : (eitherTree .outer).satisfies .null 2 = .ok .yes ∧
    (eitherTree (.boolLit false)).satisfies .null 2 = .ok .yes := by
  have decided : (eitherTree .outer).satisfies .null 2 = .ok .yes := rfl
  have notHole : (2 : NodeIndex) ≠ 0 := by decide
  have yes : Truth.yes ≠ .undecided := by decide
  rcases decision_kept fills_either (absurd · notHole) yes decided with kept | ⟨broken, -⟩
  · exact ⟨decided, kept⟩
  · cases broken

/-- The condition `"ab".repeat(outer) == "" && false`, with a construct of choice in place of
`outer`. -/
def longTree (c : Construct) : SyntaxTree where
  uri := "file:///long.pkl"
  module := 1
  nodes := #[⟨.stringLit "ab", .nowhere, some 2⟩, ⟨c, .nowhere, some 2⟩,
    ⟨.memberAccess 0 "repeat" (some [1]) false, .nowhere, some 4⟩,
    ⟨.stringLit "", .nowhere, some 4⟩,
    ⟨.binary .eq 2 3, .nowhere, some 6⟩, ⟨.boolLit false, .nowhere, some 6⟩,
    ⟨.binary .and 4 5, .nowhere, none⟩]
  root := 6

theorem fills_long : Fills (longTree .outer) (longTree (.intLit 9223372036854775807)) 1 where
  before := ⟨.outer, rfl, rfl⟩
  after := ⟨.intLit 9223372036854775807, rfl, rfl⟩
  elsewhere
    | 1, h => absurd rfl h
    | 0, _ | 2, _ | 3, _ | 4, _ | 5, _ | 6, _ | _ + 7, _ => rfl

/-- The condition fails for every value, but it is broken off with a literal for which the text
would be too long. -/
theorem not_kept_overflow : Fills (longTree .outer) (longTree (.intLit 9223372036854775807)) 1 ∧
    ∀ v, (longTree .outer).satisfies v 6 = .ok .no ∧
      (longTree (.intLit 9223372036854775807)).satisfies v 6 = .error .textTooLong :=
  ⟨fills_long, fun _ => ⟨rfl, rfl⟩⟩

end SyntaxTree

end PklAnalysis
