import Mathlib.Data.Rat.Floor
import Mathlib.Logic.Relation
import Mathlib.Tactic.Linarith
import Mathlib.Tactic.NormNum
import PklAnalysis.Proofs.Constant.Conditions
import PklAnalysis.Proofs.Constant.Evaluation

/-!
# Whole numbers are computed exactly

The exact value of an expression of whole numbers is a rational number, since a negative exponent
leads out of the whole numbers: `BinaryOp.result?` computes it for one operator and
`SyntaxTree.Exact` for an expression. A constant that is a whole number is this value, and where
all numbers on the way fit into 64 bits there is such a constant (`constant_exact`).

* `Constant.result?_of_binary`: a whole result of an operator is the exact one.
* `Constant.binary_of_result?`: an exact result that fits comes out.
* `SyntaxTree.exact_of_value`, `SyntaxTree.value_of_inBounds`: the same for expressions.
-/

namespace PklAnalysis

/-! ## Exact values -/

/-- A number without its fraction. -/
def truncate (x : ℚ) : ℤ := if 0 ≤ x then ⌊x⌋ else ⌈x⌉

/-- A number that is not too large for 64 bits. -/
def FitsInt64 (x : ℚ) : Prop := Int64.minValue.toInt ≤ x ∧ x ≤ Int64.maxValue.toInt

namespace BinaryOp

/-- The operators that lead from whole numbers to whole numbers, apart from negative exponents. -/
def isWhole : BinaryOp → Bool
  | .add | .sub | .mul | .intDiv | .rem | .pow => true
  | _ => false

/-- The result of such an operator on numbers of any size. Quotients are cut, remainders belong to
cut quotients, and exponents are whole. -/
def result? : BinaryOp → ℚ → ℚ → Option ℚ
  | .add, a, b => some (a + b)
  | .sub, a, b => some (a - b)
  | .mul, a, b => some (a * b)
  | .intDiv, a, b => if b = 0 then none else some (truncate (a / b))
  | .rem, a, b => if b = 0 then none else some (a - b * truncate (a / b))
  | .pow, a, b => if b.den = 1 ∧ (a ≠ 0 ∨ 0 ≤ b) then some (a ^ b.num) else none
  | _, _, _ => none

end BinaryOp

theorem truncate_div_natCast (a : ℤ) (b : ℕ) : truncate ((a : ℚ) / b) = a.tdiv b := by
  rcases Nat.eq_zero_or_pos b with rfl | hb
  · simp [truncate]
  have hb' : (0 : ℚ) < b := Nat.cast_pos.2 hb
  unfold truncate
  by_cases ha : 0 ≤ a
  · rw [if_pos (div_nonneg (Int.cast_nonneg ha) hb'.le), Rat.floor_intCast_div_natCast,
      Int.tdiv_eq_ediv_of_nonneg ha]
  · have hneg : (a : ℚ) / b < 0 := div_neg_of_neg_of_pos (by exact_mod_cast not_le.1 ha) hb'
    have flip : (a : ℚ) / b = -(((-a : ℤ) : ℚ) / b) := by
      rw [Int.cast_neg, neg_div, neg_neg]
    rw [if_neg (not_le.2 hneg), flip, Int.ceil_neg, Rat.floor_intCast_div_natCast,
      ← Int.tdiv_eq_ediv_of_nonneg (by omega), Int.neg_tdiv, neg_neg]

theorem truncate_div (a b : ℤ) : truncate ((a : ℚ) / b) = a.tdiv b := by
  obtain ⟨n, rfl | rfl⟩ := b.eq_nat_or_neg
  · exact truncate_div_natCast a n
  · have flip : (a : ℚ) / ((-n : ℤ) : ℚ) = ((-a : ℤ) : ℚ) / n := by
      push_cast
      rw [div_neg, neg_div]
    rw [flip, truncate_div_natCast, Int.neg_tdiv, Int.tdiv_neg]

theorem fitsInt64_intCast {i : ℤ} :
    FitsInt64 i ↔ Int64.minValue.toInt ≤ i ∧ i ≤ Int64.maxValue.toInt := by
  unfold FitsInt64
  norm_cast

theorem fitsInt64_toInt (i : Int64) : FitsInt64 i.toInt :=
  fitsInt64_intCast.2 ⟨i.minValue_le_toInt, i.toInt_le⟩

namespace Constant

/-! ## Operators -/

theorem ofInt?_eq_some {i : ℤ} {n : Int64} : ofInt? i = some (int n) ↔ n.toInt = i := by
  unfold ofInt?
  constructor
  · intro h
    split at h
    · next hi =>
      injection h with h
      injection h with h
      have lo : (-2 ^ 63 : ℤ) ≤ i := hi.1
      have hi : i < (2 ^ 63 : ℤ) := Int.lt_of_le_of_lt hi.2 (by decide)
      rw [← h, Int64.toInt_ofInt_of_le lo hi]
    · cases h
  · rintro rfl
    rw [if_pos ⟨n.minValue_le_toInt, n.toInt_le⟩, Int64.ofInt_toInt]

theorem exists_ofInt? {i : ℤ} (h : FitsInt64 i) :
    ∃ n : Int64, ofInt? i = some (int n) ∧ n.toInt = i := by
  have h := fitsInt64_intCast.1 h
  have hn : ofInt? i = some (int (Int64.ofInt i)) := if_pos h
  exact ⟨Int64.ofInt i, hn, ofInt?_eq_some.1 hn⟩

theorem toInt_eq_zero {x : Int64} : x.toInt = 0 ↔ x = 0 := Int64.toInt_inj (y := 0)

/-- A base of zero, one or minus one has two different powers at most. -/
theorem pow_parity {a : ℤ} (h : a.natAbs ≤ 1) (n : ℕ) :
    a ^ (if n = 0 then 0 else 2 - n % 2) = a ^ n := by
  split
  · next hn => rw [hn]
  next hn =>
  obtain rfl | rfl | rfl : a = -1 ∨ a = 0 ∨ a = 1 := by omega
  · rcases Nat.even_or_odd n with hp | hp
    · rw [Nat.even_iff.1 hp, hp.neg_one_pow]
      rfl
    · rw [Nat.odd_iff.1 hp, hp.neg_one_pow]
      rfl
  · rw [zero_pow hn, zero_pow (by omega)]
  · rw [one_pow, one_pow]

/-- Other bases have a power that fits only up to an exponent of 63. -/
theorem not_fitsInt64_pow {a : ℤ} (h : 1 < a.natAbs) {n : ℕ} (hn : 64 ≤ n) :
    ¬ FitsInt64 ((a ^ n : ℤ) : ℚ) := by
  intro fits
  have fits := fitsInt64_intCast.1 fits
  have large : 2 ^ 64 ≤ (a ^ n).natAbs := by
    rw [Int.natAbs_pow]
    calc 2 ^ 64 ≤ 2 ^ n := Nat.pow_le_pow_right (by decide) hn
      _ ≤ a.natAbs ^ n := Nat.pow_le_pow_left h n
  have lo : -(2 ^ 63 : ℤ) ≤ a ^ n := fits.1
  have hi : a ^ n ≤ (2 ^ 63 - 1 : ℤ) := fits.2
  omega

/-- The shorter ways to a power are no different from it. -/
theorem power?_eq (a : Int64) {n : ℕ} (hn : n < UInt32.size) : power? a n = ofInt? (a.toInt ^ n) := by
  unfold power?
  rw [if_neg (Nat.not_le.2 hn)]
  split
  · next h => exact congrArg ofInt? (pow_parity h n)
  next h =>
  split
  · next hn =>
    have not := not_fitsInt64_pow (Nat.lt_of_not_le h) hn
    unfold ofInt?
    rw [if_neg (fun h => not (fitsInt64_intCast.2 h))]
  · rfl

/-- Only whole numbers lead to a whole number. -/
theorem ints_of_binary {op : BinaryOp} {a b : Constant} {n : Int64}
    (h : binary op a b = some (int n)) : ∃ x y, a = int x ∧ b = int y := by
  have computed : op.isArithmetic = true → a.kind = .int ∧ b.kind = .int := by
    intro hop
    cases kind_binary hop h with
    | whole _ ha hb => exact ⟨ha, hb⟩
    | text _ _ _ hv | quotient _ _ hv | fraction _ _ hv | root _ _ hv => cases hv
  have kinds : a.kind = .int ∧ b.kind = .int := by
    cases op with
    | add | sub | mul | div | rem | pow => exact computed rfl
    | intDiv =>
      have h : intDiv a b = some (int n) := h
      cases a <;> cases b <;> first | exact ⟨rfl, rfl⟩ | cases h
    | eq | notEq | lt | le | gt | ge => cases kind_comparison rfl h
    | and | or | coalesce | pipe => cases h
  cases a with
  | int x =>
    cases b with
    | int y => exact ⟨x, y, rfl, rfl⟩
    | _ => cases kinds.2
  | _ => cases kinds.1

variable {op : BinaryOp} {x y n : Int64}

/-- A whole result of an operator is the exact one. -/
theorem result?_of_binary (h : binary op (int x) (int y) = some (int n)) :
    op.result? x.toInt y.toInt = some (n.toInt : ℚ) := by
  cases op with
  | add | sub | mul =>
    have e := ofInt?_eq_some.1 h
    rw [e]
    simp [BinaryOp.result?]
  | intDiv =>
    have h : quotient? x y = some (int n) := h
    unfold quotient? at h
    split at h
    · cases h
    next hy =>
    have e := ofInt?_eq_some.1 h
    have hy : (y.toInt : ℚ) ≠ 0 := Int.cast_ne_zero.2 (fun e => hy (toInt_eq_zero.1 e))
    rw [BinaryOp.result?, if_neg hy, truncate_div, e]
  | rem =>
    have h : remainder? x y = some (int n) := h
    unfold remainder? at h
    split at h
    · cases h
    next hq =>
    have hy : y ≠ 0 := fun e => hq (by rw [e]; rfl)
    have e := ofInt?_eq_some.1 h
    have hy : (y.toInt : ℚ) ≠ 0 := Int.cast_ne_zero.2 (fun e => hy (toInt_eq_zero.1 e))
    rw [BinaryOp.result?, if_neg hy, truncate_div, e, Int.tmod_def]
    push_cast
    rfl
  | pow =>
    have h : (if 0 ≤ y.toInt then power? x y.toInt.toNat else onFloats Float.pow (int x) (int y)) =
        some (int n) := h
    split at h
    · next hy =>
      obtain ⟨k, hk⟩ := Int.eq_ofNat_of_zero_le hy
      rw [hk, Int.toNat_natCast] at h
      have hn : k < UInt32.size := by
        by_contra hn
        rw [power?, if_pos (Nat.le_of_not_lt hn)] at h
        cases h
      rw [power?_eq x hn] at h
      rw [hk, ofInt?_eq_some.1 h]
      simp [BinaryOp.result?]
    · cases (kind_onFloats h).2
  | div =>
    have h : (if y = 0 then none else onFloats (· / ·) (int x) (int y)) = some (int n) := h
    split at h
    · cases h
    · cases (kind_onFloats h).2
  | eq | notEq | lt | le | gt | ge => cases kind_comparison rfl h
  | and | or | coalesce | pipe => cases h

/-- An exact result that fits comes out. Remainders are only computed where the quotient fits. -/
theorem binary_of_result? {v : ℚ} (h : op.result? x.toInt y.toInt = some v) (hv : FitsInt64 v)
    (quotient : op = .intDiv ∨ op = .rem → FitsInt64 (truncate (x.toInt / y.toInt)))
    (exponent : op = .pow → 0 ≤ y.toInt ∧ y.toInt < 2 ^ 32) :
    ∃ n, binary op (int x) (int y) = some (int n) ∧ (n.toInt : ℚ) = v := by
  have fitting : ∀ i : ℤ, (i : ℚ) = v → ∃ n, ofInt? i = some (int n) ∧ (n.toInt : ℚ) = v := by
    rintro i rfl
    obtain ⟨n, hn, e⟩ := exists_ofInt? hv
    exact ⟨n, hn, by rw [e]⟩
  cases op with
  | add | sub | mul =>
    injection h with h
    exact fitting _ (by push_cast; exact h)
  | intDiv =>
    rw [BinaryOp.result?] at h
    split at h
    · cases h
    next hy =>
    injection h with h
    rw [truncate_div] at h
    obtain ⟨n, hn, e⟩ := fitting _ h
    refine ⟨n, ?_, e⟩
    show quotient? x y = _
    rw [quotient?, if_neg (fun e => hy (by rw [e]; rfl)), hn]
  | rem =>
    rw [BinaryOp.result?] at h
    split at h
    · cases h
    next hy =>
    injection h with h
    rw [truncate_div] at h
    have quotient := quotient (.inr rfl)
    rw [truncate_div] at quotient
    obtain ⟨q, hq, -⟩ := exists_ofInt? quotient
    obtain ⟨n, hn, e⟩ := fitting (x.toInt.tmod y.toInt) (by rw [Int.tmod_def]; push_cast; exact h)
    refine ⟨n, ?_, e⟩
    have hq : quotient? x y = some (int q) := by
      rw [quotient?, if_neg (fun e => hy (by rw [e]; rfl)), hq]
    show remainder? x y = _
    rw [remainder?, hq, if_neg (by simp), hn]
  | pow =>
    obtain ⟨natural, bound⟩ := exponent rfl
    obtain ⟨k, hk⟩ := Int.eq_ofNat_of_zero_le natural
    rw [hk] at h bound
    rw [BinaryOp.result?] at h
    split at h
    · injection h with h
      obtain ⟨n, hn, e⟩ := fitting (x.toInt ^ k) (by rw [← h]; simp)
      refine ⟨n, ?_, e⟩
      show (if 0 ≤ y.toInt then power? x y.toInt.toNat else _) = _
      rw [if_pos natural, hk, Int.toNat_natCast, power?_eq x (by exact_mod_cast bound), hn]
    · cases h
  | _ => cases h

end Constant

/-! ## Expressions -/

theorem Eval.construct_binary {r : Receiver} {value : NodeIndex → Eval Constant}
    {truth : NodeIndex → Except EvalError Truth} {op : BinaryOp} (hop : op.isWhole = true)
    (i j : NodeIndex) : Eval.construct r value truth (.binary op i j) = (do
      let a ← value i
      let b ← value j
      ofOption (Constant.binary op a b)) := by
  cases op <;> first | rfl | cases hop

namespace SyntaxTree

variable (t : SyntaxTree)

/-- An expression made of whole numbers, parentheses, minus signs and operators on whole numbers. -/
inductive Integral : NodeIndex → Prop
  | literal {i : NodeIndex} {n : Int64} : t.construct? i = some (.intLit n) → Integral i
  | grouped {i j : NodeIndex} : t.construct? i = some (.grouped j) → Integral j → Integral i
  | negated {i j : NodeIndex} : t.construct? i = some (.unary .neg j) → Integral j → Integral i
  | binary {i l r : NodeIndex} {op : BinaryOp} : t.construct? i = some (.binary op l r) →
      op.isWhole = true → Integral l → Integral r → Integral i

/-- The exact value of such an expression. -/
inductive Exact : NodeIndex → ℚ → Prop
  | literal {i : NodeIndex} {n : Int64} : t.construct? i = some (.intLit n) → Exact i n.toInt
  | grouped {i j : NodeIndex} {a : ℚ} :
      t.construct? i = some (.grouped j) → Exact j a → Exact i a
  | negated {i j : NodeIndex} {a : ℚ} :
      t.construct? i = some (.unary .neg j) → Exact j a → Exact i (-a)
  | binary {i l r : NodeIndex} {op : BinaryOp} {a b v : ℚ} :
      t.construct? i = some (.binary op l r) → Exact l a → Exact r b → op.result? a b = some v →
      Exact i v

/-- The exact value of the expression fits, if it has one, and so does the quotient that it takes.
It does not divide by zero, and its exponent is natural and below `2 ^ 32`. -/
structure InBounds (i : NodeIndex) : Prop where
  value : ∀ v, t.Exact i v → FitsInt64 v
  quotient : ∀ op l r a b, t.construct? i = some (.binary op l r) → op = .intDiv ∨ op = .rem →
    t.Exact l a → t.Exact r b → b ≠ 0 ∧ FitsInt64 (truncate (a / b))
  exponent : ∀ l r b, t.construct? i = some (.binary .pow l r) → t.Exact r b → 0 ≤ b ∧ b < 2 ^ 32

variable {t} {e : NodeIndex}

theorem Exact.unique {a b : ℚ} (ha : t.Exact e a) (hb : t.Exact e b) : a = b := by
  induction ha generalizing b with
  | literal hc =>
    cases hb with
    | literal hc' => cases hc.symm.trans hc'; rfl
    | grouped hc' | negated hc' | binary hc' => cases hc.symm.trans hc'
  | grouped hc _ ih =>
    cases hb with
    | grouped hc' h => cases hc.symm.trans hc'; exact ih h
    | literal hc' | negated hc' | binary hc' => cases hc.symm.trans hc'
  | negated hc _ ih =>
    cases hb with
    | negated hc' h => cases hc.symm.trans hc'; rw [ih h]
    | literal hc' | grouped hc' | binary hc' => cases hc.symm.trans hc'
  | binary hc _ _ hv ihl ihr =>
    cases hb with
    | binary hc' hl hr hv' =>
      cases hc.symm.trans hc'
      rw [ihl hl, ihr hr] at hv
      exact Option.some.inj (hv.symm.trans hv')
    | literal hc' | grouped hc' | negated hc' => cases hc.symm.trans hc'

theorem InBounds.exponent_toInt {l r : NodeIndex} {y : Int64} (h : t.InBounds e)
    (hc : t.construct? e = some (.binary .pow l r)) (hr : t.Exact r y.toInt) :
    0 ≤ y.toInt ∧ y.toInt < 2 ^ 32 := by
  have h := h.exponent l r _ hc hr
  exact_mod_cast h

/-- In bounds, an operation on whole numbers has a result. -/
theorem InBounds.defined {op : BinaryOp} {l r : NodeIndex} {x y : Int64} (h : t.InBounds e)
    (hc : t.construct? e = some (.binary op l r)) (hop : op.isWhole = true) (hl : t.Exact l x.toInt)
    (hr : t.Exact r y.toInt) : ∃ v, op.result? x.toInt y.toInt = some v := by
  cases op with
  | add | sub | mul => exact ⟨_, rfl⟩
  | intDiv => exact ⟨_, if_neg (h.quotient _ l r _ _ hc (.inl rfl) hl hr).1⟩
  | rem => exact ⟨_, if_neg (h.quotient _ l r _ _ hc (.inr rfl) hl hr).1⟩
  | pow => exact ⟨_, if_pos ⟨rfl, .inr (h.exponent l r _ hc hr).1⟩⟩
  | _ => cases hop

/-- A whole constant is the exact value. -/
theorem exact_of_value (he : t.Integral e) {m : ℕ} {n : Int64}
    (h : Eval.value t {} m e = pure (.int n)) : t.Exact e n.toInt := by
  induction he generalizing m n with
  | literal hc =>
    obtain ⟨k, c, rfl, hc', comes⟩ := Eval.comesTo_of_value h
    cases hc.symm.trans hc'
    cases comes
    exact .literal hc
  | grouped hc _ ih =>
    obtain ⟨k, c, rfl, hc', comes⟩ := Eval.comesTo_of_value h
    cases hc.symm.trans hc'
    cases comes with
    | grouped hv => exact .grouped hc (ih hv)
  | negated hc _ ih =>
    obtain ⟨k, c, rfl, hc', comes⟩ := Eval.comesTo_of_value h
    cases hc.symm.trans hc'
    cases comes with
    | @unary _ _ a _ ha hv =>
      cases a with
      | int x =>
        have e : n.toInt = -x.toInt := Constant.ofInt?_eq_some.1 hv
        rw [e, Int.cast_neg]
        exact .negated hc (ih ha)
      | _ => cases hv
  | @binary i l r op hc hop _ _ ihl ihr =>
    obtain ⟨k, c, rfl, hc', comes⟩ := Eval.comesTo_of_value h
    cases hc.symm.trans hc'
    cases comes with
    | binary ha hb hv =>
      obtain ⟨x, y, rfl, rfl⟩ := Constant.ints_of_binary hv
      exact .binary hc (ihl ha) (ihr hb) (Constant.result?_of_binary hv)
    | present | absent => cases hop

/-- Where everything is in bounds, an expression has a whole constant. -/
theorem value_of_inBounds (he : t.Integral e) {m : ℕ} (nests : t.NestsBelow m e)
    (bounds : ∀ i, Relation.ReflTransGen (fun i j => j ∈ t.evaluated i) e i → t.InBounds i) :
    ∃ n : Int64, Eval.value t {} m e = pure (.int n) := by
  induction he generalizing m with
  | @literal i n hc =>
    cases m with
    | zero => exact nests.elim
    | succ m =>
      refine ⟨n, ?_⟩
      rw [Eval.value_succ, hc]
      rfl
  | @grouped i j hc _ ih =>
    cases m with
    | zero => exact nests.elim
    | succ m =>
      have hj := t.mem_evaluated hc (List.mem_singleton_self j)
      obtain ⟨n, hn⟩ := ih (nests j hj) (fun k hk => bounds k (.head hj hk))
      refine ⟨n, ?_⟩
      rw [Eval.value_succ, hc]
      exact hn
  | @negated i j hc he ih =>
    cases m with
    | zero => exact nests.elim
    | succ m =>
      have hj := t.mem_evaluated hc (List.mem_singleton_self j)
      obtain ⟨x, hx⟩ := ih (nests j hj) (fun k hk => bounds k (.head hj hk))
      have fits : FitsInt64 ((-x.toInt : ℤ) : ℚ) := by
        rw [Int.cast_neg]
        exact (bounds i .refl).value _ (.negated hc (exact_of_value he hx))
      obtain ⟨n, hn, -⟩ := Constant.exists_ofInt? fits
      refine ⟨n, ?_⟩
      rw [Eval.value_succ, hc]
      show Eval.value t {} m j >>= _ = _
      rw [hx, pure_bind]
      show Eval.ofOption (Constant.ofInt? (-x.toInt)) = _
      rw [hn]
      rfl
  | @binary i l r op hc hop hl hr ihl ihr =>
    cases m with
    | zero => exact nests.elim
    | succ m =>
      have hl' := t.mem_evaluated (j := l) hc List.mem_cons_self
      have hr' := t.mem_evaluated (j := r) hc (List.mem_cons_of_mem l (List.mem_singleton_self r))
      obtain ⟨x, hx⟩ := ihl (nests l hl') (fun k hk => bounds k (.head hl' hk))
      obtain ⟨y, hy⟩ := ihr (nests r hr') (fun k hk => bounds k (.head hr' hk))
      have hxe := exact_of_value hl hx
      have hye := exact_of_value hr hy
      have here := bounds i .refl
      obtain ⟨v, hv⟩ := here.defined hc hop hxe hye
      obtain ⟨n, hn, -⟩ := Constant.binary_of_result? hv (here.value v (.binary hc hxe hye hv))
        (fun ho => (here.quotient op l r _ _ hc ho hxe hye).2)
        (fun ho => here.exponent_toInt (ho ▸ hc) hye)
      refine ⟨n, ?_⟩
      rw [Eval.value_succ, hc]
      show Eval.construct {} (Eval.value t {} m) _ (.binary op l r) = _
      rw [Eval.construct_binary hop, hx, pure_bind, hy, pure_bind, hn]
      rfl

/-- A constant that is a whole number is the one exact value of an expression of whole numbers. There
is such a constant if the expression does not nest too deep, divides by nothing that is zero, has
exponents from zero to `2 ^ 32 - 1` only, and all its values and quotients fit into 64 bits. -/
theorem constant_exact (he : t.Integral e) :
    (∀ n, t.constant? e = .ok (some (.int n)) → ∀ v, t.Exact e v ↔ v = n.toInt) ∧
    (t.NestsBelow Limits.constantDepth e →
      (∀ i, Relation.ReflTransGen (fun i j => j ∈ t.evaluated i) e i → t.InBounds i) →
      ∃ n : Int64, t.constant? e = .ok (some (.int n)) ∧ t.Exact e n.toInt) := by
  refine ⟨fun n h v => ?_, fun nests bounds => ?_⟩
  · have exact := exact_of_value he h
    constructor
    · intro hv
      exact hv.unique exact
    · rintro rfl
      exact exact
  · obtain ⟨n, hn⟩ := value_of_inBounds he nests bounds
    exact ⟨n, hn, exact_of_value he hn⟩

/-! ### An example -/

/-- The expression `(7 ~/ -2) ** 3`. -/
def cubeTree : SyntaxTree where
  uri := "file:///cube.pkl"
  module := 1
  nodes := #[⟨.intLit 7, .nowhere, some 3⟩, ⟨.intLit 2, .nowhere, some 2⟩,
    ⟨.unary .neg 1, .nowhere, some 3⟩, ⟨.binary .intDiv 0 2, .nowhere, some 4⟩,
    ⟨.grouped 3, .nowhere, some 6⟩, ⟨.intLit 3, .nowhere, some 6⟩,
    ⟨.binary .pow 4 5, .nowhere, none⟩]
  root := 6

theorem integral_cube : cubeTree.Integral 6 :=
  .binary (l := 4) (r := 5) rfl rfl
    (.grouped (j := 3) rfl (.binary (l := 0) (r := 2) rfl rfl (.literal (n := 7) rfl)
      (.negated (j := 1) rfl (.literal (n := 2) rfl))))
    (.literal (n := 3) rfl)

/-- The exact values of the nodes. -/
theorem exact_cube : cubeTree.Exact 0 7 ∧ cubeTree.Exact 1 2 ∧ cubeTree.Exact 2 (-2) ∧
    cubeTree.Exact 3 (-3) ∧ cubeTree.Exact 4 (-3) ∧ cubeTree.Exact 5 3 ∧
    cubeTree.Exact 6 (-27) := by
  have h0 : cubeTree.Exact 0 7 := .literal (n := 7) rfl
  have h1 : cubeTree.Exact 1 2 := .literal (n := 2) rfl
  have h2 : cubeTree.Exact 2 (-2) := .negated (j := 1) rfl h1
  have h3 : cubeTree.Exact 3 (-3) := by
    refine .binary (l := 0) (r := 2) rfl h0 h2 ?_
    have cut : truncate (7 / -2) = -3 := truncate_div 7 (-2)
    rw [BinaryOp.result?, if_neg (by norm_num), cut]
    norm_num
  have h4 : cubeTree.Exact 4 (-3) := .grouped (j := 3) rfl h3
  have h5 : cubeTree.Exact 5 3 := .literal (n := 3) rfl
  have h6 : cubeTree.Exact 6 (-27) := by
    refine .binary (l := 4) (r := 5) rfl h4 h5 ?_
    rw [BinaryOp.result?, if_pos ⟨rfl, .inr (by norm_num)⟩]
    norm_num
  exact ⟨h0, h1, h2, h3, h4, h5, h6⟩

theorem inBounds_cube (i : NodeIndex) : cubeTree.InBounds i := by
  obtain ⟨h0, h1, h2, h3, h4, h5, h6⟩ := exact_cube
  constructor
  · intro v hv
    have bound : i < 7 := by
      cases hv with
      | literal hc | grouped hc | negated hc | binary hc => exact lt_size_of_construct hc
    have small : ∀ k : ℤ, -27 ≤ k → k ≤ 7 → FitsInt64 k := by
      intro k lo hi
      exact fitsInt64_intCast.2 ⟨(by decide : Int64.minValue.toInt ≤ -27).trans lo,
        hi.trans (by decide : (7 : ℤ) ≤ Int64.maxValue.toInt)⟩
    interval_cases i
    · exact hv.unique h0 ▸ small 7 (by decide) (by decide)
    · exact hv.unique h1 ▸ small 2 (by decide) (by decide)
    · exact hv.unique h2 ▸ small (-2) (by decide) (by decide)
    · exact hv.unique h3 ▸ small (-3) (by decide) (by decide)
    · exact hv.unique h4 ▸ small (-3) (by decide) (by decide)
    · exact hv.unique h5 ▸ small 3 (by decide) (by decide)
    · exact hv.unique h6 ▸ small (-27) (by decide) (by decide)
  · intro op l r a b hc ho ha hb
    have bound : i < 7 := lt_size_of_construct hc
    interval_cases i <;> cases hc
    · have cut : truncate (7 / -2) = -3 := truncate_div 7 (-2)
      rw [ha.unique h0, hb.unique h2, cut]
      exact ⟨by norm_num, fitsInt64_toInt (-3)⟩
    · rcases ho with ho | ho <;> cases ho
  · intro l r b hc hb
    have bound : i < 7 := lt_size_of_construct hc
    interval_cases i <;> cases hc
    rw [hb.unique h5]
    norm_num

/-- It comes out as `-27`, which is its exact value. -/
theorem constant_exact_cube : cubeTree.Integral 6 ∧
    cubeTree.NestsBelow Limits.constantDepth 6 ∧ (∀ i, cubeTree.InBounds i) ∧
    cubeTree.constant? 6 = .ok (some (.int (-27))) ∧ ∀ v, cubeTree.Exact 6 v ↔ v = -27 := by
  have nests : cubeTree.NestsBelow Limits.constantDepth 6 := by decide
  obtain ⟨only, comes⟩ := constant_exact integral_cube
  obtain ⟨n, hn, exact⟩ := comes nests (fun i _ => inBounds_cube i)
  have minus : (-27 : Int64).toInt = -27 := by decide
  have value : (n.toInt : ℚ) = (-27 : Int64).toInt := by
    rw [exact.unique exact_cube.2.2.2.2.2.2, minus]
    norm_num
  obtain rfl : n = -27 := Int64.toInt_inj.1 (by exact_mod_cast value)
  refine ⟨integral_cube, nests, inBounds_cube, hn, fun v => ?_⟩
  rw [only _ hn v, minus]
  norm_num

end SyntaxTree

end PklAnalysis
