import PklAnalysis.Proofs.Constant.Evaluation
import PklAnalysis.Proofs.Session.Reads
import PklAnalysis.Proofs.Standard.Constants
import PklAnalysis.Proofs.Typing.Narrowing
import PklAnalysis.Typing.Expr

/-!
# Types of arithmetic on constants

Where types cover the operands of an operation, its type covers the result
(`Orderly.ensures_arithmeticType`), and so it is with the union of two types
(`Orderly.ensures_either`) and with what is left of a type without `Null`
(`Orderly.ensures_nonNull`). Among the types that come up subtyping has to be decided and
transitive.
-/

namespace PklAnalysis

open Session Reading

namespace Session

variable {src : ModuleSource} {C : Stage src}

/-! ## What covers a constant -/

variable (src) in
/-- A type under which a constant may be found: `unknown`, or one that its own type is below. -/
def Covers (v : Constant) (T : Ty) : Prop := T = .unknown ∨ (reading src).Below v.ty T

variable {K : Ty → Prop} {v a b : Constant} {A B L R : Ty} {op : BinaryOp}

theorem covers_of_kind {k : Kind} (h : v.kind = k) : Covers src v k.ty :=
  .inr (Constant.below_of_mem_classes (h ▸ k.cls_mem_classes))

theorem Covers.below (h : Covers src v A) (known : A ≠ .unknown) : (reading src).Below v.ty A :=
  h.resolve_left known

/-- The types that arithmetic asks about, and `Null`. -/
def standardTypes : List Ty :=
  [std.stringTy, std.numberTy, std.intTy, std.floatTy, std.durationTy, std.dataSizeTy, std.nullTy]

variable (hK : Orderly C K)
include hK

theorem Orderly.ensures_either (hv : K v.ty) (hA : A = .unknown ∨ K A) (hB : B = .unknown ∨ K B)
    (h : Covers src v A ∨ Covers src v B) : C.Ensures (A.either B) (Covers src v) := by
  rcases hA with rfl | hA
  · exact Stage.ensures_pure (.inl rfl)
  rcases hB with rfl | hB
  · have unknown : A.either .unknown = pure .unknown := by cases A <;> rfl
    rw [unknown]
    exact Stage.ensures_pure (.inl rfl)
  obtain ⟨T, gives, covers⟩ := hK.either v.isSimple_ty hv hA hB
  exact gives.ensures (.inr (covers (h.imp (·.below (hK.known hA)) (·.below (hK.known hB)))))

/-- What a type covers besides `null` is covered by what is left of it without `Null`. -/
theorem Orderly.ensures_nonNull (complete : Complete C K) (int : K std.intTy) (hv : K v.ty)
    (hA : A = .unknown ∨ K A) : C.Ensures A.nonNull (fun T => (T = .unknown ∨ K T) ∧
      (v.kind ≠ .null → Covers src v A → Covers src v T)) := by
  rcases hA with rfl | hA
  · exact Stage.ensures_pure ⟨.inl rfl, fun _ _ => .inl rfl⟩
  by_cases hn : v.kind = .null
  · have notNull : ¬ (reading src).Below std.intTy std.nullTy := fun h => by
      rw [← Kind.ty_int] at h
      cases (Standard.apart .int).null (Standard.mem_classes_of_below h)
    obtain ⟨T, gives, -⟩ := hK.nonNullUpTo rfl int complete notNull Limits.aliasNesting hA
    exact gives.ensures ⟨.inr (complete.nonNull _ hA gives), fun h => absurd hn h⟩
  · have notNull : ¬ (reading src).Below v.ty std.nullTy := fun h =>
      hn ((Standard.apart v.kind).null (Constant.mem_classes_of_below h))
    obtain ⟨T, gives, covers⟩ :=
      hK.nonNullUpTo v.isSimple_ty hv complete notNull Limits.aliasNesting hA
    exact gives.ensures ⟨.inr (complete.nonNull _ hA gives),
      fun _ h => .inr (covers (h.below (hK.known hA)))⟩

/-! ## Arithmetic -/

theorem Orderly.ensures_isSubtype {t u : Ty} (ht : K t) (hu : K u) :
    C.Ensures (t.isSubtype u) (fun yes => yes = true ↔ (reading src).Below t u) := by
  obtain ⟨yes, gives, below⟩ := hK.decides ht hu
  exact gives.ensures below

/-- A constant that is covered by a type below a class is of a kind with this class. -/
theorem Orderly.mem_classes (ha : K a.ty) (hL : K L) {d : NodeRef} (hd : K (Base.simple d))
    (h : (reading src).Below a.ty L) (below : (reading src).Below L (Base.simple d)) :
    d ∈ a.kind.classes :=
  Constant.mem_classes_of_below (hK.trans ha hL hd h below)

omit hK in
theorem ensures_arithmetic_of_unknown (h : L = .unknown ∨ R = .unknown) :
    C.Ensures (arithmeticType op L R) (Covers src v) := by
  unfold arithmeticType
  rw [if_pos (by rcases h with rfl | rfl <;> simp [Ty.isUnknown])]
  exact Stage.ensures_pure (.inl rfl)

/-- The operands of an arithmetic operation with their types, which are known. -/
structure Operands (K : Ty → Prop) (src : ModuleSource) (a b : Constant) (L R : Ty) : Prop where
  valueLeft : K a.ty
  valueRight : K b.ty
  left : K L
  right : K R
  coversLeft : (reading src).Below a.ty L
  coversRight : (reading src).Below b.ty R

variable (standard : ∀ u ∈ standardTypes, K u) (h : Operands K src a b L R)
  (computed : Constant.Computed op a b v)
include standard h computed

/-- The type of an operation on numbers covers its result. -/
theorem Orderly.ensures_numericType (numbers : Constant.Numbers a b)
    (natural : op = .pow → ∀ x y, a = .int x → b = .int y → 0 ≤ y.toInt) :
    C.Ensures (numericType op L R) (Covers src v) := by
  have int : K std.intTy := standard _ (by simp [standardTypes])
  have float : K std.floatTy := standard _ (by simp [standardTypes])
  have leftInt : (reading src).Below L std.intTy → a.kind = .int := fun below =>
    (Standard.apart _).int (hK.mem_classes h.valueLeft h.left int h.coversLeft below)
  have rightInt : (reading src).Below R std.intTy → b.kind = .int := fun below =>
    (Standard.apart _).int (hK.mem_classes h.valueRight h.right int h.coversRight below)
  have leftFloat : (reading src).Below L std.floatTy → a.kind = .float := fun below =>
    (Standard.apart _).float (hK.mem_classes h.valueLeft h.left float h.coversLeft below)
  have rightFloat : (reading src).Below R std.floatTy → b.kind = .float := fun below =>
    (Standard.apart _).float (hK.mem_classes h.valueRight h.right float h.coversRight below)
  have ofInt : v.kind = .int → Covers src v std.intTy := fun hv => Kind.ty_int ▸ covers_of_kind hv
  have ofFloat : v.kind = .float → Covers src v std.floatTy := fun hv =>
    Kind.ty_float ▸ covers_of_kind hv
  have number : Covers src v std.numberTy := by
    refine .inr (Constant.below_of_mem_classes ?_)
    rcases computed.of_numbers numbers with hv | hv <;> rw [hv] <;> simp [Kind.classes]
  have rest : ∀ both : Bool,
      (both = true → (reading src).Below L std.intTy ∧ (reading src).Below R std.intTy) →
      C.Ensures (if op = .div then pure std.floatTy
        else if both = true then pure std.intTy
        else do
          if ← L.isSubtype std.floatTy then pure std.floatTy
          else if ← R.isSubtype std.floatTy then pure std.floatTy
          else pure std.numberTy) (Covers src v) := by
    intro both hboth
    split
    · next hop => exact Stage.ensures_pure (ofFloat (computed.of_div hop))
    · next hop =>
      split
      · next yes =>
        obtain ⟨hl, hr⟩ := hboth yes
        exact Stage.ensures_pure (ofInt (computed.of_ints (leftInt hl) (rightInt hr) hop natural))
      · refine (hK.ensures_isSubtype h.left float).bind (fun yes hl => ?_)
        split
        · next hy =>
          exact Stage.ensures_pure (ofFloat (computed.of_float (.inl (leftFloat (hl.1 hy)))))
        · refine (hK.ensures_isSubtype h.right float).bind (fun yes hr => ?_)
          split
          · next hy =>
            exact Stage.ensures_pure (ofFloat (computed.of_float (.inr (rightFloat (hr.1 hy)))))
          · exact Stage.ensures_pure number
  unfold numericType
  refine (hK.ensures_isSubtype h.left int).bind (fun yes hl => ?_)
  cases yes with
  | true =>
    exact (hK.ensures_isSubtype h.right int).bind (fun both hr => rest both
      (fun hb => ⟨hl.1 rfl, hr.1 hb⟩))
  | false => exact rest false (fun yes => absurd yes Bool.false_ne_true)

omit computed in
/-- No quantity is made of constants. -/
theorem Orderly.gives_quantityType :
    C.Gives (quantityType op L R [std.durationTy, std.dataSizeTy]) none := by
  have no : ∀ {d : NodeRef}, K (Base.simple d) → d ∉ a.kind.classes →
      C.Gives (L.isSubtype (Base.simple d)) false := fun {d} hd hn =>
    (hK.ensures_isSubtype h.left hd).mono (fun yes below => by
      cases yes with
      | false => rfl
      | true => exact absurd (hK.mem_classes h.valueLeft h.left hd h.coversLeft (below.1 rfl)) hn)
  have duration := no (d := std.duration) (standard _ (by simp [standardTypes, Base.durationTy]))
    (Standard.apart _).duration
  have dataSize := no (d := std.dataSize) (standard _ (by simp [standardTypes, Base.dataSizeTy]))
    (Standard.apart _).dataSize
  exact duration.bind (dataSize.bind (Stage.gives_pure none))

omit computed in
/-- What is left when no quantity comes out, given that it covers the result. -/
theorem Orderly.ensures_otherwise {T : Ty} (covers : Covers src v T) : C.Ensures (do
    match ← quantityType op L R [std.durationTy, std.dataSizeTy] with
    | some t => pure t
    | none => pure T) (Covers src v) :=
  (hK.gives_quantityType standard h).bind_ensures (Stage.ensures_pure covers)

section Operation

variable (natural : op = .pow → ∀ x y, a = .int x → b = .int y → 0 ≤ y.toInt)
  (text : op = .add → a.kind = .string → (reading src).Below L std.stringTy)
  (mixed : op = .add → a.kind = .int → b.kind = .float →
    (reading src).Below L std.numberTy ∧ (reading src).Below R std.numberTy)
include natural text mixed

/-- The type of an operation other than a sum of texts covers its result. -/
theorem Orderly.ensures_noText (noText : ¬ (op = .add ∧ (reading src).Below L std.stringTy)) :
    C.Ensures (do
      let numbers ← do if ← L.isSubtype std.numberTy then R.isSubtype std.numberTy else pure false
      if numbers then return ← numericType op L R
      match ← quantityType op L R [std.durationTy, std.dataSizeTy] with
      | some t => pure t
      | none => pure (if op = .add then L.withoutConstraints else .unknown)) (Covers src v) := by
  have number : K std.numberTy := standard _ (by simp [standardTypes])
  have otherwise :
      ¬ ((reading src).Below L std.numberTy ∧ (reading src).Below R std.numberTy) →
      Covers src v (if op = .add then L.withoutConstraints else .unknown) := by
    intro noNumbers
    split
    next hop =>
      -- a sum of operands that do not count as numbers has the type of the left one
      have same : v.ty = a.ty := by
        have notText : a.kind ≠ .string := fun ha => noText ⟨hop, text hop ha⟩
        have kinds : v.kind = a.kind := by
          cases computed with
          | text _ ha => exact absurd ha notText
          | whole _ ha _ hv => exact hv.trans ha.symm
          | quotient ho => cases hop.symm.trans ho
          | fraction hf hn hv =>
            rcases hn.1 with ha | ha
            · have hb := hf.resolve_left (by simp [ha])
              exact absurd (mixed hop ha hb) noNumbers
            · exact hv.trans ha.symm
          | root ho => cases hop.symm.trans ho
        rw [Constant.ty_of_kind notText, Constant.ty_of_kind (kinds ▸ notText), kinds]
      refine .inr ?_
      rw [same]
      exact below_of_fits (lawful_reading src) (.alike (by cases L <;> rfl)) h.coversLeft
    next => exact .inl rfl
  refine (hK.ensures_isSubtype h.left number).bind (fun yes hl => ?_)
  cases yes with
  | false =>
    exact hK.ensures_otherwise standard h (otherwise (fun both => by cases hl.2 both.1))
  | true =>
    refine (hK.ensures_isSubtype h.right number).bind (fun yes hr => ?_)
    cases yes with
    | false =>
      exact hK.ensures_otherwise standard h (otherwise (fun both => by cases hr.2 both.2))
    | true =>
      have ha := hK.mem_classes h.valueLeft h.left number h.coversLeft (hl.1 rfl)
      have hb := hK.mem_classes h.valueRight h.right number h.coversRight (hr.1 rfl)
      exact hK.ensures_numericType standard h computed
        ⟨(Standard.apart _).number ha, (Standard.apart _).number hb⟩ natural

/-- The type of an arithmetic operation covers its result. For a sum the left operand must show that
it is a text, and both that they are numbers if only the right one is a double. -/
theorem Orderly.ensures_arithmeticType : C.Ensures (arithmeticType op L R) (Covers src v) := by
  have string : K std.stringTy := standard _ (by simp [standardTypes])
  have known : ¬ (L.isUnknown || R.isUnknown) = true := fun unknown =>
    (Bool.or_eq_true_iff.1 unknown).elim
      (fun hl => hK.known h.left (Ty.eq_unknown_of_isUnknown hl))
      (fun hr => hK.known h.right (Ty.eq_unknown_of_isUnknown hr))
  have rest := hK.ensures_noText standard h computed natural text mixed
  unfold arithmeticType
  rw [if_neg known]
  by_cases hop : op = .add
  · rw [if_pos hop]
    refine (hK.ensures_isSubtype h.left string).bind (fun yes hl => ?_)
    cases yes with
    | true =>
      have ha := (Standard.apart _).string
        (hK.mem_classes h.valueLeft h.left string h.coversLeft (hl.1 rfl))
      refine Stage.ensures_pure ?_
      rw [← Kind.ty_string]
      exact covers_of_kind (computed.of_text ha)
    | false => exact rest (fun both => by cases hl.2 both.2)
  · rw [if_neg hop]
    exact rest (fun both => hop both.1)

end Operation

end Session

end PklAnalysis
