import PklAnalysis.Constant.Eval
import PklAnalysis.Base

/-!
# Kinds of constants

Which kind of constant an operator or a member results in hangs on the kinds of the operands alone,
except that a power of whole numbers with a negative exponent is a double (`kind_binary`).
`Kind.properties` and `Kind.methods` list the members that are understood, with the kinds of their
results.
-/

namespace PklAnalysis

inductive Kind where
  | null
  | bool
  | int
  | float
  | string
  | regex
  deriving DecidableEq, Repr

namespace Kind

def all : List Kind := [null, bool, int, float, string, regex]

theorem mem_all (k : Kind) : k ∈ all := by cases k <;> decide

/-- The class of the constants of a kind. -/
def cls : Kind → NodeRef
  | null => std.null
  | bool => std.boolean
  | int => std.int
  | float => std.float
  | string => std.string
  | regex => std.regex

/-- That class and its superclasses. -/
def classes : Kind → List NodeRef
  | null => [std.null, std.any]
  | bool => [std.boolean, std.any]
  | int => [std.int, std.number, std.any]
  | float => [std.float, std.number, std.any]
  | string => [std.string, std.any]
  | regex => [std.regex, std.any]

def ty (k : Kind) : Ty := Base.simple k.cls

theorem cls_eq : cls null = std.null ∧ cls bool = std.boolean ∧ cls int = std.int ∧
    cls float = std.float ∧ cls string = std.string ∧ cls regex = std.regex :=
  ⟨rfl, rfl, rfl, rfl, rfl, rfl⟩

theorem ty_null : ty null = std.nullTy := congrArg Base.simple cls_eq.1
theorem ty_bool : ty bool = std.booleanTy := congrArg Base.simple cls_eq.2.1
theorem ty_int : ty int = std.intTy := congrArg Base.simple cls_eq.2.2.1
theorem ty_float : ty float = std.floatTy := congrArg Base.simple cls_eq.2.2.2.1
theorem ty_string : ty string = std.stringTy := congrArg Base.simple cls_eq.2.2.2.2.1

theorem cls_mem_classes (k : Kind) : k.cls ∈ k.classes := by
  cases k <;> simp [cls_eq, classes]

/-- The properties that are understood, with the kinds of their values. -/
def properties : Kind → List (String × Kind)
  | string => [("length", int), ("isEmpty", bool), ("isBlank", bool), ("isRegex", bool),
      ("lastIndex", int)]
  | int => [("isEven", bool), ("isOdd", bool), ("isPositive", bool), ("isNonZero", bool),
      ("isFinite", bool), ("isInfinite", bool), ("isNaN", bool), ("abs", int), ("sign", int)]
  | float => [("isPositive", bool), ("isNonZero", bool), ("isFinite", bool), ("isInfinite", bool),
      ("isNaN", bool), ("abs", float), ("sign", float)]
  | regex => [("pattern", string)]
  | _ => []

/-- The methods that are understood, with the kinds of their results. -/
def methods : Kind → List (String × Kind)
  | string => [("startsWith", bool), ("endsWith", bool), ("contains", bool), ("matches", bool),
      ("toUpperCase", string), ("toLowerCase", string), ("trim", string), ("reverse", string),
      ("repeat", string)]
  | int => [("isBetween", bool), ("toInt", int), ("toFloat", float)]
  | float => [("isBetween", bool), ("toFloat", float), ("toInt", int)]
  | bool => [("xor", bool), ("implies", bool)]
  | _ => []

end Kind

namespace Constant

def kind : Constant → Kind
  | null => .null
  | bool _ => .bool
  | int _ => .int
  | float _ => .float
  | string _ => .string
  | regex _ => .regex

/-- The type of a constant: the class of its kind, and for a text the type of this text alone. -/
def ty : Constant → Ty
  | string s => .literal s []
  | v => v.kind.ty

theorem ty_of_kind {v : Constant} (h : v.kind ≠ .string) : v.ty = v.kind.ty := by
  cases v <;> first | rfl | exact absurd rfl h

/-! ## Numbers -/

theorem kind_ofInt {i : Int} {v : Constant} (h : ofInt? i = some v) : v.kind = .int := by
  unfold ofInt? at h
  split at h <;> cases h
  rfl

theorem kind_asFloat {a : Constant} {x : Float} (h : a.asFloat? = some x) :
    a.kind = .int ∨ a.kind = .float := by
  cases a <;> first | exact .inl rfl | exact .inr rfl | cases h

/-- Both operands are numbers. -/
def Numbers (a b : Constant) : Prop :=
  (a.kind = .int ∨ a.kind = .float) ∧ (b.kind = .int ∨ b.kind = .float)

theorem kind_onFloats {f : Float → Float → Float} {a b v : Constant} (h : onFloats f a b = some v) :
    Numbers a b ∧ v.kind = .float := by
  obtain ⟨x, hx, h⟩ := Option.bind_eq_some_iff.1 h
  obtain ⟨y, hy, h⟩ := Option.bind_eq_some_iff.1 h
  cases h
  exact ⟨⟨kind_asFloat hx, kind_asFloat hy⟩, rfl⟩

theorem kind_quotient {a b : Int64} {v : Constant} (h : quotient? a b = some v) : v.kind = .int := by
  unfold quotient? at h
  split at h
  · cases h
  · exact kind_ofInt h

theorem kind_remainder {a b : Int64} {v : Constant} (h : remainder? a b = some v) :
    v.kind = .int := by
  unfold remainder? at h
  split at h
  · cases h
  · exact kind_ofInt h

theorem kind_power {a : Int64} {n : Nat} {v : Constant} (h : power? a n = some v) :
    v.kind = .int := by
  unfold power? at h
  split at h
  · cases h
  split at h
  · exact kind_ofInt h
  split at h
  · cases h
  · exact kind_ofInt h

/-! ## Operators -/

end Constant

/-- The operators of arithmetic, apart from the one whose result is always whole. -/
def BinaryOp.isArithmetic : BinaryOp → Bool
  | .add | .sub | .mul | .div | .rem | .pow => true
  | _ => false

namespace Constant

theorem kind_comparison {op : BinaryOp} (hop : op.isComparison = true) {a b v : Constant}
    (h : binary op a b = some v) : v.kind = .bool := by
  cases op with
  | eq | notEq => cases h; rfl
  | lt | le | gt | ge =>
    obtain ⟨o, _, h⟩ := Option.bind_eq_some_iff.1 h
    cases h
    rfl
  | _ => cases hop

theorem kind_intDiv {a b v : Constant} (h : binary .intDiv a b = some v) : v.kind = .int := by
  have h : intDiv a b = some v := h
  unfold intDiv at h
  split at h
  · exact kind_quotient h
  · cases h

/-- What the kind of the result of an arithmetic operation is. -/
inductive Computed (op : BinaryOp) (a b v : Constant) : Prop
  | text : op = .add → a.kind = .string → b.kind = .string → v.kind = .string → Computed op a b v
  | whole : op ≠ .div → a.kind = .int → b.kind = .int → v.kind = .int → Computed op a b v
  | quotient : op = .div → Numbers a b → v.kind = .float → Computed op a b v
  | fraction : (a.kind = .float ∨ b.kind = .float) → Numbers a b → v.kind = .float →
      Computed op a b v
  | root : op = .pow → (∃ x y, a = int x ∧ b = int y ∧ y.toInt < 0) → v.kind = .float →
      Computed op a b v

namespace Computed

variable {op : BinaryOp} {a b v : Constant} (h : Computed op a b v)
include h

theorem of_text (ha : a.kind = .string) : v.kind = .string := by
  cases h with
  | text _ _ _ hv => exact hv
  | whole _ hi => cases ha.symm.trans hi
  | quotient _ hn | fraction _ hn => rcases hn.1 with hn | hn <;> cases ha.symm.trans hn
  | root _ hr =>
    obtain ⟨x, y, rfl, -⟩ := hr
    cases ha

theorem of_numbers (hn : Numbers a b) : v.kind = .int ∨ v.kind = .float := by
  cases h with
  | text _ ha => rcases hn.1 with hn | hn <;> cases ha.symm.trans hn
  | whole _ _ _ hv => exact .inl hv
  | quotient _ _ hv | fraction _ _ hv | root _ _ hv => exact .inr hv

theorem of_div (hop : op = .div) : v.kind = .float := by
  cases h with
  | text ho => cases hop.symm.trans ho
  | whole ho => exact absurd hop ho
  | quotient _ _ hv | fraction _ _ hv | root _ _ hv => exact hv

theorem of_float (hf : a.kind = .float ∨ b.kind = .float) : v.kind = .float := by
  cases h with
  | text _ ha hb | whole _ ha hb => simp [ha, hb] at hf
  | quotient _ _ hv | fraction _ _ hv | root _ _ hv => exact hv

theorem of_ints (ha : a.kind = .int) (hb : b.kind = .int) (hop : op ≠ .div)
    (natural : op = .pow → ∀ x y, a = .int x → b = .int y → 0 ≤ y.toInt) : v.kind = .int := by
  cases h with
  | text _ hs => cases ha.symm.trans hs
  | whole _ _ _ hv => exact hv
  | quotient ho => exact absurd ho hop
  | fraction hf => simp [ha, hb] at hf
  | root ho hr =>
    obtain ⟨x, y, hx, hy, negative⟩ := hr
    exact absurd (natural ho x y hx hy) (Int.not_le.2 negative)

end Computed

/-- Outside of whole numbers, everything is computed with doubles. -/
theorem computed_onFloats {op : BinaryOp} {f : Float → Float → Float} {a b v : Constant}
    (hab : ∀ x y, a = int x → b = int y → False) (h : onFloats f a b = some v) :
    Computed op a b v := by
  obtain ⟨⟨ha, hb⟩, hv⟩ := kind_onFloats h
  refine .fraction ?_ ⟨ha, hb⟩ hv
  cases a with
  | int x =>
    cases b with
    | int y => exact (hab x y rfl rfl).elim
    | float _ => exact .inr rfl
    | _ => exact absurd hb (by simp [kind])
  | float _ => exact .inl rfl
  | _ => exact absurd ha (by simp [kind])

theorem kind_binary {op : BinaryOp} (hop : op.isArithmetic = true) {a b v : Constant}
    (h : binary op a b = some v) : Computed op a b v := by
  cases op with
  | add =>
    have h : add a b = some v := h
    unfold add at h
    split at h
    · cases h; exact .text rfl rfl rfl rfl
    · exact .whole nofun rfl rfl (kind_ofInt h)
    · next hi => exact computed_onFloats hi h
  | sub =>
    have h : sub a b = some v := h
    unfold sub at h
    split at h
    · exact .whole nofun rfl rfl (kind_ofInt h)
    · next hi => exact computed_onFloats hi h
  | mul =>
    have h : mul a b = some v := h
    unfold mul at h
    split at h
    · exact .whole nofun rfl rfl (kind_ofInt h)
    · next hi => exact computed_onFloats hi h
  | div =>
    have h : div a b = some v := h
    unfold div at h
    split at h
    · split at h
      · cases h
      · obtain ⟨hn, hv⟩ := kind_onFloats h
        exact .quotient rfl hn hv
    · obtain ⟨hn, hv⟩ := kind_onFloats h
      exact .quotient rfl hn hv
  | rem =>
    have h : rem a b = some v := h
    unfold rem at h
    split at h
    · exact .whole nofun rfl rfl (kind_remainder h)
    · next hi => exact computed_onFloats hi h
  | pow =>
    have h : pow a b = some v := h
    unfold pow at h
    split at h
    · split at h
      · exact .whole nofun rfl rfl (kind_power h)
      · next hy => exact .root rfl ⟨_, _, rfl, rfl, Int.not_le.1 hy⟩ (kind_onFloats h).2
    · next hi => exact computed_onFloats hi h
  | _ => cases hop

theorem kind_neg {a v : Constant} (h : unary .neg a = some v) :
    v.kind = a.kind ∧ a.kind ≠ .string := by
  cases a with
  | int i => exact ⟨kind_ofInt h, nofun⟩
  | float f => cases h; exact ⟨rfl, nofun⟩
  | _ => cases h

theorem kind_not {a v : Constant} (h : unary .not a = some v) : v.kind = .bool := by
  cases a with
  | bool b => cases h; rfl
  | _ => cases h

/-! ## Members -/

theorem kind_property {a v : Constant} {name : String} (h : a.property name = some v) :
    (name, v.kind) ∈ a.kind.properties := by
  unfold property at h
  split at h
  · unfold stringProperty at h
    split at h
    all_goals first
      | cases h; done
      | cases h; simp [kind, Kind.properties]
      | rw [kind_ofInt h]; simp [kind, Kind.properties]
  · unfold intProperty at h
    split at h
    all_goals first
      | cases h; done
      | cases h; simp [kind, Kind.properties]
      | rw [kind_ofInt h]; simp [kind, Kind.properties]
  · unfold floatProperty at h
    split at h
    all_goals first
      | cases h; done
      | cases h; simp [kind, Kind.properties]
  · split at h
    · next hn =>
      cases h
      simp [hn, kind, Kind.properties]
    · cases h
  · cases h

end Constant

namespace Eval

variable {α β : Type}

theorem pure_inj {a b : α} (h : (pure a : Eval α) = pure b) : a = b :=
  Option.some.inj (Except.ok.inj h)

theorem failure_ne_pure {a : α} (h : (failure : Eval α) = pure a) : False := by
  have h : (.ok none : Except EvalError (Option α)) = .ok (some a) := h
  cases h

theorem ofOption_eq_pure {x : Option α} {a : α} (h : ofOption x = pure a) : x = some a :=
  Except.ok.inj h

theorem bind_eq_pure {x : Eval α} {f : α → Eval β} {b : β} (h : x >>= f = pure b) :
    ∃ a, x = pure a ∧ f a = pure b := by
  cases x with
  | error e => cases h
  | ok o =>
    cases o with
    | none => cases h
    | some a => exact ⟨a, rfl, h⟩

end Eval

namespace Constant

theorem kind_isBetween {a low high v : Constant} (h : isBetween a low high = some v) :
    v.kind = .bool := by
  obtain ⟨_, _, h⟩ := Option.bind_eq_some_iff.1 h
  obtain ⟨_, _, h⟩ := Option.bind_eq_some_iff.1 h
  cases h
  rfl

theorem kind_stringMethod {s name : String} {args : List Constant} {v : Constant}
    (h : stringMethod s name args = pure v) : (name, v.kind) ∈ Kind.string.methods := by
  unfold stringMethod at h
  dsimp only at h
  split at h
  case h_4 =>
    obtain ⟨b, _, rfl⟩ := Option.map_eq_some_iff.1 (Except.ok.inj h)
    simp [kind, Kind.methods]
  case h_9 =>
    split at h
    · exact (Eval.failure_ne_pure h).elim
    · obtain ⟨text, _, h⟩ := Eval.bind_eq_pure h
      cases Eval.pure_inj h
      simp [kind, Kind.methods]
  all_goals first
    | exact (Eval.failure_ne_pure h).elim
    | cases Eval.pure_inj h; simp [kind, Kind.methods]

theorem kind_numberMethod {a : Constant} {name : String} {args : List Constant} {v : Constant}
    (ha : a.kind = .int ∨ a.kind = .float) (h : numberMethod a name args = some v) :
    (name, v.kind) ∈ a.kind.methods := by
  unfold numberMethod at h
  split at h
  · rw [kind_isBetween h]
    rcases ha with ha | ha <;> simp [ha, Kind.methods]
  · cases h; simp [kind, Kind.methods]
  · cases h; simp [kind, Kind.methods]
  · cases h; simp [kind, Kind.methods]
  · split at h
    · rw [kind_ofInt h]; simp [kind, Kind.methods]
    · cases h
  · cases h

theorem kind_method {a : Constant} {name : String} {args : List Constant} {v : Constant}
    (h : a.method name args = pure v) : (name, v.kind) ∈ a.kind.methods := by
  cases a with
  | string s => exact kind_stringMethod h
  | int i => exact kind_numberMethod (.inl rfl) (Except.ok.inj h)
  | float f => exact kind_numberMethod (.inr rfl) (Except.ok.inj h)
  | bool b =>
    have h : boolMethod b name args = some v := Except.ok.inj h
    unfold boolMethod at h
    split at h
    · cases h; simp [kind, Kind.methods]
    · cases h; simp [kind, Kind.methods]
    · cases h
  | null => exact (Eval.failure_ne_pure h).elim
  | regex source => exact (Eval.failure_ne_pure h).elim

end Constant

end PklAnalysis
