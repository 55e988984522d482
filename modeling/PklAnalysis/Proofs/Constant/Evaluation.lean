import PklAnalysis.Proofs.Constant.Kinds

/-!
# How constants come about

`ComesTo` lists the ways in which a construct comes to a value; `comesTo_of_construct` says that
there is no other one where nothing is known of `this`. `t.Part e i` says that the value of `e` comes
from that of `i`, and `t.Typed e i` that its type does.
-/

namespace PklAnalysis

/-- A construct comes to a value, where `val` says to which values its parts come. -/
inductive ComesTo (val : NodeIndex → Constant → Prop) : Construct → Constant → Prop
  | stringLit (s : String) : ComesTo val (.stringLit s) (.string s)
  | intLit (i : Int64) : ComesTo val (.intLit i) (.int i)
  | floatLit (f : Float) : ComesTo val (.floatLit f) (.float f)
  | boolLit (b : Bool) : ComesTo val (.boolLit b) (.bool b)
  | nullLit : ComesTo val .nullLit .null
  | grouped {i : NodeIndex} {v : Constant} : val i v → ComesTo val (.grouped i) v
  | unary {op : UnaryOp} {i : NodeIndex} {a v : Constant} :
      val i a → Constant.unary op a = some v → ComesTo val (.unary op i) v
  | condition {op : BinaryOp} {l r : NodeIndex} (b : Bool) :
      op = .and ∨ op = .or → ComesTo val (.binary op l r) (.bool b)
  | present {l r : NodeIndex} {v : Constant} :
      val l v → v.isNull = false → ComesTo val (.binary .coalesce l r) v
  | absent {l r : NodeIndex} {v : Constant} :
      val l .null → val r v → ComesTo val (.binary .coalesce l r) v
  | binary {op : BinaryOp} {l r : NodeIndex} {a b v : Constant} :
      val l a → val r b → Constant.binary op a b = some v → ComesTo val (.binary op l r) v
  | whenTrue {c a b : NodeIndex} {v : Constant} :
      val c (.bool true) → val a v → ComesTo val (.ifElse c a b) v
  | whenFalse {c a b : NodeIndex} {v : Constant} :
      val c (.bool false) → val b v → ComesTo val (.ifElse c a b) v
  | regex {args : List NodeIndex} (source : String) :
      ComesTo val (.access "Regex" (some args)) (.regex source)
  | missing {i : NodeIndex} {name : String} {args : Option (List NodeIndex)} :
      val i .null → ComesTo val (.memberAccess i name args true) .null
  | property {i : NodeIndex} {name : String} {nullSafe : Bool} {a v : Constant} :
      val i a → a.property name = some v → ComesTo val (.memberAccess i name none nullSafe) v
  | method {i : NodeIndex} {name : String} {args : List NodeIndex} {nullSafe : Bool}
      {a v : Constant} {vs : List Constant} :
      val i a → a.method name vs = pure v → ComesTo val (.memberAccess i name (some args) nullSafe) v

namespace Eval

theorem bool_of_ofTruth {x : Except EvalError Truth} {v : Constant} (h : ofTruth x = pure v) :
    ∃ b, v = .bool b := by
  obtain ⟨truth, _, h⟩ := bind_eq_pure h
  obtain ⟨b, _, h⟩ := bind_eq_pure h
  exact ⟨b, (pure_inj h).symm⟩

theorem regex_of_regexOf {vs : List Constant} {v : Constant} (h : regexOf vs = some v) :
    ∃ source, v = .regex source := by
  unfold regexOf at h
  split at h <;> cases h
  exact ⟨_, rfl⟩

theorem eq_null_of_isNull {v : Constant} (h : v.isNull = true) : v = .null := by
  cases v <;> first | rfl | cases h

theorem comesTo_of_member {value : NodeIndex → Eval Constant} {i : NodeIndex} {name : String}
    {args : Option (List NodeIndex)} {nullSafe : Bool}
    {truth : NodeIndex → Except EvalError Truth} {v : Constant}
    (h : construct {} value truth (.memberAccess i name args nullSafe) = pure v) :
    ComesTo (fun i v => value i = pure v) (.memberAccess i name args nullSafe) v := by
  obtain ⟨a, ha, hv⟩ := bind_eq_pure h
  split at hv
  · next hn =>
    obtain ⟨rfl, hn⟩ := Bool.and_eq_true_iff.1 hn
    cases eq_null_of_isNull hn
    cases pure_inj hv
    exact .missing ha
  · cases args with
    | none => exact .property ha (ofOption_eq_pure hv)
    | some args =>
      obtain ⟨vs, _, hv⟩ := bind_eq_pure hv
      exact .method ha hv

theorem comesTo_of_construct {value : NodeIndex → Eval Constant}
    {truth : NodeIndex → Except EvalError Truth} {c : Construct} {v : Constant}
    (h : construct {} value truth c = pure v) : ComesTo (fun i v => value i = pure v) c v := by
  cases c with
  | stringLit s => cases pure_inj h; exact .stringLit s
  | intLit i => cases pure_inj h; exact .intLit i
  | floatLit f => cases pure_inj h; exact .floatLit f
  | boolLit b => cases pure_inj h; exact .boolLit b
  | nullLit => cases pure_inj h; exact .nullLit
  | grouped i => exact .grouped h
  | unary op i =>
    obtain ⟨a, ha, h⟩ := bind_eq_pure h
    exact .unary ha (ofOption_eq_pure h)
  | binary op l r =>
    cases op with
    | and =>
      obtain ⟨b, rfl⟩ := bool_of_ofTruth h
      exact .condition b (.inl rfl)
    | or =>
      obtain ⟨b, rfl⟩ := bool_of_ofTruth h
      exact .condition b (.inr rfl)
    | coalesce =>
      obtain ⟨a, ha, h⟩ := bind_eq_pure h
      split at h
      · next hn =>
        cases eq_null_of_isNull hn
        exact .absent ha h
      · next hn =>
        cases pure_inj h
        exact .present ha (Bool.not_eq_true _ ▸ hn)
    | _ =>
      obtain ⟨a, ha, h⟩ := bind_eq_pure h
      obtain ⟨b, hb, h⟩ := bind_eq_pure h
      exact .binary ha hb (ofOption_eq_pure h)
  | ifElse c a b =>
    obtain ⟨k, hk, h⟩ := bind_eq_pure h
    split at h
    · exact .whenTrue hk h
    · exact .whenFalse hk h
    · exact (failure_ne_pure h).elim
  | access name args =>
    cases args with
    | none => exact absurd (ofOption_eq_pure h) nofun
    | some args =>
      obtain ⟨vs, _, h⟩ := bind_eq_pure h
      split at h
      · next hn =>
        obtain ⟨source, rfl⟩ := regex_of_regexOf (ofOption_eq_pure h)
        exact hn ▸ .regex source
      · exact (failure_ne_pure h).elim
  | memberAccess i name args nullSafe => exact comesTo_of_member h
  | this => exact absurd (ofOption_eq_pure h) nofun
  | _ => exact (failure_ne_pure h).elim

/-- An expression has a value if its construct comes to it from values of its parts, which nest less
deep. -/
theorem comesTo_of_value {t : SyntaxTree} {n : Nat} {i : NodeIndex} {v : Constant}
    (h : value t {} n i = pure v) : ∃ k c, n = k + 1 ∧ t.construct? i = some c ∧
      ComesTo (fun i v => value t {} k i = pure v) c v := by
  cases n with
  | zero => exact (failure_ne_pure h).elim
  | succ k =>
    unfold value at h
    split at h
    · next c hc => exact ⟨k, c, rfl, hc, comesTo_of_construct h⟩
    · exact (failure_ne_pure h).elim

end Eval

theorem ComesTo.mono {val val' : NodeIndex → Constant → Prop} {c : Construct} {v : Constant}
    (h : ∀ {i v}, val i v → val' i v) (comes : ComesTo val c v) : ComesTo val' c v := by
  cases comes with
  | stringLit s => exact .stringLit s
  | intLit i => exact .intLit i
  | floatLit f => exact .floatLit f
  | boolLit b => exact .boolLit b
  | nullLit => exact .nullLit
  | grouped hv => exact .grouped (h hv)
  | unary ha hv => exact .unary (h ha) hv
  | condition b hop => exact .condition b hop
  | present hv hn => exact .present (h hv) hn
  | absent hn hv => exact .absent (h hn) (h hv)
  | binary ha hb hv => exact .binary (h ha) (h hb) hv
  | whenTrue hc hv => exact .whenTrue (h hc) (h hv)
  | whenFalse hc hv => exact .whenFalse (h hc) (h hv)
  | regex source => exact .regex source
  | missing hn => exact .missing (h hn)
  | property ha hv => exact .property (h ha) hv
  | method ha hv => exact .method (h ha) hv

/-- The expressions that the type of a construct is computed from. -/
def Construct.operands : Construct → List NodeIndex
  | .grouped i => [i]
  | .unary .neg i => [i]
  | .binary op l r => if op.isArithmetic || op == .coalesce then [l, r] else []
  | .ifElse _ a b => [a, b]
  | .memberAccess i _ _ _ => [i]
  | _ => []

/-- Those among them that its value comes from, where `val` says to which values its parts come. -/
inductive Construct.Uses (val : NodeIndex → Constant → Prop) : Construct → NodeIndex → Prop
  | grouped (i : NodeIndex) : Uses val (.grouped i) i
  | negated (i : NodeIndex) : Uses val (.unary .neg i) i
  | left {op : BinaryOp} (l r : NodeIndex) : op.isArithmetic = true → Uses val (.binary op l r) l
  | right {op : BinaryOp} (l r : NodeIndex) : op.isArithmetic = true → Uses val (.binary op l r) r
  | perhaps (l r : NodeIndex) : Uses val (.binary .coalesce l r) l
  | absent {l r : NodeIndex} : val l .null → Uses val (.binary .coalesce l r) r
  | whenTrue {c a b : NodeIndex} : val c (.bool true) → Uses val (.ifElse c a b) a
  | whenFalse {c a b : NodeIndex} : val c (.bool false) → Uses val (.ifElse c a b) b
  | receiver (i : NodeIndex) (name : String) (args : Option (List NodeIndex)) (nullSafe : Bool) :
      Uses val (.memberAccess i name args nullSafe) i

theorem Construct.Uses.mem_operands {val : NodeIndex → Constant → Prop} {c : Construct}
    {i : NodeIndex} (h : c.Uses val i) : i ∈ c.operands := by
  cases h with
  | left l r hop | right l r hop => simp [operands, hop]
  | _ => simp [operands]

namespace SyntaxTree

variable (t : SyntaxTree)

/-- An expression can be evaluated to a constant. -/
def Computes (i : NodeIndex) (v : Constant) : Prop := ∃ n, Eval.value t {} n i = pure v

variable {t} in
theorem Computes.comesTo {i : NodeIndex} {c : Construct} {v : Constant} (h : t.Computes i v)
    (hc : t.construct? i = some c) : ComesTo t.Computes c v := by
  obtain ⟨n, h⟩ := h
  obtain ⟨k, c', -, hc', comes⟩ := Eval.comesTo_of_value h
  cases hc.symm.trans hc'
  exact comes.mono (fun hv => ⟨k, hv⟩)

/-- `i` is the expression `e`, or a part of it that its value comes from and whose type goes into
its type. -/
inductive Part (e : NodeIndex) : NodeIndex → Prop
  | self : Part e e
  | used {i j : NodeIndex} {c : Construct} :
      Part e i → t.construct? i = some c → c.Uses t.Computes j → Part e j

/-- The type of `i` goes into the type of `e`, whether its value does or not. -/
inductive Typed (e : NodeIndex) : NodeIndex → Prop
  | part {i : NodeIndex} : t.Part e i → Typed e i
  | operand {i j : NodeIndex} {c : Construct} :
      t.Part e i → t.construct? i = some c → j ∈ c.operands → Typed e j

end SyntaxTree

end PklAnalysis
