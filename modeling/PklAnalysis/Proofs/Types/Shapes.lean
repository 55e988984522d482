import PklAnalysis.Proofs.Types.Hierarchy
import PklAnalysis.Types.Subtype

/-!
# Subtyping, shape by shape

`r.sub n t u` is the answer of a subtype query that may nest `n` questions, when `r` answers. An
alias and a union are compound: `r.parts` gives what an alias stands for, or the two sides of a
union.

* `sub_succ` is the query with its questions answered.
* `sub_compound_left`, `sub_compound_right`: a compound type is below `u` if all its parts are, and
  a simple type is below a compound one if it is below some part.
* `sub_cls_cls`: for class types, the ancestor of the class asked for must have conforming
  arguments.
-/

namespace PklAnalysis

/-! ## Shapes -/

namespace Ty

/-- Aliases and unions, which stand for other types. -/
def isCompound : Ty → Bool
  | .typeAlias _ _ _ => true
  | .union _ _ _ => true
  | _ => false

/-- Variables, classes, modules and literals. -/
def isSimple : Ty → Bool
  | .var _ _ => true
  | .cls _ _ _ => true
  | .module _ _ _ => true
  | .literal _ _ => true
  | _ => false

/-- Neither the type of all values nor the type of none. -/
def Proper (t : Ty) : Prop := t ≠ .unknown ∧ t ≠ .nothing

theorem proper_of_isSimple {t : Ty} (h : t.isSimple = true) : t.Proper := by
  constructor <;> rintro rfl <;> cases h

theorem proper_of_isCompound {t : Ty} (h : t.isCompound = true) : t.Proper := by
  constructor <;> rintro rfl <;> cases h

theorem not_isCompound_of_isSimple {t : Ty} (h : t.isSimple = true) : ¬ t.isCompound = true := by
  cases t <;> first | exact Bool.false_ne_true | cases h

/-- Every type is one of the two extremes, simple or compound. -/
theorem shape (t : Ty) :
    t = .unknown ∨ t = .nothing ∨ t.isSimple = true ∨ t.isCompound = true := by
  cases t <;> simp [isSimple, isCompound]

theorem Proper.isSimple {t : Ty} (h : t.Proper) (hc : ¬ t.isCompound = true) : t.isSimple = true := by
  rcases t.shape with rfl | rfl | hs | hc'
  · exact absurd rfl h.1
  · exact absurd rfl h.2
  · exact hs
  · exact absurd hc' hc

theorem proper_or (t : Ty) : t.Proper ∨ t = .unknown ∨ t = .nothing := by
  rcases t.shape with rfl | rfl | h | h
  · exact .inr (.inl rfl)
  · exact .inr (.inr rfl)
  · exact .inl (proper_of_isSimple h)
  · exact .inl (proper_of_isCompound h)

/-- A union that nests `n` deep: `inner`, to which `side` is added `n` times. -/
def stacked (inner side : Ty) : Nat → Ty
  | 0 => inner
  | n + 1 => .union (stacked inner side n) side []

/-- What a union has if both of its sides do, a stacked union has if `inner` and `side` do. -/
theorem stacked_of_union {P : Ty → Prop} {inner side : Ty}
    (union : ∀ {t u}, P t → P u → P (.union t u [])) (hi : P inner) (hs : P side) (n : Nat) :
    P (stacked inner side n) := by
  induction n with
  | zero => exact hi
  | succ n ih => exact union ih hs

end Ty

/-! ## Conforming arguments -/

/-- How two arguments of a class have to be related. -/
def Variance.Relates (R : Ty → Ty → Prop) : Variance → Ty → Ty → Prop
  | .covariant, x, y => R x y
  | .contravariant, x, y => R y x
  | .invariant, x, y => R x y ∧ R y x

/-- Arguments are related by the variance of their parameters, as far as both lists go. -/
def Conform (R : Ty → Ty → Prop) : List (NodeRef × Variance) → List Ty → List Ty → Prop
  | p :: ps, x :: xs, y :: ys => p.2.Relates R x y ∧ Conform R ps xs ys
  | _, _, _ => True

theorem Variance.Relates.mono {R S : Ty → Ty → Prop} (h : ∀ x y, R x y → S x y) {v : Variance}
    {x y : Ty} (hv : v.Relates R x y) : v.Relates S x y := by
  cases v with
  | invariant => exact ⟨h _ _ hv.1, h _ _ hv.2⟩
  | contravariant => exact h _ _ hv
  | covariant => exact h _ _ hv

theorem Conform.mono {R S : Ty → Ty → Prop} (h : ∀ x y, R x y → S x y) :
    ∀ {ps : List (NodeRef × Variance)} {xs ys : List Ty}, Conform R ps xs ys → Conform S ps xs ys
  | _ :: _, _ :: _, _ :: _, hc => ⟨hc.1.mono h, hc.2.mono h⟩
  | [], _, _, _ => trivial
  | _ :: _, [], _, _ => trivial
  | _ :: _, _ :: _, [], _ => trivial

theorem Variance.relates_self {R : Ty → Ty → Prop} (h : ∀ x, R x x) (v : Variance) (x : Ty) :
    v.Relates R x x := by
  cases v with
  | invariant => exact ⟨h x, h x⟩
  | contravariant => exact h x
  | covariant => exact h x

theorem conform_self {R : Ty → Ty → Prop} (h : ∀ x, R x x) :
    ∀ (ps : List (NodeRef × Variance)) (xs : List Ty), Conform R ps xs xs
  | [], _ => trivial
  | _ :: _, [] => trivial
  | p :: ps, x :: xs => ⟨p.2.relates_self h x, conform_self h ps xs⟩

theorem Variance.relates_forall {R : Nat → Ty → Ty → Prop} {v : Variance} {x y : Ty} :
    v.Relates (fun a b => ∀ n, R n a b) x y ↔ ∀ n, v.Relates (R n) x y := by
  cases v with
  | invariant => exact ⟨fun h n => ⟨h.1 n, h.2 n⟩, fun h => ⟨fun n => (h n).1, fun n => (h n).2⟩⟩
  | contravariant => exact Iff.rfl
  | covariant => exact Iff.rfl

theorem conform_forall {R : Nat → Ty → Ty → Prop} :
    ∀ {ps : List (NodeRef × Variance)} {xs ys : List Ty},
      Conform (fun a b => ∀ n, R n a b) ps xs ys ↔ ∀ n, Conform (R n) ps xs ys
  | p :: ps, x :: xs, y :: ys => by
    show _ ∧ _ ↔ ∀ n, _ ∧ _
    rw [Variance.relates_forall, conform_forall]
    exact forall_and.symm
  | [], _, _ => ⟨fun _ _ => trivial, fun _ => trivial⟩
  | _ :: _, [], _ => ⟨fun _ _ => trivial, fun _ => trivial⟩
  | _ :: _, _ :: _, [] => ⟨fun _ _ => trivial, fun _ => trivial⟩

namespace Query

variable {r : Reading}

theorem value_and (x y : Query Bool) :
    (do if ← x then y else pure false : Query Bool).value r = (x.value r && y.value r) := by
  rw [value_bind]
  cases x.value r <;> rfl

theorem value_or (x y : Query Bool) :
    (do if ← x then pure true else y : Query Bool).value r = (x.value r || y.value r) := by
  rw [value_bind]
  cases x.value r <;> rfl

end Query

namespace Reading

variable (r : Reading)

/-- What a compound type stands for. -/
def parts : Ty → List Ty
  | .typeAlias d as c => [r (.expansion d as c)]
  | .union t u _ => [t, u]
  | _ => []

/-- The answer of a subtype query that may nest `n` questions. -/
def sub (n : Nat) (t u : Ty) : Bool := (Ty.isSubtypeUpTo n t u).value r

/-! ## The query, shape by shape -/

theorem sub_zero (t u : Ty) : r.sub 0 t u = true := rfl

theorem sub_succ (n : Nat) (t u : Ty) :
    r.sub (n + 1) t u =
      if t = u then true
      else match t, u with
        | _, .unknown => true
        | .unknown, _ => true
        | .nothing, _ => true
        | _, .nothing => false
        | .union a b _, u => r.sub n a u && r.sub n b u
        | .typeAlias d as c, u => r.sub n (r (.expansion d as c)) u
        | t, .typeAlias d as c => r.sub n t (r (.expansion d as c))
        | t, .union a b _ => r.sub n t a || r.sub n t b
        | .var p _, .var q _ => p == q
        | .var _ _, .cls d _ _ => d == std.any
        | .var _ _, _ => false
        | .literal a _, .literal b _ => a == b
        | .literal _ _, u => r.sub n std.stringTy u
        | .cls d as c, .cls e bs f =>
          (Ty.classBelow (Ty.isSubtypeUpTo n) ⟨d, as, c⟩ ⟨e, bs, f⟩).value r
        | .module a _ _, .module b _ _ => (moduleExtends a b).value r
        | .module _ _ _, .cls d as c => r.sub n std.moduleTy (.cls d as c)
        | .cls _ _ _, _ => false
        | .module _ _ _, _ => false := by
  have step := Ty.isSubtypeUpTo.eq_def (n + 1) t u
  unfold sub
  rw [step]
  show Query.value r (if t = u then _ else _) = _
  rw [Query.value_ite]
  split
  · rfl
  · cases t <;> cases u <;>
      first | rfl | exact Query.value_and _ _ | exact Query.value_or _ _

@[simp] theorem sub_self (n : Nat) (t : Ty) : r.sub n t t = true := by
  cases n with
  | zero => rfl
  | succ n => rw [sub_succ, if_pos rfl]

@[simp] theorem sub_unknown_right (n : Nat) (t : Ty) : r.sub n t .unknown = true := by
  cases n with
  | zero => rfl
  | succ n => rw [sub_succ]; cases t <;> exact ite_self _

@[simp] theorem sub_unknown_left (n : Nat) (u : Ty) : r.sub n .unknown u = true := by
  cases n with
  | zero => rfl
  | succ n => rw [sub_succ]; cases u <;> exact ite_self _

@[simp] theorem sub_nothing_left (n : Nat) (u : Ty) : r.sub n .nothing u = true := by
  cases n with
  | zero => rfl
  | succ n => rw [sub_succ]; cases u <;> exact ite_self _

theorem sub_nothing_right (n : Nat) {t : Ty} (h : t.Proper) : r.sub (n + 1) t .nothing = false := by
  rw [sub_succ, if_neg h.2]
  cases t with
  | unknown => exact absurd rfl h.1
  | nothing => exact absurd rfl h.2
  | _ => rfl

/-- A compound type is below what all its parts are below. -/
theorem sub_compound_left (n : Nat) {t u : Ty} (ht : t.isCompound = true) (hu : u.Proper)
    (hne : t ≠ u) : r.sub (n + 1) t u = (r.parts t).all (fun a => r.sub n a u) := by
  rw [sub_succ, if_neg hne]
  cases t with
  | union a b c =>
    cases u with
    | unknown => exact absurd rfl hu.1
    | nothing => exact absurd rfl hu.2
    | _ => simp [parts]
  | typeAlias d as c =>
    cases u with
    | unknown => exact absurd rfl hu.1
    | nothing => exact absurd rfl hu.2
    | _ => simp [parts]
  | _ => cases ht

/-- A simple type is below a compound one if it is below some part of it. -/
theorem sub_compound_right (n : Nat) {t u : Ty} (ht : t.isSimple = true) (hu : u.isCompound = true) :
    r.sub (n + 1) t u = (r.parts u).any (fun a => r.sub n t a) := by
  have hne : t ≠ u := fun h => Ty.not_isCompound_of_isSimple ht (h ▸ hu)
  rw [sub_succ, if_neg hne]
  cases u with
  | union a b c => cases t <;> first | (simp [parts]; done) | cases ht
  | typeAlias d as c => cases t <;> first | (simp [parts]; done) | cases ht
  | _ => cases hu

/-! ### Simple types

Where the equal types of the first test are covered by the rule of their shape, the rules need no
condition. -/

@[simp] theorem sub_var_var (n : Nat) (p q : NodeRef) (c k : Constraints) :
    r.sub (n + 1) (.var p c) (.var q k) = (p == q) := by
  rw [sub_succ]
  split
  · next h => cases h; exact (beq_self_eq_true p).symm
  · rfl

@[simp] theorem sub_var_cls (n : Nat) (p d : NodeRef) (as : List Ty) (c k : Constraints) :
    r.sub (n + 1) (.var p c) (.cls d as k) = (d == std.any) := by
  rw [sub_succ, if_neg nofun]

@[simp] theorem sub_var_module (n : Nat) (p : NodeRef) (i : ModuleId) (m : Option String)
    (c k : Constraints) : r.sub (n + 1) (.var p c) (.module i m k) = false := by
  rw [sub_succ, if_neg nofun]

@[simp] theorem sub_var_literal (n : Nat) (p : NodeRef) (s : String) (c k : Constraints) :
    r.sub (n + 1) (.var p c) (.literal s k) = false := by
  rw [sub_succ, if_neg nofun]

@[simp] theorem sub_literal_literal (n : Nat) (a b : String) (c k : Constraints) :
    r.sub (n + 1) (.literal a c) (.literal b k) = (a == b) := by
  rw [sub_succ]
  split
  · next h => cases h; exact (beq_self_eq_true a).symm
  · rfl

/-- Beside literals, a literal is below what `String` is below. -/
theorem sub_literal_of_ne (n : Nat) (a : String) (c : Constraints) {u : Ty} (hu : u.isSimple = true)
    (h : ∀ b k, u ≠ .literal b k) : r.sub (n + 1) (.literal a c) u = r.sub n std.stringTy u := by
  rw [sub_succ, if_neg (fun e => h a c e.symm)]
  cases u with
  | literal b k => exact absurd rfl (h b k)
  | var | cls | module => rfl
  | _ => cases hu

@[simp] theorem sub_literal_cls (n : Nat) (a : String) (d : NodeRef) (bs : List Ty)
    (c k : Constraints) :
    r.sub (n + 1) (.literal a c) (.cls d bs k) = r.sub n std.stringTy (.cls d bs k) :=
  r.sub_literal_of_ne n a c rfl nofun

@[simp] theorem sub_cls_var (n : Nat) (d p : NodeRef) (as : List Ty) (c k : Constraints) :
    r.sub (n + 1) (.cls d as c) (.var p k) = false := by
  rw [sub_succ, if_neg nofun]

@[simp] theorem sub_cls_module (n : Nat) (d : NodeRef) (as : List Ty) (i : ModuleId)
    (m : Option String) (c k : Constraints) :
    r.sub (n + 1) (.cls d as c) (.module i m k) = false := by
  rw [sub_succ, if_neg nofun]

@[simp] theorem sub_cls_literal (n : Nat) (d : NodeRef) (as : List Ty) (s : String)
    (c k : Constraints) : r.sub (n + 1) (.cls d as c) (.literal s k) = false := by
  rw [sub_succ, if_neg nofun]

theorem moduleExtends_self (i : ModuleId) : (moduleExtends i i).value r = true := by
  show (moduleExtendsFrom i (99 + 1) [] i).value r = true
  rw [moduleExtendsFrom, if_pos rfl, Query.value_pure]

@[simp] theorem sub_module_module (n : Nat) (i j : ModuleId) (m l : Option String)
    (c k : Constraints) :
    r.sub (n + 1) (.module i m c) (.module j l k) = (moduleExtends i j).value r := by
  rw [sub_succ]
  split
  · next h => cases h; exact (r.moduleExtends_self i).symm
  · rfl

@[simp] theorem sub_module_cls (n : Nat) (i : ModuleId) (m : Option String) (d : NodeRef)
    (bs : List Ty) (c k : Constraints) :
    r.sub (n + 1) (.module i m c) (.cls d bs k) = r.sub n std.moduleTy (.cls d bs k) := by
  rw [sub_succ, if_neg nofun]

@[simp] theorem sub_module_var (n : Nat) (i : ModuleId) (m : Option String) (p : NodeRef)
    (c k : Constraints) : r.sub (n + 1) (.module i m c) (.var p k) = false := by
  rw [sub_succ, if_neg nofun]

@[simp] theorem sub_module_literal (n : Nat) (i : ModuleId) (m : Option String) (s : String)
    (c k : Constraints) : r.sub (n + 1) (.module i m c) (.literal s k) = false := by
  rw [sub_succ, if_neg nofun]

variable {r}

theorem value_argsConform (below : Ty → Ty → Query Bool) :
    ∀ {ps : List (NodeRef × Variance)} {xs ys : List Ty},
      (Ty.argsConform below ps xs ys).value r = true ↔
        Conform (fun x y => (below x y).value r = true) ps xs ys
  | (p, v) :: ps, x :: xs, y :: ys => by
    have ih := @value_argsConform below ps xs ys
    cases v with
    | invariant =>
      rw [Ty.argsConform.eq_def, Query.value_bind]
      cases hxy : (below x y).value r with
      | false => exact ⟨nofun, fun h => nomatch hxy.symm.trans h.1.1⟩
      | true =>
        show Query.value r (do if ← below y x then Ty.argsConform below ps xs ys else pure false)
          = true ↔ _
        rw [Query.value_and, Bool.and_eq_true, ih]
        exact ⟨fun h => ⟨⟨hxy, h.1⟩, h.2⟩, fun h => ⟨h.1.2, h.2⟩⟩
    | contravariant =>
      show Query.value r (do if ← below y x then Ty.argsConform below ps xs ys else pure false)
        = true ↔ _
      rw [Query.value_and, Bool.and_eq_true, ih]
      rfl
    | covariant =>
      show Query.value r (do if ← below x y then Ty.argsConform below ps xs ys else pure false)
        = true ↔ _
      rw [Query.value_and, Bool.and_eq_true, ih]
      rfl
  | [], _, _ => by simp [Ty.argsConform, Conform]
  | _ :: _, [], _ => by simp [Ty.argsConform, Conform]
  | _ :: _, _ :: _, [] => by simp [Ty.argsConform, Conform]

/-- A class type is below another one if its ancestor of that class has conforming arguments. -/
theorem sub_cls_cls {n : Nat} {d e : NodeRef} {as bs : List Ty} {c k : Constraints} :
    r.sub (n + 1) (.cls d as c) (.cls e bs k) = true ↔
      ∃ p, (ClassTy.projectTo ⟨d, as, c⟩ e).value r = some p ∧
        Conform (fun x y => r.sub n x y = true) (r.params e) p.args bs := by
  rw [sub_succ]
  split
  · next h =>
    cases h
    refine ⟨fun _ => ⟨⟨d, as, c⟩, projectTo_mk d as c, ?_⟩, fun _ => rfl⟩
    exact conform_self (fun x => r.sub_self n x) _ _
  · show (Ty.classBelow _ _ _).value r = true ↔ _
    unfold Ty.classBelow
    rw [Query.value_bind]
    cases (ClassTy.projectTo ⟨d, as, c⟩ e).value r with
    | none => exact ⟨nofun, fun ⟨_, hp, _⟩ => nomatch hp⟩
    | some p =>
      show (Query.value r (typeParams e >>= fun params => _)) = true ↔ _
      rw [Query.value_bind, value_argsConform]
      exact ⟨fun h => ⟨p, rfl, h⟩, fun ⟨_, hp, h⟩ => Option.some.inj hp ▸ h⟩

end Reading

end PklAnalysis
