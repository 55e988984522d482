import PklAnalysis.Check.Outcome
import PklAnalysis.Proofs.Check.Alternatives

/-!
# Distribution

The check of a type against another one walks through both of them and keeps a record of failures,
part of which it takes back when an alternative succeeds. What remains in the end is a table with a
row for each actual alternative and a column for each expected one: `Check.grid` reads the result
off this table, and `Spreads.conforms` says that the walk comes to it.

* `Check.fits`: the place in the table where the constraints hold as well;
* `Check.fails`: where only the types fit;
* `Check.row`: a row succeeds in one place or keeps the constraints of all places that fail.
-/

namespace PklAnalysis

open Session

namespace ModuleSource

variable (src : ModuleSource)

/-- Whether a constant satisfies a constraint. There is nothing to satisfy if the module of the
constraint has no tree. -/
def satisfies (v : Constant) (c : NodeRef) : Bool :=
  match src.treeOf c.module with
  | none => true
  | some t => match t.satisfies v c.node with
    | .ok truth => truth == .yes
    | .error _ => false

/-- Whether the constant, if there is one, satisfies all constraints. -/
def accepts (value : ValueForm) (cs : Constraints) : Bool :=
  match value.get with
  | .ok (some v) => cs.all (src.satisfies v)
  | _ => true

variable {src} {value : ValueForm}

theorem satisfies_of_missing {c : NodeRef} (h : src.treeOf c.module = none) (v : Constant) :
    src.satisfies v c = true := by
  unfold satisfies
  rw [h]

theorem satisfies_of_ok {c : NodeRef} {t : SyntaxTree} {v : Constant} {truth : Truth}
    (h : src.treeOf c.module = some t) (ht : t.satisfies v c.node = .ok truth) :
    src.satisfies v c = (truth == Truth.yes) := by
  unfold satisfies
  rw [h]
  show (match t.satisfies v c.node with | .ok truth => truth == Truth.yes | .error _ => false) = _
  rw [ht]

theorem accepts_nil : src.accepts value [] = true := by
  unfold accepts
  split <;> rfl

theorem accepts_of_none (h : value.get = .ok none) (cs : Constraints) :
    src.accepts value cs = true := by
  unfold accepts
  rw [h]

theorem accepts_of_some {v : Constant} (h : value.get = .ok (some v)) (cs : Constraints) :
    src.accepts value cs = cs.all (src.satisfies v) := by
  unfold accepts
  rw [h]

variable (src) in
/-- Why a constant cannot be held against constraints. -/
def Raises (value : ValueForm) (cs : Constraints) (e : EvalError) : Prop :=
  value.get = .error e ∨ ∃ v, value.get = .ok (some v) ∧
    ∃ c ∈ cs, ∃ t, src.treeOf c.module = some t ∧ t.satisfies v c.node = .error e

end ModuleSource

/-! ## Checks that may raise an error -/

/-- A check comes out as `a` or with an error in `bad`, and always in the same way. -/
def Session.Yields {α : Type} (src : ModuleSource) (bad : EvalError → Prop) (x : Check α) (a : α) :
    Prop :=
  Gives src x.run (.ok a) ∨ ∃ e, bad e ∧ Gives src x.run (.error e)

namespace Session

variable {src : ModuleSource} {bad : EvalError → Prop} {α β : Type}

theorem yields_pure (a : α) : Yields src bad (pure a) a := .inl (gives_pure _)

theorem Yields.bind {x : Check α} {f : α → Check β} {a : α} {b : β} (hx : Yields src bad x a)
    (hf : Yields src bad (f a) b) : Yields src bad (x >>= f) b := by
  rcases hx with hx | ⟨e, he, hx⟩
  · rcases hf with hf | ⟨e, he, hf⟩
    · exact .inl (hx.bind hf)
    · exact .inr ⟨e, he, hx.bind hf⟩
  · exact .inr ⟨e, he, hx.bind (gives_pure _)⟩

theorem Gives.yields {x : Query α} {a : α} (h : Gives src x a) :
    Yields src bad (Check.query x) a := .inl (h.bind (gives_pure _))

end Session

namespace Check

/-! ## The table -/

section
variable (src : ModuleSource) (value : ValueForm) (below : Ty → Ty → Bool)

/-- The actual alternative conforms to the expected one. -/
def fits (x y : Ty) : Bool :=
  y.isUnknown || (below x y && src.accepts value y.constraints)

/-- The types fit, but the constraints do not hold. -/
def fails (x y : Ty) : Bool :=
  !y.isUnknown && (below x y && !src.accepts value y.constraints)

/-- The constant is asked for. -/
def consults (x y : Ty) : Bool :=
  !y.isUnknown && (below x y && !y.constraints.isEmpty)

/-- The constraint lists that an actual alternative leaves behind. -/
def missed (x : Ty) (ys : List Ty) : List Constraints :=
  if ys.any (fits src value below x) then []
  else (ys.filter (fails src value below x)).map Ty.constraints

/-- One actual alternative against all expected ones. -/
def row (x : Ty) (ys : List Ty) : Conformity where
  conforms := ys.any (fits src value below x)
  failed := missed src value below x ys
  consulted := ys.any (consults below x)

/-- All actual alternatives against all expected ones. -/
def grid (xs ys : List Ty) : Conformity where
  conforms := xs.all (fun x => ys.any (fits src value below x))
  failed := xs.flatMap (fun x => missed src value below x ys)
  consulted := xs.any (fun x => ys.any (consults below x))

theorem row_append (x : Ty) (ys zs : List Ty) :
    row src value below x (ys ++ zs) =
      (row src value below x ys).either (row src value below x zs) := by
  unfold row missed Conformity.either
  rw [List.any_append, List.any_append, List.filter_append, List.map_append]
  cases ys.any (fits src value below x) <;> cases zs.any (fits src value below x) <;> rfl

theorem grid_append (xs ys zs : List Ty) :
    grid src value below (xs ++ ys) zs =
      (grid src value below xs zs).both (grid src value below ys zs) := by
  unfold grid Conformity.both
  rw [List.all_append, List.flatMap_append, List.any_append]

theorem grid_singleton (x : Ty) (ys : List Ty) :
    grid src value below [x] ys = row src value below x ys := by
  simp [grid, row]

theorem grid_unknown (xs : List Ty) : grid src value below xs [.unknown] = ⟨true, [], false⟩ := by
  have hx : ∀ x, [Ty.unknown].any (fits src value below x) = true := fun _ => rfl
  simp [grid, missed, hx, consults, Ty.isUnknown]

end

/-! ## The walk -/

section
variable {src : ModuleSource} {value : ValueForm} {below : Ty → Ty → Bool} {bad : EvalError → Prop}

theorem yields_satisfiesAll {v : Constant} {cs : Constraints}
    (hbad : ∀ c ∈ cs, ∀ t, src.treeOf c.module = some t → ∀ e,
      t.satisfies v c.node = .error e → bad e) :
    Yields src bad (satisfiesAll v cs) (cs.all (src.satisfies v)) := by
  induction cs with
  | nil => exact yields_pure true
  | cons c cs ih =>
    have ih := ih (fun d hd => hbad d (List.mem_cons_of_mem c hd))
    refine (gives_tree src c.module).yields.bind ?_
    rw [List.all_cons]
    cases ht : src.treeOf c.module with
    | none =>
      rw [ModuleSource.satisfies_of_missing ht]
      exact ih
    | some t =>
      have hbad := hbad c List.mem_cons_self t ht
      show Yields src bad (evaluate (t.satisfies v c.node) >>= _) _
      cases hs : t.satisfies v c.node with
      | error e => exact .inr ⟨e, hbad e hs, gives_pure _⟩
      | ok truth =>
        rw [ModuleSource.satisfies_of_ok ht hs]
        cases truth with
        | yes => exact ih
        | no => exact yields_pure false
        | undecided => exact yields_pure false

/-- The constraints of an expected alternative, once the types fit. -/
theorem yields_constraints {cs : Constraints} (hbad : ∀ e, src.Raises value cs e → bad e) :
    Yields src bad
      (do match ← evaluate value.get with
        | none => pure ⟨true, [], true⟩
        | some v => do
          if ← satisfiesAll v cs then pure ⟨true, [], true⟩ else pure ⟨false, [cs], true⟩ :
        Check Conformity)
      ⟨src.accepts value cs, if src.accepts value cs then [] else [cs], true⟩ := by
  cases hget : value.get with
  | error e => exact .inr ⟨e, hbad e (.inl hget), gives_pure _⟩
  | ok found =>
    cases found with
    | none =>
      rw [ModuleSource.accepts_of_none hget]
      exact yields_pure _
    | some v =>
      rw [ModuleSource.accepts_of_some hget]
      refine (yields_satisfiesAll (v := v) (fun d hd t ht e he => ?_)).bind ?_
      · exact hbad e (.inr ⟨v, hget, d, hd, t, ht, he⟩)
      · cases cs.all (src.satisfies v) <;> exact yields_pure _

theorem yields_leaf {x y : Ty} (hy : y.isUnknown = false)
    (hb : Gives src (x.isSubtype y.withoutConstraints) (below x y))
    (hbad : consults below x y = true → ∀ e, src.Raises value y.constraints e → bad e) :
    Yields src bad (conformsLeaf value x y) (row src value below x [y]) := by
  refine hb.yields.bind ?_
  unfold consults at hbad
  unfold row missed fits fails consults
  simp only [hy, List.any_cons, List.any_nil, List.filter_cons, List.filter_nil, Bool.or_false,
    Bool.false_or, Bool.not_false, Bool.true_and]
  cases hxy : below x y with
  | false => exact yields_pure _
  | true =>
    cases hc : y.constraints.isEmpty with
    | true =>
      rw [List.isEmpty_iff.1 hc, ModuleSource.accepts_nil]
      exact yields_pure _
    | false =>
      have h := yields_constraints (hbad (by rw [hy, hxy, hc]; rfl))
      cases ha : src.accepts value y.constraints with
      | false =>
        rw [ha] at h
        exact h
      | true =>
        rw [ha] at h
        exact h

/-! ### The shapes of the expected type -/

theorem conformsUpTo_leaf (n : Nat) {a e : Ty} (ha : a.isCompound = false)
    (he : e.isCompound = false) (hu : e.isUnknown = false) :
    conformsUpTo value (n + 1) a e = conformsLeaf value a e := by
  cases a <;> cases e <;>
    first | rfl | (cases ha; done) | cases he

theorem conformsUpTo_typeAlias (n : Nat) {a : Ty} (ha : a.isCompound = false) (d : NodeRef)
    (as : List Ty) (c : Constraints) :
    conformsUpTo value (n + 1) a (.typeAlias d as c) =
      query (Ty.typeAlias d as c).fullyUnaliased >>= conformsUpTo value n a := by
  cases a <;> first | rfl | cases ha

theorem conformsUpTo_union (n : Nat) {a : Ty} (ha : a.isCompound = false) (t u : Ty)
    (c : Constraints) :
    conformsUpTo value (n + 1) a (.union t u c) = (do
      let left ← conformsUpTo value n a (t.addConstraints c)
      let right ← conformsUpTo value n a (u.addConstraints c)
      pure (left.either right)) := by
  cases a <;> first | rfl | cases ha

/-- What is known of all places of the table. -/
def Decided (src : ModuleSource) (value : ValueForm) (below : Ty → Ty → Bool)
    (bad : EvalError → Prop) (x y : Ty) : Prop :=
  Gives src (x.isSubtype y.withoutConstraints) (below x y) ∧
    (consults below x y = true → ∀ e, src.Raises value y.constraints e → bad e)

/-- The walk through the expected type comes to the row of the actual alternative. -/
theorem yields_row {fuel n : Nat} {x e : Ty} {ys : List Ty} (hx : x.isCompound = false)
    (he : Spreads src n e ys) (hn : n < fuel) (hd : n ≤ Limits.moduleChain)
    (h : ∀ y ∈ ys, Decided src value below bad x y) :
    Yields src bad (conformsUpTo value fuel x e) (row src value below x ys) := by
  induction fuel generalizing n e ys with
  | zero => omega
  | succ fuel ih =>
    cases he with
    | leaf _ hl =>
      cases hu : e.isUnknown with
      | true =>
        cases e with
        | unknown => exact yields_pure _
        | _ => cases hu
      | false =>
        rw [conformsUpTo_leaf fuel hx hl hu]
        obtain ⟨hb, hbad⟩ := h e List.mem_cons_self
        exact yields_leaf hu hb hbad
    | typeAlias hg he =>
      rw [conformsUpTo_typeAlias fuel hx]
      obtain ⟨m, u, hm, hu, he⟩ := (Unfolds.typeAlias hg he).fullyUnaliased hd
      exact hu.yields.bind (ih he (by omega) (by omega) h)
    | @union n t u xs ys c ht hu =>
      rw [conformsUpTo_union fuel hx]
      rw [List.map_append] at h ⊢
      have hleft := ih (ht.addConstraints c) (by omega) (by omega)
        (fun y hy => h y (List.mem_append_left _ hy))
      have hright := ih (hu.addConstraints c) (by omega) (by omega)
        (fun y hy => h y (List.mem_append_right _ hy))
      rw [row_append]
      exact hleft.bind (hright.bind (yields_pure _))

/-! ### The shapes of the actual type -/

theorem conformsUpTo_alias_left (n : Nat) {e : Ty} (he : e.isUnknown = false) (d : NodeRef)
    (as : List Ty) (c : Constraints) :
    conformsUpTo value (n + 1) (.typeAlias d as c) e =
      query (Ty.typeAlias d as c).fullyUnaliased >>= fun a => conformsUpTo value n a e := by
  cases e <;> first | rfl | cases he

theorem conformsUpTo_union_left (n : Nat) {e : Ty} (he : e.isUnknown = false) (t u : Ty)
    (c : Constraints) :
    conformsUpTo value (n + 1) (.union t u c) e = (do
      let left ← conformsUpTo value n t e
      let right ← conformsUpTo value n u e
      pure (left.both right)) := by
  cases e <;> first | rfl | cases he

/-- The walk through both types comes to the table. -/
theorem yields_grid {fuel m n : Nat} {a e : Ty} {xs ys : List Ty} (ha : Splits src m a xs)
    (he : Spreads src n e ys) (hn : m + n < fuel) (hd : m + n ≤ Limits.moduleChain)
    (h : ∀ x ∈ xs, ∀ y ∈ ys, Decided src value below bad x y) :
    Yields src bad (conformsUpTo value fuel a e) (grid src value below xs ys) := by
  induction fuel generalizing m a xs with
  | zero => omega
  | succ fuel ih =>
    cases hu : e.isUnknown with
    | true =>
      cases e with
      | unknown =>
        cases he
        rw [grid_unknown]
        exact yields_pure _
      | _ => cases hu
    | false =>
      cases ha with
      | leaf _ hl =>
        rw [grid_singleton]
        exact yields_row hl he (by omega) (by omega) (h a List.mem_cons_self)
      | typeAlias hg ha =>
        rw [conformsUpTo_alias_left fuel hu]
        obtain ⟨k, u, hk, hu, ha⟩ := (Unfolds.typeAlias hg ha).fullyUnaliased (by omega)
        exact hu.yields.bind (ih ha (by omega) (by omega) h)
      | @union m t u xs zs c ht hu' =>
        rw [conformsUpTo_union_left fuel hu, List.map_id']
        rw [List.map_id'] at h
        have hleft := ih ht (by omega) (by omega) (fun x hx => h x (List.mem_append_left _ hx))
        have hright := ih hu' (by omega) (by omega) (fun x hx => h x (List.mem_append_right _ hx))
        rw [grid_append]
        exact hleft.bind (hright.bind (yields_pure _))

end

end Check

end PklAnalysis
