import PklAnalysis.Proofs.Standard.Clauses
import PklAnalysis.Proofs.Types.Below

/-!
# Arguments along superclasses

Where a class passes its parameters on to its superclass without changing their variance
(`Aligned`), the arguments of an ancestor are among the arguments of the class, and class types with
conforming arguments have ancestors with conforming arguments (`Regular.conform_ascends`).
-/

namespace PklAnalysis

/-! ## Looking up -/

namespace Bindings

theorem get?_extend_of_not_mem {b : Bindings} {es : List (NodeRef × Ty)} {k : NodeRef}
    (h : k ∉ es.map (·.1)) : (b.extend es).get? k = b.get? k := by
  induction es generalizing b with
  | nil => rfl
  | cons e es ih =>
    rw [List.map_cons, List.mem_cons, not_or] at h
    show ((b.insert e.1 e.2).extend es).get? k = _
    rw [ih h.2, get?_insert_of_ne b e.2 (fun he => h.1 he.symm)]

theorem get?_extend {b : Bindings} {es : List (NodeRef × Ty)} (hn : (es.map (·.1)).Nodup)
    {k : NodeRef} {t : Ty} (h : (k, t) ∈ es) : (b.extend es).get? k = some t := by
  induction es generalizing b with
  | nil => cases h
  | cons e es ih =>
    rw [List.map_cons, List.nodup_cons] at hn
    show ((b.insert e.1 e.2).extend es).get? k = _
    rcases List.mem_cons.1 h with rfl | h
    · rw [get?_extend_of_not_mem hn.1, get?_insert]
    · exact ih hn.2 h

end Bindings

/-! ## Composing conformity -/

theorem Variance.Relates.trans {R T : Ty → Ty → Prop} {v : Variance} {x y z : Ty}
    (h : ∀ a ∈ [x, z], ∀ c ∈ [x, z], R a y → R y c → T a c) (hxy : v.Relates R x y)
    (hyz : v.Relates R y z) : v.Relates T x z := by
  have hx : x ∈ [x, z] := List.mem_cons_self
  have hz : z ∈ [x, z] := List.mem_cons_of_mem x List.mem_cons_self
  cases v with
  | covariant => exact h x hx z hz hxy hyz
  | contravariant => exact h z hz x hx hyz hxy
  | invariant => exact ⟨h x hx z hz hxy.1 hyz.1, h z hz x hx hyz.2 hxy.2⟩

/-- Conformity composes if the relations do at every argument in the middle. A list in the middle
that is too short would leave arguments unrelated. -/
theorem Conform.trans {R T : Ty → Ty → Prop} {ps : List (NodeRef × Variance)} {xs ys zs : List Ty}
    (h : ∀ y ∈ ys, ∀ a ∈ xs ++ zs, ∀ c ∈ xs ++ zs, R a y → R y c → T a c)
    (hl : ys.length = ps.length) (hxy : Conform R ps xs ys) (hyz : Conform R ps ys zs) :
    Conform T ps xs zs := by
  induction ps generalizing xs ys zs with
  | nil => trivial
  | cons p ps ih =>
    cases xs with
    | nil => trivial
    | cons x xs =>
      cases zs with
      | nil => trivial
      | cons z zs =>
        cases ys with
        | nil => cases hl
        | cons y ys =>
          have heads : ∀ a ∈ [x, z], a ∈ x :: xs ++ z :: zs := by
            intro a ha
            simp only [List.mem_cons, List.mem_append, List.not_mem_nil, or_false] at ha ⊢
            exact ha.imp .inl .inl
          have tails : ∀ a ∈ xs ++ zs, a ∈ x :: xs ++ z :: zs := by
            intro a ha
            simp only [List.mem_cons, List.mem_append] at ha ⊢
            exact ha.imp .inr .inr
          refine ⟨hxy.1.trans ?_ hyz.1, ih ?_ (Nat.succ.inj hl) hxy.2 hyz.2⟩
          · intro a ha c hc
            exact h y List.mem_cons_self a (heads a ha) c (heads c hc)
          · intro w hw a ha c hc
            exact h w (List.mem_cons_of_mem y hw) a (tails a ha) c (tails c hc)

/-- Arguments conform under another relation if it holds of them wherever the first one does. -/
theorem Conform.of_members {R S : Ty → Ty → Prop} {ps : List (NodeRef × Variance)} {xs ys : List Ty}
    (h : ∀ x ∈ xs, ∀ y ∈ ys, (R x y → S x y) ∧ (R y x → S y x)) (hc : Conform R ps xs ys) :
    Conform S ps xs ys := by
  induction ps generalizing xs ys with
  | nil => trivial
  | cons p ps ih =>
    cases xs with
    | nil => trivial
    | cons x xs =>
      cases ys with
      | nil => trivial
      | cons y ys =>
        obtain ⟨h₁, h₂⟩ := h x List.mem_cons_self y List.mem_cons_self
        have tails : ∀ a ∈ xs, ∀ b ∈ ys, (R a b → S a b) ∧ (R b a → S b a) := fun a ha b hb =>
          h a (List.mem_cons_of_mem x ha) b (List.mem_cons_of_mem y hb)
        refine ⟨?_, ih tails hc.2⟩
        obtain ⟨_, v⟩ := p
        cases v with
        | covariant => exact h₁ hc.1
        | contravariant => exact h₂ hc.1
        | invariant => exact ⟨h₁ hc.1.1, h₂ hc.1.2⟩

/-- Read from the right, arguments conform under the relation read from the right. -/
theorem Conform.flip {R : Ty → Ty → Prop} {ps : List (NodeRef × Variance)} {xs ys : List Ty}
    (h : Conform R ps xs ys) : Conform (fun x y => R y x) ps ys xs := by
  induction ps generalizing xs ys with
  | nil => trivial
  | cons p ps ih =>
    cases xs with
    | nil => cases ys <;> trivial
    | cons x xs =>
      cases ys with
      | nil => trivial
      | cons y ys =>
        refine ⟨?_, ih h.2⟩
        obtain ⟨_, v⟩ := p
        cases v with
        | covariant => exact h.1
        | contravariant => exact h.1
        | invariant => exact ⟨h.1.1, h.1.2⟩

namespace Reading

variable (r : Reading)

/-- A hierarchy with `Any` at its top in which classes pass their parameters on, beside module
chains that come to an end. -/
structure Regular : Prop where
  lawful : r.Lawful
  rooted : r.Rooted
  modules : r.ModulesRooted
  top : r (.supertype std.any) = none
  aligned : ∀ {d e qs k}, r (.supertype d) = some (.cls e qs k) → Aligned (r.params d) (r.params e) qs
  nodup : ∀ {d s}, r (.supertype d) = some s → ((r.params d).map (·.1)).Nodup
  stringParams : r.params std.string = []
  moduleParams : r.params std.module = []

variable {r}

/-- Two conforming argument lists bind every parameter to related types. -/
theorem bindings_of_conform {R : Ty → Ty → Prop} {d : NodeRef} {xs ys : List Ty}
    (hn : ((r.params d).map (·.1)).Nodup) (hx : xs.length = (r.params d).length)
    (hy : ys.length = (r.params d).length) (hc : Conform R (r.params d) xs ys) :
    ∀ p ∈ r.params d, ∃ x ∈ xs, ∃ y ∈ ys, (r.bindings d xs).get? p.1 = some x ∧
      (r.bindings d ys).get? p.1 = some y ∧ p.2.Relates R x y := by
  rw [bindings_eq, bindings_eq]
  have key : ∀ {ps : List (NodeRef × Variance)} {xs ys : List Ty}, xs.length = ps.length →
      ys.length = ps.length → Conform R ps xs ys → ∀ p ∈ ps, ∃ x ∈ xs, ∃ y ∈ ys,
        (p.1, x) ∈ (ps.map (·.1)).zip xs ∧ (p.1, y) ∈ (ps.map (·.1)).zip ys ∧
          p.2.Relates R x y := by
    intro ps
    induction ps with
    | nil => exact fun _ _ _ p hp => absurd hp List.not_mem_nil
    | cons q ps ih =>
      intro xs ys hx hy hc p hp
      cases xs with
      | nil => cases hx
      | cons x xs =>
        cases ys with
        | nil => cases hy
        | cons y ys =>
          rcases List.mem_cons.1 hp with rfl | hp
          · exact ⟨x, List.mem_cons_self, y, List.mem_cons_self, List.mem_cons_self,
              List.mem_cons_self, hc.1⟩
          · obtain ⟨x', hx', y', hy', h₁, h₂, h₃⟩ :=
              ih (Nat.succ.inj hx) (Nat.succ.inj hy) hc.2 p hp
            exact ⟨x', List.mem_cons_of_mem x hx', y', List.mem_cons_of_mem y hy',
              List.mem_cons_of_mem _ h₁, List.mem_cons_of_mem _ h₂, h₃⟩
  have keys : ∀ {zs : List Ty}, zs.length = (r.params d).length →
      ((((r.params d).map (·.1)).zip zs).map (·.1)).Nodup := by
    intro zs hz
    rwa [List.map_fst_zip (by rw [List.length_map]; exact Nat.le_of_eq hz.symm)]
  intro p hp
  obtain ⟨x, hx', y, hy', h₁, h₂, h₃⟩ := key hx hy hc p hp
  exact ⟨x, hx', y, hy', Bindings.get?_extend (keys hx) h₁, Bindings.get?_extend (keys hy) h₂, h₃⟩

/-- The arguments that a class passes on conform if its own arguments do, and are among them. -/
theorem conform_bindAll {R : Ty → Ty → Prop} {ps qs : List (NodeRef × Variance)} {as : List Ty}
    (ha : Aligned ps qs as) {b₁ b₂ : Bindings} {xs ys : List Ty}
    (hb : ∀ p ∈ ps, ∃ x ∈ xs, ∃ y ∈ ys, b₁.get? p.1 = some x ∧ b₂.get? p.1 = some y ∧
      p.2.Relates R x y) :
    Conform R qs (Ty.bindAll b₁ as) (Ty.bindAll b₂ as) ∧
      (∀ x ∈ Ty.bindAll b₁ as, x ∈ xs) ∧ (∀ y ∈ Ty.bindAll b₂ as, y ∈ ys) := by
  obtain ⟨hl, ha⟩ := ha
  induction as generalizing qs with
  | nil =>
    refine ⟨?_, fun x hx => absurd hx List.not_mem_nil, fun y hy => absurd hy List.not_mem_nil⟩
    cases qs <;> trivial
  | cons a as ih =>
    cases qs with
    | nil => cases hl
    | cons q qs =>
      obtain ⟨h₁, h₂, h₃⟩ := ih (Nat.succ.inj hl) (fun x hx => ha x (List.mem_cons_of_mem _ hx))
      obtain ⟨p, hp, hv, rfl⟩ := ha (a, q) List.mem_cons_self
      obtain ⟨x, hx, y, hy, hgx, hgy, hR⟩ := hb p hp
      have ex : Ty.bind b₁ (.var p.1 []) = x := by rw [Ty.bind, hgx]; exact x.addConstraints_nil
      have ey : Ty.bind b₂ (.var p.1 []) = y := by rw [Ty.bind, hgy]; exact y.addConstraints_nil
      refine ⟨⟨?_, h₁⟩, ?_, ?_⟩
      · rw [ex, ey, ← hv]
        exact hR
      · intro z hz
        rcases List.mem_cons.1 hz with rfl | hz
        · rw [ex]; exact hx
        · exact h₂ z hz
      · intro z hz
        rcases List.mem_cons.1 hz with rfl | hz
        · rw [ey]; exact hy
        · exact h₃ z hz

namespace Regular

variable (hr : r.Regular)
include hr

/-- Of two types of one class with conforming arguments, each has every ancestor of the other, again
with conforming arguments. These are among the arguments of the types. -/
theorem conform_ascends {R : Ty → Ty → Prop} {n : Nat} {b q : ClassTy} (hq : r.Ascends n b q)
    {p : ClassTy} (hd : p.decl = b.decl) (hp : p.args.length = (r.params b.decl).length)
    (hb : b.args.length = (r.params b.decl).length)
    (hc : Conform R (r.params b.decl) p.args b.args) :
    ∃ p', r.Ascends n p p' ∧ p'.decl = q.decl ∧ p'.args.length = (r.params q.decl).length ∧
      q.args.length = (r.params q.decl).length ∧ Conform R (r.params q.decl) p'.args q.args ∧
      (∀ x ∈ p'.args, x ∈ p.args) ∧ (∀ x ∈ q.args, x ∈ b.args) := by
  induction hq generalizing p with
  | here b => exact ⟨p, .here p, hd, hp, hb, hc, fun _ h => h, fun _ h => h⟩
  | @up n b b' q hb' _ ih =>
    obtain ⟨e, qs, k, hs, rfl⟩ := hr.rooted.exists_supertype hb'
    have hn := hr.nodup hs
    have ha := hr.aligned hs
    obtain ⟨hc', hx, hy⟩ := conform_bindAll ha (bindings_of_conform hn hp hb hc)
    have len : ∀ zs, (Ty.bindAll (r.bindings b.decl zs) qs).length = (r.params e).length := by
      intro zs
      rw [Ty.bindAll_eq_map, List.length_map, ha.1]
    obtain ⟨p', h₁, h₂, h₃, h₄, h₅, h₆, h₇⟩ :=
      ih (p := ⟨e, Ty.bindAll (r.bindings b.decl p.args) qs, k⟩) rfl (len _) (len _) hc'
    have hp' : r.parent p = some ⟨e, Ty.bindAll (r.bindings b.decl p.args) qs, k⟩ := by
      obtain ⟨d, as, c⟩ := p
      cases hd
      exact parent_of_supertype hs
    exact ⟨p', .up hp' h₁, h₂, h₃, h₄, h₅, fun x h => hx x (h₆ x h), fun x h => hy x (h₇ x h)⟩

end Regular

end Reading

end PklAnalysis
