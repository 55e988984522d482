import PklAnalysis.Proofs.Types.Stable
import PklAnalysis.Proofs.Types.Transitive

/-!
# Types that are below each other

Types that are below each other can stand for each other as arguments of a class (`Mutual.cls`) and
of an alias (`Uniform.mutual_typeAlias`), and parameters may be bound to the one or the other
(`Uniform.sub_bind_of_images`). Where no `unknown` comes up with parameters bound to some types, none
does with types in their place in which none comes up either (`Stable.known_rebind`).
-/

namespace PklAnalysis

theorem conform_map {α : Type} {R : Ty → Ty → Prop} {f g : α → Ty} (ps : List (NodeRef × Variance))
    {l : List α} (h : ∀ a ∈ l, R (f a) (g a) ∧ R (g a) (f a)) :
    Conform R ps (l.map f) (l.map g) := by
  induction ps generalizing l with
  | nil => trivial
  | cons p ps ih =>
    cases l with
    | nil => trivial
    | cons a l =>
      refine ⟨?_, ih (fun a ha => h a (List.mem_cons_of_mem _ ha))⟩
      obtain ⟨left, right⟩ := h a List.mem_cons_self
      obtain ⟨_, v⟩ := p
      cases v with
      | covariant => exact left
      | contravariant => exact right
      | invariant => exact ⟨left, right⟩

namespace Reading

variable {r : Reading}

/-- Constraints that are attached to both sides make no difference. -/
theorem sub_addConstraints (hr : r.Lawful) {n : Nat} {t u : Ty} (h : r.sub n t u = true)
    (c : Constraints) : r.sub n (t.addConstraints c) (u.addConstraints c) = true := by
  have left : t.Alike (t.addConstraints c) := (t.withoutConstraints_addConstraints c).symm
  have right : u.Alike (u.addConstraints c) := (u.withoutConstraints_addConstraints c).symm
  exact sub_left_alike hr left (sub_of_fits hr (.alike right) h)

variable (r) in
/-- Either type is below the other one, whatever the limit. -/
def Mutual (t u : Ty) : Prop := r.Below t u ∧ r.Below u t

namespace Mutual

theorem self (t : Ty) : r.Mutual t t := ⟨below_self t, below_self t⟩

theorem symm {t u : Ty} (h : r.Mutual t u) : r.Mutual u t := ⟨h.2, h.1⟩

theorem addConstraints (hr : r.Lawful) {t u : Ty} (h : r.Mutual t u) (c : Constraints) :
    r.Mutual (t.addConstraints c) (u.addConstraints c) :=
  ⟨fun n => sub_addConstraints hr (h.1 n) c, fun n => sub_addConstraints hr (h.2 n) c⟩

/-- Arguments of a class may be replaced by types that are below each other. -/
theorem cls {α : Type} {f g : α → Ty} {l : List α} (d : NodeRef) (c : Constraints)
    (h : ∀ a ∈ l, r.Mutual (f a) (g a)) :
    r.Mutual (.cls d (l.map f) c) (.cls d (l.map g) c) :=
  ⟨below_cls_cls.2 ⟨_, projectTo_self _, conform_map _ h⟩,
    below_cls_cls.2 ⟨_, projectTo_self _, conform_map _ (fun a ha => (h a ha).symm)⟩⟩

end Mutual

/-- Constraints make no difference to what comes up. -/
theorem Known.of_alike (hr : r.Lawful) {t u : Ty} (ht : r.Known t) (h : t.Alike u) : r.Known u := by
  induction ht generalizing u with
  | nothing => cases u <;> first | exact .nothing | exact nomatch h
  | var p c => cases u <;> first | exact .var _ _ | exact nomatch h
  | module i m c => cases u <;> first | exact .module .. | exact nomatch h
  | literal s c => cases u <;> first | exact .literal .. | exact nomatch h
  | cls c hl ha =>
    cases u with
    | cls d as k => cases h; exact .cls k hl ha
    | _ => exact nomatch h
  | @typeAlias d as c _ ih =>
    cases u with
    | typeAlias _ _ k =>
      cases h
      refine .typeAlias (ih ?_)
      rw [hr d as c, hr d as k]
      exact Ty.alike_addConstraints ..
    | _ => exact nomatch h
  | union c hl hr' =>
    cases u with
    | union l r k => cases h; exact .union k hl hr'
    | _ => exact nomatch h

/-! ## Rebinding -/

/-- What the parameters of a declaration are bound to, where arguments are related. -/
theorem images_bindings {R : Ty → Ty → Prop} (hv : ∀ p, R (.var p []) (.var p [])) (d : NodeRef)
    {α : Type} {f g : α → Ty} {l : List α} (hl : ∀ a ∈ l, R (f a) (g a)) (p : NodeRef) :
    R ((Ty.var p []).bind (r.bindings d (l.map f))) ((Ty.var p []).bind (r.bindings d (l.map g))) := by
  have extend : ∀ (ks : List NodeRef) {l : List α} {b b' : Bindings}, (∀ a ∈ l, R (f a) (g a)) →
      R ((Ty.var p []).bind b) ((Ty.var p []).bind b') →
        R ((Ty.var p []).bind (b.extend (ks.zip (l.map f))))
          ((Ty.var p []).bind (b'.extend (ks.zip (l.map g)))) := by
    intro ks
    induction ks with
    | nil => exact fun _ h => h
    | cons k ks ih =>
      intro l b b' hl h
      cases l with
      | nil => exact h
      | cons a l =>
        refine ih (b := b.insert k (f a)) (fun a ha => hl a (List.mem_cons_of_mem _ ha)) ?_
        by_cases hk : k = p
        · subst hk
          rw [Ty.bind, Bindings.get?_insert, Ty.bind, Bindings.get?_insert]
          show R ((f a).addConstraints []) ((g a).addConstraints [])
          rw [Ty.addConstraints_nil, Ty.addConstraints_nil]
          exact hl a List.mem_cons_self
        · rw [Ty.bind, Bindings.get?_insert_of_ne _ _ hk, Ty.bind, Bindings.get?_insert_of_ne _ _ hk]
          rw [Ty.bind, Ty.bind] at h
          exact h
  rw [bindings_eq, bindings_eq]
  exact extend _ hl (hv p)

variable (r) in
/-- An alias stands for one type with the arguments put in, whatever they are. -/
def Uniform : Prop :=
  ∀ d, ∃ t : Ty, ∀ as c, r (.expansion d as c) = (t.bind (r.bindings d as)).addConstraints c

theorem Stable.uniform (hr : r.Stable) : r.Uniform := by
  intro d
  obtain ⟨t, -, -, -, h⟩ := hr.expansion d
  exact ⟨t, h⟩

namespace Uniform

variable (hr : r.Uniform) {b b' : Bindings}
include hr

theorem lawful : r.Lawful := by
  intro d as c
  obtain ⟨t, h⟩ := hr d
  rw [h as c, h as [], Ty.addConstraints_nil]

/-- An alias is below another one where what they stand for is. -/
theorem sub_succ_typeAlias {n : Nat} {d : NodeRef} {as bs : List Ty} {c : Constraints}
    (h : r.sub n (r (.expansion d as c)) (r (.expansion d bs c)) = true) :
    r.sub (n + 1) (.typeAlias d as c) (.typeAlias d bs c) = true := by
  refine sub_succ_of_parts rfl nofun (fun p hp => ?_)
  cases List.mem_singleton.1 hp
  exact sub_of_fits hr.lawful (.part (List.mem_singleton_self _) (.alike rfl)) h

/-- Where parameters are bound to types that are below each other, so are the types that mention
them. -/
theorem sub_bind_of_images {n : Nat}
    (h : ∀ p, r.sub n ((Ty.var p []).bind b) ((Ty.var p []).bind b') = true)
    (h' : ∀ p, r.sub n ((Ty.var p []).bind b') ((Ty.var p []).bind b) = true) (t : Ty) :
    r.sub n (t.bind b) (t.bind b') = true := by
  induction n generalizing t b b' with
  | zero => rfl
  | succ n ih =>
    have less : ∀ t : Ty, r.sub n (t.bind b) (t.bind b') = true ∧
        r.sub n (t.bind b') (t.bind b) = true := fun t =>
      ⟨ih (fun p => sub_of_succ (h p)) (fun p => sub_of_succ (h' p)) t,
        ih (fun p => sub_of_succ (h' p)) (fun p => sub_of_succ (h p)) t⟩
    cases t with
    | unknown | nothing | module | literal => exact r.sub_self _ _
    | var p c =>
      have image : ∀ b, ((Ty.var p []).bind b).Alike ((Ty.var p c).bind b) := by
        intro b
        show _ = (((Ty.var p []).addConstraints c).bind b).withoutConstraints
        rw [Ty.addConstraints_bind, Ty.withoutConstraints_addConstraints]
      exact sub_left_alike hr.lawful (image b) (sub_of_fits hr.lawful (.alike (image b')) (h p))
    | cls d as c =>
      refine sub_cls_cls.2 ⟨_, projectTo_self _, ?_⟩
      rw [Ty.bindAll_eq_map b, Ty.bindAll_eq_map b']
      exact conform_map _ (fun a _ => less a)
    | typeAlias d as c =>
      obtain ⟨t, expansion⟩ := hr d
      have images := images_bindings (r := r)
        (R := fun x y => r.sub n x y = true ∧ r.sub n y x = true)
        (fun p => ⟨r.sub_self n _, r.sub_self n _⟩) d (fun a (_ : a ∈ as) => less a)
      refine hr.sub_succ_typeAlias ?_
      rw [Ty.bindAll_eq_map b, Ty.bindAll_eq_map b', expansion, expansion]
      exact sub_addConstraints hr.lawful
        (ih (fun p => (images p).1) (fun p => (images p).2) t) c
    | union t u c =>
      refine sub_succ_of_parts rfl nofun (fun p hp => ?_)
      rcases List.mem_cons.1 hp with rfl | hp
      · exact sub_of_fits hr.lawful (.part List.mem_cons_self (.alike rfl)) (less t).1
      · cases List.mem_singleton.1 hp
        exact sub_of_fits hr.lawful
          (.part (List.mem_cons_of_mem _ List.mem_cons_self) (.alike rfl)) (less u).1

/-- Arguments of an alias may be replaced by types that are below each other. -/
theorem mutual_typeAlias {α : Type} {f g : α → Ty} {l : List α} (d : NodeRef) (c : Constraints)
    (h : ∀ a ∈ l, r.Mutual (f a) (g a)) :
    r.Mutual (.typeAlias d (l.map f) c) (.typeAlias d (l.map g) c) := by
  have key : ∀ {f g : α → Ty}, (∀ a ∈ l, r.Mutual (f a) (g a)) →
      r.Below (.typeAlias d (l.map f) c) (.typeAlias d (l.map g) c) := by
    intro f g h n
    obtain ⟨t, expansion⟩ := hr d
    cases n with
    | zero => rfl
    | succ n =>
      have images := images_bindings (r := r) (R := r.Mutual) (fun p => .self (.var p [])) d h
      refine hr.sub_succ_typeAlias ?_
      rw [expansion, expansion]
      exact sub_addConstraints hr.lawful
        (hr.sub_bind_of_images (fun p => (images p).1 n) (fun p => (images p).2 n) t) c
  exact ⟨key h, key (fun a ha => (h a ha).symm)⟩

end Uniform

namespace Stable

variable (hr : r.Stable) {b b' : Bindings}
include hr

/-- No `unknown` comes up where none comes up in what the parameters are bound to. -/
theorem known_rebind (h : ∀ p, r.Known ((Ty.var p []).bind b) → r.Known ((Ty.var p []).bind b'))
    {t : Ty} (ht : r.Full t) (known : r.Known (t.bind b)) : r.Known (t.bind b') := by
  -- a type that is no parameter has the shape of what it turns into
  have var : ∀ {p c}, r.Known ((Ty.var p c).bind b) → r.Known ((Ty.var p c).bind b') := by
    intro p c hk
    have image : ∀ b, ((Ty.var p []).bind b).Alike ((Ty.var p c).bind b) := by
      intro b
      show _ = (((Ty.var p []).addConstraints c).bind b).withoutConstraints
      rw [Ty.addConstraints_bind, Ty.withoutConstraints_addConstraints]
    exact (h p (hk.of_alike hr.lawful (image b).symm)).of_alike hr.lawful (image b')
  generalize hu : t.bind b = u at known
  induction known generalizing t with
  | cls k hl ha ih =>
    cases t with
    | var p c => exact var (hu ▸ .cls k hl ha)
    | cls d as c =>
      obtain ⟨rfl, rfl, rfl⟩ := hu
      refine .cls _ ?_ (fun x hx => ?_)
      · rw [Ty.length_bindAll] at hl ⊢
        exact hl
      · obtain ⟨a, ha, rfl⟩ := Ty.mem_bindAll.1 hx
        exact ih _ (Ty.mem_bindAll.2 ⟨a, ha, rfl⟩) (ht.args.2 a ha) rfl
    | _ => cases hu
  | @typeAlias d _ k hk ih =>
    cases t with
    | var p c => exact var (hu ▸ .typeAlias hk)
    | typeAlias _ as _ =>
      obtain ⟨rfl, rfl, rfl⟩ := hu
      have expansion : ∀ b, r (.expansion d (Ty.bindAll b as) k) =
          (r (.expansion d as k)).bind b :=
        fun b => (List.cons.inj (hr.parts_bind ht rfl)).1
      refine .typeAlias ?_
      rw [expansion b']
      exact ih (hr.full_of_mem_parts ht (List.mem_singleton_self _)) (expansion b).symm
    | _ => cases hu
  | union k hl hr' ihl ihr =>
    cases t with
    | var p c => exact var (hu ▸ .union k hl hr')
    | union =>
      obtain ⟨rfl, rfl, rfl⟩ := hu
      cases ht with
      | union _ fl fr => exact .union k (ihl fl rfl) (ihr fr rfl)
    | _ => cases hu
  | nothing =>
    cases t with
    | var p k => exact var (hu ▸ .nothing)
    | nothing => exact .nothing
    | _ => cases hu
  | var q k' =>
    cases t with
    | var p k => exact var (hu ▸ .var q k')
    | _ => cases hu
  | module i n k' =>
    cases t with
    | var p k => exact var (hu ▸ .module i n k')
    | module => exact .module ..
    | _ => cases hu
  | literal s k' =>
    cases t with
    | var p k => exact var (hu ▸ .literal s k')
    | literal => exact .literal ..
    | _ => cases hu

end Stable

end Reading

end PklAnalysis
