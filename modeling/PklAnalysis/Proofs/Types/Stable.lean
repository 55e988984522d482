import PklAnalysis.Proofs.Types.Arguments

/-!
# Subtyping under substitution

What is below another type for whatever limit stays so when type parameters are replaced
(`Stable.below_bind`). A parameter may turn into a union or an alias on the way, so the answer for
it has to be found anew: `Stable.sub_bind_var` finds it for everything below what the parameter
stands for, for a parameter is below nothing but itself, `Any`, and types made of these.
-/

namespace PklAnalysis

namespace Bindings

/-- Arguments by position, and what a function makes of them. -/
theorem get?_extend_zip {b b' : Bindings} (f : Ty → Ty) {ks : List NodeRef} {as : List Ty}
    (hl : as.length = ks.length) {p : NodeRef} (hp : p ∈ ks) :
    ∃ x ∈ as, (b.extend (ks.zip as)).get? p = some x ∧
      (b'.extend (ks.zip (as.map f))).get? p = some (f x) := by
  induction ks generalizing as b b' with
  | nil => cases hp
  | cons k ks ih =>
    cases as with
    | nil => cases hl
    | cons a as =>
      show ∃ x ∈ a :: as, ((b.insert k a).extend (ks.zip as)).get? p = some x ∧
        ((b'.insert k (f a)).extend (ks.zip (as.map f))).get? p = some (f x)
      by_cases hmem : p ∈ ks
      · obtain ⟨x, hx, h⟩ := @ih (b.insert k a) (b'.insert k (f a)) as (Nat.succ.inj hl) hmem
        exact ⟨x, List.mem_cons_of_mem a hx, h⟩
      · have hk : p = k := (List.mem_cons.1 hp).resolve_right hmem
        subst hk
        have keys : ∀ zs : List Ty, zs.length = ks.length → p ∉ (ks.zip zs).map (·.1) := by
          intro zs hz
          rwa [List.map_fst_zip (Nat.le_of_eq hz.symm)]
        refine ⟨a, List.mem_cons_self, ?_, ?_⟩
        · rw [get?_extend_of_not_mem (keys as (Nat.succ.inj hl)), get?_insert]
        · rw [get?_extend_of_not_mem (keys _ ((List.length_map f).trans (Nat.succ.inj hl))),
            get?_insert]

end Bindings

namespace Reading

variable (r : Reading)

/-- The superclasses of a class lead to `Any`. -/
def Climbs (d : NodeRef) : Prop := ∃ n, Steps r.superdecl n d std.any

/-- Types with full argument lists. -/
abbrev Full : Ty → Prop :=
  Ty.Formed (fun d n => n = (r.params d).length) (fun d n => n = (r.params d).length)

/-- Types whose classes are below `Any`. -/
abbrev Rising : Ty → Prop := Ty.Formed (fun d _ => r.Climbs d) (fun _ _ => True)

/-- Declared supertypes and the right-hand sides of aliases have full argument lists and mention
their own parameters only. -/
structure Stable : Prop where
  rooted : r.Rooted
  supertype : ∀ {d e qs k}, r (.supertype d) = some (.cls e qs k) →
    r.Full (.cls e qs k) ∧ ∀ p ∈ Ty.varsAll qs, p ∈ (r.params d).map (·.1)
  expansion : ∀ d, ∃ t : Ty, r.Full t ∧ r.Rising t ∧ (∀ p ∈ t.vars, p ∈ (r.params d).map (·.1)) ∧
    ∀ as c, r (.expansion d as c) = (t.bind (r.bindings d as)).addConstraints c
  top : r.params std.any = []
  string : r.params std.string = [] ∧ r.Climbs std.string
  module : r.params std.module = [] ∧ r.Climbs std.module

/-- What can be put in the place of type parameters. -/
def Replaces (s : Bindings) : Prop :=
  ∀ p x, s.get? p = some x → x ≠ .nothing ∧ r.Rising x

variable {r}

/-- The parameters of a declaration are bound to its arguments, also after a substitution. -/
theorem bindings_bind {d : NodeRef} {as : List Ty} (hl : as.length = (r.params d).length)
    (s : Bindings) {p : NodeRef} (hp : p ∈ (r.params d).map (·.1)) :
    ∃ x ∈ as, (r.bindings d as).get? p = some x ∧
      (r.bindings d (Ty.bindAll s as)).get? p = some (x.bind s) := by
  rw [bindings_eq, bindings_eq, Ty.bindAll_eq_map]
  exact Bindings.get?_extend_zip (Ty.bind s) (hl.trans (List.length_map _).symm) hp

/-- What the parameters of a declaration are bound to is among its arguments. -/
theorem mem_of_get?_bindings {d : NodeRef} {as : List Ty} {p : NodeRef} {x : Ty}
    (h : (r.bindings d as).get? p = some x) : x ∈ as := by
  have key : ∀ {es : List (NodeRef × Ty)} {b : Bindings}, (b.extend es).get? p = some x →
      b.get? p = some x ∨ x ∈ es.map (·.2) := by
    intro es
    induction es with
    | nil => exact fun h => .inl h
    | cons e es ih =>
      intro b h
      rcases ih (b := b.insert e.1 e.2) h with h | h
      · by_cases he : e.1 = p
        · rw [he, Bindings.get?_insert] at h
          exact .inr (List.mem_cons.2 (.inl (Option.some.inj h).symm))
        · rw [Bindings.get?_insert_of_ne b e.2 he] at h
          exact .inl h
      · exact .inr (List.mem_cons_of_mem _ h)
  rw [bindings_eq] at h
  rcases key h with h | h
  · cases h
  · obtain ⟨e, he, rfl⟩ := List.mem_map.1 h
    exact (List.of_mem_zip he).2

/-! ## Superclasses -/

/-- A class type with its arguments substituted. -/
def bindClass (s : Bindings) (c : ClassTy) : ClassTy := ⟨c.decl, Ty.bindAll s c.args, c.constraints⟩

namespace Stable

variable (hr : r.Stable) {s : Bindings}
include hr

/-- Substitution keeps superclasses, and a class with full arguments has superclasses with full
arguments. -/
theorem ascends_bind {n : Nat} {c p : ClassTy} (h : r.Ascends n c p)
    (hl : c.args.length = (r.params c.decl).length) (hc : ∀ a ∈ c.args, r.Full a) :
    r.Ascends n (bindClass s c) (bindClass s p) ∧ ∀ a ∈ p.args, r.Full a := by
  induction h with
  | here c => exact ⟨.here _, hc⟩
  | @up n c q p hq _ ih =>
    obtain ⟨e, qs, k, hs, rfl⟩ := hr.rooted.exists_supertype hq
    obtain ⟨hf, hv⟩ := hr.supertype hs
    obtain ⟨hlen, hqs⟩ := hf.args
    have hargs : Ty.bindAll s (Ty.bindAll (r.bindings c.decl c.args) qs) =
        Ty.bindAll (r.bindings c.decl (Ty.bindAll s c.args)) qs := by
      refine Ty.bindAll_bindAll (fun p hp => ?_)
      obtain ⟨x, _, h₁, h₂⟩ := bindings_bind hl s (hv p hp)
      exact ⟨x, h₁, h₂⟩
    have hfull : ∀ a ∈ Ty.bindAll (r.bindings c.decl c.args) qs, r.Full a := by
      intro a ha
      obtain ⟨q, hq, rfl⟩ := Ty.mem_bindAll.1 ha
      exact (hqs q hq).bind (fun p x hx => hc x (mem_of_get?_bindings hx))
    obtain ⟨ha, hp⟩ := ih ((Ty.length_bindAll _ _).trans hlen) hfull
    refine ⟨.up ?_ ha, hp⟩
    show r.parent ⟨c.decl, Ty.bindAll s c.args, c.constraints⟩ = _
    rw [parent_of_supertype hs, ← hargs]
    rfl

omit hr in
/-- A walk up the declarations is one up the class types. -/
theorem exists_ascends (hr : r.Rooted) {n : Nat} {d t : NodeRef} (h : Steps r.superdecl n d t)
    (as : List Ty) (c : Constraints) : ∃ p, r.Ascends n ⟨d, as, c⟩ p ∧ p.decl = t := by
  induction h generalizing as c with
  | here d => exact ⟨_, .here _, rfl⟩
  | @up n d e t he _ ih =>
    unfold superdecl at he
    cases hs : r (.supertype d) with
    | none => rw [hs] at he; cases he
    | some x =>
      obtain ⟨e', qs, k, rfl⟩ := hr.isClass hs
      rw [hs] at he
      cases he
      obtain ⟨p, hp, hd⟩ := ih (Ty.bindAll (r.bindings d as) qs) k
      exact ⟨p, .up (parent_of_supertype hs) hp, hd⟩

/-! ## Aliases -/

theorem lawful : r.Lawful := by
  intro d as c
  obtain ⟨t, _, _, _, h⟩ := hr.expansion d
  rw [h as c, h as [], Ty.addConstraints_nil]

/-- What a type is made of is substituted with it. -/
theorem parts_bind {t : Ty} (ht : r.Full t) (hc : t.isCompound = true) :
    r.parts (t.bind s) = (r.parts t).map (Ty.bind s) := by
  cases ht with
  | @typeAlias d as c hl _ =>
    obtain ⟨t, _, _, hv, he⟩ := hr.expansion d
    have hb : (t.bind (r.bindings d as)).bind s = t.bind (r.bindings d (Ty.bindAll s as)) := by
      refine Ty.bind_bind (fun p hp => ?_)
      obtain ⟨x, _, h₁, h₂⟩ := bindings_bind hl s (hv p hp)
      exact ⟨x, h₁, h₂⟩
    show [r (.expansion d (Ty.bindAll s as) c)] = [(r (.expansion d as c)).bind s]
    rw [he, he, Ty.addConstraints_bind, hb]
  | union => rfl
  | _ => cases hc

theorem full_of_mem_parts {t p : Ty} (ht : r.Full t) (hp : p ∈ r.parts t) : r.Full p := by
  cases ht with
  | @typeAlias d as c _ ha =>
    obtain ⟨t, hf, _, _, he⟩ := hr.expansion d
    rw [List.mem_singleton.1 hp, he]
    exact (hf.bind (fun p x hx => ha x (mem_of_get?_bindings hx))).addConstraints c
  | union c h₁ h₂ =>
    rcases List.mem_cons.1 hp with rfl | hp
    · exact h₁
    · exact List.mem_singleton.1 hp ▸ h₂
  | _ => cases hp

theorem rising_of_mem_parts {t p : Ty} (ht : r.Rising t) (hp : p ∈ r.parts t) : r.Rising p := by
  cases ht with
  | @typeAlias d as c _ ha =>
    obtain ⟨t, _, hf, _, he⟩ := hr.expansion d
    rw [List.mem_singleton.1 hp, he]
    exact (hf.bind (fun p x hx => ha x (mem_of_get?_bindings hx))).addConstraints c
  | union c h₁ h₂ =>
    rcases List.mem_cons.1 hp with rfl | hp
    · exact h₁
    · exact List.mem_singleton.1 hp ▸ h₂
  | _ => cases hp

/-! ## Any -/

theorem full_string : r.Full std.stringTy :=
  .cls [] (by rw [hr.string.1]; rfl) (fun _ h => absurd h List.not_mem_nil)

theorem full_module : r.Full std.moduleTy :=
  .cls [] (by rw [hr.module.1]; rfl) (fun _ h => absurd h List.not_mem_nil)

theorem rising_string : r.Rising std.stringTy :=
  .cls [] hr.string.2 (fun _ h => absurd h List.not_mem_nil)

theorem rising_module : r.Rising std.moduleTy :=
  .cls [] hr.module.2 (fun _ h => absurd h List.not_mem_nil)

/-- Every rising type is below `Any`. -/
theorem below_any {t : Ty} (ht : r.Rising t) : r.Below t std.anyTy := by
  intro n
  induction n generalizing t with
  | zero => rfl
  | succ n ih =>
    show r.sub (n + 1) t (.cls std.any [] []) = true
    have parts : t.isCompound = true → r.sub (n + 1) t (.cls std.any [] []) = true :=
      fun hc => sub_succ_of_parts hc nofun (fun p hp => ih (hr.rising_of_mem_parts ht hp))
    cases ht with
    | unknown => exact sub_unknown_left ..
    | nothing => exact sub_nothing_left ..
    | var p c =>
      rw [sub_var_cls]
      exact beq_self_eq_true std.any
    | module i m c =>
      rw [sub_module_cls]
      exact ih hr.rising_module
    | literal s c =>
      rw [sub_literal_cls]
      exact ih hr.rising_string
    | @cls d as c hd _ =>
      obtain ⟨m, hm⟩ := hd
      obtain ⟨p, hp, hd⟩ := exists_ascends hr.rooted hm as c
      refine sub_cls_cls.2 ⟨p, hr.rooted.projectTo_iff.2 ⟨m, hp, hd⟩, ?_⟩
      rw [hr.top]
      trivial
    | typeAlias => exact parts rfl
    | union => exact parts rfl

/-! ## Parameters -/

variable (hs : r.Replaces s)
include hs

omit hr in
theorem bind_ne_nothing {t : Ty} (ht : t ≠ .nothing) : t.bind s ≠ .nothing := by
  cases t with
  | var p c =>
    rw [Ty.bind]
    split
    · next x hx =>
      have hn := (hs p x hx).1
      cases x <;> first | exact absurd rfl hn | rintro ⟨⟩
    · rintro ⟨⟩
  | nothing => exact absurd rfl ht
  | _ => rintro ⟨⟩

omit hr in
theorem rising_image (p : NodeRef) : r.Rising ((Ty.var p []).bind s) := by
  rw [Ty.bind]
  split
  · next x hx => exact (hs p x hx).2.addConstraints []
  · exact .var p []

/-- What is below the image of a parameter is below the image of all that the parameter is below. -/
theorem sub_bind_var {p : NodeRef} {c : Constraints} {x u : Ty} (hu : r.Full u)
    (h : r.Below (.var p c) u) (hx : r.Below x ((Ty.var p []).bind s)) (ha : r.Below x std.anyTy)
    (n : Nat) : r.sub n x (u.bind s) = true := by
  induction n generalizing x u with
  | zero => rfl
  | succ n ih =>
    have hun : u ≠ .nothing := by
      rintro rfl
      exact not_below_nothing (t := .var p c) ⟨nofun, nofun⟩ h
    rcases x.shape with rfl | rfl | hxs | hxc
    · exact sub_unknown_left ..
    · exact sub_nothing_left ..
    · rcases u.shape with rfl | rfl | hus | huc
      · exact sub_unknown_right ..
      · exact absurd rfl hun
      · have h1 := h 1
        cases u with
        | var q k =>
          rw [sub_var_var] at h1
          cases beq_iff_eq.1 h1
          have hfit : r.Fits ((Ty.var p []).bind s) ((Ty.var p k).bind s) := by
            refine .alike ?_
            show _ = (((Ty.var p []).addConstraints k).bind s).withoutConstraints
            rw [Ty.addConstraints_bind, Ty.withoutConstraints_addConstraints]
          exact sub_of_fits hr.lawful hfit (hx _)
        | cls d bs k =>
          rw [sub_var_cls] at h1
          cases beq_iff_eq.1 h1
          have hl := hu.args.1
          rw [hr.top] at hl
          cases List.eq_nil_of_length_eq_zero hl
          have hfit : r.Fits std.anyTy ((Ty.cls std.any [] k).bind s) := .alike rfl
          exact sub_of_fits hr.lawful hfit (ha _)
        | module | literal => simp at h1
        | _ => cases hus
      · obtain ⟨q, hq, hb⟩ := (below_compound_right hr.lawful rfl huc).1 h
        have hc : (u.bind s).isCompound = true := by
          cases u <;> first | rfl | cases huc
        rw [sub_compound_right _ _ hxs hc, hr.parts_bind hu huc, List.any_eq_true]
        exact ⟨q.bind s, List.mem_map_of_mem hq, ih (hr.full_of_mem_parts hu hq) hb hx ha⟩
    · have himage : (Ty.var p []).bind s ≠ .nothing := bind_ne_nothing hs nofun
      refine sub_succ_of_parts hxc (bind_ne_nothing hs hun) (fun q hq => ?_)
      exact ih hu h (fun m => sub_of_mem_parts hr.lawful himage hq (hx (m + 1)))
        (fun m => sub_of_mem_parts hr.lawful nofun hq (ha (m + 1)))

/-! ## All types -/

omit hr hs in
theorem conform_bindAll {R S : Ty → Ty → Prop} {ps : List (NodeRef × Variance)} {xs ys : List Ty}
    (h : ∀ x ∈ xs, ∀ y ∈ ys, (R x y → S (x.bind s) (y.bind s)) ∧ (R y x → S (y.bind s) (x.bind s)))
    (hc : Conform R ps xs ys) : Conform S ps (Ty.bindAll s xs) (Ty.bindAll s ys) := by
  have key : ∀ {ps : List (NodeRef × Variance)} {xs ys : List Ty},
      Conform (fun x y => S (x.bind s) (y.bind s)) ps xs ys →
        Conform S ps (Ty.bindAll s xs) (Ty.bindAll s ys) := by
    intro ps
    induction ps with
    | nil => exact fun _ => trivial
    | cons p ps ih =>
      intro xs ys hc
      cases xs with
      | nil => trivial
      | cons x xs =>
        cases ys with
        | nil => trivial
        | cons y ys =>
          obtain ⟨_, v⟩ := p
          exact ⟨by cases v <;> exact hc.1, ih hc.2⟩
  exact key (hc.of_members h)

/-- What is below a type for every limit is so after a substitution. -/
theorem below_bind {t u : Ty} (ht : r.Full t) (hu : r.Full u) (h : r.Below t u) :
    r.Below (t.bind s) (u.bind s) := by
  intro n
  induction n generalizing t u with
  | zero => rfl
  | succ n ih =>
    by_cases hun : u = .nothing
    · subst hun
      rcases t.proper_or with hp | rfl | rfl
      · exact absurd h (not_below_nothing hp)
      · exact sub_unknown_left ..
      · exact sub_nothing_left ..
    have hub := bind_ne_nothing hs hun
    -- a simple type that stays simple, below a compound one
    have onRight : t.isSimple = true → (t.bind s).isSimple = true → u.isCompound = true →
        r.sub (n + 1) (t.bind s) (u.bind s) = true := by
      intro hts htb huc
      obtain ⟨p, hp, hb⟩ := (below_compound_right hr.lawful hts huc).1 h
      have hc : (u.bind s).isCompound = true := by
        cases u <;> first | rfl | cases huc
      rw [sub_compound_right _ _ htb hc, hr.parts_bind hu huc, List.any_eq_true]
      exact ⟨p.bind s, List.mem_map_of_mem hp, ih ht (hr.full_of_mem_parts hu hp) hb⟩
    rcases t.shape with rfl | rfl | hts | htc
    · exact sub_unknown_left ..
    · exact sub_nothing_left ..
    · cases t with
      | var p c =>
        have himage : r.Below ((Ty.var p c).bind s) ((Ty.var p []).bind s) := by
          refine below_of_fits hr.lawful (.alike ?_) (below_self _)
          show (((Ty.var p []).addConstraints c).bind s).withoutConstraints = _
          rw [Ty.addConstraints_bind, Ty.withoutConstraints_addConstraints]
        have hrise : r.Rising ((Ty.var p c).bind s) := by
          show r.Rising (((Ty.var p []).addConstraints c).bind s)
          rw [Ty.addConstraints_bind]
          exact (rising_image hs p).addConstraints c
        exact hr.sub_bind_var hs hu h himage (hr.below_any hrise) _
      | literal a c =>
        rcases u.shape with rfl | rfl | hus | huc
        · exact sub_unknown_right ..
        · exact absurd rfl hun
        · cases u with
          | literal b k =>
            have h1 := h 1
            rw [sub_literal_literal] at h1
            show r.sub (n + 1) (.literal a c) (.literal b k) = true
            rw [sub_literal_literal]
            exact h1
          | cls e bs k =>
            have hb : r.Below std.stringTy (.cls e bs k) := by
              intro m
              have hm := h (m + 1)
              rwa [sub_literal_cls] at hm
            show r.sub (n + 1) (.literal a c) (.cls e (Ty.bindAll s bs) k) = true
            rw [sub_literal_cls]
            exact ih hr.full_string hu hb
          | var | module =>
            have h2 := h 2
            rw [sub_literal_of_ne _ _ _ _ rfl (fun _ _ => Ty.noConfusion)] at h2
            simp [Base.stringTy, Base.simple] at h2
          | _ => cases hus
        · exact onRight rfl rfl huc
      | module i m c =>
        rcases u.shape with rfl | rfl | hus | huc
        · exact sub_unknown_right ..
        · exact absurd rfl hun
        · cases u with
          | module j l k =>
            have h1 := h 1
            rw [sub_module_module] at h1
            show r.sub (n + 1) (.module i m c) (.module j l k) = true
            rw [sub_module_module]
            exact h1
          | cls e bs k =>
            have hb : r.Below std.moduleTy (.cls e bs k) := by
              intro m
              have hm := h (m + 1)
              rwa [sub_module_cls] at hm
            show r.sub (n + 1) (.module i m c) (.cls e (Ty.bindAll s bs) k) = true
            rw [sub_module_cls]
            exact ih hr.full_module hu hb
          | var | literal =>
            have h1 := h 1
            simp at h1
          | _ => cases hus
        · exact onRight rfl rfl huc
      | cls d as c =>
        rcases u.shape with rfl | rfl | hus | huc
        · exact sub_unknown_right ..
        · exact absurd rfl hun
        · cases u with
          | cls e bs k =>
            obtain ⟨p, hp, hc⟩ := below_cls_cls.1 h
            obtain ⟨m, hm, hd⟩ := hr.rooted.projectTo_iff.1 hp
            obtain ⟨hl, has⟩ := ht.args
            obtain ⟨hm, hps⟩ := hr.ascends_bind (s := s) hm hl has
            refine sub_cls_cls.2 ⟨bindClass s p, hr.rooted.projectTo_iff.2 ⟨m, hm, hd⟩, ?_⟩
            refine conform_bindAll (fun x hx y hy => ?_) hc
            have hfx := hps x hx
            have hfy := hu.args.2 y hy
            exact ⟨ih hfx hfy, ih hfy hfx⟩
          | var | module | literal =>
            have h1 := h 1
            simp at h1
          | _ => cases hus
        · exact onRight rfl rfl huc
      | _ => cases hts
    · have hc : (t.bind s).isCompound = true := by
        cases t <;> first | rfl | cases htc
      refine sub_succ_of_parts hc hub (fun q hq => ?_)
      rw [hr.parts_bind ht htc] at hq
      obtain ⟨p, hp, rfl⟩ := List.mem_map.1 hq
      have hb : r.Below p u := fun m => sub_of_mem_parts hr.lawful hun hp (h (m + 1))
      exact ih (hr.full_of_mem_parts ht hp) hu hb

end Stable

end Reading

end PklAnalysis
