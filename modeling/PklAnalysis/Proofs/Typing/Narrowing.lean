import PklAnalysis.Proofs.Session.Stage
import PklAnalysis.Proofs.Session.Subtype
import Mathlib.Data.List.Induction

/-!
# Narrowing keeps the type of the value

`r₀` is the type that a value really has. If a type covers it, and a fact is true of it, then what
the fact leaves of the type covers it as well (`Orderly.narrowBy`), and so for several facts in turn
(`Orderly.narrowByAll`).

That the limit of subtype queries answers yes is where this could fail, since a member that counts
as below another one is dropped. So the types that come up (`Involved`) are asked to be `Orderly`:
the session decides subtyping among them, away from the limit, and it is transitive there.
-/

namespace PklAnalysis

theorem Ty.members_of_not_union {t : Ty} (h : ∀ l r c, t = .union l r c → False) :
    t.members = [t] := by
  cases t <;> first | rfl | exact absurd rfl (h _ _ _)

theorem Ty.eq_unknown_of_isUnknown {t : Ty} (h : t.isUnknown = true) : t = .unknown := by
  cases t <;> first | rfl | cases h

theorem Ty.eq_nothing_of_isNothing {t : Ty} (h : t.isNothing = true) : t = .nothing := by
  cases t <;> first | rfl | cases h

theorem Ty.anyOfFrom_append (acc : Ty) (ts us : List Ty) :
    Ty.anyOfFrom acc (ts ++ us) = Ty.anyOfFrom acc ts >>= fun acc => Ty.anyOfFrom acc us := by
  induction ts generalizing acc with
  | nil => rfl
  | cons t ts ih =>
    rw [List.cons_append, Ty.anyOfFrom, Ty.anyOfFrom, bind_assoc]
    simp only [ih]

theorem Ty.anyOf_append_singleton (ts : List Ty) (t : Ty) :
    Ty.anyOf (ts ++ [t]) = Ty.anyOf ts >>= fun acc => acc.either t := by
  rw [Ty.anyOf, Ty.anyOfFrom_append]
  simp only [Ty.anyOfFrom, bind_pure]
  rfl

namespace Session

open Reading

variable {src : ModuleSource} {C : Stage src} {K S : Ty → Prop} {r₀ : Ty}

/-! ## Types that come up -/

variable (C) in
/-- The session always says whether `t` is below `u`, and the limit is not the reason for a yes. -/
def Decides (t u : Ty) : Prop :=
  ∃ yes, C.Gives (t.isSubtype u) yes ∧ (yes = true ↔ (reading src).Below t u)

variable (C) in
/-- The types that come up when types with the property `S` are narrowed: with each type what it
stands for or consists of, what is left of it without `Null`, and the unions of some of its
members. -/
inductive Involved (S : Ty → Prop) : Ty → Prop
  | given {t : Ty} : S t → Involved S t
  | part {t p : Ty} : Involved S t → p ∈ (reading src).parts t → Involved S p
  | nonNull {t u : Ty} (n : Nat) : Involved S t → C.Gives (t.nonNullUpTo n) u → Involved S u
  | anyOf {t u v : Ty} {ms : List Ty} : Involved S t → C.Gives t.fullyUnaliased u →
      ms.Sublist u.members → C.Gives (Ty.anyOf ms) v → Involved S v

variable (C) in
/-- With each type there is what it stands for or consists of, and what is left of it without
`Null`. -/
structure Complete (K : Ty → Prop) : Prop where
  part : ∀ {t p}, K t → p ∈ (reading src).parts t → K p
  nonNull : ∀ {t u} (n : Nat), K t → C.Gives (t.nonNullUpTo n) u → K u

theorem Involved.complete : Complete C (Involved C S) := ⟨.part, .nonNull⟩

variable (C) in
/-- Types without `unknown`, whose aliases always stand for the same types, and among which the
session decides subtyping and it is transitive. -/
structure Orderly (K : Ty → Prop) : Prop where
  known : ∀ {t}, K t → t ≠ .unknown
  expansion : ∀ {d as c}, K (.typeAlias d as c) →
    C.Gives (Query.expansion d as c) (reading src (.expansion d as c))
  decides : ∀ {t u}, K t → K u → Decides C t u
  trans : ∀ {a b c}, K a → K b → K c →
    (reading src).Below a b → (reading src).Below b c → (reading src).Below a c

theorem PlainClasses.decides (h : PlainClasses src) {m n : Nat} {t u : Ty} (ht : Expands src m t)
    (hu : Expands src n u) (hmn : m + n ≤ Limits.subtypeDepth) : Decides (.between src) t u :=
  ⟨_, Stage.gives_between.2 (h.gives_isSubtype ht hu), fun yes => h.regular.below_of_height ht hu (Nat.lt_succ_of_le hmn) yes,
    fun below => below _⟩

/-- A no is a no for some limit. -/
theorem Decides.not_below {t u : Ty} (h : Decides C t u) (no : C.Admits (t.isSubtype u) false) :
    ¬ (reading src).Below t u := by
  obtain ⟨yes, hy, hb⟩ := h
  intro below
  cases (hb.2 below).symm.trans (hy.eq_of_admits no).symm

theorem Decides.below {t u : Ty} (h : Decides C t u) (yes : C.Admits (t.isSubtype u) true) :
    (reading src).Below t u := by
  obtain ⟨b, hy, hb⟩ := h
  exact hb.1 (hy.eq_of_admits yes).symm

/-! ## Below a union -/

/-- Constraints take no part in subtyping. -/
theorem below_addConstraints {t : Ty} (c : Constraints) (h : (reading src).Below r₀ t) :
    (reading src).Below r₀ (t.addConstraints c) :=
  below_of_fits (lawful_reading src) (.alike (t.withoutConstraints_addConstraints c).symm) h

/-- What is below a class type is below the class without arguments. -/
theorem below_bare (h₀ : r₀.isSimple = true) {d : NodeRef} {as : List Ty} {c : Constraints}
    (h : (reading src).Below r₀ (.cls d as c)) : (reading src).Below r₀ (.cls d [] []) := by
  have bare : ∀ {e : NodeRef} {bs : List Ty} {k : Constraints},
      (reading src).Below (.cls e bs k) (.cls d as c) →
        (reading src).Below (.cls e bs k) (.cls d [] []) := by
    intro e bs k h
    obtain ⟨p, hp, _⟩ := below_cls_cls.1 h
    refine below_cls_cls.2 ⟨p, hp, ?_⟩
    cases (reading src).params d with
    | nil => trivial
    | cons q qs => cases p.args <;> trivial
  cases r₀ with
  | cls e bs k => exact bare h
  | var p k => exact fun n => sub_of_succ (by rw [sub_var_cls, ← h 1, sub_var_cls])
  | literal s k =>
    have hs : (reading src).Below std.stringTy (.cls d as c) := fun n => by
      rw [← h (n + 1), sub_literal_cls]
    exact fun n => sub_of_succ (by rw [sub_literal_cls]; exact bare hs n)
  | module i m k =>
    have hm : (reading src).Below std.moduleTy (.cls d as c) := fun n => by
      rw [← h (n + 1), sub_module_cls]
    exact fun n => sub_of_succ (by rw [sub_module_cls]; exact bare hm n)
  | _ => cases h₀

theorem below_alias (h₀ : r₀.isSimple = true) {d : NodeRef} {as : List Ty} {c : Constraints} :
    (reading src).Below r₀ (.typeAlias d as c) ↔
      (reading src).Below r₀ (reading src (.expansion d as c)) := by
  rw [below_compound_right (lawful_reading src) h₀ rfl]
  simp [parts]

theorem below_union (h₀ : r₀.isSimple = true) {l r : Ty} {c : Constraints} :
    (reading src).Below r₀ (.union l r c) ↔ (reading src).Below r₀ l ∨ (reading src).Below r₀ r := by
  rw [below_compound_right (lawful_reading src) h₀ rfl]
  simp [parts]

/-- A simple type below a type is below a member of it. -/
theorem exists_member (h₀ : r₀.isSimple = true) {t : Ty} (h : (reading src).Below r₀ t) :
    ∃ m ∈ t.members, (reading src).Below r₀ m := by
  induction t using Ty.members.induct with
  | case1 l r c ihl ihr =>
    rcases (below_union h₀).1 h with h | h
    · obtain ⟨m, hm, hb⟩ := ihl h
      exact ⟨m, List.mem_append_left _ hm, hb⟩
    · obtain ⟨m, hm, hb⟩ := ihr h
      exact ⟨m, List.mem_append_right _ hm, hb⟩
  | case2 t hu => exact ⟨t, by rw [Ty.members_of_not_union hu]; exact List.mem_singleton_self t, h⟩

namespace Complete

variable (h : Complete C K)
include h

theorem left {l r : Ty} {c : Constraints} (ht : K (.union l r c)) : K l :=
  h.part ht List.mem_cons_self

theorem right {l r : Ty} {c : Constraints} (ht : K (.union l r c)) : K r :=
  h.part ht (List.mem_cons_of_mem _ List.mem_cons_self)

theorem expansion {d : NodeRef} {as : List Ty} {c : Constraints} (ht : K (.typeAlias d as c)) :
    K (reading src (.expansion d as c)) := h.part ht (List.mem_singleton_self _)

end Complete

theorem Involved.member {t m : Ty} (ht : Involved C S t) (hm : m ∈ t.members) :
    Involved C S m := by
  induction t using Ty.members.induct with
  | case1 l r c ihl ihr =>
    rcases List.mem_append.1 hm with hm | hm
    · exact ihl (Involved.complete.left ht) hm
    · exact ihr (Involved.complete.right ht) hm
  | case2 t hu =>
    rw [Ty.members_of_not_union hu] at hm
    exact List.mem_singleton.1 hm ▸ ht

/-! ## Unions -/

namespace Orderly

variable (hK : Orderly C K) (h₀ : r₀.isSimple = true) (hr₀ : K r₀)

section
include hK

/-- A type that disappears beside another one is below it. -/
theorem collapsesInto {l r : Ty} (hl : K l) (hr : K r) :
    ∃ yes, C.Gives (l.collapsesInto r) yes ∧ (yes = true → (reading src).Below l r) := by
  obtain ⟨yes, hy, hb⟩ := hK.decides hl hr
  cases l with
  | literal s c =>
    unfold Ty.collapsesInto
    dsimp only
    split
    · exact ⟨false, Stage.gives_pure false, nofun⟩
    · exact ⟨yes, hy, hb.1⟩
  | _ => exact ⟨yes, hy, hb.1⟩

theorem expandUpTo (complete : Complete C K) (n : Nat) {t : Ty} (ht : K t) :
    ∃ u, C.Gives (t.expandUpTo n) u ∧ K u ∧
      (r₀.isSimple = true → (reading src).Below r₀ t → (reading src).Below r₀ u) := by
  induction n generalizing t with
  | zero => exact ⟨t, Stage.gives_pure t, ht, fun _ h => h⟩
  | succ n ih =>
    by_cases ha : t.isAlias = true
    · cases t with
      | typeAlias d as c =>
        obtain ⟨u, hu, hi, hb⟩ := ih (complete.expansion ht)
        exact ⟨u, (hK.expansion ht).bind hu, hi,
          fun h₀ h => hb h₀ ((below_alias h₀).1 h)⟩
      | _ => cases ha
    · refine ⟨t, ?_, ht, fun _ h => h⟩
      unfold Ty.expandUpTo
      rw [if_neg ha]
      exact Stage.gives_pure t

end

include hK h₀ hr₀

/-- The union of two types covers what one of them covers. -/
theorem either {l r : Ty} (hl : K l) (hr : K r) :
    ∃ v, C.Gives (l.either r) v ∧
      ((reading src).Below r₀ l ∨ (reading src).Below r₀ r → (reading src).Below r₀ v) := by
  have proper := Ty.proper_of_isSimple h₀
  have both : (reading src).Below r₀ l ∨ (reading src).Below r₀ r →
      (reading src).Below r₀ (.union l r []) := (below_union h₀).2
  unfold Ty.either
  split
  · next hu =>
    rcases Bool.or_eq_true_iff.1 hu with hu | hu
    · exact absurd (Ty.eq_unknown_of_isUnknown hu) (hK.known hl)
    · exact absurd (Ty.eq_unknown_of_isUnknown hu) (hK.known hr)
  split
  · next hn =>
    cases Ty.eq_nothing_of_isNothing hn
    exact ⟨r, Stage.gives_pure r, fun h => h.resolve_left (not_below_nothing proper)⟩
  split
  · next hn =>
    cases Ty.eq_nothing_of_isNothing hn
    exact ⟨l, Stage.gives_pure l, fun h => h.resolve_right (not_below_nothing proper)⟩
  split
  · next e => exact ⟨l, Stage.gives_pure l, fun h => h.elim id (fun h => e ▸ h)⟩
  split
  · exact ⟨_, Stage.gives_pure _, both⟩
  obtain ⟨left, hleft, below_left⟩ := hK.collapsesInto hl hr
  obtain ⟨right, hright, below_right⟩ := hK.collapsesInto hr hl
  cases left with
  | true =>
    refine ⟨r, hleft.bind (Stage.gives_pure r), fun h => ?_⟩
    exact h.elim (fun h => hK.trans hr₀ hl hr h (below_left rfl)) id
  | false =>
    cases right with
    | true =>
      refine ⟨l, hleft.bind (hright.bind (Stage.gives_pure l)), fun h => ?_⟩
      exact h.elim id (fun h => hK.trans hr₀ hr hl h (below_right rfl))
    | false => exact ⟨_, hleft.bind (hright.bind (Stage.gives_pure _)), both⟩

/-! ## Null -/

omit h₀ hr₀ in
/-- Whether `Null` is mentioned has one answer. -/
theorem mentionsNullUpTo (complete : Complete C K) (n : Nat) {t : Ty} (ht : K t) :
    ∃ yes, C.Gives (t.mentionsNullUpTo n) yes := by
  have step : ∀ {expand : Ty → Query Bool},
      (∀ d as c, K (.typeAlias d as c) → ∃ yes, C.Gives (expand (.typeAlias d as c)) yes) →
      ∀ {t : Ty}, K t → ∃ yes, C.Gives (t.mentionsNullWith expand) yes := by
    intro expand he t ht
    induction t using Ty.mentionsNullWith.induct with
    | case1 d as c => exact ⟨_, Stage.gives_pure _⟩
    | case2 l r c ihl ihr =>
      obtain ⟨left, hl⟩ := ihl (complete.left ht)
      obtain ⟨right, hr⟩ := ihr (complete.right ht)
      cases left with
      | true => exact ⟨true, hl.bind (Stage.gives_pure true)⟩
      | false => exact ⟨right, hl.bind hr⟩
    | case3 d as c => exact he d as c ht
    | case4 t hc hu ha =>
      rw [Ty.mentionsNullWith] <;> first | exact ⟨false, Stage.gives_pure false⟩ | assumption
  induction n generalizing t with
  | zero => exact step (fun _ _ _ _ => ⟨false, Stage.gives_pure false⟩) ht
  | succ n ih =>
    refine step (fun d as c ha => ?_) ht
    obtain ⟨yes, hy⟩ := ih (complete.expansion ha)
    exact ⟨yes, (hK.expansion ha).bind hy⟩

/-- Without `Null` a type covers what it covered, unless that is `null`. -/
theorem nonNullUpTo (complete : Complete C K) (hn : ¬ (reading src).Below r₀ std.nullTy) (n : Nat)
    {t : Ty} (ht : K t) :
    ∃ v, C.Gives (t.nonNullUpTo n) v ∧ ((reading src).Below r₀ t → (reading src).Below r₀ v) := by
  have step : ∀ n, (∀ d as c, K (.typeAlias d as c) →
        ∃ v, C.Gives (Ty.nonNullUpTo n (.typeAlias d as c)) v ∧
          ((reading src).Below r₀ (.typeAlias d as c) → (reading src).Below r₀ v)) →
      ∀ {t : Ty}, K t → ∃ v, C.Gives (t.nonNullUpTo n) v ∧
        ((reading src).Below r₀ t → (reading src).Below r₀ v) := by
    intro n he t ht
    induction t using Ty.nonNullWith.induct with
    | case1 d as c =>
      have hg : C.Gives (Ty.nonNullUpTo n (.cls d as c))
          (if d = std.null then .nothing else .cls d as c) := by
        cases n <;> exact Stage.gives_pure _
      refine ⟨_, hg, fun h => ?_⟩
      split
      · next e => exact absurd (below_bare h₀ h) (e ▸ hn)
      · exact h
    | case2 l r c ihl ihr =>
      have hl := complete.left ht
      have hr := complete.right ht
      obtain ⟨l', gl, bl⟩ := ihl hl
      obtain ⟨r', gr, br⟩ := ihr hr
      obtain ⟨v, gv, bv⟩ := hK.either h₀ hr₀ (complete.nonNull n hl gl) (complete.nonNull n hr gr)
      have hg : C.Gives (Ty.nonNullUpTo n (.union l r c)) (v.addConstraints c) := by
        cases n <;> exact gl.bind (gr.bind (gv.bind (Stage.gives_pure _)))
      exact ⟨_, hg, fun h => below_addConstraints c (bv (((below_union h₀).1 h).imp bl br))⟩
    | case3 d as c => exact he d as c ht
    | case4 t hc hu ha =>
      have hg : t.nonNullUpTo n = pure t := by
        cases n <;> (unfold Ty.nonNullUpTo; rw [Ty.nonNullWith] <;> assumption)
      exact ⟨t, hg ▸ Stage.gives_pure t, fun h => h⟩
  induction n generalizing t with
  | zero => exact step 0 (fun d as c _ => ⟨_, Stage.gives_pure _, fun h => h⟩) ht
  | succ n ih =>
    refine step (n + 1) (fun d as c ha => ?_) ht
    obtain ⟨mentions, hm⟩ := hK.mentionsNullUpTo complete Limits.aliasNesting ha
    cases mentions with
    | false => exact ⟨_, hm.bind (Stage.gives_pure _), fun h => h⟩
    | true =>
      obtain ⟨v, hv, bv⟩ := ih (complete.expansion ha)
      exact ⟨v, hm.bind ((hK.expansion ha).bind hv),
        fun h => bv ((below_alias h₀).1 h)⟩

end Orderly

/-! ## Some of the members -/

namespace Orderly

variable (hK : Orderly C (Involved C S)) (h₀ : r₀.isSimple = true) (hr₀ : Involved C S r₀)
include hK h₀ hr₀

/-- A union of members covers what one of them covers. -/
theorem anyOf {t u : Ty} (ht : Involved C S t) (hu : C.Gives t.fullyUnaliased u)
    (hi : Involved C S u) {ms : List Ty} (hs : ms.Sublist u.members) :
    ∃ v, C.Gives (Ty.anyOf ms) v ∧
      ∀ m ∈ ms, (reading src).Below r₀ m → (reading src).Below r₀ v := by
  -- the union is built from the left, so the induction takes the last member away
  induction ms using List.reverseRecOn with
  | nil => exact ⟨.nothing, Stage.gives_pure _, fun m hm => absurd hm List.not_mem_nil⟩
  | append_singleton ms m ih =>
    have hms := (List.sublist_append_left ms [m]).trans hs
    have hm : m ∈ u.members := hs.subset (List.mem_append_right _ (List.mem_singleton_self m))
    obtain ⟨acc, ga, ba⟩ := ih hms
    obtain ⟨v, gv, bv⟩ := hK.either h₀ hr₀ (ht.anyOf hu hms ga) (hi.member hm)
    refine ⟨v, ?_, fun x hx h => bv ?_⟩
    · rw [Ty.anyOf_append_singleton]
      exact ga.bind gv
    · rcases List.mem_append.1 hx with hx | hx
      · exact .inl (ba x hx h)
      · exact .inr (List.mem_singleton.1 hx ▸ h)

omit h₀ hr₀ in
/-- What is left out is below the excluded type. -/
theorem withoutBelow {excluded : Ty} (he : Involved C S excluded) {ms : List Ty}
    (hms : ∀ m ∈ ms, Involved C S m) :
    ∃ rest, C.Gives (FlowFacts.withoutBelow excluded ms) rest ∧ rest.Sublist ms ∧
      ∀ m ∈ ms, m ∈ rest ∨ (reading src).Below m excluded := by
  induction ms with
  | nil => exact ⟨[], Stage.gives_pure _, .slnil, fun m hm => absurd hm List.not_mem_nil⟩
  | cons m ms ih =>
    obtain ⟨rest, gr, hs, hb⟩ := ih (fun x hx => hms x (List.mem_cons_of_mem m hx))
    obtain ⟨yes, gy, by'⟩ := hK.decides (hms m List.mem_cons_self) he
    refine ⟨if yes = true then rest else m :: rest, gy.bind (gr.bind (Stage.gives_pure _)), ?_, ?_⟩
    · split
      · exact hs.cons m
      · exact hs.cons_cons m
    · intro x hx
      split
      · next h =>
        rcases List.mem_cons.1 hx with rfl | hx
        · exact .inr (by'.1 h)
        · exact hb x hx
      · rcases List.mem_cons.1 hx with rfl | hx
        · exact .inl List.mem_cons_self
        · exact (hb x hx).imp_left (List.mem_cons_of_mem m)

/-- Without the members below a type that does not cover `r₀`, a type covers what it covered. -/
theorem narrowBy_isNot {excluded : Ty} (he : Involved C S excluded)
    (hn : ¬ (reading src).Below r₀ excluded) {t : Ty} (ht : Involved C S t) :
    ∃ v, C.Gives (FlowFacts.narrowBy t (.isNot excluded)) v ∧ Involved C S v ∧
      ((reading src).Below r₀ t → (reading src).Below r₀ v) := by
  obtain ⟨u, gu, hu, bu⟩ := @expandUpTo src C _ r₀ hK Involved.complete Limits.moduleChain t ht
  have gf : C.Gives t.fullyUnaliased (if u.isAlias then .unknown else u) :=
    gu.bind (Stage.gives_pure _)
  by_cases ha : u.isAlias = true
  · -- an alias that is left over would let `unknown` come up
    rw [if_pos ha] at gf
    have hi : Involved C S .unknown := ht.anyOf gf (List.Sublist.refl [Ty.unknown]) (Stage.gives_pure _)
    exact absurd rfl (hK.known hi)
  rw [if_neg ha] at gf
  obtain ⟨rest, gr, hs, hb⟩ := hK.withoutBelow he (fun m hm => hu.member hm)
  obtain ⟨v, gv, bv⟩ := hK.anyOf h₀ hr₀ ht gf hu hs
  refine ⟨v, ?_, ht.anyOf gf hs gv, fun h => ?_⟩
  · unfold FlowFacts.narrowBy
    dsimp only
    rw [if_neg (fun h => hK.known ht (Ty.eq_unknown_of_isUnknown h))]
    exact gf.bind (gr.bind gv)
  · obtain ⟨m, hm, below⟩ := exists_member h₀ (bu h₀ h)
    refine bv m ((hb m hm).resolve_right (fun hx => hn ?_)) below
    exact hK.trans hr₀ (hu.member hm) he below hx

/-! ## Facts -/

omit h₀ hr₀ in
/-- What a type test leaves is the smaller of the two types, or else the type tested for. -/
theorem narrowBy_is {asserted : Ty} (ha : Involved C S asserted) {t : Ty} (ht : Involved C S t) :
    C.Gives (FlowFacts.narrowBy t (.is asserted)) asserted ∨
      C.Gives (FlowFacts.narrowBy t (.is asserted)) t := by
  obtain ⟨down, gd, -⟩ := hK.decides ha ht
  obtain ⟨up, gp, -⟩ := hK.decides ht ha
  unfold FlowFacts.narrowBy
  dsimp only
  rw [if_neg (fun h => hK.known ht (Ty.eq_unknown_of_isUnknown h))]
  cases down with
  | true => exact .inl (gd.bind (Stage.gives_pure asserted))
  | false =>
    cases up with
    | true => exact .inr (gd.bind (gp.bind (Stage.gives_pure t)))
    | false => exact .inl (gd.bind (gp.bind (Stage.gives_pure asserted)))

end Orderly

variable (C S r₀) in
/-- A fact is true of a value with the type `r₀`. -/
def TrueOf : FlowFact → Prop
  | .nonNull => ¬ (reading src).Below r₀ std.nullTy
  | .is t => Involved C S t ∧ (reading src).Below r₀ t
  | .isNot t => Involved C S t ∧ ¬ (reading src).Below r₀ t

namespace Orderly

variable (hK : Orderly C (Involved C S)) (h₀ : r₀.isSimple = true) (hr₀ : Involved C S r₀)
include hK h₀ hr₀

/-- Narrowing by one true fact. -/
theorem narrowBy {f : FlowFact} (hf : TrueOf C S r₀ f) {t : Ty} (ht : Involved C S t)
    (h : (reading src).Below r₀ t) :
    ∃ v, C.Gives (FlowFacts.narrowBy t f) v ∧ Involved C S v ∧ (reading src).Below r₀ v := by
  cases f with
  | nonNull =>
    obtain ⟨v, gv, bv⟩ := hK.nonNullUpTo h₀ hr₀ Involved.complete hf Limits.aliasNesting ht
    exact ⟨v, gv, ht.nonNull _ gv, bv h⟩
  | is asserted =>
    rcases hK.narrowBy_is hf.1 ht with g | g
    · exact ⟨asserted, g, hf⟩
    · exact ⟨t, g, ht, h⟩
  | isNot excluded =>
    obtain ⟨v, gv, hv, bv⟩ := hK.narrowBy_isNot h₀ hr₀ hf.1 hf.2 ht
    exact ⟨v, gv, hv, bv h⟩

/-- Narrowing by true facts, one after the other. -/
theorem narrowByAll {fs : List FlowFact} (hfs : ∀ f ∈ fs, TrueOf C S r₀ f) {t : Ty}
    (ht : Involved C S t) (h : (reading src).Below r₀ t) :
    ∃ v, C.Gives (FlowFacts.narrowByAll t fs) v ∧ Involved C S v ∧
      (reading src).Below r₀ v := by
  induction fs generalizing t with
  | nil => exact ⟨t, Stage.gives_pure t, ht, h⟩
  | cons f fs ih =>
    obtain ⟨u, gu, hu, bu⟩ := hK.narrowBy h₀ hr₀ (hfs f List.mem_cons_self) ht h
    obtain ⟨v, gv, hv, bv⟩ := ih (fun g hg => hfs g (List.mem_cons_of_mem f hg)) hu bu
    exact ⟨v, gu.bind gv, hv, bv⟩

end Orderly

end Session

end PklAnalysis
