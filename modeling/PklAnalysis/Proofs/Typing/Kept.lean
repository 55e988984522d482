import PklAnalysis.Proofs.Types.Built
import PklAnalysis.Proofs.Scope.Walks

/-!
# Properties that typing keeps

The types of expressions come out of annotations, substitution, projection, narrowing and inference,
in whatever order. A property that types are built with and that passes on to the parts of a type is
kept by all of these, as long as it survives substitution into the types of declarations
(`ModuleSource.Kept`). There is one lemma for each operation on types, and one for each walk: what
the type parameters of a candidate's class stand for has the property as well.
-/

namespace PklAnalysis

open Session

namespace ModuleSource

variable {src : ModuleSource} {K : Ty → Prop}

/-- What a question is asked with has the property: the arguments of an alias, and what the type
parameters stand for in an expression. -/
def KeptInput (K : Ty → Prop) : Question → Prop
  | .expansion _ as _ => ∀ a ∈ as, K a
  | .expr _ b => b.Holds K
  | _ => True

/-- What a question can be answered with; the types in it have the property if those it is asked
with do. -/
def KeptAnswer (src : ModuleSource) (K : Ty → Prop) (q : Question) (a : q.Answer) : Prop :=
  src.MayAnswer q a ∧ (KeptInput K q → ∀ t ∈ q.types a, K t)

/-- Types are built with the property, their parts have it, and it survives substitution into the
type of a declaration. -/
structure Kept (src : ModuleSource) (K : Ty → Prop) : Prop
    extends Ty.Built (src.KeptAnswer K) K where
  args {d : NodeRef} {as : List Ty} {c : Constraints} : K (.cls d as c) → ∀ a ∈ as, K a
  aliasArgs {d : NodeRef} {as : List Ty} {c : Constraints} : K (.typeAlias d as c) → ∀ a ∈ as, K a
  left {l r : Ty} {c : Constraints} : K (.union l r c) → K l
  right {l r : Ty} {c : Constraints} : K (.union l r c) → K r
  bind {q : Question} {a : q.Answer} {t : Ty} {b : Bindings} : q.isDeclared = true →
    src.MayAnswer q a → t ∈ q.types a → K t → b.Holds K → K (t.bind b)

theorem keptInput_of_isDeclared {q : Question} (h : q.isDeclared = true) : KeptInput K q := by
  cases q <;> trivial

/-- A class type whose arguments have the property. -/
def KeptClass (K : Ty → Prop) (c : ClassTy) : Prop := ∀ a ∈ c.args, K a

/-- The type parameters of the class of a candidate stand for types with the property. -/
abbrev KeptCandidate (K : Ty → Prop) (c : Candidate) : Prop := c.bindings.Holds K

namespace Kept

variable (hK : src.Kept K) {t : Ty}
include hK

theorem bind_answer {q : Question} {a : q.Answer} (hq : q.isDeclared = true)
    (ha : src.KeptAnswer K q a) (ht : t ∈ q.types a) {b : Bindings} (hb : b.Holds K) :
    K (t.bind b) := hK.bind hq ha.1 ht (ha.2 (keptInput_of_isDeclared hq) t ht) hb

theorem arg {c : ClassTy} (h : K c.toTy) (i : Nat) : K (c.arg i) := by
  unfold ClassTy.arg
  cases hx : c.args[i]? with
  | none => exact hK.unknown
  | some x => exact hK.args h x (List.mem_of_getElem? hx)

omit hK in
theorem toTy_of_class? {c : ClassTy} (h : K t) (hc : t.class? = some c) : K c.toTy := by
  cases t with
  | cls => cases hc; exact h
  | _ => cases hc

/-- Every alternative of a type has the property as well. -/
theorem of_mem_members (h : K t) : ∀ m ∈ t.members, K m := by
  induction t using Ty.members.induct with
  | case1 l r c ihl ihr =>
    intro m hm
    rcases List.mem_append.1 hm with hm | hm
    · exact ihl (hK.left h) m hm
    · exact ihr (hK.right h) m hm
  | case2 t hu =>
    intro m hm
    rw [Ty.members] at hm
    · exact List.mem_singleton.1 hm ▸ h
    · exact hu

section

open Query Ty

/-! ## Classes and aliases -/

omit hK in
theorem within_expansion (d : NodeRef) {as : List Ty} (h : ∀ a ∈ as, K a)
    (c : Constraints) : (Query.expansion d as c).Within (src.KeptAnswer K) K :=
  within_ask (fun _ ha => ha.2 h _ (List.mem_singleton.2 rfl))

theorem within_unaliased (h : K t) : t.unaliased.Within (src.KeptAnswer K) K := by
  cases t with
  | typeAlias d as c => exact within_expansion d (hK.aliasArgs h) c
  | _ => exact within_pure h

theorem within_fullyUnaliased (h : K t) :
    t.fullyUnaliased.Within (src.KeptAnswer K) K := by
  have upTo : ∀ n t, K t → (expandUpTo n t).Within (src.KeptAnswer K) K := by
    intro n
    induction n with
    | zero => exact fun _ h => within_pure h
    | succ n ih =>
      intro t h
      unfold expandUpTo
      split
      · exact (hK.within_unaliased h).bind ih
      · exact within_pure h
  refine (upTo _ t h).bind (fun u hu => ?_)
  split
  · exact within_pure hK.unknown
  · exact within_pure hu

omit hK in
/-- The type parameters of a declaration stand for its arguments. -/
theorem within_forDeclaration (d : NodeRef) {as : List Ty} (h : ∀ a ∈ as, K a) :
    (Bindings.forDeclaration d as).Within (src.KeptAnswer K) (Bindings.Holds K) := by
  refine .after (fun ps => within_pure (Bindings.holds_empty.extend (fun e he => ?_)))
  exact h _ (List.of_mem_zip he).2

theorem within_superclass {c : ClassTy} (h : KeptClass K c) :
    c.superclass.Within (src.KeptAnswer K) (fun p => ∀ p' ∈ p, K p'.toTy) := by
  refine Within.bind (within_ask (fun _ ha => ha)) (fun s hs => ?_)
  cases s with
  | none => exact within_pure nofun
  | some s =>
    refine (within_forDeclaration c.decl h).bind (fun b hb => ?_)
    refine (hK.within_unaliased (hK.bind_answer (q := .supertype c.decl) rfl hs
      (Option.mem_toList.2 rfl) hb)).bind (fun t ht => within_pure ?_)
    exact fun p hp => toTy_of_class? ht hp

theorem within_projectTo {c : ClassTy} (h : K c.toTy) (target : NodeRef) :
    (c.projectTo target).Within (src.KeptAnswer K) (fun p => ∀ p' ∈ p, K p'.toTy) := by
  have upTo : ∀ n seen (c : ClassTy), K c.toTy → (ClassTy.projectFrom target n seen c).Within
      (src.KeptAnswer K) (fun p => ∀ p' ∈ p, K p'.toTy) := by
    intro n
    induction n with
    | zero => exact fun _ _ _ => within_pure nofun
    | succ n ih =>
      intro seen c h
      unfold ClassTy.projectFrom
      split
      · exact within_pure (fun p hp => Option.some.inj hp ▸ h)
      split
      · exact within_pure nofun
      refine (hK.within_superclass (hK.args h)).bind (fun p hp => ?_)
      cases p with
      | none => exact within_pure nofun
      | some p => exact ih _ p (hp p rfl)
  exact upTo _ _ c h

theorem within_typeArgs? (h : K t) (d : NodeRef) :
    (typeArgs? t d).Within (src.KeptAnswer K) (fun c => ∀ c' ∈ c, K c'.toTy) := by
  unfold typeArgs?
  split
  · next c hc => exact hK.within_projectTo (toTy_of_class? h hc) d
  · exact within_pure nofun

/-! ## Null and objects -/

theorem within_nonNull (h : K t) : t.nonNull.Within (src.KeptAnswer K) K := by
  have step : ∀ {expand : Ty → Query Ty} {t : Ty},
      (∀ u, K u → (expand u).Within (src.KeptAnswer K) K) → K t →
        (nonNullWith expand t).Within (src.KeptAnswer K) K := by
    intro expand t he ht
    induction t using nonNullWith.induct with
    | case1 d as c =>
      refine within_pure ?_
      split
      · exact hK.nothing
      · exact ht
    | case2 l r c ihl ihr =>
      exact (ihl (hK.left ht)).bind (fun l hl => (ihr (hK.right ht)).bind (fun r hr =>
        (hK.within_either hl hr).bind (fun u hu => within_pure (hK.addConstraints hu c))))
    | case3 d as c => exact he _ ht
    | case4 t hc hu ha => rw [nonNullWith] <;> first | exact within_pure ht | assumption
  have upTo : ∀ n t, K t → (nonNullUpTo n t).Within (src.KeptAnswer K) K := by
    intro n
    induction n with
    | zero => exact fun t h => step (fun _ hu => within_pure hu) h
    | succ n ih =>
      refine fun t h => step (fun u hu => .after (fun b => ?_)) h
      split
      · exact (hK.within_unaliased hu).bind ih
      · exact within_pure hu
  exact upTo _ t h

theorem within_amended (h : K t) : t.amended.Within (src.KeptAnswer K) K := by
  have step : ∀ {expand : Ty → Query Ty} {t : Ty},
      (∀ u, K u → (expand u).Within (src.KeptAnswer K) K) → K t →
        (amendedWith expand t).Within (src.KeptAnswer K) K := by
    intro expand t he ht
    induction t using amendedWith.induct with
    | case1 => exact within_pure hK.unknown
    | case2 => exact within_pure hK.unknown
    | case3 d as c =>
      refine .after (fun b => ?_)
      split
      · exact within_pure ht
      · exact within_pure hK.nothing
    | case4 => exact within_pure ht
    | case5 d as c => exact he _ ht
    | case6 l r c ihl ihr =>
      exact (ihl (hK.left ht)).bind (fun l hl => (ihr (hK.right ht)).bind (fun r hr =>
        hK.within_either hl hr))
    | case7 => rw [amendedWith] <;> first | exact within_pure hK.nothing | assumption
  have upTo : ∀ n t, K t → (amendedUpTo n t).Within (src.KeptAnswer K) K := by
    intro n
    induction n with
    | zero => exact fun t h => step (fun _ _ => within_pure hK.unknown) h
    | succ n ih => exact fun t h => step (fun u hu => (hK.within_unaliased hu).bind ih) h
  exact upTo _ t h

theorem within_instantiated (h : K t) :
    t.instantiated.Within (src.KeptAnswer K) K := by
  have object : ∀ d as c, K (.cls d as c) → (do
      if ← isObjectClass d then
        if ← isAbstractClass d then pure .nothing else pure (Ty.cls d as c).withoutConstraints
      else pure .nothing : Query Ty).Within (src.KeptAnswer K) K := by
    refine fun d as c h => .after (fun b => ?_)
    split
    · refine .after (fun b => ?_)
      split
      · exact within_pure hK.nothing
      · exact within_pure (hK.withConstraints [] h)
    · exact within_pure hK.nothing
  have upTo : ∀ n t, K t → (instantiatedUpTo n t).Within (src.KeptAnswer K) K := by
    intro n
    induction n with
    | zero =>
      intro t h
      cases t with
      | unknown | typeAlias => exact within_pure hK.unknown
      | cls d as c => exact object d as c h
      | _ => exact within_pure hK.nothing
    | succ n ih =>
      intro t h
      cases t with
      | unknown => exact within_pure hK.unknown
      | cls d as c => exact object d as c h
      | typeAlias => exact (hK.within_unaliased h).bind ih
      | _ => exact within_pure hK.nothing
  exact upTo _ t h

mutual
theorem within_amendingWith {expand : Ty → Query Ty}
    (he : ∀ u, K u → (expand u).Within (src.KeptAnswer K) K) : ∀ {t : Ty}, K t →
      (amendingWith expand t).Within (src.KeptAnswer K) K
  | .unknown, _ => within_pure hK.unknown
  | .nothing, _ => within_pure hK.nothing
  | .var _ _, _ => within_pure hK.unknown
  | .cls d as c, h => by
    rw [amendingWith]
    refine .after (fun b => ?_)
    split
    · exact within_pure h
    split
    · exact within_amendingFirst he (hK.args h)
    · exact within_pure hK.nothing
  | .module _ _ _, h => within_pure h
  | .typeAlias _ _ _, h => he _ h
  | .literal _ _, _ => within_pure hK.nothing
  | .union _ _ _, h => (within_amendingWith he (hK.left h)).bind (fun _ hl =>
      (within_amendingWith he (hK.right h)).bind (fun _ hr => hK.within_either hl hr))
theorem within_amendingFirst {expand : Ty → Query Ty}
    (he : ∀ u, K u → (expand u).Within (src.KeptAnswer K) K) : ∀ {as : List Ty},
      (∀ a ∈ as, K a) → (amendingFirst expand as).Within (src.KeptAnswer K) K
  | [], _ => within_pure hK.unknown
  | _ :: _, h => within_amendingWith he (h _ List.mem_cons_self)
end

theorem within_amending (h : K t) : t.amending.Within (src.KeptAnswer K) K := by
  have upTo : ∀ n t, K t → (amendingUpTo n t).Within (src.KeptAnswer K) K := by
    intro n
    induction n with
    | zero => exact fun t => hK.within_amendingWith (fun _ _ => within_pure hK.unknown)
    | succ n ih =>
      exact fun t => hK.within_amendingWith (fun u hu => (hK.within_unaliased hu).bind ih)
  exact upTo _ t h

/-! ## What objects and iterables are made of -/

theorem within_elementType (h : K t) : (elementType t).Within (src.KeptAnswer K) K := by
  refine (hK.within_fullyUnaliased h).bind (fun u hu => ?_)
  refine (hK.within_typeArgs? hu std.listing).bind (fun c hc => ?_)
  cases c with
  | none => exact within_pure hK.unknown
  | some c => exact within_pure (hK.arg (hc c rfl) 0)

theorem within_entryTypes (h : K t) :
    (entryTypes t).Within (src.KeptAnswer K) (fun kv => K kv.1 ∧ K kv.2) := by
  refine (hK.within_fullyUnaliased h).bind (fun u hu => ?_)
  refine (hK.within_typeArgs? hu std.mapping).bind (fun c hc => ?_)
  cases c with
  | some c => exact within_pure ⟨hK.arg (hc c rfl) 0, hK.arg (hc c rfl) 1⟩
  | none =>
    refine (hK.within_typeArgs? hu std.listing).bind (fun c hc => ?_)
    cases c with
    | some c => exact within_pure ⟨hK.simple Standard.isClass_int, hK.arg (hc c rfl) 0⟩
    | none => exact within_pure ⟨hK.unknown, hK.unknown⟩

theorem within_firstContainer (h : K t) (ds : List NodeRef) :
    (firstContainer t ds).Within (src.KeptAnswer K) (fun c => ∀ c' ∈ c, K c'.toTy) := by
  induction ds with
  | nil => exact within_pure nofun
  | cons d ds ih =>
    refine (hK.within_typeArgs? h d).bind (fun c hc => ?_)
    cases c with
    | some c => exact within_pure hc
    | none => exact ih

theorem within_iterationTypes (h : K t) :
    (iterationTypes t).Within (src.KeptAnswer K) (fun kv => K kv.1 ∧ K kv.2) := by
  refine (hK.within_nonNull h).bind (fun u hu => (hK.within_fullyUnaliased hu).bind (fun v hv => ?_))
  split
  · exact within_pure ⟨hK.simple Standard.isClass_int, hK.simple Standard.isClass_int⟩
  refine (hK.within_firstContainer hv _).bind (fun c hc => ?_)
  cases c with
  | some c => exact within_pure ⟨hK.simple Standard.isClass_int, hK.arg (hc c rfl) 0⟩
  | none =>
    refine (hK.within_firstContainer hv _).bind (fun c hc => ?_)
    cases c with
    | some c => exact within_pure ⟨hK.arg (hc c rfl) 0, hK.arg (hc c rfl) 1⟩
    | none => exact within_pure ⟨hK.unknown, hK.unknown⟩

theorem within_readFrom (h : K t) (cs : List (NodeRef × Nat)) :
    (readFrom t cs).Within (src.KeptAnswer K) K := by
  induction cs with
  | nil => exact within_pure hK.unknown
  | cons c cs ih =>
    refine (hK.within_typeArgs? h c.1).bind (fun p hp => ?_)
    cases p with
    | some p => exact within_pure (hK.arg (hp p rfl) c.2)
    | none => exact ih

theorem within_subscriptType (h : K t) :
    (subscriptType t).Within (src.KeptAnswer K) K := by
  refine (hK.within_fullyUnaliased h).bind (fun u hu => ?_)
  split
  · exact within_pure (hK.simple Standard.isClass_string)
  · exact hK.within_readFrom hu _

/-! ## `this` -/

theorem within_thisTypeFrom (t : SyntaxTree) (m : ModuleId) (child : NodeIndex)
    (is : List NodeIndex) : (thisTypeFrom t m child is).Within (src.KeptAnswer K) K := by
  induction is generalizing child with
  | nil => exact within_pure hK.unknown
  | cons i is ih =>
    unfold thisTypeFrom
    split
    · exact within_ask (fun _ ha => ha.2 trivial _ (List.mem_singleton.2 rfl))
    · refine hK.ofClass _ (fun a ha => ?_)
      obtain ⟨p, _, rfl⟩ := List.mem_map.1 ha
      exact hK.var _
    · exact hK.within_ofModule m none
    · split
      · exact hK.within_typeOfNode Bindings.holds_empty _
      · exact ih i
    · exact ih i

theorem within_thisType (site : NodeRef) :
    (thisType site).Within (src.KeptAnswer K) K := by
  refine .after (fun t => ?_)
  cases t with
  | none => exact within_pure hK.unknown
  | some t => exact hK.within_thisTypeFrom t _ _ _

omit hK in
theorem within_expr (e : NodeRef) {b : Bindings} (hb : b.Holds K) :
    (Query.expr e b).Within (src.KeptAnswer K) K :=
  within_ask (fun _ ha => ha.2 hb _ (List.mem_singleton.2 rfl))

omit hK in
theorem within_aliased (d : NodeRef) : (Query.aliased d).Within (src.KeptAnswer K) K :=
  within_ask (fun _ ha => ha.2 trivial _ (List.mem_singleton.2 rfl))

omit hK in
theorem within_property (p : NodeRef) :
    (Query.property p).Within (src.KeptAnswer K) K :=
  within_ask (fun _ ha => ha.2 trivial _ (List.mem_singleton.2 rfl))

omit hK in
theorem within_expected (e : NodeRef) :
    (Query.expected e).Within (src.KeptAnswer K) K :=
  within_ask (fun _ ha => ha.2 trivial _ (List.mem_singleton.2 rfl))

omit hK in
theorem within_supertype (d : NodeRef) :
    (Query.supertype d).Within (src.KeptAnswer K) (fun t => ∀ t' ∈ t, K t') :=
  within_ask (fun _ ha t ht => ha.2 trivial t (Option.mem_toList.2 ht))

theorem within_objectType (body : NodeRef) :
    (objectType body).Within (src.KeptAnswer K) K := by
  refine .after (fun t => ?_)
  cases t with
  | none => exact within_pure hK.unknown
  | some t =>
    dsimp only
    split
    · exact within_pure hK.unknown
    split
    · exact within_expr _ Bindings.holds_empty
    · exact within_expr _ Bindings.holds_empty
    · refine (within_property _).bind (fun u hu => ?_)
      split
      · exact within_pure (hK.simple Standard.isClass_dynamic)
      · exact (hK.within_nonNull hu).bind (fun v hv => hK.within_amending hv)
    · refine (hK.within_thisType _).bind (fun u hu => ?_)
      refine (hK.within_entryTypes hu).bind (fun kv hkv => ?_)
      exact (hK.within_nonNull hkv.2).bind (fun v hv => hK.within_amending hv)
    · exact hK.within_thisType _
    · exact hK.within_thisType _
    · exact within_pure hK.unknown

theorem within_outerType (site : NodeRef) :
    (outerType site).Within (src.KeptAnswer K) K := by
  refine .after (fun t => ?_)
  cases t with
  | none => exact within_pure hK.unknown
  | some t =>
    dsimp only
    split
    · exact within_pure hK.unknown
    split
    · exact hK.within_thisType _
    · exact within_pure hK.unknown

theorem within_superType? (site : NodeRef) :
    (superType? site).Within (src.KeptAnswer K) (fun t => ∀ t' ∈ t, K t') := by
  refine .after (fun t => ?_)
  cases t with
  | none => exact within_pure nofun
  | some t =>
    dsimp only
    split
    · exact within_supertype _
    · refine .after (fun m => ?_)
      cases m with
      | none => exact within_pure nofun
      | some m =>
        refine Within.bind (T := K) (hK.within_ofModule m none) (fun u hu => ?_)
        exact within_pure (fun v hv => Option.some.inj hv ▸ hu)

end

/-! ## Candidates -/

section

open Scope Walk

variable {mode : LookupMode}

omit hK in
theorem within_offers (t : SyntaxTree) {b : Bindings} (hb : b.Holds K) (skip : Bool)
    (is : List NodeIndex) : (offers t mode b skip is).Within (src.KeptAnswer K) (KeptCandidate K) := by
  refine within_ofList (fun c hc => ?_)
  obtain ⟨i, _, hc⟩ := List.mem_filterMap.1 hc
  unfold candidate? at hc
  split at hc
  · cases hc
  · split at hc
    · obtain ⟨name, _, rfl⟩ := Option.map_eq_some_iff.1 hc
      exact hb
    · cases hc

theorem within_classMembers (skip : Bool) {k : ClassTy} (hk : KeptClass K k) :
    (classMembers mode skip k).Within (src.KeptAnswer K) (KeptCandidate K) := by
  have upTo : ∀ n seen skip k, KeptClass K k →
      (classMembersFrom mode n seen skip k).Within (src.KeptAnswer K) (KeptCandidate K) := by
    intro n
    induction n with
    | zero => exact fun _ _ _ _ => within_done
    | succ n ih =>
      intro seen skip k hk
      unfold classMembersFrom
      split
      · exact within_done
      refine within_after Query.within_true (fun t _ => ?_)
      cases t with
      | none => exact within_done
      | some t =>
        refine within_after (within_forDeclaration k.decl hk) (fun b hb => ?_)
        refine within_append (within_offers t hb skip _) ?_
        refine within_after (hK.within_superclass hk) (fun p hp => ?_)
        cases p with
        | none => exact within_done
        | some p => exact ih _ true p (hK.args (hp p rfl))
  exact upTo _ _ skip k hk

omit hK in
theorem within_moduleMembers (skip : Bool) (m : ModuleId) :
    (moduleMembers mode skip m).Within (src.KeptAnswer K) (KeptCandidate K) := by
  have along : ∀ ms skip, (moduleMembersAlong mode skip ms).Within (src.KeptAnswer K)
      (KeptCandidate K) := by
    intro ms
    induction ms with
    | nil => exact fun _ => within_done
    | cons m ms ih =>
      refine fun skip => within_after Query.within_true (fun t _ => ?_)
      cases t with
      | none => exact ih true
      | some t =>
        exact within_append (within_offers t Bindings.holds_empty skip _) (ih true)
  exact within_after Query.within_true (fun chain _ => along _ skip)

theorem within_members {t : Ty} (h : K t) :
    (members mode t).Within (src.KeptAnswer K) (KeptCandidate K) := by
  have standard : ∀ d, (standardMembers mode d).Within (src.KeptAnswer K) (KeptCandidate K) :=
    fun d => hK.within_classMembers true nofun
  have step : ∀ {expand : Ty → Walk Candidate},
      (∀ t, K t → (expand t).Within (src.KeptAnswer K) (KeptCandidate K)) → ∀ t, K t →
        (membersWith mode expand true t).Within (src.KeptAnswer K) (KeptCandidate K) := by
    intro expand he t ht
    fun_induction membersWith mode expand true t with
    | case1 | case2 => exact within_done
    | case3 | case7 => exact standard _
    | case4 => exact hK.within_classMembers true (hK.args ht)
    | case5 => exact within_append (within_moduleMembers true _) (standard _)
    | case6 => exact he _ ht
    | case8 l r c ihl ihr => exact within_append (ihl (hK.left ht)) (ihr (hK.right ht))
  have upTo : ∀ n t, K t →
      (membersUpTo mode true n t).Within (src.KeptAnswer K) (KeptCandidate K) := by
    intro n
    induction n with
    | zero => exact step (fun _ _ => within_done)
    | succ n ih =>
      exact step (fun t ht => within_after (hK.within_fullyUnaliased ht) ih)
  exact upTo _ t h

theorem within_around (t : SyntaxTree) {this : Ty} (hthis : K this) (innermost : Bool)
    (i child : NodeIndex) (c : Construct) :
    (around t mode this innermost i child c).Within (src.KeptAnswer K) (KeptCandidate K) := by
  have own : ∀ is, (offers t mode .empty false is).Within (src.KeptAnswer K) (KeptCandidate K) :=
    within_offers t Bindings.holds_empty false
  cases c with
  | letIn | lambda | forGenerator => exact within_ite (own _) within_done
  | method | aliasDecl => exact own _
  | objectBody =>
    exact within_append (own _) (within_ite (hK.within_members hthis) within_done)
  | classDecl d =>
    refine within_append (hK.within_classMembers false (fun a ha => ?_)) (own _)
    obtain ⟨p, _, rfl⟩ := List.mem_map.1 ha
    exact hK.var _
  | constrainedType => exact within_ite (hK.within_members hthis) within_done
  | _ => exact within_done

theorem within_visible (site : NodeRef) {this : Ty} (hthis : K this) :
    (visible site this mode).Within (src.KeptAnswer K) (KeptCandidate K) := by
  have outward : ∀ (t : SyntaxTree) is innermost child,
      (outward t mode this innermost child is).Within (src.KeptAnswer K) (KeptCandidate K) := by
    intro t is
    induction is with
    | nil => exact fun _ _ => within_done
    | cons i is ih =>
      intro innermost child
      unfold Scope.outward
      split
      · exact within_done
      · split
        · exact within_done
        · exact within_append (hK.within_around t hthis _ _ _ _) (ih _ _)
  refine within_after Query.within_true (fun t _ => ?_)
  cases t with
  | none => exact within_done
  | some t =>
    refine within_append (outward t _ _ _) (within_append (within_moduleMembers false _) ?_)
    refine within_append (within_offers t Bindings.holds_empty false _) ?_
    exact within_ite within_done (within_moduleMembers true _)

end

section

open Query Scope

variable {w : Walk Candidate}

omit hK in
theorem within_firstNamed (hw : w.Within (src.KeptAnswer K) (KeptCandidate K)) (name : String) :
    (w.firstNamed name).Within (src.KeptAnswer K) (fun c => ∀ c' ∈ c, KeptCandidate K c') := by
  induction w with
  | done => exact within_pure nofun
  | offer c rest ih =>
    show ((if c.name == name then _ else _ : Walk Candidate).head?).Within _ _
    split
    · exact within_pure (fun c' hc' => Option.some.inj hc' ▸ hw.1)
    · exact ih hw.2
  | ask q next ih => exact fun a ha => ih a (hw a ha)

omit hK in
/-- What a name refers to keeps the bindings of the candidate. -/
theorem within_resolve (hw : w.Within (src.KeptAnswer K) (KeptCandidate K)) (name : String) :
    (w.resolve name).Within (src.KeptAnswer K) (fun f => ∀ f' ∈ f, f'.bindings.Holds K) := by
  have resolved : ∀ c : Candidate, KeptCandidate K c →
      c.resolved.Within (src.KeptAnswer K) (fun f => f.bindings.Holds K) := by
    intro c hc
    unfold Candidate.resolved
    split
    · refine .after (fun m => ?_)
      cases m with
      | none => exact within_pure hc
      | some m => exact .after (fun root => within_pure hc)
    · split <;> exact within_pure hc
  refine (within_firstNamed hw name).bind (fun c hc => ?_)
  cases c with
  | none => exact within_pure nofun
  | some c =>
    refine Within.bind (resolved c (hc c rfl)) (fun f hf => within_pure ?_)
    exact fun f' hf' => Option.some.inj hf' ▸ hf

end

end Kept

end ModuleSource

end PklAnalysis
