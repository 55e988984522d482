import PklAnalysis.Proofs.Session.Possible

/-!
# Properties of all types that are built

Types are built in few ways: annotations fit arguments to declarations and unite types, and the
typing rules use classes of the standard library. A property that these ways keep (`Ty.Built`) is
one of every type that an annotation denotes, as long as what is put in for type parameters has it
(`Ty.Built.within_typeOfNode`).
-/

namespace PklAnalysis

/-! ## Bindings -/

namespace Bindings

variable {b : Bindings} {K : Ty → Prop}

/-- All that is bound is of one kind. -/
def Holds (K : Ty → Prop) (b : Bindings) : Prop := ∀ e ∈ b.entries, K e.2

theorem holds_empty : empty.Holds K := nofun

theorem Holds.get? (h : b.Holds K) {p : NodeRef} {x : Ty} (hx : b.get? p = some x) : K x := by
  obtain ⟨e, he, rfl⟩ := Option.map_eq_some_iff.1 hx
  exact h e (List.mem_of_find?_eq_some he)

theorem Holds.getD (h : b.Holds K) (p : NodeRef) {t : Ty} (ht : K t) : K ((b.get? p).getD t) := by
  cases hx : b.get? p with
  | none => exact ht
  | some x => exact h.get? hx

theorem Holds.erase (h : b.Holds K) (p : NodeRef) : (b.erase p).Holds K :=
  fun e he => h e (List.mem_filter.1 he).1

theorem Holds.insert (h : b.Holds K) (p : NodeRef) {t : Ty} (ht : K t) : (b.insert p t).Holds K := by
  intro e he
  rcases List.mem_cons.1 he with rfl | he
  · exact ht
  · exact h.erase p e he

theorem Holds.extend (h : b.Holds K) {es : List (NodeRef × Ty)} (hes : ∀ e ∈ es, K e.2) :
    (b.extend es).Holds K := by
  induction es generalizing b with
  | nil => exact h
  | cons e es ih =>
    exact ih (h.insert e.1 (hes e List.mem_cons_self)) (fun e he => hes e (List.mem_cons_of_mem _ he))

end Bindings

/-! ## Classes of the standard library -/

namespace Standard

theorem sound_others : (IsClass std.duration 0 ∧ IsClass std.dataSize 0) ∧ IsClass std.dynamic 0 ∧
    IsClass std.pair 2 ∧ IsClass std.class_ 1 := by
  decide +kernel

theorem isClass_quantities : IsClass std.duration 0 ∧ IsClass std.dataSize 0 := sound_others.1
theorem isClass_dynamic : IsClass std.dynamic 0 := sound_others.2.1
theorem isClass_pair : IsClass std.pair 2 := sound_others.2.2.1
theorem isClass_class : IsClass std.class_ 1 := sound_others.2.2.2
theorem isClass_boolean : IsClass std.boolean 0 := isClass_special (by simp [special])
theorem isClass_number : IsClass std.number 0 := isClass_special (by simp [special])
theorem isClass_int : IsClass std.int 0 := isClass_special (by simp [special])
theorem isClass_float : IsClass std.float 0 := isClass_special (by simp [special])

end Standard

/-! ## Building types -/

namespace Ty

/-- The ways to build a type keep the property `K`, where the answers on the way lie in `P`. -/
structure Built (P : (q : Question) → q.Answer → Prop) (K : Ty → Prop) : Prop where
  unknown : K .unknown
  nothing : K .nothing
  var (p : NodeRef) : K (.var p [])
  module (m : ModuleId) (name : Option String) : K (.module m name [])
  literal (s : String) : K (.literal s [])
  standard {d : NodeRef} {as : List Ty} :
    Standard.IsClass d as.length → (∀ a ∈ as, K a) → K (.cls d as [])
  union {l r : Ty} : l.Proper → r.Proper → K l → K r → K (.union l r [])
  withConstraints {t : Ty} (c : Constraints) : K t → K (t.withConstraints c)
  ofClass (d : NodeRef) {as : List Ty} : (∀ a ∈ as, K a) → (Ty.ofClass d as).Within P K
  ofAlias (d : NodeRef) {as : List Ty} : (∀ a ∈ as, K a) → (Ty.ofAlias d as).Within P K

namespace Built

open Query

variable {P : (q : Question) → q.Answer → Prop} {K : Ty → Prop} (hK : Built P K) {t l r : Ty}
include hK

theorem simple {d : NodeRef} (hd : Standard.IsClass d 0) : K (Base.simple d) :=
  hK.standard hd nofun

theorem addConstraints (h : K t) (c : Constraints) : K (t.addConstraints c) :=
  hK.withConstraints _ h

theorem functionTy {ps : List Ty} (hps : ∀ p ∈ ps, K p) (ht : K t) : K (std.functionTy ps t) := by
  obtain ⟨d, as, eq, hd, has⟩ := Standard.functionTy_cls ps t
  rw [eq]
  refine hK.standard hd (fun a ha => ?_)
  rcases has a ha with ha | rfl
  · exact hps a ha
  · exact ht

theorem within_ofModule (m : ModuleId) (name : Option String) : (Ty.ofModule m name).Within P K :=
  .after (fun root => within_pure (hK.module root name))

/-! ### Unions -/

theorem within_either (hl : K l) (hr : K r) : (Ty.either l r).Within P K := by
  unfold Ty.either
  split
  · exact within_pure hK.unknown
  split
  · exact within_pure hr
  split
  · exact within_pure hl
  split
  · exact within_pure hl
  have proper : l.Proper ∧ r.Proper := by
    refine ⟨⟨?_, ?_⟩, ?_, ?_⟩ <;> rintro rfl <;> simp_all [isUnknown, isNothing]
  have both : K (.union l r []) := hK.union proper.1 proper.2 hl hr
  split
  · exact within_pure both
  refine .after (fun b => within_ite (within_pure hr) (.after (fun b => ?_)))
  exact within_ite (within_pure hl) (within_pure both)

theorem within_anyOfFrom {ts : List Ty} (ht : K t) (hts : ∀ u ∈ ts, K u) :
    (Ty.anyOfFrom t ts).Within P K := by
  induction ts generalizing t with
  | nil => exact within_pure ht
  | cons u ts ih =>
    refine (hK.within_either ht (hts u List.mem_cons_self)).bind (fun v hv => ?_)
    exact ih hv (fun w hw => hts w (List.mem_cons_of_mem u hw))

theorem within_anyOf {ts : List Ty} (hts : ∀ u ∈ ts, K u) : (Ty.anyOf ts).Within P K :=
  hK.within_anyOfFrom hK.nothing hts

theorem within_nullable (h : K t) : t.nullable.Within P K :=
  hK.within_either (hK.simple Standard.isClass_null) h

/-! ### Type annotations -/

variable {b : Bindings} (hb : b.Holds K)
include hb

theorem within_typeOfTypeDecl (d : NodeRef) {as : List Ty} (h : ∀ a ∈ as, K a) :
    (typeOfTypeDecl d as b).Within P K := by
  refine .after (fun found => ?_)
  split
  · exact hK.ofClass d h
  · exact hK.ofAlias d h
  · exact within_pure (hb.getD d (hK.var d))
  · exact hK.within_ofModule _ _
  · exact within_pure hK.unknown

theorem within_typeOfTypeConstruct (r : NodeRef) {part : NodeIndex → Query Ty}
    (hpart : ∀ i, (part i).Within P K) (c : Construct) :
    (typeOfTypeConstruct b r part c).Within P K := by
  have parts : ∀ is : List NodeIndex, (is.mapM part).Within P (fun ts => ∀ t ∈ ts, K t) :=
    fun is => within_mapM (fun i _ => hpart i)
  cases c with
  | declaredType qualifier name args =>
    refine .after (fun found => ?_)
    cases found with
    | none => exact within_pure hK.unknown
    | some found =>
      exact (parts args).bind (fun ts hts => hK.within_typeOfTypeDecl hb found.decl hts)
  | literalType s => exact within_pure (hK.literal s)
  | nullableType i => exact (hpart i).bind (fun t ht => hK.within_nullable ht)
  | unionType i j =>
    exact (hpart i).bind (fun t ht => (hpart j).bind (fun u hu => hK.within_either ht hu))
  | constrainedType i cs =>
    exact (hpart i).bind (fun t ht => within_pure (hK.addConstraints ht _))
  | functionType is i =>
    exact (parts is).bind (fun ts hts => (hpart i).bind (fun t ht =>
      within_pure (hK.functionTy hts ht)))
  | groupedType i => exact hpart i
  | nothingType => exact within_pure hK.nothing
  | moduleType => exact hK.within_ofModule _ _
  | _ => exact within_pure hK.unknown

/-- What an annotation denotes has the property if what is put in for type parameters does. -/
theorem within_typeOfNode (r : NodeRef) : (typeOfNode r b).Within P K := by
  refine .after (fun t => ?_)
  cases t with
  | none => exact within_pure hK.unknown
  | some t =>
    have nodes : ∀ n i, (typeOfNodeUpTo t b r.module n i).Within P K := by
      intro n
      induction n with
      | zero => exact fun _ => within_pure hK.unknown
      | succ n ih =>
        intro i
        unfold typeOfNodeUpTo
        cases t.construct? i with
        | none => exact within_pure hK.unknown
        | some c => exact hK.within_typeOfTypeConstruct hb _ ih c
    exact nodes _ _

end Built

end Ty

end PklAnalysis
