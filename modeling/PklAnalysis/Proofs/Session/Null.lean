import PklAnalysis.Proofs.Check.Agreement
import PklAnalysis.Proofs.Session.Union
import PklAnalysis.Proofs.Types.Null

/-!
# Null in a session

Adding `null` to a type and taking it away again leads back to the type, as far as subtyping goes,
wherever subtyping is transitive among the types that come up (`nonNull_retracts`). That is so for
types that the limit of subtype queries leaves room for (`PlainClasses.trans_arises`). A union that
is wider than the limit swallows what has nothing to do with it, and then a part of the type is lost
on the way (`not_sub_nullable_nonNull`).
-/

namespace PklAnalysis.Session

variable {src : ModuleSource}

/-- No class lies below the class of `null`. -/
def NullAlone (src : ModuleSource) : Prop :=
  ∀ c p, Gives src (ClassTy.projectTo c std.null) (some p) → c.decl = std.null

/-- The types that come up when `null` is added to a type and taken away from it. -/
abbrev Arises (src : ModuleSource) (t : Ty) : Ty → Prop := (reading src).Arises t

/-- Subtyping is transitive among the types that come up. -/
def TransitiveAround (src : ModuleSource) (t : Ty) : Prop :=
  ∀ a b c, Arises src t a → Arises src t b → Arises src t c → Gives src (a.isSubtype b) true →
    Gives src (b.isSubtype c) true → Gives src (a.isSubtype c) true

namespace FixedDeclarations

variable (h : FixedDeclarations src)
include h

theorem sub_of_gives {t u : Ty} (hs : Gives src (t.isSubtype u) true) : (reading src).Sub t u :=
  (h.gives_isSubtype t u).unique hs

theorem gives_nonNull (t : Ty) :
    Gives src t.nonNull ((reading src).nonNull Limits.aliasNesting t) :=
  gives_value (h.asks_nonNullUpTo _ t)

end FixedDeclarations

/-- What is left without `null` is below the type, the type is below that with `null` added to it,
and a type that `null` is not below comes back after adding `null` and taking it away. -/
theorem nonNull_retracts (h : FixedDeclarations src) (only : NullAlone src) {t : Ty}
    (definite : (reading src).Definite t) (trans : TransitiveAround src t) :
    ∃ u v w x, Gives src t.nonNull u ∧ Gives src u.nullable v ∧ Gives src t.nullable w ∧
      Gives src w.nonNull x ∧
      Gives src (u.isSubtype t) true ∧ Gives src (t.isSubtype v) true ∧
      Gives src w.isNullable true ∧
      ∀ m, Reachable src m → (run src t.isNullable m).1 = false →
        Gives src (x.isSubtype t) true ∧ Gives src (t.isSubtype x) true := by
  have hr := lawful_reading src
  have hn : (reading src).params std.null = [] := reading_params_of_isClass Standard.isClass_null
  have transitive : (reading src).Transitive (Arises src t) := fun {a b c} ha hb hc hab hbc =>
    h.sub_of_gives (trans a b c ha hb hc (h.gives_true hab) (h.gives_true hbc))
  have throughout : (reading src).Throughout (Arises src t) t :=
    ⟨fun hu => .inside hu, fun k hu => .nonNull k hu⟩
  have alone : ∀ c p, (ClassTy.projectTo c std.null).value (reading src) = some p →
      c.decl = std.null := fun c p hp =>
    only c p (hp ▸ gives_value (h.asks_projectTo c std.null))
  let k := Limits.aliasNesting
  refine ⟨_, _, _, _, h.gives_nonNull t, h.gives_either std.nullTy _, h.gives_either std.nullTy t,
    h.gives_nonNull _, h.gives_true (Reading.nonNull_sub hr k t), h.gives_true ?_,
    h.gives_true (Reading.sub_join_left hr _ t), fun m hm no => ?_⟩
  · exact Reading.sub_of_nonNull_sub hr hn transitive .nullable (Reading.sub_join_left hr _ _) k
      throughout (Reading.sub_join_right hr _ _)
  · have no' : ¬ (reading src).Sub std.nullTy t := fun hs =>
      nomatch (h.gives_true hs m hm).symm.trans no
    rw [Reading.nonNull_join_null hr hn transitive alone .null k definite throughout no']
    exact ⟨h.gives_true (Reading.nonNull_sub hr k t),
      h.gives_true (Reading.sub_nonNull hr hn transitive k definite throughout no')⟩

/-! ## Where it holds -/

/-- The limit of subtype queries leaves room for types that are not half as high. -/
theorem PlainClasses.trans_arises (h : PlainClasses src) (fixed : FixedDeclarations src) {n : Nat}
    {t : Ty} (ht : Expands src n t) (hn : 2 * (n + 1) ≤ Limits.subtypeDepth) :
    TransitiveAround src t := by
  have height : ∀ {u}, Arises src t u → Expands src (n + 1) u := fun hu =>
    ht.arises (lawful_reading src) (fun d as c => (fixed.asks_expansion d as c).1)
      (reading_params_of_isClass Standard.isClass_null) hu
  intro a b c ha hb hc hab hbc m hm
  exact isSubtype_trans h (height ha) (height hb) (height hc) (by omega) (by omega) hm hm hm
    (hab m hm) (hbc m hm)

theorem superdecl_base_ne_null {d : NodeRef} (hd : d.module = ModuleId.base) :
    (reading src).superdecl d ≠ some std.null := by
  obtain ⟨i, rfl⟩ := exists_base hd
  rw [superdecl_base]
  intro h
  obtain ⟨s, hs, he⟩ := Option.bind_eq_some_iff.1 h
  exact ((Standard.soundClass_of_supertype hs).2.1 s hs).2 he

/-- Where no class is declared to extend the class of `null`, none lies below it. -/
theorem ClassHierarchy.nullAlone (h : ClassHierarchy src)
    (hs : ∀ d, d.module ≠ ModuleId.base → (reading src).superdecl d ≠ some std.null) :
    NullAlone src := by
  intro c p hp
  have asks : (ClassTy.projectTo c std.null).Asks (reading src) (Settled src) :=
    h.rooted.asks_projectFrom (fun _ => settled_source src) h.settled_supertype _ _ _ c
  obtain ⟨n, ha, hd⟩ := Reading.ascends_of_projectFrom ((gives_value asks).unique hp)
  have steps := hd ▸ h.rooted.decl_steps ha
  refine steps.eq_of_unreached (fun d => ?_)
  by_cases hm : d.module = ModuleId.base
  · exact superdecl_base_ne_null hm
  · exact hs d hm

theorem superdecl_of_not_class {d : NodeRef} (h : ∀ c, src.construct? d ≠ some (.classDecl c)) :
    (reading src).superdecl d = none := by
  unfold Reading.superdecl
  rw [(settled_plainSupertype (plainSupertype_of_not_class h)).2]
  rfl

theorem nullAlone_aviary : NullAlone aviary := by
  refine plainClasses_aviary.hierarchy.nullAlone (fun d hd h => ?_)
  by_cases hc : ∃ c, aviary.construct? d = some (.classDecl c)
  · obtain ⟨c, hc⟩ := hc
    obtain ⟨rfl, -⟩ := bird_of_class hd hc
    rw [Reading.superdecl_of_supertype (gives_ask_iff.1 gives_supertype_bird).2] at h
    exact Standard.null_apart.2.2.1 (Option.some.inj h).symm
  · rw [superdecl_of_not_class (fun c e => hc ⟨c, e⟩)] at h
    cases h

/-- `Bird|"none"` -/
def birdOrNone : Ty := .union birdTy (.literal "none" []) []

theorem expands_birdOrNone : Expands aviary 2 birdOrNone :=
  .union [] (.plain 1 [] (reading_params_of_construct (c := .classDecl { name := "Bird" }) rfl rfl))
    (.literal 0 "none" [])

theorem definite_birdOrNone : (reading aviary).Definite birdOrNone :=
  .union (.simple rfl) (.simple rfl) []

/-- A bird or a text that is no `null` comes back. -/
theorem nonNull_retracts_birds :
    FixedDeclarations aviary ∧ NullAlone aviary ∧ (reading aviary).Definite birdOrNone ∧
    TransitiveAround aviary birdOrNone ∧ (run aviary birdOrNone.isNullable {}).1 = false ∧
    ∃ u v w x, Gives aviary birdOrNone.nonNull u ∧ Gives aviary u.nullable v ∧
      Gives aviary birdOrNone.nullable w ∧ Gives aviary w.nonNull x ∧
      Gives aviary (u.isSubtype birdOrNone) true ∧ Gives aviary (birdOrNone.isSubtype v) true ∧
      Gives aviary w.isNullable true ∧
      Gives aviary (x.isSubtype birdOrNone) true ∧ Gives aviary (birdOrNone.isSubtype x) true := by
  have fixed := scopedDeclarations_aviary.fixed
  have trans := plainClasses_aviary.trans_arises fixed expands_birdOrNone (by decide)
  have no : (run aviary birdOrNone.isNullable {}).1 = false := run_of_table (by decide +kernel)
  obtain ⟨u, v, w, x, hu, hv, hw, hx, hut, htv, hwn, back⟩ :=
    nonNull_retracts fixed nullAlone_aviary definite_birdOrNone trans
  obtain ⟨hxt, htx⟩ := back {} .fresh no
  exact ⟨fixed, nullAlone_aviary, definite_birdOrNone, trans, no,
    u, v, w, x, hu, hv, hw, hx, hut, htv, hwn, hxt, htx⟩

/-! ## Where the limit comes in -/

theorem nullAlone_nowhere : NullAlone Check.nowhere := by
  refine Check.plainClasses_nowhere.hierarchy.nullAlone (fun d hd h => ?_)
  rw [superdecl_of_not_class (fun c => Check.nowhere_empty hd)] at h
  cases h

/-- A union of texts with a constraint that nests `n` deep. -/
def texts : Nat → Ty :=
  Ty.stacked (.literal "a" [⟨ModuleId.base, 1⟩]) (.literal "b" [⟨ModuleId.base, 1⟩])

/-- These texts, and then integers and texts. -/
def wide : Ty := .union (.union (texts (Limits.subtypeDepth + 1)) std.intTy []) std.stringTy []

/-- Whether a type is below what is left of it without `null`, with `null` added. -/
def comesBack (t : Ty) : Query Bool := do
  let u ← t.nonNull
  let v ← u.nullable
  t.isSubtype v

/-- The limit makes integers a part of the texts, and the texts are a part of `String`. -/
theorem not_sub_nullable_nonNull :
    FixedDeclarations Check.nowhere ∧ PlainClasses Check.nowhere ∧ NullAlone Check.nowhere ∧
    (reading Check.nowhere).Definite wide ∧ (run Check.nowhere (comesBack wide) {}).1 = false := by
  have definite : (reading Check.nowhere).Definite wide := by
    unfold wide
    have deep : (reading Check.nowhere).Definite (texts (Limits.subtypeDepth + 1)) :=
      Ty.stacked_of_union (P := (reading Check.nowhere).Definite) (fun ht hu => ht.union hu [])
        (.simple rfl) (.simple rfl) _
    exact (deep.union (.simple rfl) []).union (.simple rfl) []
  exact ⟨scopedDeclarations_nowhere.fixed, Check.plainClasses_nowhere, nullAlone_nowhere, definite,
    run_of_table (by decide +kernel)⟩

end PklAnalysis.Session
