import PklAnalysis.Proofs.Session.Null
import PklAnalysis.Proofs.Session.Overlap
import PklAnalysis.Proofs.Types.Folding

/-!
# The union of a list of types in a session

The union that a session builds of a list of types is above all of them, except for those that
vanished where the union so far collapsed into the next element and subtyping does not compose
(`anyOf_upperBound`). With `unknown` as an argument that happens: a list of anything is below a list
of texts, and so lists of integers vanish in it (`anyOf_not_upperBound`).
-/

namespace PklAnalysis.Session

variable {src : ModuleSource}

/-- The union of the types before some element of the list collapses into that element. It is above
`x`, and the element is not. -/
def Vanishes (src : ModuleSource) (x : Ty) (ts : List Ty) : Prop :=
  ∃ before e after a, ts = before ++ e :: after ∧ x ∈ before ∧ Gives src (Ty.anyOf before) a ∧
    Gives src (a.either e) e ∧ Gives src (x.isSubtype a) true ∧ Gives src (a.isSubtype e) true ∧
    Gives src (x.isSubtype e) false

namespace FixedDeclarations

variable (h : FixedDeclarations src)
include h

theorem asks_anyOf (ts : List Ty) : (Ty.anyOf ts).Asks (reading src) (Settled src) := by
  suffices ∀ acc, (Ty.anyOfFrom acc ts).Asks (reading src) (Settled src) from this _
  induction ts with
  | nil => exact fun _ => trivial
  | cons t ts ih => exact fun acc => (Query.asks_bind ..).2 ⟨h.asks_either acc t, ih _⟩

theorem gives_anyOf (ts : List Ty) : Gives src (Ty.anyOf ts) ((reading src).joinAll ts) :=
  gives_value (h.asks_anyOf ts)

theorem gives_false {t u : Ty} (hs : ¬ (reading src).Sub t u) : Gives src (t.isSubtype u) false :=
  Bool.eq_false_iff.2 hs ▸ h.gives_isSubtype t u

theorem vanishes {x e : Ty} {before after : List Ty} (hx : x ∈ before)
    (hl : (reading src).LostAt x before e) : Vanishes src x (before ++ e :: after) := by
  obtain ⟨collapse, hs, he, no⟩ := hl
  have either := collapse ▸ h.gives_either ((reading src).joinAll before) e
  exact ⟨before, e, after, _, rfl, hx, h.gives_anyOf before, either, h.gives_true hs, h.gives_true he,
    h.gives_false no⟩

end FixedDeclarations

/-- Where the limit of subtype queries leaves room for all types of a list, none is lost. -/
theorem PlainClasses.not_lostAt (h : PlainClasses src) (fixed : FixedDeclarations src) {n : Nat}
    {x e : Ty} {before : List Ty} (hb : ∀ t ∈ before, Expands src n t) (hx : x ∈ before)
    (he : Expands src n e) (hn : 2 * n + before.length ≤ Limits.subtypeDepth) :
    ¬ (reading src).LostAt x before e := by
  rintro ⟨-, hxa, hae, no⟩
  have union : Expands src (n + before.length) ((reading src).joinAll before) := .joinAll hb
  refine no (fixed.sub_of_run .fresh ?_)
  exact isSubtype_trans h (hb x hx) union he (by omega) (by omega) .fresh .fresh .fresh
    (fixed.gives_true hxa {} .fresh) (fixed.gives_true hae {} .fresh)

/-- Every type of a list is below the union of the list or has vanished on the way, and none vanishes
where the types are without `unknown` and the limit of subtype queries leaves room for them. -/
theorem anyOf_upperBound (h : FixedDeclarations src) (ts : List Ty) :
    ∃ u, Gives src (Ty.anyOf ts) u ∧
      (∀ x ∈ ts, Gives src (x.isSubtype u) true ∨ Vanishes src x ts) ∧
      (PlainClasses src → ∀ n, (∀ t ∈ ts, Expands src n t) →
        2 * n + ts.length ≤ Limits.subtypeDepth → ∀ x ∈ ts, Gives src (x.isSubtype u) true) := by
  have hr := lawful_reading src
  refine ⟨_, h.gives_anyOf ts, fun x hx => ?_, fun plain n ht hn x hx => ?_⟩
  · rcases Reading.sub_joinAll_or_lost hr hx with hs | ⟨before, e, after, rfl, hb, hl⟩
    · exact .inl (h.gives_true hs)
    · exact .inr (h.vanishes hb hl)
  · rcases Reading.sub_joinAll_or_lost hr hx with hs | ⟨before, e, after, rfl, hb, hl⟩
    · exact h.gives_true hs
    · have he := ht e (List.mem_append_right _ List.mem_cons_self)
      have short : 2 * n + before.length ≤ Limits.subtypeDepth := by
        rw [List.length_append] at hn
        omega
      exact absurd hl
        (plain.not_lostAt h (fun t hb => ht t (List.mem_append_left _ hb)) hb he short)

/-- Lists of birds, collections of objects, and birds. -/
def flock : List Ty := [std.listTy birdTy, objects, birdOrNone]

/-- The union of these is above each of them. -/
theorem anyOf_upperBound_flock :
    FixedDeclarations aviary ∧ PlainClasses aviary ∧ (∀ t ∈ flock, Expands aviary 2 t) ∧
    ∃ u, Gives aviary (Ty.anyOf flock) u ∧ ∀ x ∈ flock, Gives aviary (x.isSubtype u) true := by
  have fixed := scopedDeclarations_aviary.fixed
  have expands : ∀ t ∈ flock, Expands aviary 2 t := by
    simp only [flock, List.forall_mem_cons]
    exact ⟨expands_birds.succ, expands_typed.succ, expands_birdOrNone, fun _ h => nomatch h⟩
  obtain ⟨u, hu, -, all⟩ := anyOf_upperBound fixed flock
  exact ⟨fixed, plainClasses_aviary, expands, u, hu, all plainClasses_aviary 2 expands (by decide)⟩

/-- Lists of integers, lists of anything and lists of texts. -/
def lists : List Ty := [std.listTy std.intTy, std.listTy .unknown, std.listTy std.stringTy]

/-- Lists of integers are not below the union of these. -/
theorem anyOf_not_upperBound :
    FixedDeclarations Check.nowhere ∧ PlainClasses Check.nowhere ∧ std.listTy std.intTy ∈ lists ∧
    (run Check.nowhere (Ty.anyOf lists >>= fun u => (std.listTy std.intTy).isSubtype u) {}).1 =
      false :=
  ⟨scopedDeclarations_nowhere.fixed, Check.plainClasses_nowhere, List.mem_cons_self,
    run_of_table (by decide +kernel)⟩

end PklAnalysis.Session
