import PklAnalysis.Proofs.Constant.Kinds
import PklAnalysis.Proofs.Session.Stage

/-!
# Members of constants in the standard library

The evaluator understands some members of constants. Wherever the standard library declares one of
them in a class of the constant, the declared type covers what the evaluator results in
(`Standard.sound_members`). While expressions are typed, the properties among them have their
declared types (`Stage.gives_declared`).
-/

namespace PklAnalysis

namespace Standard

open Session

/-! ## Declared properties -/

/-- A property of the standard library with an annotation that comes to `t`. -/
structure Annotated (i : NodeIndex) (t : Ty) : Prop where
  property : (std.tree.construct? i).map Construct.isProperty = some true
  asks : (requiredType ⟨ModuleId.base, i⟩).Asks hierarchy Stage.IsBaseSupertype
  value : (requiredType ⟨ModuleId.base, i⟩).value hierarchy = t
  known : t.isUnknown = false

/-- There is room for `j` more keys, no clause is being resolved, and the annotation of `d` is not
either. -/
structure Clear (j : Nat) (d : NodeRef) (ks : List GuardKey) : Prop where
  room : ks.length + j < Limits.exprTypeDepth
  clauses : ∀ c, GuardKey.superclass c ∉ ks
  wanted : GuardKey.expected d ∉ ks

/-- What may be remembered of properties. -/
def StoredProperty : (q : Question) → q.Answer → Prop
  | .property d, a | .member d, a | .declared d, a =>
    ∀ i t, d = ⟨ModuleId.base, i⟩ → Annotated i t → a = t
  | _, _ => True

/-- What may be answered about properties. -/
def GivenProperty (n : Nat) (ks : List GuardKey) : (q : Question) → q.Answer → Prop
  | .property d, a => ∀ i t, d = ⟨ModuleId.base, i⟩ → Annotated i t → 3 ≤ n → Clear 1 d ks → a = t
  | .member d, a => ∀ i t, d = ⟨ModuleId.base, i⟩ → Annotated i t → 4 ≤ n → Clear 2 d ks →
      GuardKey.member d ∉ ks → a = t
  | .declared d, a => ∀ i t, d = ⟨ModuleId.base, i⟩ → Annotated i t → 5 ≤ n → Clear 2 d ks →
      GuardKey.member d ∉ ks → a = t
  | _, _ => True

variable {src : ModuleSource} {P : (q : Question) → q.Answer → Prop}

theorem within_requiredType {i : NodeIndex} {t : Ty} (h : Annotated i t)
    (hP : ∀ j b, P (.supertype ⟨ModuleId.base, j⟩) b → b = supertype? j) :
    (requiredType ⟨ModuleId.base, i⟩).Within P (· = t) := by
  rw [← h.value]
  refine h.asks.within (fun q b hq hb => ?_)
  cases q with
  | supertype d =>
    obtain ⟨m, j⟩ := d
    obtain rfl : m = ModuleId.base := beq_iff_eq.1 hq
    rw [hP j b hb, hierarchy_supertype]
  | _ => cases hq

theorem within_declarationType {i : NodeIndex} {t : Ty} (h : Annotated i t)
    (hP : ∀ a, P (.property ⟨ModuleId.base, i⟩) a → a = t) :
    (declarationType ⟨ModuleId.base, i⟩).Within P (· = t) := by
  unfold declarationType
  rw [construct_base rfl]
  obtain ⟨c, hc, hp⟩ := Option.map_eq_some_iff.1 h.property
  rw [hc]
  cases c with
  | property d =>
    refine Query.Within.bind (x := Query.property ⟨ModuleId.base, i⟩) (Query.within_ask hP)
      (fun a ha => ?_)
    rw [ha, h.known]
    exact Query.within_pure rfl
  | _ => cases hp

theorem Clear.tail {j : Nat} {d : NodeRef} {ks : List GuardKey} (h : Clear (j + 1) d ks)
    {k : GuardKey} (hc : ∀ c, k ≠ .superclass c) (ha : k ≠ .expected d) : Clear j d (k :: ks) where
  room := by
    have := h.room
    rw [List.length_cons]
    omega
  clauses c hm := by
    rcases List.mem_cons.1 hm with e | hm
    · exact hc c e.symm
    · exact h.clauses c hm
  wanted hm := by
    rcases List.mem_cons.1 hm with e | hm
    · exact ha e.symm
    · exact h.wanted hm

theorem givenProperty_of_stored {n : Nat} {ks : List GuardKey} {q : Question} {a : q.Answer}
    (h : StoredProperty q a) : GivenProperty n ks q a := by
  cases q with
  | property d => exact fun i t hd ht _ _ => h i t hd ht
  | member d => exact fun i t hd ht _ _ _ => h i t hd ht
  | declared d => exact fun i t hd ht _ _ _ => h i t hd ht
  | _ => trivial

theorem givenProperty_zero (ks : List GuardKey) (q : Question) :
    GivenProperty 0 ks q (Session.fallback q) := by
  cases q with
  | property d => exact fun i t _ _ hn _ => absurd hn (by decide)
  | member d => exact fun i t _ _ hn _ _ => absurd hn (by decide)
  | declared d => exact fun i t _ _ hn _ _ => absurd hn (by decide)
  | _ => trivial

theorem givenProperty_refused (n : Nat) (ks : List GuardKey) (q : Question) (hq : q.Refused ks) :
    GivenProperty n ks q (Session.fallback q) := by
  obtain ⟨k, hk, hr⟩ := hq
  cases q with
  | property d =>
    cases hk
    refine fun i t _ _ _ clear => ?_
    rcases hr with hl | hm
    · exact absurd clear.room (by omega)
    · exact absurd hm clear.wanted
  | member d =>
    cases hk
    refine fun i t _ _ _ clear hn => ?_
    rcases hr with hl | hm
    · exact absurd clear.room (by omega)
    · exact absurd hm hn
  | declared d => cases hk
  | _ => trivial

theorem storedProperty_body (q : Question) :
    (Session.body q).Within (fun q a => Stored src q a ∧ StoredProperty q a)
      (StoredProperty q) := by
  cases q with
  | property d =>
    by_cases hd : ∃ i t, d = ⟨ModuleId.base, i⟩ ∧ Annotated i t
    · obtain ⟨i, t, rfl, ht⟩ := hd
      refine (within_requiredType ht (fun j b hb => (hb.1 j rfl).2)).mono (fun a ha j u hj hu => ?_)
      cases hj
      rw [ha, ← ht.value, hu.value]
    · exact Query.within_true.mono (fun _ _ i t h ht => absurd ⟨i, t, h, ht⟩ hd)
  | member d =>
    by_cases hd : ∃ i t, d = ⟨ModuleId.base, i⟩ ∧ Annotated i t
    · obtain ⟨i, t, rfl, ht⟩ := hd
      refine (within_declarationType ht (fun a ha => ha.2 i t rfl ht)).mono (fun a ha j u hj hu => ?_)
      cases hj
      rw [ha, ← ht.value, hu.value]
    · exact Query.within_true.mono (fun _ _ i t h ht => absurd ⟨i, t, h, ht⟩ hd)
  | declared d =>
    have hm : ∀ a, Stored src (.member d) a ∧ StoredProperty (.member d) a →
        StoredProperty (.declared d) a := fun a ha => ha.2
    exact hm
  | _ => exact Query.within_true

theorem givenProperty_succ (n : Nat) (ks : List GuardKey) (q : Question) :
    (Session.body q).Within (fun p a => Given src n (q.entered ks) p a ∧
      GivenProperty n (q.entered ks) p a) (GivenProperty (n + 1) ks q) := by
  cases q with
  | property d =>
    by_cases hd : ∃ i t, d = ⟨ModuleId.base, i⟩ ∧ Annotated i t ∧ 3 ≤ n + 1 ∧ Clear 1 d ks
    · obtain ⟨i, t, rfl, ht, hn, clear⟩ := hd
      refine (within_requiredType ht (fun j b hb => ?_)).mono (fun a ha j u hj hu _ _ => ?_)
      · have room := clear.room
        refine (hb.1 j rfl).1 (by omega) ?_ (fun hm => ?_)
        · show (GuardKey.expected ⟨ModuleId.base, i⟩ :: ks).length < Limits.exprTypeDepth
          rw [List.length_cons]
          exact room
        · rcases List.mem_cons.1 hm with e | hm
          · cases e
          · exact clear.clauses _ hm
      · cases hj
        rw [ha, ← ht.value, hu.value]
    · exact Query.within_true.mono
        (fun _ _ i t h ht hn clear => absurd ⟨i, t, h, ht, hn, clear⟩ hd)
  | member d =>
    by_cases hd : ∃ i t, d = ⟨ModuleId.base, i⟩ ∧ Annotated i t ∧ 4 ≤ n + 1 ∧ Clear 2 d ks
    · obtain ⟨i, t, rfl, ht, hn, clear⟩ := hd
      refine (within_declarationType ht (fun a ha => ?_)).mono (fun a ha j u hj hu _ _ _ => ?_)
      · exact ha.2 i t rfl ht (by omega) (clear.tail nofun nofun)
      · cases hj
        rw [ha, ← ht.value, hu.value]
    · exact Query.within_true.mono
        (fun _ _ i t h ht hn clear _ => absurd ⟨i, t, h, ht, hn, clear⟩ hd)
  | declared d =>
    have hm : ∀ a, Given src n ks (.member d) a ∧ GivenProperty n ks (.member d) a →
        GivenProperty (n + 1) ks (.declared d) a :=
      fun a ha i t hd ht hn clear hm => ha.2 i t hd ht (Nat.le_of_succ_le_succ hn) clear hm
    exact hm
  | _ => exact Query.within_true

/-- The bounds for supertypes, clauses and aliases, with those for properties. -/
def properties (src : ModuleSource) : Envelope src where
  stored q a := Stored src q a ∧ StoredProperty q a
  given n ks q a := Given src n ks q a ∧ GivenProperty n ks q a
  given_of_stored h := ⟨given_of_stored h.1, givenProperty_of_stored h.2⟩
  stored_tree i := ⟨stored_tree i, trivial⟩
  stored_reference m uri := ⟨stored_reference m uri, trivial⟩
  given_zero ks q hq := ⟨given_zero ks q hq, givenProperty_zero ks q⟩
  given_refused n ks q hq := ⟨given_refused n ks q hq, givenProperty_refused n ks q hq⟩
  given_succ n ks q hq hr :=
    ((given_succ n ks q hq hr).weaken (fun _ _ h => h.1)).and (givenProperty_succ n ks q)
  stored_body q hq :=
    ((stored_body q hq).weaken (fun _ _ h => h.1)).and (storedProperty_body q)

end Standard

/-- While expressions are typed, a property of the standard library has its declared type. -/
theorem Session.Stage.gives_declared {src : ModuleSource} {d : Nat}
    (hd : d + 2 < Limits.exprTypeDepth) {i : NodeIndex} {t : Ty} (h : Standard.Annotated i t) :
    (Session.Stage.typing src d).Gives (Query.declared ⟨ModuleId.base, i⟩) t := by
  rintro n k ⟨ks, ⟨hl, he⟩, rfl, hk⟩
  have none : ∀ k, (∀ e, k ≠ .expr e) → k ∉ ks := fun k hk hm =>
    let ⟨e, h⟩ := he k hm
    hk e h
  have hf : Session.fuel = 1506 := rfl
  have hd' : d + 2 < 500 := hd
  refine (hk.given (Standard.properties src) (.declared ⟨ModuleId.base, i⟩)).2 i t rfl h (by omega)
    ⟨?_, fun c => none _ nofun, none _ nofun⟩ (none _ nofun)
  exact Nat.lt_of_le_of_lt (Nat.add_le_add_right hl 2) hd

end PklAnalysis
