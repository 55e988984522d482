import PklAnalysis.Proofs.Session.Envelope
import PklAnalysis.Proofs.Types.Below

/-!
# What the source decides

Questions about trees and references are answered by the source, and so are the type parameters of
declarations and the clauses of modules. A class without an `extends` clause has the supertype that
its tree says (`gives_plainSupertype`). The constraints of an alias type end up behind those of its
expansion, in every session (`lawful_reading`).
-/

namespace PklAnalysis

open Session

namespace ModuleSource

variable (src : ModuleSource)

/-- The tree of a module, the standard library included. -/
def treeOf (m : ModuleId) : Option SyntaxTree :=
  if m = ModuleId.base then some std.tree else src.tree m

def construct? (d : NodeRef) : Option Construct :=
  (src.treeOf d.module).bind (·.construct? d.node)

theorem construct?_base (i : NodeIndex) :
    src.construct? ⟨ModuleId.base, i⟩ = std.tree.construct? i := by
  rw [construct?, treeOf, if_pos rfl, Option.bind_some]

/-- The supertype of a declaration that has no clause to resolve. -/
def plainSupertype (d : NodeRef) : Option (Option Ty) :=
  if d = std.any then some none
  else match src.construct? d with
    | some (.classDecl c) => match c.superclass with
      | none => some (some std.typedTy)
      | some _ => none
    | _ => some none

end ModuleSource

/-! ## Questions about the source -/

namespace Question

/-- What the source is asked for. -/
def IsSource (q : Question) : Prop := q.isSource = true

end Question

namespace Query

section

variable (r : Reading)

theorem asks_tree (m : ModuleId) : (tree m).Asks r Question.IsSource := by
  unfold tree
  split
  · exact trivial
  · exact ⟨rfl, trivial⟩

theorem asks_construct (d : NodeRef) : (construct d).Asks r Question.IsSource := by
  refine (asks_bind ..).2 ⟨asks_tree r d.module, ?_⟩
  cases (tree d.module).value r <;> trivial

theorem asks_typeParams (d : NodeRef) : (typeParams d).Asks r Question.IsSource := by
  refine (asks_bind ..).2 ⟨asks_construct r d, ?_⟩
  cases (construct d).value r <;> trivial

theorem asks_forDeclaration (d : NodeRef) (as : List Ty) :
    (Bindings.forDeclaration d as).Asks r Question.IsSource :=
  (asks_bind ..).2 ⟨asks_typeParams r d, trivial⟩

theorem asks_supermodule (m : ModuleId) : (supermodule m).Asks r Question.IsSource := by
  refine (asks_bind ..).2 ⟨asks_tree r m, ?_⟩
  cases (tree m).value r with
  | none => trivial
  | some t =>
    dsimp only
    cases t.clause? with
    | none => trivial
    | some c =>
      refine (asks_bind ..).2 ⟨?_, trivial⟩
      unfold reference
      split
      · exact trivial
      · exact ⟨rfl, trivial⟩

theorem asks_moduleExtendsFrom (sup : ModuleId) (n : Nat) (seen : List ModuleId) (m : ModuleId) :
    (moduleExtendsFrom sup n seen m).Asks r Question.IsSource := by
  induction n generalizing seen m with
  | zero => trivial
  | succ n ih =>
    unfold moduleExtendsFrom
    split
    · trivial
    split
    · trivial
    refine (asks_bind ..).2 ⟨asks_supermodule r m, ?_⟩
    cases (supermodule m).value r with
    | none => trivial
    | some next => exact ih ..

end

variable {src : ModuleSource} {P : (q : Question) → q.Answer → Prop}

theorem within_tree (hP : ∀ i a, P (.tree i) a → a = src.tree i) (m : ModuleId) :
    (tree m).Within P (· = src.treeOf m) := by
  unfold tree ModuleSource.treeOf
  split
  · exact within_pure rfl
  · exact within_ask (fun a ha => hP m a ha)

theorem within_construct (hP : ∀ i a, P (.tree i) a → a = src.tree i) (d : NodeRef) :
    (construct d).Within P
      (· = (src.treeOf d.module).bind (fun t => (t.construct? d.node).map (fun c => (t, c)))) := by
  refine (within_tree hP d.module).bind (fun t ht => ?_)
  subst ht
  cases src.treeOf d.module <;> exact within_pure rfl

theorem within_declaredSupertype (hP : ∀ i a, P (.tree i) a → a = src.tree i) (d : NodeRef) :
    (declaredSupertype d).Within P (fun a => ∀ s, src.plainSupertype d = some s → a = s) := by
  unfold declaredSupertype ModuleSource.plainSupertype ModuleSource.construct?
  by_cases hd : d = std.any
  · rw [if_pos hd, if_pos hd]
    exact within_pure (fun s hs => Option.some.inj hs)
  rw [if_neg hd, if_neg hd]
  refine (within_construct hP d).bind (fun a ha => ?_)
  subst ha
  cases src.treeOf d.module with
  | none => exact within_pure (fun s hs => Option.some.inj hs)
  | some t =>
    rw [Option.bind_some, Option.bind_some]
    cases t.construct? d.node with
    | none => exact within_pure (fun s hs => Option.some.inj hs)
    | some c =>
      cases c with
      | classDecl c =>
        cases hc : c.superclass with
        | none =>
          simp only [Option.map_some, hc]
          exact within_pure (fun s hs => Option.some.inj hs)
        | some clause =>
          simp only [Option.map_some, hc]
          exact within_ask (fun a _ s hs => nomatch hs)
      | _ => exact within_pure (fun s hs => Option.some.inj hs)

end Query

/-- The bounds given by the source alone. -/
def Envelope.source (src : ModuleSource) : Envelope src where
  stored
    | .tree i, a => a = src.tree i
    | .reference m uri, a => a = src.resolve m uri
    | .supertype d, a => ∀ s, src.plainSupertype d = some s → a = s
    | _, _ => True
  given n _
    | .tree i, a => a = src.tree i
    | .reference m uri, a => a = src.resolve m uri
    | .supertype d, a => n ≠ 0 → ∀ s, src.plainSupertype d = some s → a = s
    | _, _ => True
  given_of_stored := by
    intro n ks q a h
    cases q <;> first | exact h | exact fun _ => h
  stored_tree _ := rfl
  stored_reference _ _ := rfl
  given_zero := by
    intro ks q hq
    cases q <;> first | trivial | exact fun h => absurd rfl h
  given_refused := by
    rintro n ks q ⟨k, hk, _⟩
    cases q <;> trivial
  given_succ := by
    intro n ks q hq _
    cases q with
    | tree | reference => cases hq
    | supertype d =>
      exact (Query.within_declaredSupertype (fun _ _ h => h) d).mono (fun _ h _ => h)
    | _ => exact Query.within_true
  stored_body := by
    intro q hq
    cases q with
    | tree | reference => cases hq
    | supertype d => exact Query.within_declaredSupertype (fun _ _ h => h) d
    | _ => exact Query.within_true

namespace Session

variable (src : ModuleSource)

theorem settled_tree (i : ModuleId) :
    Settled src (.tree i) ∧ reading src (.tree i) = src.tree i :=
  (Envelope.source src).settled_of_unique (fun _ h => h)

theorem settled_reference (m : ModuleId) (uri : String) :
    Settled src (.reference m uri) ∧ reading src (.reference m uri) = src.resolve m uri :=
  (Envelope.source src).settled_of_unique (fun _ h => h)

theorem settled_source {q : Question} (h : q.IsSource) : Settled src q := by
  cases q with
  | tree i => exact (settled_tree src i).1
  | reference m uri => exact (settled_reference src m uri).1
  | _ => cases h

variable {src}

/-- A query that only asks for what the source holds has its value whenever it is asked. -/
theorem gives_source {x : Query α} (h : x.Asks (reading src) Question.IsSource) :
    Gives src x (x.value (reading src)) :=
  gives_value (Query.asks_mono (fun _ => settled_source src) h)

theorem loaded_of_isSource {q : Question} (hq : q.IsSource) {m : Memory} {i : ModuleId}
    (hi : i ∈ (answer src fuel q m).2.loaded) : i ∈ m.loaded ∨ q = .tree i := by
  cases q with
  | tree j =>
    change i ∈ (if m.loaded.contains j then m else { m with loaded := j :: m.loaded }).loaded at hi
    split at hi
    · exact .inl hi
    · exact (List.mem_cons.1 hi).elim (fun h => .inr (h ▸ rfl)) .inl
  | reference s uri =>
    change i ∈ (findModule src s uri m).2.loaded at hi
    unfold findModule at hi
    split at hi <;> exact .inl hi
  | _ => cases hq

/-- A query about the source alone loads no module but those that it asks for. -/
theorem loaded_of_asks {x : Query α} {r : Reading} {P : Question → Prop} (hx : x.Asks r P)
    (hP : ∀ q, P q → q.IsSource) (hr : ∀ q, P q → Gives src (.ask q .done) (r q)) {m : Memory}
    (hm : Reachable src m) {i : ModuleId} (hi : i ∈ (run src x m).2.loaded) :
    i ∈ m.loaded ∨ P (.tree i) := by
  induction x generalizing m with
  | done a => exact .inl hi
  | ask q next ih =>
    have answered : (answer src fuel q m).1 = r q := hr q hx.1 m hm
    rw [run_ask, answered] at hi
    rcases ih (r q) hx.2 (hm.answer q) hi with hi | hi
    · exact (loaded_of_isSource (hP q hx.1) hi).imp_right (fun (h : q = .tree i) => h ▸ hx.1)
    · exact .inr hi

/-- The bounds leave the source no choice. -/
theorem eq_reading_of_source {n : Nat} {ks : List GuardKey} {q : Question} {a : q.Answer}
    (hq : q.IsSource) (h : (Envelope.source src).given n ks q a) : a = reading src q := by
  cases q with
  | tree i => exact h.trans (settled_tree src i).2.symm
  | reference m uri => exact h.trans (settled_reference src m uri).2.symm
  | _ => cases hq

/-- Nothing has to be resolved for the supertype of a class without a clause. -/
theorem settled_plainSupertype {d : NodeRef} {s : Option Ty} (h : src.plainSupertype d = some s) :
    Settled src (.supertype d) ∧ reading src (.supertype d) = s := by
  refine (Envelope.source src).settled_of_unique (fun b hb => ?_)
  exact hb (by rw [fuel_eq]; exact Nat.succ_ne_zero _) s h

/-! ## Declarations -/

theorem value_tree (m : ModuleId) : (Query.tree m).value (reading src) = src.treeOf m := by
  have hw : (Query.tree m).Within (fun q a => a = reading src q) _ :=
    Query.within_tree (fun i a ha => ha.trans (settled_tree src i).2) m
  exact hw.value (fun _ => rfl)

theorem gives_tree (src : ModuleSource) (m : ModuleId) :
    Gives src (Query.tree m) (src.treeOf m) := by
  rw [← value_tree m]
  exact gives_source (Query.asks_tree (reading src) m)

theorem above_of_no_clause {m : ModuleId} (h : ∀ t, src.treeOf m = some t → t.clause? = none) :
    (reading src).above m = none := by
  unfold Reading.above supermodule
  rw [Query.value_bind, value_tree]
  cases ht : src.treeOf m with
  | none => rfl
  | some t =>
    dsimp only
    rw [h t ht]
    rfl

theorem value_construct (d : NodeRef) :
    (Query.construct d).value (reading src) =
      (src.treeOf d.module).bind (fun t => (t.construct? d.node).map (fun c => (t, c))) := by
  have hw : (Query.construct d).Within (fun q a => a = reading src q) _ :=
    Query.within_construct (fun i a ha => ha.trans (settled_tree src i).2) d
  exact hw.value (fun _ => rfl)

/-! ## Expansions -/

/-- In every memory an alias stands for one type, into which the arguments are put and behind which
the constraints are attached. This type is asked for while nothing but the alias is being
expanded. -/
theorem answer_expansion {m : Memory} (hm : Reachable src m) (d : NodeRef) :
    ∃ k, (∀ E : Envelope src, E.Holds [.expansion d] k) ∧ ∀ as c,
      (answer src fuel (.expansion d as c) m).1 =
        ((answer src 1505 (.aliased d) k).1.bind ((reading src).bindings d as)).addConstraints c := by
  let g : Guard := { m.guard with visiting := [.expansion d], depth := 1 }
  let k : Memory := { m with guard := g }
  have idle := (Envelope.source src).holds_of_reachable hm
  have he : m.guard.enter (.expansion d) = .ok g := by
    unfold Guard.enter Guard.isVisiting
    rw [idle.maxDepth, idle.depth, idle.visiting]
    simp only [g, idle.maxDepth]
    rfl
  have hk : ∀ E : Envelope src, E.Holds [.expansion d] k := fun E =>
    ⟨(E.holds_of_reachable hm).remembers.of_eq rfl rfl rfl rfl, rfl, rfl, idle.maxDepth⟩
  refine ⟨k, hk, fun as c => ?_⟩
  let E := Envelope.source src
  have hk' : E.Holds [.expansion d] (answer src 1505 (.aliased d) k).2 :=
    (E.answer_bounded 1505 _ (.aliased d) k (hk E)).2.1
  have hb : ((Bindings.forDeclaration d as).run (answer src 1505)
      (answer src 1505 (.aliased d) k).2).1 = (reading src).bindings d as := by
    have hw := (Query.asks_forDeclaration (reading src) d as).within
      (P := E.given 1505 [.expansion d]) (fun q a hq h => eq_reading_of_source hq h)
    have ht : (Bindings.forDeclaration d as).Within E.stored (fun _ => True) := Query.within_true
    exact (Envelope.bounded_run (E.answer_bounded 1505 _) hw ht _ hk').1
  show (guarded (.expansion d) .unknown ((expandAlias d as c).run (answer src 1505)) m).1 = _
  unfold guarded
  rw [he]
  show ((expandAlias d as c).run (answer src 1505) k).1 = _
  unfold expandAlias
  rw [Query.run_bind]
  show ((Bindings.forDeclaration d as >>= fun b => _).run (answer src 1505)
    (answer src 1505 (.aliased d) k).2).1 = _
  rw [Query.run_bind, ← hb]
  rfl

/-- Further constraints of an alias type end up behind those of its expansion. -/
theorem Gives.expansion_append {d : NodeRef} {as : List Ty} {c k : Constraints} {t : Ty}
    (h : Gives src (Query.expansion d as c) t) :
    Gives src (Query.expansion d as (c ++ k)) (t.addConstraints k) := by
  intro m hm
  obtain ⟨_, _, hb⟩ := answer_expansion hm d
  have ht : (answer src fuel (.expansion d as c) m).1 = t := h m hm
  show (answer src fuel (.expansion d as (c ++ k)) m).1 = _
  rw [hb] at ht
  rw [hb, ← ht, Ty.addConstraints_append]

variable (src)

theorem lawful_reading : (reading src).Lawful := by
  intro d as c
  obtain ⟨_, _, h⟩ := @answer_expansion src _ .fresh d
  show (answer src fuel (.expansion d as c) {}).1 =
    (answer src fuel (.expansion d as []) {}).1.addConstraints c
  rw [h as c, h as [], Ty.addConstraints_nil]

end Session

end PklAnalysis
