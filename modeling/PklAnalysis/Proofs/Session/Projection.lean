import PklAnalysis.Proofs.Scope.Inheritance
import PklAnalysis.Proofs.Session.Substitution
import PklAnalysis.Proofs.Typing.Arity

/-!
# Ancestors under substitution

A class type is projected to one of its ancestors by a walk along declared supertypes. At every step
the type parameters of a class are bound to its arguments by position, put into the supertype that it
declares, and an alias in this place is expanded once. A substitution in the arguments gets through
these steps (`run_unaliased_bind`, `run_superclass_bind`), for the types that are put together on the
way mention the parameters of their own declaration only. Questions about a supertype or an alias
change the memory in the same way whatever the arguments are, so the walk of a class type and that of
its substitution stay in step and come to the same ancestor (`projectTo_bind`).
-/

namespace PklAnalysis

open Session

/-! ## Types that are no parameters -/

namespace Ty

/-- Whether the type is a type parameter. -/
def isVar : Ty → Bool
  | .var _ _ => true
  | _ => false

variable {t : Ty}

theorem isVar_bind (h : t.isVar = false) (s : Bindings) : (t.bind s).isVar = false := by
  cases t with
  | var => cases h
  | _ => rfl

/-- A substitution makes no class type of another type, unless this is a type parameter. -/
theorem class?_bind (h : t.isVar = false) (s : Bindings) :
    (t.bind s).class? = t.class?.map (Reading.bindClass s) := by
  cases t with
  | var => cases h
  | _ => rfl

end Ty

namespace ModuleSource

variable {src : ModuleSource} {t : Ty}

/-- The argument list of the type itself is full; nothing is said of what is in it. -/
def Filled (src : ModuleSource) : Ty → Prop
  | .cls d as _ | .typeAlias d as _ => as.length = (src.params d).length
  | _ => True

theorem Full.filled (h : src.Full t) : src.Filled t := by
  cases h with
  | cls _ hl _ | typeAlias _ hl _ => exact hl
  | _ => trivial

theorem Filled.bind (h : src.Filled t) (hv : t.isVar = false) (s : Bindings) :
    src.Filled (t.bind s) := by
  cases t with
  | var => cases hv
  | cls | typeAlias => exact (Ty.length_bindAll ..).trans h
  | _ => trivial

theorem Filled.of_class? (h : src.Filled t) {c : ClassTy} (hc : t.class? = some c) :
    c.args.length = (src.params c.decl).length := by
  cases t with
  | cls =>
    cases hc
    exact h
  | _ => cases hc

end ModuleSource

namespace Session

variable {src : ModuleSource} {m : Memory}

/-! ## What arguments do not change -/

theorem run_forDeclaration (hm : Reachable src m) (d : NodeRef) (as : List Ty) :
    run src (Bindings.forDeclaration d as) m =
      ((reading src).bindings d as, (run src (typeParams d) m).2) := by
  refine Prod.ext (gives_source (Query.asks_forDeclaration (reading src) d as) m hm) ?_
  rw [Bindings.forDeclaration, run_bind]
  rfl

theorem exists_bindings_bind {d : NodeRef} {as : List Ty} (full : as.length = (src.params d).length)
    (s : Bindings) {p : NodeRef} (hp : p ∈ (src.params d).map (·.1)) :
    ∃ x, ((reading src).bindings d as).get? p = some x ∧
      ((reading src).bindings d (Ty.bindAll s as)).get? p = some (x.bind s) := by
  rw [← reading_params_eq] at full hp
  obtain ⟨x, -, value, value'⟩ := Reading.bindings_bind full s hp
  exact ⟨x, value, value'⟩

/-- What is remembered from the expansion of an alias does not hang on its arguments. -/
theorem memory_expansion (d : NodeRef) (as : List Ty) (c : Constraints) (m : Memory) :
    (answer src fuel (.expansion d as c) m).2 = (answer src fuel (.expansion d [] []) m).2 := by
  have body : ∀ k, ((expandAlias d as c).run (answer src 1505) k).2 =
      ((expandAlias d [] []).run (answer src 1505) k).2 := by
    intro k
    unfold expandAlias Bindings.forDeclaration
    simp only [Query.run_bind]
    rfl
  show (guarded (.expansion d) .unknown ((expandAlias d as c).run (answer src 1505)) m).2 =
    (guarded (.expansion d) .unknown ((expandAlias d [] []).run (answer src 1505)) m).2
  unfold guarded
  cases m.guard.enter (.expansion d) with
  | error => rfl
  | ok g => exact congrArg (fun k : Memory => { k with guard := k.guard.leave (.expansion d) }) (body _)

/-! ## The step of the walk -/

/-- The memory when the supertype of a class and its type parameters were asked for. -/
def declaredAt (src : ModuleSource) (d : NodeRef) (m : Memory) : Memory :=
  (run src (typeParams d) (run src (Query.supertype d) m).2).2

theorem Reachable.declaredAt (hm : Reachable src m) (d : NodeRef) :
    Reachable src (declaredAt src d m) := (hm.query _).query _

theorem run_superclass_none {c : ClassTy} (h : (run src (Query.supertype c.decl) m).1 = none) :
    run src c.superclass m = (none, (run src (Query.supertype c.decl) m).2) := by
  rw [ClassTy.superclass, run_bind, h]
  rfl

theorem run_superclass_some (hm : Reachable src m) {c : ClassTy} {t : Ty}
    (h : (run src (Query.supertype c.decl) m).1 = some t) : run src c.superclass m =
      Prod.map Ty.class? id (run src (t.bind ((reading src).bindings c.decl c.args)).unaliased
        (declaredAt src c.decl m)) := by
  rw [ClassTy.superclass, run_bind, h]
  show run src (Bindings.forDeclaration c.decl c.args >>= _) _ = _
  rw [run_bind, run_forDeclaration (hm.query _), run_bind]
  rfl

variable (src)

/-- Declared supertypes mention the type parameters of their own class only, and none is a type
parameter, neither by itself nor by way of an alias; class types, behind an alias or not, are none.
Aliases mention the type parameters of their own declaration only. This is asked of what stands
beside the standard library, in whatever order the session is asked. -/
structure OwnParameters : Prop where
  supertype : ∀ {m d t}, Reachable src m → d.module ≠ ModuleId.base →
    (run src (Query.supertype d) m).1 = some t → ∀ p ∈ t.vars, p ∈ (src.params d).map (·.1)
  proper : ∀ {m m' d t}, Reachable src m → Reachable src m' → d.module ≠ ModuleId.base →
    (run src (Query.supertype d) m).1 = some t → (run src t.unaliased m').1.isVar = false
  expansion : ∀ {m d}, Reachable src m → d.module ≠ ModuleId.base →
    ∀ p ∈ (run src (Query.expansion d [] []) m).1.vars, p ∈ (src.params d).map (·.1)

variable {src}

/-- The supertypes declared in the standard library are class types over the parameters of their own
class. -/
theorem of_run_supertype_base (hm : Reachable src m) {d : NodeRef} {t : Ty}
    (hd : d.module = ModuleId.base) (ht : (run src (Query.supertype d) m).1 = some t) :
    ∃ e qs k, t = .cls e qs k ∧ ∀ p ∈ Ty.varsAll qs, p ∈ (src.params d).map (·.1) := by
  have read : reading src (.supertype d) = some t := by
    obtain ⟨i, rfl⟩ := exists_base hd
    rw [← (settled_supertype src i).1 m hm]
    exact ht
  obtain ⟨-, e, qs, k, rfl, aligned⟩ := of_supertype_base hd read
  refine ⟨e, qs, k, rfl, fun p hp => ?_⟩
  rw [← reading_params_eq]
  exact aligned.mem_of_mem_vars hp

namespace OwnParameters

variable (h : OwnParameters src)
include h

theorem vars_supertype (hm : Reachable src m) {d : NodeRef} {t : Ty}
    (ht : (run src (Query.supertype d) m).1 = some t) :
    ∀ p ∈ t.vars, p ∈ (src.params d).map (·.1) := by
  by_cases hd : d.module = ModuleId.base
  · obtain ⟨e, qs, k, rfl, own⟩ := of_run_supertype_base hm hd ht
    exact own
  · exact h.supertype hm hd ht

theorem isVar_supertype (hm : Reachable src m) {m' : Memory} (hm' : Reachable src m') {d : NodeRef}
    {t : Ty} (ht : (run src (Query.supertype d) m).1 = some t) :
    (run src t.unaliased m').1.isVar = false := by
  by_cases hd : d.module = ModuleId.base
  · obtain ⟨e, qs, k, rfl, -⟩ := of_run_supertype_base hm hd ht
    rfl
  · exact h.proper hm hm' hd ht

theorem vars_expansion (hm : Reachable src m) (d : NodeRef) :
    ∀ p ∈ (run src (Query.expansion d [] []) m).1.vars, p ∈ (src.params d).map (·.1) := by
  by_cases hd : d.module = ModuleId.base
  · obtain ⟨settled, own⟩ := @settled_expansion_of_base src d (fun _ _ => hd)
    show ∀ p ∈ (answer src fuel (.expansion d [] []) m).1.vars, _
    rw [settled m hm]
    exact own
  · exact h.expansion hm hd

/-! ## One step up -/

/-- A substitution gets through the expansion of an alias. -/
theorem run_unaliased_bind (hm : Reachable src m) {t : Ty} (hv : t.isVar = false)
    (full : src.Filled t) (s : Bindings) : run src (t.bind s).unaliased m =
      ((run src t.unaliased m).1.bind s, (run src t.unaliased m).2) := by
  cases t with
  | var => cases hv
  | typeAlias d as c =>
    -- both expansions start from the same right-hand side, found while `d` is being expanded
    obtain ⟨k, -, expand⟩ := answer_expansion hm d
    have own : ∀ p ∈ (answer src 1505 (.aliased d) k).1.vars, p ∈ (src.params d).map (·.1) := by
      have body := expand [] []
      rw [Reading.bindings_nil, Ty.bind_empty, Ty.addConstraints_nil] at body
      rw [← body]
      exact h.vars_expansion hm d
    refine Prod.ext ?_ ?_
    · show (answer src fuel (.expansion d (Ty.bindAll s as) c) m).1 =
        (answer src fuel (.expansion d as c) m).1.bind s
      rw [expand, expand, Ty.addConstraints_bind,
        Ty.bind_bind (fun p hp => exists_bindings_bind full s (own p hp))]
    · show (answer src fuel (.expansion d (Ty.bindAll s as) c) m).2 =
        (answer src fuel (.expansion d as c) m).2
      rw [memory_expansion d (Ty.bindAll s as), memory_expansion d as]
  | _ => rfl

/-- What a declared supertype comes to with the parameters of its class bound to `as`, and with these
bound to the substituted arguments. -/
theorem run_declared_bind (hm : Reachable src m) {k : Memory} (hk : Reachable src k) {d : NodeRef}
    {t : Ty} (declared : (run src (Query.supertype d) m).1 = some t) {as : List Ty}
    (full : as.length = (src.params d).length) (s : Bindings) :
    ∃ u k', u.isVar = false ∧ src.Filled u ∧
      run src (t.bind ((reading src).bindings d as)).unaliased k = (u, k') ∧
      run src (t.bind ((reading src).bindings d (Ty.bindAll s as))).unaliased k = (u.bind s, k') := by
  have ht : src.Full t := src.full.run (ModuleSource.Kept.within_supertype d) hm t declared
  have hu : src.Full (run src t.unaliased k).1 := src.full.run (src.full.within_unaliased ht) hk
  have proper := h.isVar_supertype hm hk declared
  have hv : t.isVar = false := by
    cases t with
    | var => cases proper
    | _ => rfl
  let b := (reading src).bindings d as
  have bound := h.run_unaliased_bind hk hv ht.filled b
  have substituted := h.run_unaliased_bind hk (Ty.isVar_bind hv b) (ht.filled.bind hv b) s
  -- the bindings of the substituted arguments are the substituted bindings
  have composed : t.bind ((reading src).bindings d (Ty.bindAll s as)) = (t.bind b).bind s :=
    (Ty.bind_bind (fun p hp =>
      exists_bindings_bind full s (h.vars_supertype hm declared p hp))).symm
  refine ⟨_, _, Ty.isVar_bind proper b, hu.filled.bind proper b, bound, ?_⟩
  rw [composed, substituted, bound]

/-- A substitution of its arguments changes the superclass of a class type in the same way. The
superclass has a full argument list again. -/
theorem run_superclass_bind (hm : Reachable src m) {c : ClassTy}
    (full : c.args.length = (src.params c.decl).length) (s : Bindings) :
    run src (Reading.bindClass s c).superclass m =
        ((run src c.superclass m).1.map (Reading.bindClass s), (run src c.superclass m).2) ∧
      ∀ p, (run src c.superclass m).1 = some p → p.args.length = (src.params p.decl).length := by
  cases declared : (run src (Query.supertype c.decl) m).1 with
  | none =>
    rw [run_superclass_none declared, run_superclass_none (c := Reading.bindClass s c) declared]
    exact ⟨rfl, nofun⟩
  | some t =>
    obtain ⟨u, k, proper, filled, parent, substituted⟩ :=
      h.run_declared_bind hm (hm.declaredAt c.decl) declared full s
    rw [run_superclass_some hm declared, parent,
      run_superclass_some (c := Reading.bindClass s c) hm declared]
    dsimp only [Reading.bindClass]
    rw [substituted, Prod.map_apply, Prod.map_apply, Ty.class?_bind proper]
    exact ⟨rfl, fun p hp => filled.of_class? hp⟩

/-- A substitution gets through the walk to an ancestor. -/
theorem run_projectFrom_bind (target : NodeRef) (n : Nat) (seen : List NodeRef) (s : Bindings)
    (hm : Reachable src m) {c : ClassTy} (full : c.args.length = (src.params c.decl).length) :
    run src (ClassTy.projectFrom target n seen (Reading.bindClass s c)) m =
      ((run src (ClassTy.projectFrom target n seen c) m).1.map (Reading.bindClass s),
        (run src (ClassTy.projectFrom target n seen c) m).2) := by
  induction n generalizing seen c m with
  | zero => rfl
  | succ n ih =>
    obtain ⟨step, full_parent⟩ := h.run_superclass_bind hm full s
    rw [ClassTy.projectFrom, ClassTy.projectFrom]
    show run src (if c.decl = target then _ else if seen.contains c.decl then _ else _) m = _
    split
    · rfl
    split
    · rfl
    rw [run_bind, run_bind, step]
    dsimp only
    cases parent : (run src c.superclass m).1 with
    | none => rfl
    | some p => exact ih (c.decl :: seen) (hm.query _) (full_parent p parent)

end OwnParameters

/-- At any moment, a class type with a full argument list and its substitution have the same
ancestors: either neither is below the class that is looked for, or what is found for the one, with
its arguments substituted, is found for the other. Afterwards the session remembers the same. -/
theorem projectTo_bind (h : OwnParameters src) (hm : Reachable src m) {c : ClassTy}
    (full : c.args.length = (src.params c.decl).length) (target : NodeRef) (s : Bindings) :
    (c.toTy.bind s).class? = some (Reading.bindClass s c) ∧
      run src ((Reading.bindClass s c).projectTo target) m =
        ((run src (c.projectTo target) m).1.map (Reading.bindClass s),
          (run src (c.projectTo target) m).2) :=
  ⟨rfl, h.run_projectFrom_bind target _ [] s hm full⟩

/-! ### A class behind an alias -/

/-- The module
```
class Shelf<E>
typealias Crate<T> = Shelf<List<T>>
class Chest<T> extends Crate<T>
```
-/
def chestsTree : SyntaxTree where
  uri := "file:///chests.pkl"
  module := 1
  nodes := #[⟨.typeParam { name := "E" }, .nowhere, some 1⟩,
    ⟨.classDecl { name := "Shelf", typeParams := [0] }, .nowhere, some 11⟩,
    ⟨.typeParam { name := "T" }, .nowhere, some 6⟩,
    ⟨.declaredType none "T" [], .nowhere, some 4⟩,
    ⟨.declaredType none "List" [3], .nowhere, some 5⟩,
    ⟨.declaredType none "Shelf" [4], .nowhere, some 6⟩,
    ⟨.aliasDecl { name := "Crate", typeParams := [2], target := 5 }, .nowhere, some 11⟩,
    ⟨.typeParam { name := "T" }, .nowhere, some 10⟩,
    ⟨.declaredType none "T" [], .nowhere, some 9⟩,
    ⟨.declaredType none "Crate" [8], .nowhere, some 10⟩,
    ⟨.classDecl { name := "Chest", typeParams := [7], superclass := some 9 }, .nowhere, some 11⟩,
    ⟨.module { members := [1, 6, 10] }, .nowhere, none⟩]
  root := 11

/-- A session with this module only. -/
def chests : ModuleSource where
  tree i := if i = 1 then some chestsTree else none
  resolve _ _ := none

def shelf : NodeRef := ⟨1, 1⟩

def crate : NodeRef := ⟨1, 6⟩

def chest : NodeRef := ⟨1, 10⟩

/-- `Crate<t>` -/
def crateTy (t : Ty) : Ty := .typeAlias crate [t] []

/-- `Shelf<List<t>>` -/
def listsTy (t : Ty) : Ty := .cls shelf [std.listTy t] []

theorem gives_supertype_shelf : Gives chests (Query.supertype shelf) (some std.typedTy) :=
  gives_supertype_of_no_clause (Standard.ne_any nofun) rfl rfl

theorem gives_supertype_chest :
    Gives chests (Query.supertype chest) (some (crateTy (.var ⟨1, 7⟩ []))) :=
  gives_supertype_of_clause (t := chestsTree) (Standard.ne_any nofun) rfl rfl rfl
    ⟨_, .of_settle rfl⟩ (by decide +kernel)

theorem gives_expansion_crate (as : List Ty) (c : Constraints) :
    Gives chests (Query.expansion crate as c)
      (((listsTy (.var ⟨1, 2⟩ [])).bind ((reading chests).bindings crate as)).addConstraints c) := by
  have target : (aliasTarget crate).Asks chests.table (·.isSource = true) ∧
      (aliasTarget crate).value chests.table = listsTy (.var ⟨1, 2⟩ []) := by
    decide +kernel
  exact gives_expansion_of_reads (target.2 ▸ .of_asks target.1) as c

theorem gives_expansion_crateTy (t : Ty) :
    Gives chests (Query.expansion crate [t] []) (listsTy t) := by
  have bound : (reading chests).bindings crate [t] = Bindings.empty.extend [(⟨1, 2⟩, t)] := by
    rw [Reading.bindings_eq, reading_params]
    rfl
  have value : ((listsTy (.var ⟨1, 2⟩ [])).bind
      (Bindings.empty.extend [(⟨1, 2⟩, t)])).addConstraints [] = listsTy t := by
    show (listsTy (t.addConstraints [])).addConstraints [] = _
    rw [Ty.addConstraints_nil, Ty.addConstraints_nil]
  have expanded := gives_expansion_crate [t] []
  rwa [bound, value] at expanded

/-- What is declared beside the standard library. -/
theorem declares_chests {d : NodeRef} {c : Construct} (hd : d.module ≠ ModuleId.base)
    (h : chests.construct? d = some c) (hc : (c.isClass || c.isAlias) = true) :
    ((d = shelf ∨ d = chest) ∧ c.isAlias = false) ∨ (d = crate ∧ c.isClass = false) := by
  obtain ⟨n, rfl, hn⟩ := construct?_only (t := chestsTree) (fun _ => rfl) hd h
  match n with
  | 1 => cases hn; exact .inl ⟨.inl rfl, rfl⟩
  | 6 => cases hn; exact .inr ⟨rfl, rfl⟩
  | 10 => cases hn; exact .inl ⟨.inr rfl, rfl⟩
  | 0 | 2 | 3 | 4 | 5 | 7 | 8 | 9 | 11 => cases hn; cases hc
  | n + 12 => simp [SyntaxTree.construct?, SyntaxTree.node?, chestsTree] at hn

/-- What the classes of the module extend. -/
theorem supertype_chests {d : NodeRef} {t : Ty} (hm : Reachable chests m)
    (hd : d.module ≠ ModuleId.base) (ht : (run chests (Query.supertype d) m).1 = some t) :
    (d = shelf ∧ t = std.typedTy) ∨ (d = chest ∧ t = crateTy (.var ⟨1, 7⟩ [])) := by
  by_cases hc : ∃ c, chests.construct? d = some (.classDecl c)
  · obtain ⟨c, hc⟩ := hc
    rcases declares_chests hd hc rfl with ⟨rfl | rfl, -⟩ | ⟨-, no⟩
    · rw [gives_supertype_shelf m hm] at ht
      exact .inl ⟨rfl, (Option.some.inj ht).symm⟩
    · rw [gives_supertype_chest m hm] at ht
      exact .inr ⟨rfl, (Option.some.inj ht).symm⟩
    · cases no
  · have plain := plainSupertype_of_not_class (fun c e => hc ⟨c, e⟩)
    have none := gives_ask_iff.2 (settled_plainSupertype plain) m hm
    exact nomatch none.symm.trans ht

theorem ownParameters_chests : OwnParameters chests where
  supertype hm hd ht := by
    rcases supertype_chests hm hd ht with ⟨rfl, rfl⟩ | ⟨rfl, rfl⟩
    · exact fun p hp => absurd hp List.not_mem_nil
    · exact fun p hp => hp
  proper hm hm' hd ht := by
    rcases supertype_chests hm hd ht with ⟨rfl, rfl⟩ | ⟨rfl, rfl⟩
    · rfl
    · have expanded := gives_expansion_crateTy (.var ⟨1, 7⟩ []) _ hm'
      show (run chests (Query.expansion crate _ []) _).1.isVar = false
      rw [expanded]
      rfl
  expansion {m d} hm hd := by
    by_cases hc : ∃ a, chests.construct? d = some (.aliasDecl a)
    · obtain ⟨a, hc⟩ := hc
      rcases declares_chests hd hc rfl with ⟨-, no⟩ | ⟨rfl, -⟩
      · cases no
      · rw [gives_expansion_crate [] [] m hm, Reading.bindings_nil, Ty.bind_empty,
          Ty.addConstraints_nil]
        exact fun p hp => hp
    · obtain ⟨settled, own⟩ :=
        @settled_expansion_of_base chests d (fun a ha => absurd ⟨a, ha⟩ hc)
      show ∀ p ∈ (answer chests fuel (.expansion d [] []) m).1.vars, _
      rw [settled m hm]
      exact own

/-- What the session answers about chests. -/
def chestsAnswers : (q : Question) → Option q.Answer
  | .supertype d => if d = chest then some (some (crateTy (.var ⟨1, 7⟩ []))) else none
  | .expansion d [t] [] => if d = crate then some (listsTy t) else none
  | _ => none

theorem sound_chestsAnswers {q : Question} {a : q.Answer} (hq : chestsAnswers q = some a) :
    Gives chests (.ask q .done) a := by
  unfold chestsAnswers at hq
  split at hq
  · split at hq
    · next e =>
      cases hq
      exact e ▸ gives_supertype_chest
    · cases hq
  · split at hq
    · next e =>
      cases hq
      exact e ▸ gives_expansion_crateTy _
    · cases hq
  · cases hq

/-- A chest of some `T` is a shelf of lists of it, and so a chest of texts is a shelf of lists of
texts. -/
theorem projectTo_bind_chests :
    OwnParameters chests ∧ 1 = (chests.params chest).length ∧
    (run chests (ClassTy.projectTo ⟨chest, [.var ⟨1, 7⟩ []], []⟩ shelf) {}).1 =
      some ⟨shelf, [std.listTy (.var ⟨1, 7⟩ [])], []⟩ ∧
    (run chests (ClassTy.projectTo ⟨chest, [std.stringTy], []⟩ shelf) {}).1 =
      some ⟨shelf, [std.listTy std.stringTy], []⟩ := by
  let c : ClassTy := ⟨chest, [.var ⟨1, 7⟩ []], []⟩
  let s : Bindings := Bindings.empty.insert ⟨1, 7⟩ std.stringTy
  have full : c.args.length = (chests.params c.decl).length := rfl
  have texts : Ty.bindAll s [.var ⟨1, 7⟩ []] = [std.stringTy] := by
    rw [Ty.bindAll, Ty.bindAll, Ty.bind_single]
  have lists : Ty.bindAll s [std.listTy (.var ⟨1, 7⟩ [])] = [std.listTy std.stringTy] := by
    show [std.listTy ((Ty.var ⟨1, 7⟩ []).bind s)] = _
    rw [Ty.bind_single]
  have answer := gives_known sound_chestsAnswers (x := Option.map ClassTy.toTy <$> c.projectTo shelf)
    (a := some (listsTy (.var ⟨1, 7⟩ []))) (by decide +kernel) {} .fresh
  rw [← bind_pure_comp, run_bind] at answer
  obtain ⟨⟨_, _, _⟩, projected, same⟩ := Option.map_eq_some_iff.1 answer
  cases same
  obtain ⟨-, substituted⟩ := projectTo_bind ownParameters_chests .fresh full shelf s
  rw [projected] at substituted
  dsimp only [c, Reading.bindClass, Option.map_some] at substituted
  rw [texts, lists] at substituted
  exact ⟨ownParameters_chests, full, projected, congrArg Prod.fst substituted⟩

end Session

end PklAnalysis
