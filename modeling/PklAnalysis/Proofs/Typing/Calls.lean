import PklAnalysis.Proofs.Scope.Questions
import PklAnalysis.Proofs.Session.Folding
import PklAnalysis.Proofs.Session.Ledger
import PklAnalysis.Proofs.Types.Evidence

/-!
# What a call suggests

In a call the type of each argument is laid over the annotation of its parameter. What the type
parameters of the method stand for is put together from this (`run_callLaid`), and with it every
argument is accepted that is accepted with nothing known of them, unless the annotation was not looked
into or evidence vanished in a union (`callBindings_accepts`). A parameter under `?` is not looked
into, and so an argument that is in order by itself is rejected (`callBindings_not_accepts`).
-/

namespace PklAnalysis

/-! ## Bindings of parameters -/

namespace Bindings

/-- The part of the bindings that is about some parameters. -/
def only (b : Bindings) (ps : List NodeRef) : Bindings :=
  ⟨b.entries.filter (fun x => ps.contains x.1)⟩

/-- Nothing is known of the parameters. -/
def unknowns (ps : List NodeRef) : Bindings := ⟨ps.map (fun p => (p, .unknown))⟩

variable {b : Bindings} {ps : List NodeRef} {p : NodeRef}

theorem get?_only (hp : p ∈ ps) : (b.only ps).get? p = b.get? p := by
  unfold get? only
  rw [List.find?_filter]
  congr 2
  funext x
  by_cases hx : x.1 = p
  · subst hx
    simp [hp]
  · simp [hx]

theorem get?_only_of_notMem (hp : p ∉ ps) : (b.only ps).get? p = none := by
  refine Option.map_eq_none_iff.2 (List.find?_eq_none.2 (fun x hx he => hp ?_))
  rw [← eq_of_beq he]
  exact List.contains_iff_mem.1 (List.mem_filter.1 hx).2

theorem get?_unknowns (hp : p ∈ ps) : (unknowns ps).get? p = some .unknown := by
  induction ps with
  | nil => cases hp
  | cons q ps ih =>
    by_cases hq : q = p
    · subst hq
      simp [unknowns, get?]
    · have found := ih ((List.mem_cons.1 hp).resolve_left (Ne.symm hq))
      simpa [unknowns, get?, hq] using found

theorem get?_erase_of_ne {q : NodeRef} (h : q ≠ p) : (b.erase q).get? p = b.get? p := by
  have found := get?_insert_of_ne b .unknown h
  simpa [insert, get?, h] using found

theorem get?_assign_of_notMem (b inferred : Bindings) (hp : p ∉ ps) :
    (b.assign inferred ps).get? p = b.get? p := by
  induction ps generalizing b inferred with
  | nil => rfl
  | cons q ps ih =>
    have hq : q ≠ p := fun h => hp (h ▸ List.mem_cons_self)
    rw [assign, ih _ _ (fun h => hp (List.mem_cons_of_mem q h)), get?_insert_of_ne _ _ hq]

/-- A parameter is bound to what was inferred for it, or else nothing is known of it. -/
theorem get?_assign (b inferred : Bindings) (hp : p ∈ ps) :
    (b.assign inferred ps).get? p = some .unknown ∨
      (b.assign inferred ps).get? p = some ((inferred.get? p).getD .unknown) := by
  induction ps generalizing b inferred with
  | nil => cases hp
  | cons q ps ih =>
    rw [assign]
    by_cases hm : p ∈ ps
    · have bound := ih (b.insert q ((inferred.get? q).getD .unknown)) (inferred.erase q) hm
      by_cases hq : q = p
      · subst hq
        have gone : (inferred.erase q).get? q = none := by
          refine Option.map_eq_none_iff.2 (List.find?_eq_none.2 (fun x hx he => ?_))
          simpa [eq_of_beq he] using (List.mem_filter.1 hx).2
        rw [gone] at bound
        exact .inl (bound.elim id id)
      · rwa [get?_erase_of_ne hq] at bound
    · rw [(List.mem_cons.1 hp).resolve_right hm, get?_assign_of_notMem _ _
        ((List.mem_cons.1 hp).resolve_right hm ▸ hm), get?_insert]
      exact .inr rfl

end Bindings

/-! ## What is asked -/

namespace Query

variable {r : Reading} {params : List NodeRef}

theorem asks_addEvidence (b : Bindings) (p : NodeRef) (t : Ty) :
    (b.addEvidence p t).Asks r Question.OfScope := by
  unfold Bindings.addEvidence
  cases b.get? p with
  | none => trivial
  | some known => exact (asks_bind ..).2 ⟨asks_either known t, trivial⟩

mutual
theorem asks_unifyWith {expand : Ty → Ty → Bindings → Query Bindings}
    (h : ∀ e a b, (expand e a b).Asks r Question.OfScope) :
    ∀ (e a : Ty) (b : Bindings), (unifyWith params expand e a b).Asks r Question.OfScope
  | .var p _, a, b => by
    rw [unifyWith]
    split
    · exact asks_addEvidence b p a
    · trivial
  | .cls d es _, a, b => by
    rw [unifyWith]
    split
    · trivial
    refine (asks_bind ..).2 ⟨asks_fullyUnaliased a, ?_⟩
    split
    · trivial
    refine (asks_bind ..).2 ⟨asks_projectTo _ d, ?_⟩
    split
    · trivial
    · exact asks_unifyAllWith h es _ b
  | .typeAlias d es c, a, b => by
    rw [unifyWith]
    split
    · trivial
    · exact h _ a b
  | .unknown, _, _ => trivial
  | .nothing, _, _ => trivial
  | .module _ _ _, _, _ => trivial
  | .literal _ _, _, _ => trivial
  | .union _ _ _, _, _ => trivial
theorem asks_unifyAllWith {expand : Ty → Ty → Bindings → Query Bindings}
    (h : ∀ e a b, (expand e a b).Asks r Question.OfScope) :
    ∀ (es as : List Ty) (b : Bindings), (unifyAllWith params expand es as b).Asks r Question.OfScope
  | e :: es, a :: as, b => by
    rw [unifyAllWith]
    exact (asks_bind ..).2 ⟨asks_unifyWith h e a b, asks_unifyAllWith h es as _⟩
  | [], _, _ => by
    rw [unifyAllWith]
    · trivial
    · nofun
  | _ :: _, [], _ => by
    rw [unifyAllWith]
    · trivial
    · nofun
end

theorem asks_unify (e a : Ty) (b : Bindings) : (unify params e a b).Asks r Question.OfScope := by
  suffices ∀ k e a b, (unifyUpTo params k e a b).Asks r Question.OfScope from this _ e a b
  intro k
  induction k with
  | zero => exact asks_unifyWith (fun _ _ _ => trivial)
  | succ k ih => exact asks_unifyWith (fun e a b => (asks_bind ..).2 ⟨asks_unaliased e, ih _ a b⟩)

end Query

namespace Session

variable {src : ModuleSource}

/-! ## Laying arguments over annotations -/

/-- The annotation of a parameter. -/
def annotation? (t : SyntaxTree) (p : NodeIndex) : Option NodeIndex :=
  match t.construct? p with
  | some (.param d) => d.type
  | _ => none

theorem inferFrom_cons (t : SyntaxTree) (method : NodeRef) (outer : Bindings) (i : ModuleId)
    (typeParams : List NodeRef) (p a : NodeIndex) (ps as : List NodeIndex) (b : Bindings) :
    inferFrom t method outer i typeParams (p :: ps) (a :: as) b =
      match annotation? t p with
      | some written => do
        let annotated ← typeOfNode (method.sibling written) outer
        let actual ← Query.expr ⟨i, a⟩ .empty
        let b ← unify typeParams annotated actual b
        inferFrom t method outer i typeParams ps as b
      | none => inferFrom t method outer i typeParams ps as b := by
  rw [inferFrom, annotation?]
  cases t.construct? p with
  | none => rfl
  | some c =>
    cases c with
    | param d =>
      obtain ⟨_, type⟩ := d
      cases type <;> rfl
    | _ => rfl

/-- As `inferFrom` does it, telling also which types were laid over which annotations. -/
def laidFrom (t : SyntaxTree) (method : NodeRef) (outer : Bindings) (callModule : ModuleId)
    (typeParams : List NodeRef) :
    List NodeIndex → List NodeIndex → Bindings → Query (List (Ty × Ty) × Bindings)
  | p :: ps, a :: as, b =>
    match annotation? t p with
    | none => laidFrom t method outer callModule typeParams ps as b
    | some written => do
      let annotated ← typeOfNode (method.sibling written) outer
      let actual ← Query.expr ⟨callModule, a⟩ .empty
      let b ← unify typeParams annotated actual b
      let rest ← laidFrom t method outer callModule typeParams ps as b
      pure ((annotated, actual) :: rest.1, rest.2)
  | _, _, b => pure ([], b)

/-- As `callBindings` does it, telling also which types were laid over which annotations. -/
def callLaid (method : NodeRef) (outer : Bindings) (call : CallSite) :
    Query (List (Ty × Ty) × Bindings) := do
  match ← Query.construct method with
  | some (t, .method d) =>
    if d.typeParams.isEmpty then pure ([], outer)
    else do
      let typeParams := d.typeParams.map method.sibling
      let inferred ← laidFrom t method outer call.module typeParams d.params call.args .empty
      pure (inferred.1, outer.assign inferred.2 typeParams)
  | _ => pure ([], outer)

theorem inferFrom_eq (t : SyntaxTree) (method : NodeRef) (outer : Bindings) (i : ModuleId)
    (typeParams : List NodeRef) (ps as : List NodeIndex) (b : Bindings) :
    inferFrom t method outer i typeParams ps as b =
      Prod.snd <$> laidFrom t method outer i typeParams ps as b := by
  induction ps generalizing as b with
  | nil => rfl
  | cons p ps ih =>
    cases as with
    | nil => rfl
    | cons a as =>
      rw [inferFrom_cons, laidFrom]
      cases annotation? t p with
      | none => exact ih as b
      | some written => simp only [ih, map_bind, bind_pure_comp, Functor.map_map]

theorem callBindings_eq (method : NodeRef) (outer : Bindings) (call : CallSite) :
    callBindings method outer call = Prod.snd <$> callLaid method outer call := by
  unfold callBindings callLaid
  rw [map_bind]
  congr 1
  funext found
  rcases found with _ | ⟨t, c⟩
  · rfl
  cases c with
  | method d =>
    dsimp only
    split
    · rfl
    · simp only [inferFrom_eq, map_bind, map_pure, bind_map_left]
  | _ => rfl

theorem run_map {α β : Type} (x : Query α) (f : α → β) (m : Memory) :
    (run src (f <$> x) m).1 = f (run src x m).1 := by
  rw [← bind_pure_comp, run_bind]
  rfl

variable (src) in
/-- All that is recorded where types are laid over annotations. -/
def gathered (ps : List NodeRef) (laid : List (Ty × Ty)) : List (NodeRef × Ty) :=
  laid.flatMap (fun x => (reading src).evidence ps Limits.aliasNesting x.1 x.2)

/-- What is inferred is what was recorded, in the order of the arguments. -/
theorem run_laidFrom (fixed : FixedDeclarations src) (t : SyntaxTree) (method : NodeRef)
    (outer : Bindings) (i : ModuleId) (typeParams : List NodeRef) (ps as : List NodeIndex)
    (b : Bindings) {m : Memory} (hm : Reachable src m) :
    ∃ laid, (run src (laidFrom t method outer i typeParams ps as b) m).1 =
      (laid, (gathered src typeParams laid).foldl (reading src).record b) := by
  induction ps generalizing as b m with
  | nil => exact ⟨[], rfl⟩
  | cons p ps ih =>
    cases as with
    | nil => exact ⟨[], rfl⟩
    | cons a as =>
      rw [laidFrom]
      cases annotation? t p with
      | none => exact ih as b hm
      | some written =>
        -- the memories after the annotation, after the argument and after laying one over the other
        have annotated := hm.query (typeOfNode (method.sibling written) outer)
        have actual := annotated.query (Query.expr ⟨i, a⟩ .empty)
        dsimp only
        rw [run_bind, run_bind, run_bind, run_bind]
        generalize (run src (typeOfNode (method.sibling written) outer) m).1 = e
        generalize (run src (Query.expr ⟨i, a⟩ .empty) _).1 = x
        rw [gives_value (fixed.asks (Query.asks_unify e x b)) _ actual, unify,
          Reading.value_unifyUpTo]
        obtain ⟨laid, hlaid⟩ := ih as _ (actual.query (unify typeParams e x b))
        refine ⟨(e, x) :: laid, ?_⟩
        rw [unify] at hlaid
        rw [hlaid]
        show ((e, x) :: laid, _) = _
        rw [gathered, gathered, List.flatMap_cons, List.foldl_append]

variable (src) in
/-- What the parameters are bound to after evidence was recorded for them. -/
def inferred (outer : Bindings) (ps : List NodeRef) (laid : List (Ty × Ty)) : Bindings :=
  outer.assign ((gathered src ps laid).foldl (reading src).record .empty) ps

/-- The bindings of a call hold what was recorded in it. -/
theorem run_callLaid (fixed : FixedDeclarations src) {method : NodeRef} {d : MethodDecl}
    (hd : src.construct? method = some (.method d)) (outer : Bindings) (call : CallSite)
    {m : Memory} (hm : Reachable src m) :
    ∃ laid, (run src (callLaid method outer call) m).1 =
      (laid, inferred src outer (d.typeParams.map method.sibling) laid) := by
  obtain ⟨t, ht, hc⟩ := Option.bind_eq_some_iff.1 hd
  have found : Gives src (Query.construct method) (some (t, .method d)) := by
    have given := gives_source (Query.asks_construct (reading src) method)
    rwa [value_construct, ht, Option.bind_some, hc] at given
  unfold callLaid
  rw [run_bind, found m hm]
  dsimp only
  split
  · next none =>
    rw [List.isEmpty_iff.1 none]
    exact ⟨[], rfl⟩
  · obtain ⟨laid, hl⟩ := run_laidFrom fixed t method outer call.module
      (d.typeParams.map method.sibling) d.params call.args .empty (hm.query (Query.construct method))
    refine ⟨laid, ?_⟩
    rw [run_bind, hl]
    rfl

/-! ## What a call accepts -/

/-- Whether the type that was laid over an annotation is below it with some parameters bound so. -/
def isBelow (ps : List NodeRef) (b : Bindings) (x : Ty × Ty) : Query Bool :=
  x.2.isSubtype (x.1.bind (b.only ps))

variable (src) in
def Accepts (ps : List NodeRef) (b : Bindings) (x : Ty × Ty) : Prop :=
  Gives src (isBelow ps b x) true

variable (src) in
/-- A parameter that something was inferred for stands where the annotation was not looked into. -/
def Overlooks (ps : List NodeRef) (b : Bindings) (x : Ty × Ty) : Prop :=
  ∃ p ∈ ps, (reading src).Skips p x.1 x.2 ∧ b.get? p ≠ some .unknown

section

variable (fixed : FixedDeclarations src) {ps : List NodeRef} {outer : Bindings}
  {laid : List (Ty × Ty)} {x : Ty × Ty}
include fixed

/-- What was laid over an annotation is accepted with what was inferred, if the evidence for each
parameter is below the union of it. -/
theorem accepts_of_evidence (hx : x ∈ laid) (he : (reading src).Inferable ps x.1)
    (ha : Accepts src ps (.unknowns ps) x)
    (above : ∀ y ∈ (reading src).evidence ps Limits.aliasNesting x.1 x.2,
      (reading src).Sub y.2 ((reading src).joinAll (Reading.proofs y.1 (gathered src ps laid)))) :
    Accepts src ps (inferred src outer ps laid) x ∨
      Overlooks src ps (inferred src outer ps laid) x := by
  by_cases skip : Overlooks src ps (inferred src outer ps laid) x
  · exact .inr skip
  refine .inl (fixed.gives_true (Reading.sub_bind_of_evidence (b := (Bindings.unknowns ps).only ps)
    (lawful_reading src) he (fun p hp => ?_) (k := Limits.aliasNesting) (fun y hy => ?_)
    (fun p hp hs => ?_) (fixed.sub_of_run .fresh (ha {} .fresh))))
  · rw [Bindings.get?_only_of_notMem hp, Bindings.get?_only_of_notMem hp]
  · have hp := Reading.mem_params_of_evidence hy
    rw [Bindings.get?_only hp]
    have mem : y.2 ∈ Reading.proofs y.1 (gathered src ps laid) :=
      Reading.mem_proofs.2 (List.mem_flatMap.2 ⟨x, hx, hy⟩)
    rcases Bindings.get?_assign outer ((gathered src ps laid).foldl (reading src).record .empty) hp
      with bound | bound
    · exact ⟨_, bound, Reading.sub_unknown_right ..⟩
    · rw [Reading.get?_foldl_record, if_neg (List.ne_nil_of_mem mem)] at bound
      exact ⟨_, bound, above y hy⟩
  · rw [Bindings.get?_only hp, Bindings.get?_only hp, Bindings.get?_unknowns hp]
    by_contra bound
    exact skip ⟨p, hp, hs, Ne.symm bound⟩

theorem accepts_or_vanishes (hx : x ∈ laid) (he : (reading src).Inferable ps x.1)
    (ha : Accepts src ps (.unknowns ps) x) :
    (Accepts src ps (inferred src outer ps laid) x ∨
      Overlooks src ps (inferred src outer ps laid) x) ∨
    ∃ y ∈ (reading src).evidence ps Limits.aliasNesting x.1 x.2,
      Vanishes src y.2 (Reading.proofs y.1 (gathered src ps laid)) := by
  by_cases vanish : ∃ y ∈ (reading src).evidence ps Limits.aliasNesting x.1 x.2,
      Vanishes src y.2 (Reading.proofs y.1 (gathered src ps laid))
  · exact .inr vanish
  refine .inl (accepts_of_evidence fixed hx he ha (fun y hy => ?_))
  have mem : y.2 ∈ Reading.proofs y.1 (gathered src ps laid) :=
    Reading.mem_proofs.2 (List.mem_flatMap.2 ⟨x, hx, hy⟩)
  rcases Reading.sub_joinAll_or_lost (lawful_reading src) mem with
    hs | ⟨before, e, after, split, hb, hl⟩
  · exact hs
  · exact absurd ⟨y, hy, split ▸ fixed.vanishes hb hl⟩ vanish

/-- Where the limit of subtype queries leaves room for the types of all arguments, no evidence
vanishes. -/
theorem accepts_of_expands (plain : PlainClasses src) {n : Nat} (ht : ∀ x ∈ laid, Expands src n x.2)
    (hn : 2 * n + (gathered src ps laid).length ≤ Limits.subtypeDepth) (hx : x ∈ laid)
    (he : (reading src).Inferable ps x.1) (ha : Accepts src ps (.unknowns ps) x) :
    Accepts src ps (inferred src outer ps laid) x ∨
      Overlooks src ps (inferred src outer ps laid) x := by
  refine accepts_of_evidence fixed hx he ha (fun y hy => ?_)
  have mem : y.2 ∈ Reading.proofs y.1 (gathered src ps laid) :=
    Reading.mem_proofs.2 (List.mem_flatMap.2 ⟨x, hx, hy⟩)
  have height : ∀ t ∈ Reading.proofs y.1 (gathered src ps laid), Expands src n t := by
    intro t hp
    obtain ⟨z, hz, hy⟩ := List.mem_flatMap.1 (Reading.mem_proofs.1 hp)
    exact (ht z hz).evidence plain.regular _ hy
  have short : (Reading.proofs y.1 (gathered src ps laid)).length ≤
      (gathered src ps laid).length := by
    rw [Reading.proofs, List.length_map]
    exact List.length_filter_le ..
  rcases Reading.sub_joinAll_or_lost (lawful_reading src) mem with
    hs | ⟨before, e, after, split, hb, hl⟩
  · exact hs
  · rw [split] at height short
    rw [List.length_append] at short
    exact absurd hl (plain.not_lostAt fixed (fun t hb => height t (List.mem_append_left _ hb)) hb
      (height e (List.mem_append_right _ List.mem_cons_self)) (by omega))

end

/-- What is accepted with nothing known of the type parameters is accepted with what a call suggests
for them, unless the annotation was not looked into, or evidence vanished. None vanishes where the
types of the arguments are without `unknown` and the limit of subtype queries leaves room for them. -/
theorem callBindings_accepts (fixed : FixedDeclarations src) {method : NodeRef} {d : MethodDecl}
    (hd : src.construct? method = some (.method d)) (outer : Bindings) (call : CallSite)
    {m : Memory} (hm : Reachable src m) :
    ∃ laid b ps, ps = d.typeParams.map method.sibling ∧
      (run src (callLaid method outer call) m).1 = (laid, b) ∧
      (run src (callBindings method outer call) m).1 = b ∧
      (∀ x ∈ laid, (reading src).Inferable ps x.1 → Accepts src ps (.unknowns ps) x →
        (Accepts src ps b x ∨ Overlooks src ps b x) ∨
        ∃ y ∈ (reading src).evidence ps Limits.aliasNesting x.1 x.2,
          Vanishes src y.2 (Reading.proofs y.1 (gathered src ps laid))) ∧
      (PlainClasses src → ∀ n, (∀ x ∈ laid, Expands src n x.2) →
        2 * n + (gathered src ps laid).length ≤ Limits.subtypeDepth →
        ∀ x ∈ laid, (reading src).Inferable ps x.1 → Accepts src ps (.unknowns ps) x →
          Accepts src ps b x ∨ Overlooks src ps b x) := by
  obtain ⟨laid, hl⟩ := run_callLaid fixed hd outer call hm
  refine ⟨laid, _, _, rfl, hl, ?_, fun x hx he ha => accepts_or_vanishes fixed hx he ha,
    fun plain n ht hn x hx he ha => accepts_of_expands fixed plain ht hn hx he ha⟩
  rw [callBindings_eq, run_map, hl]

/-! ### Two methods

The module `function either<T>(x: T?, y: T); function has<U>(xs: List<U>, y: U); xs: List<Int>`,
with `p = "a"`, `q = 1` and `r = xs` for arguments. -/

def helpersTree : SyntaxTree where
  uri := "file:///helpers.pkl"
  module := 1
  nodes := #[⟨.typeParam { name := "T" }, .nowhere, some 6⟩,
    ⟨.declaredType none "T" [], .nowhere, some 2⟩, ⟨.nullableType 1, .nowhere, some 3⟩,
    ⟨.param { name := "x", type := some 2 }, .nowhere, some 6⟩,
    ⟨.declaredType none "T" [], .nowhere, some 5⟩,
    ⟨.param { name := "y", type := some 4 }, .nowhere, some 6⟩,
    ⟨.method { name := "either", typeParams := [0], params := [3, 5] }, .nowhere, some 23⟩,
    ⟨.typeParam { name := "U" }, .nowhere, some 13⟩,
    ⟨.declaredType none "U" [], .nowhere, some 9⟩,
    ⟨.declaredType none "List" [8], .nowhere, some 10⟩,
    ⟨.param { name := "xs", type := some 9 }, .nowhere, some 13⟩,
    ⟨.declaredType none "U" [], .nowhere, some 12⟩,
    ⟨.param { name := "y", type := some 11 }, .nowhere, some 13⟩,
    ⟨.method { name := "has", typeParams := [7], params := [10, 12] }, .nowhere, some 23⟩,
    ⟨.declaredType none "Int" [], .nowhere, some 15⟩,
    ⟨.declaredType none "List" [14], .nowhere, some 16⟩,
    ⟨.property { name := "xs", type := some 15 }, .nowhere, some 23⟩,
    ⟨.stringLit "a", .nowhere, some 18⟩,
    ⟨.property { name := "p", value := some 17 }, .nowhere, some 23⟩,
    ⟨.intLit 1, .nowhere, some 20⟩,
    ⟨.property { name := "q", value := some 19 }, .nowhere, some 23⟩,
    ⟨.access "xs" none, .nowhere, some 22⟩,
    ⟨.property { name := "r", value := some 21 }, .nowhere, some 23⟩,
    ⟨.module { members := [6, 13, 16, 18, 20, 22] }, .nowhere, none⟩]
  root := 23

/-- A session with this module only. -/
def helpers : ModuleSource where
  tree i := if i = 1 then some helpersTree else none
  resolve _ _ := none

theorem helpers_plain {d : NodeRef} {c : Construct} (hd : d.module ≠ ModuleId.base)
    (h : helpers.construct? d = some c) :
    (∀ e, c ≠ .classDecl e) ∧ ∀ e, c ≠ .aliasDecl e := by
  obtain ⟨i, rfl, hc⟩ := construct?_only (fun _ => rfl) hd h
  obtain ⟨n, hn, rfl⟩ := Option.map_eq_some_iff.1 hc
  have plain : ∀ n ∈ helpersTree.nodes.toList,
      (∀ e, n.construct ≠ .classDecl e) ∧ ∀ e, n.construct ≠ .aliasDecl e := by
    simp [helpersTree]
  exact plain n (Array.mem_toList_iff.2 (Array.mem_of_getElem? hn))

theorem scopedDeclarations_helpers : ScopedDeclarations helpers :=
  ⟨fun hd h => absurd rfl ((helpers_plain hd h).1 _),
    fun hd h => absurd rfl ((helpers_plain hd h).1 _), fun hd h => absurd rfl ((helpers_plain hd h).2 _)⟩

theorem plainClasses_helpers : PlainClasses helpers := by
  refine .of_no_class (fun hd h => (helpers_plain hd h).1 _ rfl) (modulesRooted_of_no_clause ?_)
  intro m t h
  obtain ⟨-, h⟩ := Option.ite_none_right_eq_some.1 h
  cases h
  rfl

/-- `has(xs, "a")` -/
def hasCall : CallSite := ⟨1, [21, 17]⟩

/-- `either("a", 1)` -/
def eitherCall : CallSite := ⟨1, [17, 19]⟩

/-- What `has(xs, "a")` lays over the annotations. -/
def hasLaid : List (Ty × Ty) :=
  [(std.listTy (.var ⟨1, 7⟩ []), std.listTy std.intTy), (.var ⟨1, 7⟩ [], .literal "a" [])]

/-- What `either("a", 1)` lays over the annotations. -/
def eitherLaid : List (Ty × Ty) :=
  [(.union std.nullTy (.var ⟨1, 0⟩ []) [], .literal "a" []), (.var ⟨1, 0⟩ [], std.intTy)]

theorem helpers_calls :
    (run helpers (callLaid ⟨1, 13⟩ .empty hasCall) {}).1.1 = hasLaid ∧
    (run helpers (callLaid ⟨1, 6⟩ .empty eitherCall) {}).1.1 = eitherLaid ∧
    (run helpers (callBindings ⟨1, 6⟩ .empty eitherCall) {}).1.entries = [(⟨1, 0⟩, std.intTy)] := by
  simp only [(Ledger.run_eq Ledger.mirrors_empty _).1]
  decide +kernel

theorem helpers_answers :
    (∀ x ∈ hasLaid, (isBelow [⟨1, 7⟩] (.unknowns [⟨1, 7⟩]) x).Asks helpers.table helpers.Tabled ∧
      (isBelow [⟨1, 7⟩] (.unknowns [⟨1, 7⟩]) x).value helpers.table = true) ∧
    (∀ x ∈ eitherLaid, (isBelow [⟨1, 0⟩] (.unknowns [⟨1, 0⟩]) x).Asks helpers.table helpers.Tabled ∧
      (isBelow [⟨1, 0⟩] (.unknowns [⟨1, 0⟩]) x).value helpers.table = true) ∧
    ∃ x ∈ eitherLaid,
      (isBelow [⟨1, 0⟩] ⟨[(⟨1, 0⟩, std.intTy)]⟩ x).Asks helpers.table helpers.Tabled ∧
      (isBelow [⟨1, 0⟩] ⟨[(⟨1, 0⟩, std.intTy)]⟩ x).value helpers.table = false := by
  decide +kernel

theorem gives_of_table {α : Type} {x : Query α} {a : α}
    (h : x.Asks src.table src.Tabled ∧ x.value src.table = a) : Gives src x a :=
  h.2 ▸ gives_table h.1

theorem params_of_list : (reading helpers).params std.list = [(element, .covariant)] := by
  obtain ⟨q, hq⟩ := exists_params_list helpers
  have first : element = q := by
    rw [element, ← reading_params_base helpers Standard.isClass_list.1, hq]
    rfl
  rw [hq, first]

theorem expands_int {n : Nat} : Expands helpers n std.intTy :=
  .plain n [] (reading_params_of_isClass (Standard.isClass_special (by simp [Standard.special])))

/-- A list of integers and a text are accepted with `U` bound to `Int|"a"`. -/
theorem callBindings_accepts_has :
    FixedDeclarations helpers ∧ PlainClasses helpers ∧
    (run helpers (callLaid ⟨1, 13⟩ .empty hasCall) {}).1.1 = hasLaid ∧
    ∀ x ∈ hasLaid,
      Accepts helpers [⟨1, 7⟩] (run helpers (callBindings ⟨1, 13⟩ .empty hasCall) {}).1 x := by
  have fixed := scopedDeclarations_helpers.fixed
  refine ⟨fixed, plainClasses_helpers, helpers_calls.1, fun x hx => ?_⟩
  have method : helpers.construct? ⟨1, 13⟩ =
      some (.method { name := "has", typeParams := [7], params := [10, 12] }) := rfl
  obtain ⟨laid, b, ps, hp, hl, hb, -, all⟩ :=
    callBindings_accepts fixed method .empty hasCall .fresh
  obtain rfl : ps = [⟨1, 7⟩] := hp
  obtain rfl : laid = hasLaid := by
    rw [← helpers_calls.1, hl]
  rw [hb]
  have args : (reading helpers).argsAt (std.listTy std.intTy) std.list = some [std.intTy] := by
    decide +kernel
  have expands : ∀ x ∈ hasLaid, Expands helpers 1 x.2 := by
    intro x hx
    simp only [hasLaid, List.mem_cons, List.not_mem_nil, or_false] at hx
    rcases hx with rfl | rfl
    · exact .cls [] (by rw [params_of_list]; rfl) (fun a ha => List.mem_singleton.1 ha ▸ expands_int)
    · exact .literal 0 "a" []
  have inferable : (reading helpers).Inferable [⟨1, 7⟩] x.1 := by
    simp only [hasLaid, List.mem_cons, List.not_mem_nil, or_false] at hx
    rcases hx with rfl | rfl
    · refine .cls [] (fun q hq => ?_) (fun e he => List.mem_singleton.1 he ▸ .var _ _)
      rw [params_of_list] at hq
      cases List.mem_singleton.1 hq
      exact .inl rfl
    · exact .var _ _
  have room : 2 * 1 + (gathered helpers [⟨1, 7⟩] hasLaid).length ≤ Limits.subtypeDepth := by
    decide +kernel
  refine (all plainClasses_helpers 1 expands room x hx inferable
    (gives_of_table (helpers_answers.1 x hx))).resolve_right ?_
  rintro ⟨p, -, skips, -⟩
  simp only [hasLaid, List.mem_cons, List.not_mem_nil, or_false] at hx
  rcases hx with rfl | rfl
  · cases skips with
    | cls _ _ none => cases none.symm.trans args
    | arg found hq skips =>
      cases found.symm.trans args
      cases List.mem_singleton.1 hq
      cases skips
  · cases skips

/-- Each of the texts and integers is accepted by itself, but what the integer suggests for `T` keeps
the text from being a `T?`. -/
theorem callBindings_not_accepts :
    (run helpers (callLaid ⟨1, 6⟩ .empty eitherCall) {}).1.1 = eitherLaid ∧
    (∀ x ∈ eitherLaid, (reading helpers).Inferable [⟨1, 0⟩] x.1 ∧ (reading helpers).Known x.2 ∧
      Accepts helpers [⟨1, 0⟩] (.unknowns [⟨1, 0⟩]) x) ∧
    ∃ x ∈ eitherLaid,
      ¬ Accepts helpers [⟨1, 0⟩] (run helpers (callBindings ⟨1, 6⟩ .empty eitherCall) {}).1 x := by
  obtain ⟨-, laid, bound⟩ := helpers_calls
  obtain ⟨-, anything, x, hx, apart⟩ := helpers_answers
  refine ⟨laid, fun x hx => ⟨?_, ?_, gives_of_table (anything x hx)⟩, x, hx, fun h => ?_⟩
  · simp only [eitherLaid, List.mem_cons, List.not_mem_nil, or_false] at hx
    rcases hx with rfl | rfl
    · exact .nullable [] (.var _ _)
    · exact .var _ _
  · simp only [eitherLaid, List.mem_cons, List.not_mem_nil, or_false] at hx
    rcases hx with rfl | rfl
    · exact .literal "a" []
    · exact (expands_int (n := 0)).known
  · generalize (run helpers (callBindings ⟨1, 6⟩ .empty eitherCall) {}).1 = b at h bound
    obtain rfl : b = ⟨[(⟨1, 0⟩, std.intTy)]⟩ := congrArg Bindings.mk bound
    cases h.unique (gives_of_table apart)

end Session

end PklAnalysis
