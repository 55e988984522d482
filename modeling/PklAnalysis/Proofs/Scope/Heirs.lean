import PklAnalysis.Proofs.Scope.Completion
import PklAnalysis.Proofs.Session.Depth

/-!
# A class that inherits at first

The last module of the session `heirs` imports the chain of aliases as `next` and declares
```
class Box<out K, out V> { item }
typealias Boxes = Box<nothing, next.A> | Box<"a", ("a") -> unknown>
class Heir extends Boxes { function f() = null }
```
As long as the chain is too deep to be expanded, the first box can be used as the second one, so
`Boxes` comes to a box, and the class inherits `item` from it. Once an alias further on is
remembered, the boxes are apart, `Boxes` is a union, and a union is no superclass. So completion in
the class offers `item`, and some questions later no look-up finds it (`item_offered_then_lost`).
-/

namespace PklAnalysis

/-! ## The first candidate -/

namespace Walk

variable {β : Type}

theorem head?_append (x y : Walk β) : (x ++ y).head? = x.head? >>= fun
    | some b => pure (some b)
    | none => y.head? := by
  induction x with
  | done | offer => rfl
  | ask q next ih => exact congrArg (Query.ask q) (funext ih)

theorem exists_firstNamed_append (w w' : Walk Candidate) (name : String) : ∃ further,
    (w ++ w').firstNamed name = w.firstNamed name >>= further ∧ further none = w'.firstNamed name :=
  ⟨_, firstNamed_append w w' name, rfl⟩

theorem firstNamed_ofList (cs : List Candidate) (name : String) :
    (ofList cs).firstNamed name = pure (cs.find? (·.name == name)) := by
  induction cs with
  | nil => rfl
  | cons c cs ih =>
    show ((ofList (c :: cs)).named name).head? = _
    rw [ofList, named_offer, List.find?_cons]
    split
    · next h => rw [h]; rfl
    · next h => rw [Bool.not_eq_true] at h; rw [h]; exact ih

/-- Nothing shadows the first candidate. -/
theorem head?_unshadowed (w : Walk Candidate) : (w.unshadowed []).head? = w.head? := by
  induction w with
  | done | offer => rfl
  | ask q next ih => exact congrArg (Query.ask q) (funext ih)

end Walk

namespace Session

section

variable {src : ModuleSource}

/-- Going on never takes an item away. -/
theorem entry_mem_fold {e : String × Option CompletionKind} (w : Walk Candidate)
    (items : List CompletionItem) (m : Memory) (h : e ∈ items.map CompletionItem.entry) :
    e ∈ (run src (w.fold addCompletion items) m).1.1.map CompletionItem.entry := by
  induction w generalizing items m with
  | done => exact h
  | ask q next ih => exact ih _ _ _ h
  | offer c rest ih =>
    have keeps : ∀ m, ∃ items' m', run src (addCompletion items c) m = ((items', true), m') ∧
        e ∈ items'.map CompletionItem.entry := by
      intro m
      unfold addCompletion
      rw [run_bind]
      split
      · split
        · exact ⟨items, _, rfl, h⟩
        · rw [run_bind]
          exact ⟨_, _, rfl, List.mem_cons_of_mem _ h⟩
      · exact ⟨items, _, rfl, h⟩
    obtain ⟨items', m', run_eq, h'⟩ := keeps m
    rw [Walk.fold, run_bind, run_eq]
    exact ih items' m' h'

/-- The first candidate that a walk meets gets an item. -/
theorem entry_mem_completions {w : Walk Candidate} {c : Candidate} {m : Memory}
    (hm : Reachable src m) (h : (run src w.head? m).1 = some c)
    (ht : (src.treeOf c.decl.module).isSome = true)
    (hk : c.construct.completionKind?.isSome = true) :
    c.entry ∈ (run src w.completions m).1.map CompletionItem.entry := by
  have folded : c.entry ∈ (run src (w.fold addCompletion []) m).1.1.map CompletionItem.entry := by
    induction w generalizing m with
    | done => cases h
    | ask q next ih => exact ih _ (hm.answer q) h
    | offer d rest =>
      obtain rfl : d = c := Option.some.inj h
      obtain ⟨items, run_eq, entries⟩ := run_addCompletion ht hk [] hm
      rw [Walk.fold, run_bind, run_eq]
      refine entry_mem_fold rest items _ ?_
      rw [entries]
      exact List.mem_singleton_self _
  show c.entry ∈ (run src (w.fold addCompletion [] >>= fun r => pure r.1.reverse) m).1.map _
  rw [run_bind]
  show c.entry ∈ (run src (w.fold addCompletion []) m).1.1.reverse.map _
  rwa [List.map_reverse, List.mem_reverse]

end

/-! ## The session -/

def heirsTree : SyntaxTree where
  uri := "file:///heirs.pkl"
  module := 601
  nodes := #[⟨.importClause { uri := "chain.pkl", localName := some "next" }, .nowhere, some 19⟩,
    ⟨.nothingType, .nowhere, some 3⟩,
    ⟨.declaredType (some "next") "A" [], .nowhere, some 3⟩,
    ⟨.declaredType none "Box" [1, 2], .nowhere, some 9⟩,
    ⟨.literalType "a", .nowhere, some 8⟩,
    ⟨.literalType "a", .nowhere, some 7⟩,
    ⟨.unknownType, .nowhere, some 7⟩,
    ⟨.functionType [5] 6, .nowhere, some 8⟩,
    ⟨.declaredType none "Box" [4, 7], .nowhere, some 9⟩,
    ⟨.unionType 3 8, .nowhere, some 14⟩,
    ⟨.typeParam { name := "K", variance := .covariant }, .nowhere, some 13⟩,
    ⟨.typeParam { name := "V", variance := .covariant }, .nowhere, some 13⟩,
    ⟨.property { name := "item" }, .nowhere, some 13⟩,
    ⟨.classDecl { name := "Box", typeParams := [10, 11], members := [12] }, .nowhere, some 19⟩,
    ⟨.aliasDecl { name := "Boxes", target := 9 }, .nowhere, some 19⟩,
    ⟨.declaredType none "Boxes" [], .nowhere, some 18⟩,
    ⟨.nullLit, .nowhere, some 17⟩,
    ⟨.method { name := "f", body := some 16 }, .nowhere, some 18⟩,
    ⟨.classDecl { name := "Heir", superclass := some 15, members := [17] }, .nowhere, some 19⟩,
    ⟨.module { imports := [0], members := [13, 14, 18] }, .nowhere, none⟩]
  root := 19

/-- The chain of aliases with one more module. -/
def heirs : ModuleSource where
  tree m := if m = 601 then some heirsTree else chain.tree m
  resolve m uri := if m = 601 then some 1 else chain.resolve m uri

theorem hasChain_heirs : HasChain heirs (fun _ => none) where
  tree hi := (if_neg (Nat.ne_of_lt (Nat.succ_lt_succ hi))).trans (hasChain_chain.tree hi)
  resolve hi := (if_neg (Nat.ne_of_lt (Nat.succ_lt_succ (Nat.lt_succ_of_lt hi)))).trans
    (hasChain_chain.resolve hi)

namespace Heirs

def box : NodeRef := ⟨601, 13⟩

def boxes : NodeRef := ⟨601, 14⟩

def heir : NodeRef := ⟨601, 18⟩

/-- `Box<nothing, next.A>` -/
def farBox : Ty := .cls box [.nothing, linkTy 0] []

/-- `Box<"a", ("a") -> unknown>` -/
def nearBox : Ty := .cls box [.literal "a" [], taker] []

def heirTy : Ty := .cls heir [] []

/-- The place inside the method. -/
def site : NodeRef := ⟨601, 16⟩

def item : Candidate := ⟨"item", ⟨601, 12⟩, .property { name := "item" },
  Bindings.empty.extend [(⟨601, 10⟩, .literal "a" []), (⟨601, 11⟩, taker)]⟩

theorem reads_declared :
    (declaredSupertype heir).Reads heirs (.ask (.superclause heir ⟨601, 15⟩) .done) :=
  reads_superclause (t := heirsTree) (Standard.ne_any nofun) rfl rfl rfl

theorem reads_clause : ∃ next, (typeOfNode ⟨601, 15⟩ .empty).Reads heirs (.ask (.supertype heir) next) ∧
    (next none).Reads heirs (pure (.typeAlias boxes [] [])) :=
  ⟨_, .of_settle rfl, .of_settle rfl⟩

/-! ## What the alias stands for -/

theorem reads_params : (typeParams box).Reads heirs
    (pure [(⟨601, 10⟩, .covariant), (⟨601, 11⟩, .covariant)]) := .of_settle rfl

theorem reads_left : (typeOfNodeUpTo heirsTree .empty 601 20 3).Reads heirs (pure farBox) :=
  .of_settle rfl

theorem reads_right : (typeOfNodeUpTo heirsTree .empty 601 20 8).Reads heirs (pure nearBox) :=
  .of_settle rfl

/-- Boxes are compared by their arguments. -/
theorem isSubtype_boxes {k v k' v' : Ty} (hne : ¬ (k = k' ∧ v = v')) :
    ((Ty.cls box [k, v] []).isSubtype (.cls box [k', v'] [])).Reads heirs (do
      if ← Ty.isSubtypeUpTo 100 k k' then Ty.isSubtypeUpTo 100 v v' else pure false) := by
  have ne : Ty.cls box [k, v] [] ≠ .cls box [k', v'] [] := by simpa using hne
  have self : ClassTy.projectTo ⟨box, [k, v], []⟩ box = pure (some ⟨box, [k, v], []⟩) := by
    show ClassTy.projectFrom box (99 + 1) [] _ = _
    rw [ClassTy.projectFrom, if_pos rfl]
  unfold Ty.isSubtype
  rw [Ty.isSubtypeUpTo]
  simp only [ne, if_false, Ty.classBelow, self, pure_bind]
  refine reads_params.bind ?_
  have last : (do if ← Ty.isSubtypeUpTo 100 v v' then pure true else pure false) =
      Ty.isSubtypeUpTo 100 v v' := bind_yes _
  rw [← last]
  exact .here _

theorem farBox_isSubtype_nearBox : (farBox.isSubtype nearBox).Reads heirs
    (Query.expansion (link 0) [] [] >>= fun e => Ty.isSubtypeUpTo 99 e taker) := by
  have apart : ¬ (Ty.nothing = .literal "a" [] ∧ linkTy 0 = taker) := fun h => nomatch h.1
  refine (isSubtype_boxes apart).trans ?_
  rw [isSubtypeUpTo_nothing_left, taker, linkTy_isSubtypeUpTo]
  exact .here _

theorem nearBox_isSubtype_farBox : (nearBox.isSubtype farBox).Reads heirs (pure false) :=
  isSubtype_boxes (fun h => nomatch h.1)

/-- The box that the first alias of the chain leaves of the two, or both. -/
theorem reads_target : ∃ next : Ty → Query Ty,
    (aliasTarget boxes).Reads heirs (Query.expansion (link 0) [] [] >>= next) ∧
    (next second).Reads heirs (pure nearBox) ∧
    ∀ z, (next (arrow .nothing z)).Reads heirs (pure (.union farBox nearBox [])) := by
  have sides : (aliasTarget boxes).Reads heirs (farBox.either nearBox) := by
    refine (Query.Reads.construct (d := boxes) (t := heirsTree) rfl rfl).bind ?_
    refine (Query.Reads.tree (t := heirsTree) rfl).bind ?_
    exact reads_left.bind (reads_right.bind (.here _))
  have either : farBox.either nearBox = (do
      if ← farBox.isSubtype nearBox then pure nearBox
      else if ← nearBox.isSubtype farBox then pure farBox
      else pure (.union farBox nearBox [])) := rfl
  rw [either] at sides
  have compared := sides.trans (farBox_isSubtype_nearBox.bind_left _)
  rw [bind_assoc] at compared
  refine ⟨_, compared, ?_, fun z => ?_⟩
  · rw [second_isSubtypeUpTo_taker 98]
    exact .here _
  · rw [not_isSubtypeUpTo_taker 97]
    exact nearBox_isSubtype_farBox.bind (.here _)

variable {m : Memory}

theorem before : Before 0 [.expansion boxes] := fun _ _ h => nomatch List.mem_singleton.1 h

/-- As long as nothing of the chain is remembered, the boxes are one. -/
theorem answer_boxes_far (hm : (derivedOnly heirs).Holds [] m) (none : m.aliased = {}) :
    (answer heirs fuel (.expansion boxes [] []) m).1 = nearBox := by
  obtain ⟨next, target, near, -⟩ := reads_target
  obtain ⟨m₁, m₂, hm₁, -, aliased₁, expanded, -⟩ :=
    answer_expansion_nil (d := boxes) (.of_settle rfl) hm (by decide) List.not_mem_nil 1505
  obtain ⟨m₃, quiet, run_eq⟩ := run_reads target 1504 hm₁
  have none₃ : m₃.aliased = {} := (quiet.aliased.trans aliased₁).trans none
  obtain ⟨far, -⟩ := answer_far hasChain_heirs (i := 0) (k := 499) (n := 1504) quiet.holds rfl before
    (fun j _ => by rw [none₃]; exact Std.HashMap.getElem?_empty) (by decide) (by decide)
  have none₁ : m₁.aliased[boxes]? = Option.none := by
    rw [aliased₁, none]
    exact Std.HashMap.getElem?_empty
  show (answer heirs (1505 + 1) (.expansion boxes [] []) m).1 = nearBox
  rw [expanded, answer_aliased, memoized_none none₁, run_eq, run_expansion, far, if_neg (by decide)]
  obtain ⟨m₄, -, run₄⟩ := run_reads near 1504
    ((derivedOnly heirs).answer_bounded 1504 _ (.expansion (link 0) [] []) m₃ quiet.holds).2.1
  rw [run₄]
  rfl

/-- Once the alias in the middle of the chain is remembered, the boxes are two. -/
theorem answer_boxes_near (hm : (derivedOnly heirs).Holds [] m) (stored : Stored m 300) :
    (answer heirs fuel (.expansion boxes [] []) m).1 = .union farBox nearBox [] := by
  obtain ⟨next, target, -, apart⟩ := reads_target
  obtain ⟨z, hz⟩ := exists_meant 0
  obtain ⟨m₁, m₂, hm₁, -, aliased₁, expanded, -⟩ :=
    answer_expansion_nil (d := boxes) (.of_settle rfl) hm (by decide) List.not_mem_nil 1505
  show (answer heirs (1505 + 1) (.expansion boxes [] []) m).1 = _
  rw [expanded, answer_aliased]
  cases ht : m₁.aliased[boxes]? with
  | some t =>
    have derived : Derives heirs (.aliased boxes) (.union farBox nearBox []) := by
      refine .ask rfl (.of_reads target ?_) (.done _)
      refine (derives_link hasChain_heirs (i := 0) (by decide)).concludes ?_
      rw [hz]
      exact .of_reads (apart z) (.done _)
    rw [memoized_some ht]
    exact (hm₁.remembers.aliased ht).unique derived
  | none =>
    obtain ⟨m₃, quiet, run_eq⟩ := run_reads target 1504 hm₁
    have stored₃ : Stored m₃ (0 + 300) := by
      unfold Stored
      rw [quiet.aliased, aliased₁]
      exact stored
    obtain ⟨m₄, h₄, -⟩ := answer_near hasChain_heirs (i := 0) (k := 300) (n := 1504) quiet.holds
      (by decide) before (.inl stored₃) (by decide) (by decide)
    have hm₄ :=
      ((derivedOnly heirs).answer_bounded 1504 _ (.expansion (link 0) [] []) m₃ quiet.holds).2.1
    rw [h₄] at hm₄
    obtain ⟨m₅, -, run₅⟩ := run_reads (apart z) 1504 hm₄
    rw [memoized_none ht, run_eq, run_expansion, h₄, hz, run₅]
    rfl

/-! ## What is visible in the class -/

theorem reads_thisType : (thisType site).Reads heirs (pure heirTy) := .of_settle rfl

theorem visible_head : ∃ next next', (Scope.visible site heirTy .property).head?.Reads heirs
      (.ask (.supertype heir) next) ∧
    (next (some (.typeAlias boxes [] []))).Reads heirs (.ask (.expansion boxes [] []) next') ∧
    (next' nearBox).Reads heirs (pure (some item)) :=
  ⟨_, _, .of_settle rfl, .of_settle rfl, .of_settle rfl⟩

theorem base_has_no_item : ∀ i ∈ std.tree.moduleMembers,
    (Scope.candidate? std.tree .property .empty i).all (·.name != "item") = true := by
  rw [Standard.std_tree_eq]
  decide +kernel

/-- A module without a clause, whose tree is there, is a chain by itself. -/
theorem moduleChain_of_tree {m : ModuleId} {t : SyntaxTree} (ht : Query.tree m = pure (some t))
    (hc : t.clause? = none) : moduleChain m = pure [m] := by
  have above : supermodule m = pure none := by
    unfold supermodule
    rw [ht, pure_bind]
    dsimp only
    rw [hc]
  rw [moduleChain, Limits.moduleChain, moduleChainFrom, above, pure_bind]

theorem firstNamed_of_tree {m : ModuleId} {t : SyntaxTree} (ht : Query.tree m = pure (some t))
    (mode : LookupMode) (name : String) :
    (Scope.moduleMembersAlong mode true [m]).firstNamed name =
      (Scope.offers t mode .empty true t.moduleMembers ++ .done).firstNamed name := by
  unfold Scope.moduleMembersAlong
  rw [Walk.firstNamed_after, ht, pure_bind]
  rfl

theorem reads_base : ((Scope.moduleMembers .property true ModuleId.base).firstNamed "item").Reads heirs
    (pure none) := by
  have loaded : Query.tree ModuleId.base = pure (some std.tree) := if_pos rfl
  unfold Scope.moduleMembers
  rw [Walk.firstNamed_after, moduleChain_of_tree loaded Standard.no_clause, pure_bind,
    List.take_of_length_le (by decide), firstNamed_of_tree loaded, Walk.firstNamed_append,
    Scope.offers, Walk.firstNamed_ofList, List.find?_eq_none.2]
  · exact .here _
  · intro c hc
    obtain ⟨i, hi, hc⟩ := List.mem_filterMap.1 hc
    have ne := base_has_no_item i (List.mem_of_mem_filter hi)
    rw [hc] at ne
    simpa using ne

/-- Two boxes are no superclass, and nothing of the name is visible besides. -/
theorem visible_item : ∃ next next',
    ((Scope.visible site heirTy .property).firstNamed "item").Reads heirs
      (.ask (.supertype heir) next) ∧
    (next (some (.typeAlias boxes [] []))).Reads heirs (.ask (.expansion boxes [] []) next') ∧
    (next' (.union farBox nearBox [])).Reads heirs (pure none) := by
  let inner := Scope.outward heirsTree .property heirTy true 16 (heirsTree.ancestors 16)
  have inherited : ∃ next next', (inner.firstNamed "item").Reads heirs (.ask (.supertype heir) next) ∧
      (next (some (.typeAlias boxes [] []))).Reads heirs (.ask (.expansion boxes [] []) next') ∧
      (next' (.union farBox nearBox [])).Reads heirs (pure none) :=
    ⟨_, _, .of_settle rfl, .of_settle rfl, .of_settle rfl⟩
  have level : ((Scope.moduleLevel heirsTree .property 601).firstNamed "item").Reads heirs (pure none) := by
    unfold Scope.moduleLevel
    rw [Walk.firstNamed_append]
    refine .bind (a := none) (.of_settle rfl) ?_
    dsimp only
    rw [Walk.firstNamed_append]
    refine .bind (a := none) (.of_settle rfl) ?_
    dsimp only
    rw [if_neg (by decide)]
    exact reads_base
  obtain ⟨further, joined, missed⟩ :=
    Walk.exists_firstNamed_append inner (Scope.moduleLevel heirsTree .property 601) "item"
  have visible : ((Scope.visible site heirTy .property).firstNamed "item").Reads heirs
      (inner.firstNamed "item" >>= further) := by
    unfold Scope.visible
    rw [Walk.firstNamed_after, ← joined]
    exact (Query.Reads.tree (t := heirsTree) rfl).bind (.here _)
  obtain ⟨next, next', declared, expanded, none⟩ := inherited
  rw [← missed] at level
  exact ⟨_, _, visible.trans (declared.bind_left _), expanded.bind_left _, none.bind level⟩

/-! ## What is offered and what is found -/

/-- A query about the members of the class asks for its supertype and then for the type behind the
alias. -/
theorem run_inherited {α : Type} {x : Query α} {next : Option Ty → Query α} {next' : Ty → Query α}
    (declared : x.Reads heirs (.ask (.supertype heir) next))
    (expanded : (next (some (.typeAlias boxes [] []))).Reads heirs (.ask (.expansion boxes [] []) next'))
    (hm : (derivedOnly heirs).Holds [] m) : ∃ m', (derivedOnly heirs).Holds [] m' ∧
      m'.aliased = m.aliased ∧ ∀ t a, (answer heirs fuel (.expansion boxes [] []) m').1 = t →
        (next' t).Reads heirs (pure a) → (run heirs x m).1 = a := by
  obtain ⟨k, clause, rest⟩ := reads_clause
  obtain ⟨m₁, quiet₁, run₁⟩ := run_reads declared fuel hm
  obtain ⟨m₂, answered, hm₂, aliased₂⟩ := answer_supertype reads_declared clause rest quiet₁.holds 1502
  obtain ⟨m₃, quiet₃, run₃⟩ := run_reads expanded fuel hm₂
  refine ⟨m₃, quiet₃.holds, quiet₃.aliased.trans (aliased₂.trans quiet₁.aliased), fun t a ht ha => ?_⟩
  have asked : run heirs x m = (next' t).run (answer heirs fuel)
      (answer heirs fuel (.expansion boxes [] []) m₃).2 := by
    rw [run, run₁]
    show (next (answer heirs (1502 + 4) (.supertype heir) m₁).1).run (answer heirs fuel)
      (answer heirs (1502 + 4) (.supertype heir) m₁).2 = _
    rw [answered, run₃, ← ht]
    rfl
  obtain ⟨m₄, -, run₄⟩ := run_reads ha fuel
    ((derivedOnly heirs).answer_bounded fuel [] (.expansion boxes [] []) m₃ quiet₃.holds).2.1
  rw [asked, run₄]
  rfl

end Heirs

open Heirs

theorem run_thisType {m : Memory} (hm : Reachable heirs m) : ∃ m', Reachable heirs m' ∧
    m'.aliased = m.aliased ∧ run heirs (thisType site) m = (heirTy, m') := by
  obtain ⟨m', quiet, h⟩ := run_reads reads_thisType fuel ((derivedOnly heirs).holds_of_reachable hm)
  have reached := hm.query (thisType site)
  rw [run, h] at reached
  exact ⟨m', reached, quiet.aliased, h⟩

theorem gives_thisType : Gives heirs (thisType site) heirTy := by
  intro m hm
  obtain ⟨m', -, -, h⟩ := run_thisType hm
  rw [h]

/-- Completion in the class offers a property. When the alias in the middle of the chain was
expanded as well, a look-up at the same place finds nothing of that name. -/
theorem item_offered_then_lost :
    Gives heirs (thisType site) heirTy ∧
    ("item", some .property) ∈ (run heirs (completeUnqualified site) {}).1.map CompletionItem.entry ∧
    (run heirs (do
      let _ ← completeUnqualified site
      let _ ← Query.expansion (link 300) [] []
      (Scope.visible site heirTy .property).firstNamed "item") {}).1 = none := by
  have hold : ∀ {m}, Reachable heirs m → (derivedOnly heirs).Holds [] m :=
    (derivedOnly heirs).holds_of_reachable
  refine ⟨gives_thisType, ?_, ?_⟩
  · let walk := Scope.visible site heirTy
    obtain ⟨m₁, hm₁, aliased₁, this⟩ := run_thisType .fresh
    obtain ⟨next, next', declared, expanded, found⟩ := visible_head
    obtain ⟨m₂, hm₂, aliased₂, result⟩ := run_inherited declared expanded (hold hm₁)
    have far := answer_boxes_far hm₂ (aliased₂.trans aliased₁)
    have head : (run heirs ((walk .property ++ walk .method).unshadowed []).head? m₁).1 = some item := by
      rw [Walk.head?_unshadowed, Walk.head?_append, run_bind, result _ _ far found]
      rfl
    have offered := entry_mem_completions hm₁ head rfl rfl
    have asked : run heirs (completeUnqualified site) {} = run heirs (valueCompletions walk) m₁ := by
      show run heirs (thisType site >>= fun this => valueCompletions (Scope.visible site this)) {} = _
      rw [run_bind, this]
    rw [asked]
    exact offered
  · rw [run_bind, run_bind]
    have hm₁ : Reachable heirs _ := .query (completeUnqualified site) .fresh
    obtain ⟨m₂, h₂, e₂⟩ := answer_near hasChain_heirs (i := 300) (k := 299) (n := fuel) (hold hm₁)
      (by decide) (fun _ _ => List.not_mem_nil) (.inr rfl) (by decide) (by decide)
    have hm₂ := hm₁.answer (.expansion (link 300) [] [])
    rw [h₂] at hm₂
    obtain ⟨next, next', declared, expanded, missing⟩ := visible_item
    obtain ⟨m₃, hm₃, aliased₃, result⟩ := run_inherited declared expanded (hold hm₂)
    have stored : Stored m₃ 300 := by
      unfold Stored
      rw [aliased₃]
      exact e₂.stored
    have lookup := result _ _ (answer_boxes_near hm₃ stored) missing
    show (run heirs _ (answer heirs fuel (.expansion (link 300) [] []) _).2).1 = none
    rw [h₂]
    exact lookup

end Session

end PklAnalysis
