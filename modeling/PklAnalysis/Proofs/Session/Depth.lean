import PklAnalysis.Proofs.Session.Formed
import PklAnalysis.Proofs.Session.Reads

/-!
# Where the depth of the guard decides

`chain` is a session of modules in a row. Each of them but the last one imports the one behind it as
`next` and declares ``` typealias A = (nothing) -> next.A | (unknown) -> ("a") -> unknown ``` and
the last one declares `typealias A = (nothing) -> unknown`. No alias leads back to itself, but the
right-hand side of one is a union, and to build it the next alias is expanded. So an expansion nests
the expansions of all aliases behind it, and the guard refuses more than 500 of them.

* `answer_far`: where the guard has no room for the aliases up to the last one, and none of those it
  has room for is remembered, an alias comes out as the second side of its union. This is not
  remembered.
* `answer_near`: where there is room up to the last alias, or up to one that is remembered, an alias
  comes out as the first side of its union, and this is remembered.
* `derives_link`: this is also what an alias stands for when nothing is refused.
-/

namespace PklAnalysis.Session

/-! ## A chain of aliases -/

/-- The right-hand side of the alias in a module of the chain. -/
def chainTarget (i : Nat) : NodeIndex := if i = 599 then 12 else 9

/-- The modules of the chain, counted from zero. -/
def chainTree (i : Nat) : SyntaxTree where
  uri := "file:///chain.pkl"
  module := i + 1
  nodes := #[⟨.importClause { uri := "next.pkl", localName := some "next" }, .nowhere, some 11⟩,
    ⟨.nothingType, .nowhere, some 3⟩,
    ⟨.declaredType (some "next") "A" [], .nowhere, some 3⟩,
    ⟨.functionType [1] 2, .nowhere, some 9⟩,
    ⟨.literalType "a", .nowhere, some 6⟩,
    ⟨.unknownType, .nowhere, some 6⟩,
    ⟨.functionType [4] 5, .nowhere, some 8⟩,
    ⟨.unknownType, .nowhere, some 8⟩,
    ⟨.functionType [7] 6, .nowhere, some 9⟩,
    ⟨.unionType 3 8, .nowhere, some 10⟩,
    ⟨.aliasDecl { name := "A", target := chainTarget i }, .nowhere, some 11⟩,
    ⟨.module { imports := [0], members := [10] }, .nowhere, none⟩,
    ⟨.functionType [1] 5, .nowhere, some 10⟩]
  root := 11

/-- Such a module with a declared name. -/
def linkTree (name : Option String) (i : Nat) : SyntaxTree where
  uri := (chainTree i).uri
  module := (chainTree i).module
  nodes := (chainTree i).nodes.set! 11
    ⟨.module { name, imports := [0], members := [10] }, .nowhere, none⟩
  root := 11

/-- Six hundred modules, each of which refers to the next one. -/
def chain : ModuleSource where
  tree
    | 0 => none
    | i + 1 => if i < 600 then some (chainTree i) else none
  resolve m _ := if m < 600 then some (m + 1) else none

/-- The alias of a module of the chain. -/
def link (i : Nat) : NodeRef := ⟨i + 1, 10⟩

def linkTy (i : Nat) : Ty := .typeAlias (link i) [] []

/-- `(x) -> y` -/
def arrow (x y : Ty) : Ty := std.functionTy [x] y

/-- `("a") -> unknown` -/
def taker : Ty := arrow (.literal "a" []) .unknown

/-- The first side of the union in a module. -/
def first (i : Nat) : Ty := arrow .nothing (linkTy (i + 1))

/-- `(unknown) -> ("a") -> unknown`, the second side. -/
def second : Ty := arrow .unknown taker

/-- `(nothing) -> unknown` -/
def last : Ty := arrow .nothing .unknown

/-- What an alias of the chain stands for. -/
def meant (i : Nat) : Ty := if i = 599 then last else first i

/-! ## The right-hand sides -/

/-- The chain is part of a session, with names for its modules. -/
structure HasChain (src : ModuleSource) (names : Nat → Option String) : Prop where
  tree : ∀ {i}, i < 600 → src.tree (i + 1) = some (linkTree (names i) i)
  resolve : ∀ {i}, i < 599 → src.resolve (i + 1) "next.pkl" = some (i + 2)

theorem hasChain_chain : HasChain chain (fun _ => none) where
  tree hi := if_pos hi
  resolve hi := if_pos (Nat.succ_lt_succ hi)

namespace HasChain

variable {src : ModuleSource} {names : Nat → Option String} (h : HasChain src names) {i : Nat}
include h

theorem treeOf (hi : i < 600) : src.treeOf (i + 1) = some (linkTree (names i) i) := by
  unfold ModuleSource.treeOf
  rw [if_neg (show i + 1 ≠ ModuleId.base from Nat.succ_ne_zero i)]
  exact h.tree hi

theorem params (hi : i < 600) : (typeParams (link i)).Reads src (pure []) :=
  (Query.Reads.construct (d := link i) (h.treeOf hi) rfl).bind (.here _)

theorem reads_moduleMembers (hi : i < 600) (skipLocal : Bool) (name : String) :
    ((Scope.moduleMembers .type skipLocal (i + 1)).firstNamed name).Reads src
      (pure (if "A" = name then
        some ⟨"A", link i, .aliasDecl { name := "A", target := chainTarget i }, .empty⟩
      else none)) := by
  have tree := Query.Reads.tree (h.treeOf hi)
  have alone : (moduleChain (i + 1)).Reads src (pure [i + 1]) :=
    Query.Reads.bind (tree.bind (.here _)) (.here _)
  have offered : Scope.offers (linkTree (names i) i) .type .empty skipLocal
        (linkTree (names i) i).moduleMembers =
      .offer ⟨"A", link i, .aliasDecl { name := "A", target := chainTarget i }, .empty⟩
        .done := by
    cases skipLocal <;> rfl
  unfold Scope.moduleMembers
  rw [Walk.firstNamed_after]
  refine alone.bind ?_
  show ((Scope.moduleMembersAlong .type skipLocal [i + 1]).firstNamed name).Reads src _
  unfold Scope.moduleMembersAlong
  rw [Walk.firstNamed_after]
  refine tree.bind ?_
  rw [Walk.firstNamed_append, offered, Walk.firstNamed, Walk.named_offer]
  split
  · next h => rw [if_pos (beq_iff_eq.1 h)]; exact .here _
  · next h => rw [if_neg (fun e => h (beq_iff_eq.2 e))]; exact .here _

/-- A type written as `next.A` is the alias of a module of the chain if `next` is imported from
there. -/
theorem reads_qualified (hi : i < 600) {m : ModuleId} {n : NodeIndex} {t : SyntaxTree}
    {d : ImportDecl} {part : NodeIndex → Query Ty} (ht : src.treeOf m = some t)
    (hc : t.construct? 0 = some (.importClause d)) (hb : d.uri ≠ baseUri)
    (hr : src.resolve m d.uri = some (i + 1))
    (found : ((Scope.visible ⟨m, n⟩ .unknown .type).firstNamed "next").Reads src
      (pure (some ⟨"next", ⟨m, 0⟩, .importClause d, .empty⟩))) :
    (typeOfTypeConstruct .empty ⟨m, n⟩ part (.declaredType (some "next") "A" [])).Reads src
      (pure (linkTy i)) := by
  have next := h.treeOf hi
  have tree := Query.Reads.tree next
  have imported : (importedModule ⟨m, 0⟩).Reads src (pure (some (i + 1))) := by
    refine (Query.Reads.construct ht hc).bind ?_
    show (Query.reference m d.uri).Reads src _
    rw [Query.reference, if_neg hb, ← hr]
    exact .ask rfl (.here _)
  have name : (resolveTypeName ⟨m, n⟩ "next").Reads src (pure (some ⟨⟨i + 1, 11⟩, .empty⟩)) := by
    refine found.bind (.bind (a := ⟨⟨i + 1, 11⟩, .empty⟩) (imported.bind ?_) (.here _))
    exact Query.Reads.bind (tree.bind (.here _)) (.here _)
  have module : (Ty.ofModule (i + 1) (some "next")).Reads src
      (pure (.module (i + 1) (some "next") [])) :=
    Query.Reads.bind (Query.Reads.bind (tree.bind (.here _)) (.here _)) (.here _)
  have resolved : (resolveType ⟨m, n⟩ (some "next") "A").Reads src
      (pure (some ⟨link i, .empty⟩)) := by
    refine name.bind ((Query.Reads.construct next rfl).bind (module.bind ?_))
    rw [Scope.members_module, Walk.resolve, Walk.firstNamed_append]
    refine .bind (.bind (h.reads_moduleMembers hi _ _) (.here _)) ?_
    exact .here _
  refine resolved.bind (.bind (a := []) (.here _) ?_)
  refine (Query.Reads.construct (d := link i) next rfl).bind ?_
  show (Ty.ofAlias (link i) []).Reads src _
  exact Query.Reads.bind (a := []) ((h.params hi).bind (.here _)) (.here _)

theorem reads_linkTy (hi : i < 599) (n : Nat) :
    (typeOfNodeUpTo (linkTree (names i) i) .empty (i + 1) (n + 1) 2).Reads src
      (pure (linkTy (i + 1))) := by
  have here := h.treeOf (Nat.lt_succ_of_lt hi)
  refine h.reads_qualified (Nat.succ_lt_succ hi) here rfl (by decide) (h.resolve hi) ?_
  unfold Scope.visible
  rw [Walk.firstNamed_after]
  refine (Query.Reads.tree here).bind ?_
  dsimp only
  rw [Walk.firstNamed_append]
  refine .bind (a := none) (.here _) ?_
  unfold Scope.moduleLevel
  dsimp only
  rw [Walk.firstNamed_append]
  exact (h.reads_moduleMembers (Nat.lt_succ_of_lt hi) _ _).bind (.here _)

theorem reads_first (hi : i < 599) (n : Nat) :
    (typeOfNodeUpTo (linkTree (names i) i) .empty (i + 1) (n + 2) 3).Reads src (pure (first i)) :=
  Query.Reads.bind (a := [.nothing]) (.here _) ((h.reads_linkTy hi n).bind (.here _))

/-- The right-hand side of an alias before the last one is the union of the two sides. -/
theorem reads_union (hi : i < 599) : (aliasTarget (link i)).Reads src ((first i).either second) := by
  have here := h.treeOf (Nat.lt_succ_of_lt hi)
  have target : chainTarget i = 9 := if_neg (Nat.ne_of_lt hi)
  refine (Query.Reads.construct (d := link i) here rfl).bind ?_
  show (typeOfNode ⟨i + 1, chainTarget i⟩ .empty).Reads src _
  rw [target]
  refine (Query.Reads.tree here).bind ?_
  exact (h.reads_first hi 11).bind (Query.Reads.bind (a := second) (.here _) (.here _))

/-- The right-hand side of the last alias. -/
theorem reads_last : (aliasTarget (link 599)).Reads src (pure last) := by
  have here : src.treeOf 600 = some (linkTree (names 599) 599) := h.treeOf (by decide)
  refine (Query.Reads.construct (d := link 599) here rfl).bind ?_
  refine (Query.Reads.tree here).bind ?_
  exact .here _

end HasChain

/-! ## Comparing functions -/

/-- The class of the functions with one parameter. -/
def function1 : NodeRef := ⟨ModuleId.base, 438⟩

theorem function1_spec : std.functions[1]? = some function1 ∧
    (std.tree.params function1).map (·.2) = [.contravariant, .covariant] := by
  decide +kernel

theorem functionTy_single {b : Base} {d : NodeRef} (h : b.functions[1]? = some d) (x y : Ty) :
    b.functionTy [x] y = .cls d [x, y] [] :=
  Base.functionTy_some h y

theorem arrow_eq (x y : Ty) : arrow x y = .cls function1 [x, y] [] :=
  functionTy_single function1_spec.1 x y

theorem typeParams_function1 : ∃ p q,
    typeParams function1 = pure [(p, .contravariant), (q, .covariant)] := by
  have variances := function1_spec.2
  rw [typeParams_base rfl]
  match hp : std.tree.params function1 with
  | [(p, _), (q, _)] =>
    rw [hp] at variances
    cases variances
    exact ⟨p, q, rfl⟩
  | [] | [_] | _ :: _ :: _ :: _ => simp [hp] at variances

theorem bind_yes (x : Query Bool) : (do if ← x then pure true else pure false : Query Bool) = x := by
  have h : (fun b : Bool => if b = true then (pure true : Query Bool) else pure false) = pure := by
    funext b
    cases b <;> rfl
  show (x >>= fun b => if b = true then pure true else pure false) = x
  rw [h, bind_pure]

theorem arrow_inj {x y x' y' : Ty} (h : arrow x y = arrow x' y') : x = x' ∧ y = y' := by
  rw [arrow_eq, arrow_eq] at h
  injection h with _ h
  injection h with hx h
  injection h with hy
  exact ⟨hx, hy⟩

/-- Functions are compared by their parameters, the other way round, and by their results. -/
theorem isSubtypeUpTo_arrow {n : Nat} {x y x' y' : Ty} (hne : ¬ (x = x' ∧ y = y')) :
    Ty.isSubtypeUpTo (n + 1) (arrow x y) (arrow x' y') =
      (do if ← Ty.isSubtypeUpTo n x' x then Ty.isSubtypeUpTo n y y' else pure false) := by
  replace hne : arrow x y ≠ arrow x' y' := fun e => hne (arrow_inj e)
  rw [arrow_eq, arrow_eq] at hne ⊢
  obtain ⟨p, q, hp⟩ := typeParams_function1
  have self : ClassTy.projectTo ⟨function1, [x, y], []⟩ function1 =
      pure (some ⟨function1, [x, y], []⟩) := by
    show ClassTy.projectFrom function1 (99 + 1) [] _ = _
    rw [ClassTy.projectFrom, if_pos rfl]
  rw [Ty.isSubtypeUpTo]
  simp only [hne, if_false, Ty.classBelow, self, hp, pure_bind]
  show (do
    let conforms ← Ty.isSubtypeUpTo n x' x
    if conforms then (do if ← Ty.isSubtypeUpTo n y y' then pure true else pure false)
    else pure false) = _
  rw [bind_yes]

theorem isSubtypeUpTo_unknown_right (n : Nat) (t : Ty) :
    Ty.isSubtypeUpTo n t .unknown = pure true := by
  cases n with
  | zero => rfl
  | succ n =>
    rw [Ty.isSubtypeUpTo.eq_def]
    cases t <;> exact ite_self _

theorem isSubtypeUpTo_unknown_left (n : Nat) (u : Ty) :
    Ty.isSubtypeUpTo n .unknown u = pure true := by
  cases n with
  | zero => rfl
  | succ n =>
    rw [Ty.isSubtypeUpTo.eq_def]
    cases u <;> exact ite_self _

theorem isSubtypeUpTo_nothing_left (n : Nat) (u : Ty) :
    Ty.isSubtypeUpTo n .nothing u = pure true := by
  cases n with
  | zero => rfl
  | succ n =>
    rw [Ty.isSubtypeUpTo.eq_def]
    cases u <;> exact ite_self _

theorem linkTy_isSubtypeUpTo (n j : Nat) (x y : Ty) :
    Ty.isSubtypeUpTo (n + 1) (linkTy j) (arrow x y) =
      Query.expansion (link j) [] [] >>= fun e => Ty.isSubtypeUpTo n e (arrow x y) := by
  rw [arrow_eq]
  rfl

theorem isSubtypeUpTo_linkTy (n j : Nat) (x y : Ty) :
    Ty.isSubtypeUpTo (n + 1) (arrow x y) (linkTy j) =
      Query.expansion (link j) [] [] >>= fun e => Ty.isSubtypeUpTo n (arrow x y) e := by
  rw [arrow_eq]
  rfl

/-- The second side of a union can be used as a `taker`. -/
theorem second_isSubtypeUpTo_taker (n : Nat) : Ty.isSubtypeUpTo (n + 1) second taker = pure true := by
  rw [second, taker, isSubtypeUpTo_arrow, isSubtypeUpTo_unknown_right, isSubtypeUpTo_unknown_right]
  · rfl
  · exact fun h => nomatch h.1

/-- What takes nothing cannot be used as a `taker`. -/
theorem not_isSubtypeUpTo_taker (n : Nat) (z : Ty) :
    Ty.isSubtypeUpTo (n + 2) (arrow .nothing z) taker = pure false := by
  rw [taker, isSubtypeUpTo_arrow]
  · rfl
  · exact fun h => nomatch h.1

theorem taker_isSubtypeUpTo (n : Nat) (z : Ty) :
    Ty.isSubtypeUpTo (n + 1) taker (arrow .nothing z) = pure true := by
  rw [taker, isSubtypeUpTo_arrow, isSubtypeUpTo_nothing_left, isSubtypeUpTo_unknown_left]
  · rfl
  · exact fun h => nomatch h.1

theorem exists_meant (i : Nat) : ∃ z, meant i = arrow .nothing z := by
  unfold meant
  split
  · exact ⟨.unknown, rfl⟩
  · exact ⟨linkTy (i + 1), rfl⟩

/-- To build the union in a module, the next alias is expanded, and it is expanded again unless it
can be used as a `taker`. -/
theorem either_eq (i : Nat) : (first i).either second = (do
    let e ← Query.expansion (link (i + 1)) [] []
    if ← Ty.isSubtypeUpTo 99 e taker then pure second
    else do
      let e ← Query.expansion (link (i + 1)) [] []
      if ← Ty.isSubtypeUpTo 99 taker e then pure (first i)
      else pure (.union (first i) second [])) := by
  have hne : first i ≠ second := fun h => nomatch (arrow_inj h).1
  have cls : ∃ as bs, first i = .cls function1 as [] ∧ second = .cls function1 bs [] :=
    ⟨_, _, arrow_eq _ _, arrow_eq _ _⟩
  have left : (first i).collapsesInto second = Query.expansion (link (i + 1)) [] [] >>= fun e =>
      Ty.isSubtypeUpTo 99 e taker := by
    obtain ⟨as, bs, ha, -⟩ := cls
    have e : (first i).collapsesInto second = Ty.isSubtypeUpTo (100 + 1) (first i) second := by
      rw [ha]
      rfl
    rw [e, first, second, isSubtypeUpTo_arrow, isSubtypeUpTo_unknown_left, taker, linkTy_isSubtypeUpTo]
    · rfl
    · exact fun h => nomatch h.1
  have right : second.collapsesInto (first i) = Query.expansion (link (i + 1)) [] [] >>= fun e =>
      Ty.isSubtypeUpTo 99 taker e := by
    obtain ⟨as, bs, -, hb⟩ := cls
    have e : second.collapsesInto (first i) = Ty.isSubtypeUpTo (100 + 1) second (first i) := by
      rw [hb]
      rfl
    rw [e, first, second, isSubtypeUpTo_arrow, isSubtypeUpTo_nothing_left, taker, isSubtypeUpTo_linkTy]
    · rfl
    · exact fun h => nomatch h.1
  unfold Ty.either
  rw [left, right, if_neg hne]
  obtain ⟨as, bs, ha, hb⟩ := cls
  rw [ha, hb]
  simp only [Ty.isUnknown, Ty.isNothing, Ty.hasConstraints, Ty.constraints, List.isEmpty_nil,
    Bool.or_self, Bool.not_true, Bool.false_eq_true, if_false, bind_assoc]

/-! ## What the aliases stand for -/

section

variable {src : ModuleSource} {names : Nat → Option String}

/-- An alias without type parameters stands for its right-hand side as it is. -/
theorem reads_bound {d : NodeRef} (params : (typeParams d).Reads src (pure [])) (t : Ty) :
    (Bindings.forDeclaration d [] >>= fun b => pure ((t.bind b).addConstraints [])).Reads src
      (pure t) := by
  refine Query.Reads.bind (a := .empty) (params.bind (.here _)) ?_
  rw [Ty.bind_empty, Ty.addConstraints_nil]
  exact .here _

theorem derives_expansion (h : HasChain src names) {i : Nat} (hi : i < 600) {t : Ty}
    (ht : Derives src (.aliased (link i)) t) : Derives src (.expansion (link i) [] []) t :=
  .ask rfl (ht.concludes (.of_reads (reads_bound (h.params hi) t) (.done t))) (.done t)

theorem concludes_union {i : Nat} {z : Ty}
    (next : Derives src (.expansion (link (i + 1)) [] []) (arrow .nothing z)) :
    Concludes src Ty ((first i).either second) (first i) := by
  rw [either_eq]
  refine next.concludes ?_
  show Concludes src Ty (Ty.isSubtypeUpTo 99 (arrow .nothing z) taker >>= _) _
  rw [not_isSubtypeUpTo_taker]
  refine next.concludes ?_
  show Concludes src Ty (Ty.isSubtypeUpTo 99 taker (arrow .nothing z) >>= _) _
  rw [taker_isSubtypeUpTo]
  exact .done _

/-- If nothing is refused, an alias stands for the first side of its union. -/
theorem derives_aliased (h : HasChain src names) {i : Nat} (hi : i < 600) :
    Derives src (.aliased (link i)) (meant i) := by
  induction hk : 599 - i generalizing i with
  | zero =>
    obtain rfl : i = 599 := by omega
    have hm : meant 599 = last := if_pos rfl
    rw [hm]
    exact .ask rfl (.of_reads h.reads_last (.done last)) (.done last)
  | succ k ih =>
    have hm : meant i = first i := if_neg (by omega)
    obtain ⟨z, hz⟩ := exists_meant (i + 1)
    have next := derives_expansion h (by omega) (ih (i := i + 1) (by omega) (by omega))
    rw [hz] at next
    rw [hm]
    exact .ask rfl (.of_reads (h.reads_union (by omega)) (concludes_union next)) (.done _)

theorem derives_link (h : HasChain src names) {i : Nat} (hi : i < 600) :
    Derives src (.expansion (link i) [] []) (meant i) := derives_expansion h hi (derives_aliased h hi)

/-! ## Expanding an alias -/

variable {ks : List GuardKey} {m : Memory} {i : Nat}

/-- Only aliases before the given one are being expanded. -/
def Before (i : Nat) (ks : List GuardKey) : Prop := ∀ j, i ≤ j → .expansion (link j) ∉ ks

theorem Before.cons (h : Before i ks) : Before (i + 1) (.expansion (link i) :: ks) := by
  intro j hj hmem
  rcases List.mem_cons.1 hmem with e | hmem
  · have hji : j + 1 = i + 1 := congrArg (fun | .expansion d => d.module | _ => 0) e
    omega
  · exact h j (by omega) hmem

/-- Where there is room, an alias is expanded while its key is entered. -/
theorem answer_expansion_nil {d : NodeRef} (params : (typeParams d).Reads src (pure []))
    (hm : (derivedOnly src).Holds ks m) (hlen : ks.length < 500) (hd : .expansion d ∉ ks) (n : Nat) :
    ∃ m₁ m₂, (derivedOnly src).Holds (.expansion d :: ks) m₁ ∧
      m₁.guard.fallbacks = m.guard.fallbacks ∧ m₁.aliased = m.aliased ∧
      answer src (n + 1) (.expansion d [] []) m = ((answer src n (.aliased d) m₁).1, m₂) ∧
      m₂.guard.fallbacks = (answer src n (.aliased d) m₁).2.guard.fallbacks ∧
      m₂.aliased = (answer src n (.aliased d) m₁).2.aliased := by
  obtain ⟨g, he, hm₁, hf⟩ := hm.enter_ok (k := .expansion d)
    (fun h => h.elim (Nat.not_le.2 hlen) hd)
  have hm₂ := ((derivedOnly src).answer_bounded n _ (.aliased d) _ hm₁).2.1
  obtain ⟨m', quiet, run⟩ := run_reads (reads_bound params
    (answer src n (.aliased d) { m with guard := g }).1) n hm₂
  refine ⟨{ m with guard := g }, { m' with guard := m'.guard.leave (.expansion d) }, hm₁, hf,
    rfl, ?_, congrArg (·.fallbacks) quiet.guard, quiet.aliased⟩
  show guarded _ .unknown ((expandAlias d [] []).run (answer src n)) m = _
  have expand : (expandAlias d [] []).run (answer src n) { m with guard := g } =
      ((answer src n (.aliased d) { m with guard := g }).1, m') := run
  rw [Envelope.guarded_ok he, expand]

theorem answer_aliased (d : NodeRef) (n : Nat) (m : Memory) : answer src (n + 1) (.aliased d) m =
    memoized (·.aliased[d]?) (fun t m => { m with aliased := m.aliased.insert d t })
      ((aliasTarget d).run (answer src n)) m := rfl

/-- Before the last alias, the right-hand side is computed by building its union. -/
theorem run_aliasTarget (h : HasChain src names) (hi : i < 599) (hm : (derivedOnly src).Holds ks m)
    (n : Nat) :
    ∃ m', Quiet src ks m m' ∧ (aliasTarget (link i)).run (answer src n) m =
      ((first i).either second).run (answer src n) m' :=
  run_reads (h.reads_union hi) n hm

theorem answer_refused {r : Refusal} (h : m.guard.enter (.expansion (link i)) = .error r) (n : Nat) :
    answer src n (.expansion (link i) [] []) m = (.unknown, { m with guard := m.guard.refuse }) := by
  have guard : ∃ x, answer src n (.expansion (link i) [] []) =
      guarded (.expansion (link i)) .unknown x := by
    cases n <;> exact ⟨_, Envelope.keep_of_key rfl _⟩
  obtain ⟨x, hx⟩ := guard
  rw [hx, Envelope.guarded_refused h]

/-- Where there is no room up to the last alias or to one that is remembered, an alias comes out as
the second side of its union, or as unknown if there is no room at all. Something is refused, and
nothing is remembered of it. -/
theorem answer_far (h : HasChain src names) {k n : Nat} (hm : (derivedOnly src).Holds ks m)
    (hlen : ks.length + k = 500) (hks : Before i ks)
    (none : ∀ j < i + k, m.aliased[link j]? = none) (hi : i + k ≤ 599) (hn : 2 * k ≤ n) :
    (answer src n (.expansion (link i) [] []) m).1 = (if k = 0 then .unknown else second) ∧
      (answer src n (.expansion (link i) [] []) m).2.aliased = m.aliased ∧
      m.guard.fallbacks < (answer src n (.expansion (link i) [] []) m).2.guard.fallbacks := by
  -- the induction is on the room, of which the next alias has less
  induction k generalizing i n ks m with
  | zero =>
    obtain ⟨r, hr⟩ := hm.enter_refused (k := .expansion (link i)) (.inl (Nat.le_of_eq hlen.symm))
    rw [answer_refused hr]
    exact ⟨rfl, rfl, Nat.lt_succ_self _⟩
  | succ k ih =>
    obtain ⟨n, rfl⟩ : ∃ l, n = l + 2 := ⟨n - 2, by omega⟩
    obtain ⟨m₁, m₂, hm₁, hf₁, ha₁, he, hf₂, ha₂⟩ :=
      answer_expansion_nil (h.params (i := i) (by omega)) hm (by omega) (hks i (Nat.le_refl i)) (n + 1)
    rw [← ha₁] at none
    obtain ⟨m₃, quiet, run⟩ := run_aliasTarget h (i := i) (by omega) hm₁ n
    have none₃ : ∀ j < i + 1 + k, m₃.aliased[link j]? = Option.none := by
      rw [quiet.aliased, Nat.succ_add_eq_add_succ]
      exact none
    obtain ⟨he₄, ha₄, hf₄⟩ := ih (i := i + 1) (n := n) quiet.holds
      (by rw [List.length_cons]; omega) hks.cons none₃ (by omega) (by omega)
    have usable : Ty.isSubtypeUpTo 99 (if k = 0 then .unknown else second) taker = pure true := by
      split
      · exact isSubtypeUpTo_unknown_left 99 taker
      · exact second_isSubtypeUpTo_taker 98
    have target : (aliasTarget (link i)).run (answer src n) m₁ =
        (second, (answer src n (.expansion (link (i + 1)) [] []) m₃).2) := by
      rw [run, either_eq, run_expansion, he₄, usable]
      rfl
    rw [quiet.guard] at hf₄
    -- a result that comes with a refusal is not stored
    have forgotten : (answer src (n + 1) (.aliased (link i)) m₁) =
        (second, (answer src n (.expansion (link (i + 1)) [] []) m₃).2) := by
      rw [answer_aliased, memoized_none (none i (by omega)), target, if_neg (Nat.ne_of_gt hf₄)]
    rw [forgotten] at he hf₂ ha₂
    rw [he]
    refine ⟨(if_neg (Nat.succ_ne_zero k)).symm, ?_, ?_⟩
    · rw [ha₂, ha₄, quiet.aliased, ha₁]
    · rw [hf₂, ← hf₁]
      exact hf₄

/-- The right-hand side of an alias is remembered. -/
def Stored (m : Memory) (j : Nat) : Prop := (m.aliased[link j]?).isSome = true

/-- Nothing was refused and nothing forgotten, and the alias is remembered, but nothing else than
aliases from there on. -/
structure Expanded (i : Nat) (m m' : Memory) : Prop where
  fallbacks : m'.guard.fallbacks = m.guard.fallbacks
  keeps : ∀ j, Stored m j → Stored m' j
  stored : Stored m' i
  others : ∀ d, (∀ j, i ≤ j → d ≠ link j) → m'.aliased[d]? = m.aliased[d]?

/-- If the right-hand side comes out as the first side without a refusal, so does the alias. -/
theorem answer_of_target (h : HasChain src names) {n : Nat} (hi : i < 600)
    (hm : (derivedOnly src).Holds ks m) (hlen : ks.length < 500) (hks : Before i ks)
    (target : ∀ m₁, (derivedOnly src).Holds (.expansion (link i) :: ks) m₁ → ¬ Stored m₁ i →
      (∀ j, Stored m j → Stored m₁ j) →
      ∃ m₂, (aliasTarget (link i)).run (answer src n) m₁ = (meant i, m₂) ∧
        m₂.guard.fallbacks = m₁.guard.fallbacks ∧ (∀ j, Stored m₁ j → Stored m₂ j) ∧
        ∀ d, (∀ j, i ≤ j → d ≠ link j) → m₂.aliased[d]? = m₁.aliased[d]?) :
    ∃ m', answer src (n + 2) (.expansion (link i) [] []) m = (meant i, m') ∧ Expanded i m m' := by
  obtain ⟨m₁, m', hm₁, hf₁, ha₁, he, hf, ha⟩ :=
    answer_expansion_nil (h.params hi) hm hlen (hks i (Nat.le_refl i)) (n + 1)
  have same : ∀ j, Stored m j ↔ Stored m₁ j := fun j => by unfold Stored; rw [ha₁]
  cases hs : m₁.aliased[link i]? with
  | some t =>
    have ht : t = meant i := (hm₁.remembers.aliased hs).unique (derives_aliased h hi)
    rw [answer_aliased, memoized_some hs, ht] at he
    rw [answer_aliased, memoized_some hs] at hf ha
    refine ⟨m', he, hf.trans hf₁, fun j hj => ?_, ?_, fun d _ => by rw [ha, ha₁]⟩
    · unfold Stored
      rw [ha]
      exact (same j).1 hj
    · unfold Stored
      rw [ha, hs]
      rfl
  | none =>
    have fresh : ¬ Stored m₁ i := by
      unfold Stored
      rw [hs]
      exact nofun
    obtain ⟨m₂, run, hf₂, keeps, others⟩ := target m₁ hm₁ fresh (fun j => (same j).1)
    have computed : answer src (n + 1) (.aliased (link i)) m₁ =
        (meant i, { m₂ with aliased := m₂.aliased.insert (link i) (meant i) }) := by
      rw [answer_aliased, memoized_none hs, run]
      exact congrArg (Prod.mk _) (if_pos hf₂)
    rw [computed] at he hf ha
    refine ⟨m', he, hf.trans (hf₂.trans hf₁), fun j hj => ?_, ?_, fun d hd => ?_⟩
    · unfold Stored
      rw [ha, Std.HashMap.getElem?_insert]
      split
      · rfl
      · exact keeps j ((same j).1 hj)
    · unfold Stored
      rw [ha, Std.HashMap.getElem?_insert_self]
      rfl
    · have apart : ¬ (link i == d) = true := fun e => hd i (Nat.le_refl i) (beq_iff_eq.1 e).symm
      rw [ha, Std.HashMap.getElem?_insert, if_neg apart, others d hd, ha₁]

/-- Where there is room up to the last alias, or up to one that is remembered, an alias comes out as
the first side of its union. It is remembered, and nothing is refused. -/
theorem answer_near (h : HasChain src names) {k n : Nat} (hm : (derivedOnly src).Holds ks m)
    (hlen : ks.length + k < 500) (hks : Before i ks) (near : Stored m (i + k) ∨ i + k = 599)
    (hi : i + k ≤ 599) (hn : 2 * k + 2 ≤ n) :
    ∃ m', answer src n (.expansion (link i) [] []) m = (meant i, m') ∧ Expanded i m m' := by
  -- the induction is on the distance to the alias that needs no other one
  induction k generalizing i n ks m with
  | zero =>
    obtain ⟨n, rfl⟩ : ∃ l, n = l + 2 := ⟨n - 2, by omega⟩
    refine answer_of_target h (by omega) hm (by omega) hks (fun m₁ hm₁ fresh keeps => ?_)
    obtain rfl : i = 599 := near.resolve_left (fun h => fresh (keeps _ h))
    obtain ⟨m₂, quiet, run⟩ := run_reads h.reads_last n hm₁
    have hl : meant 599 = last := if_pos rfl
    refine ⟨m₂, hl ▸ run, congrArg (·.fallbacks) quiet.guard, fun j hj => ?_,
      fun d _ => by rw [quiet.aliased]⟩
    unfold Stored
    rw [quiet.aliased]
    exact hj
  | succ k ih =>
    obtain ⟨n, rfl⟩ : ∃ l, n = l + 2 := ⟨n - 2, by omega⟩
    refine answer_of_target h (by omega) hm (by omega) hks (fun m₁ hm₁ fresh keeps => ?_)
    obtain ⟨m₂, quiet, run⟩ := run_aliasTarget h (i := i) (by omega) hm₁ n
    have same : ∀ j, Stored m₁ j ↔ Stored m₂ j := fun j => by unfold Stored; rw [quiet.aliased]
    have near₂ : Stored m₂ (i + 1 + k) ∨ i + 1 + k = 599 := by
      rw [Nat.succ_add_eq_add_succ]
      exact near.imp_left (fun h => (same _).1 (keeps _ h))
    have room : (GuardKey.expansion (link i) :: ks).length + k < 500 := by
      rw [List.length_cons]
      omega
    obtain ⟨m₃, h₃, e₃⟩ := ih (n := n) quiet.holds room hks.cons near₂ (by omega) (by omega)
    have hm₃ := ((derivedOnly src).answer_bounded n _ (.expansion (link (i + 1)) [] []) _
      quiet.holds).2.1
    rw [h₃] at hm₃
    obtain ⟨m₄, h₄, e₄⟩ := ih (n := n) hm₃ room hks.cons (near₂.imp_left (e₃.keeps _)) (by omega)
      (by omega)
    obtain ⟨z, hz⟩ := exists_meant (i + 1)
    have hf : meant i = first i := if_neg (by omega)
    refine ⟨m₄, ?_, ?_, fun j hj => e₄.keeps j (e₃.keeps j ((same j).1 hj)), fun d hd => ?_⟩
    · rw [hz] at h₃ h₄
      rw [run, either_eq, run_expansion, h₃, hf]
      rw [not_isSubtypeUpTo_taker 97]
      show (Query.expansion (link (i + 1)) [] [] >>= _).run (answer src n) m₃ = _
      rw [run_expansion, h₄, taker_isSubtypeUpTo 98]
      rfl
    · rw [e₄.fallbacks, e₃.fallbacks, quiet.guard]
    · have later : ∀ j, i + 1 ≤ j → d ≠ link j := fun j hj => hd j (Nat.le_of_succ_le hj)
      rw [e₄.others d later, e₃.others d later, quiet.aliased]

end

/-- No other aliases are declared outside of the standard library. -/
theorem exists_link {d : NodeRef} {a : AliasDecl} (hd : d.module ≠ ModuleId.base)
    (h : chain.construct? d = some (.aliasDecl a)) : ∃ i < 600, d = link i := by
  obtain ⟨m, n⟩ := d
  obtain ⟨t, ht, hc⟩ := Option.bind_eq_some_iff.1 h
  obtain ⟨i, rfl⟩ := Nat.exists_eq_succ_of_ne_zero hd
  by_cases hi : i < 600
  · rw [hasChain_chain.treeOf hi] at ht
    cases ht
    refine ⟨i, hi, congrArg (NodeRef.mk (i + 1)) ?_⟩
    match n with
    | 10 => rfl
    | 0 | 1 | 2 | 3 | 4 | 5 | 6 | 7 | 8 | 9 | 11 | 12 => cases hc
    | n + 13 => simp [SyntaxTree.construct?, SyntaxTree.node?, linkTree, chainTree] at hc
  · unfold ModuleSource.treeOf at ht
    rw [if_neg hd] at ht
    cases (if_neg hi).symm.trans ht

/-- Types that mention aliases of later modules only. -/
abbrev Later (m : ModuleId) : Ty → Prop := Ty.Formed (fun _ _ => True) (fun d _ => m < d.module)

theorem later_meant (i : Nat) : Later (i + 1) (meant i) := by
  have arrow : ∀ {x y : Ty}, Later (i + 1) x → Later (i + 1) y → Later (i + 1) (arrow x y) := by
    intro x y hx hy
    rw [arrow_eq]
    refine .cls [] trivial (fun t ht => ?_)
    rcases List.mem_cons.1 ht with rfl | ht
    · exact hx
    · exact List.mem_singleton.1 ht ▸ hy
  unfold meant
  split
  · exact arrow .nothing .unknown
  · exact arrow .nothing (.typeAlias [] (Nat.lt_succ_self _) (fun _ h => nomatch h))

/-! ## Aliases of the chain between two queries -/

/-- In a fresh session the first hundred aliases are too far from the last one. -/
theorem expand_far {i : Nat} (hi : i ≤ 99) :
    ∃ m', answer chain fuel (.expansion (link i) [] []) {} = (second, m') ∧ Reachable chain m' := by
  obtain ⟨answered, -⟩ := answer_far hasChain_chain (k := 500) (n := fuel)
    ((derivedOnly chain).holds_of_reachable .fresh) rfl (fun _ _ h => nomatch h)
    (fun j _ => Std.HashMap.getElem?_empty) (i := i) (by omega) (by decide)
  have hm' : Reachable chain _ := Reachable.fresh.answer (.expansion (link i) [] [])
  exact ⟨_, Prod.ext (answered.trans (if_neg (by decide))) rfl, hm'⟩

/-- An alias that is near enough to the last one, or to one that is remembered, stands for what it
means, and is remembered. -/
theorem expand_near {m : Memory} (hm : Reachable chain m) {i k : Nat} (hk : k < 500)
    (near : Stored m (i + k) ∨ i + k = 599) (hi : i + k ≤ 599) :
    ∃ m', answer chain fuel (.expansion (link i) [] []) m = (meant i, m') ∧ Reachable chain m' ∧
      Expanded i m m' := by
  obtain ⟨m', answered, expanded⟩ := answer_near hasChain_chain (k := k) (n := fuel)
    ((derivedOnly chain).holds_of_reachable hm) (by rwa [List.length_nil, Nat.zero_add])
    (fun _ _ h => nomatch h) near hi (by rw [fuel_eq]; omega)
  have hm' := hm.answer (.expansion (link i) [] [])
  rw [answered] at hm'
  exact ⟨m', answered, hm', expanded⟩

theorem meant_of_ne {i : Nat} (h : i ≠ 599) : meant i = first i := if_neg h

/-! ## A type that is not below its union -/

theorem arrow_ne_linkTy (x y : Ty) (i : Nat) : arrow x y ≠ linkTy i := by
  rw [arrow_eq]
  exact nofun

/-- `(("a") -> unknown) -> A`, with an alias in the middle of the chain -/
def nearTy : Ty := arrow taker (linkTy 300)

/-- `(A) -> (nothing) -> unknown`, with the first alias of the chain -/
def farTy : Ty := arrow (linkTy 0) last

theorem nearTy_isSubtype_farTy : nearTy.isSubtype farTy = (do
    let e ← Query.expansion (link 0) [] []
    if ← Ty.isSubtypeUpTo 99 e taker then do
      let e ← Query.expansion (link 300) [] []
      Ty.isSubtypeUpTo 99 e last
    else pure false) := by
  show Ty.isSubtypeUpTo (100 + 1) nearTy farTy = _
  have hne : ¬ (taker = linkTy 0 ∧ linkTy 300 = last) := fun h => arrow_ne_linkTy _ _ _ h.1
  rw [nearTy, farTy, isSubtypeUpTo_arrow hne, taker, linkTy_isSubtypeUpTo, last, linkTy_isSubtypeUpTo,
    bind_assoc]

theorem first_isSubtypeUpTo_last (n i : Nat) : Ty.isSubtypeUpTo (n + 1) (first i) last = pure true := by
  rw [first, last, isSubtypeUpTo_arrow, isSubtypeUpTo_nothing_left, isSubtypeUpTo_unknown_right]
  · rfl
  · exact fun h => nomatch h.2

theorem nearTy_either_farTy : nearTy.either farTy = (do
    if ← nearTy.isSubtype farTy then pure farTy
    else if ← farTy.isSubtype nearTy then pure nearTy
    else pure (.union nearTy farTy [])) := by
  have hne : nearTy ≠ farTy := fun h => arrow_ne_linkTy _ _ _ (arrow_inj h).1
  unfold Ty.either
  rw [if_neg hne]
  rw [nearTy, farTy, arrow_eq, arrow_eq]
  rfl

/-- The union of the two types comes out as the second one, since the first alias of the chain is
too far from the last one. While it is built, aliases further on are remembered, and then the first
type is not below the second one. -/
theorem nearTy_not_below_union :
    (run chain (nearTy.either farTy >>= fun u => nearTy.isSubtype u) {}).1 = false := by
  obtain ⟨m₁, h₁, hr₁⟩ := expand_far (Nat.zero_le 99)
  -- an alias in the middle is near the last one, and the first alias is near that one
  obtain ⟨m₂, h₂, hr₂, e₂⟩ := expand_near hr₁ (i := 300) (k := 299) (by decide) (.inr rfl) (by decide)
  obtain ⟨m₃, h₃, -⟩ := expand_near hr₂ (i := 0) (k := 300) (by decide) (.inl e₂.stored) (by decide)
  have below : run chain (nearTy.isSubtype farTy) {} = (true, m₂) := by
    have hm : meant 300 = first 300 := meant_of_ne (by decide)
    rw [nearTy_isSubtype_farTy, run, run_expansion, h₁, second_isSubtypeUpTo_taker 98]
    show run chain (Query.expansion (link 300) [] [] >>= fun e => Ty.isSubtypeUpTo 99 e last) _ = _
    rw [run, run_expansion, h₂, hm, first_isSubtypeUpTo_last 98]
    rfl
  have union : run chain (nearTy.either farTy) {} = (farTy, m₂) := by
    rw [nearTy_either_farTy, run_bind, below]
    rfl
  obtain ⟨z, hz⟩ := exists_meant 0
  rw [hz] at h₃
  rw [run_bind, union, nearTy_isSubtype_farTy, run, run_expansion, h₃, not_isSubtypeUpTo_taker 97]
  rfl

end PklAnalysis.Session
