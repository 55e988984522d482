import PklAnalysis.Proofs.Scope.Questions
import PklAnalysis.Proofs.Session.Stage
import PklAnalysis.Proofs.Session.Table
import PklAnalysis.Typing.Expr

/-!
# The declaration that an access names

Going to the declaration of an access and computing its type walk the same scope. Both type the
receiver, but only `?.` takes `Null` away from it before its members are searched for their type,
while for navigation `Null` is always taken away. So both stop at the same candidate unless `Null`
itself offers the name first, or what is left without `Null` collapses
(`access_typed_where_resolved`).

The type of an access is computed while its key is entered. What is asked on the way must not hang
on that (`Traced`).
-/

namespace PklAnalysis

/-! ## Alternatives -/

namespace Walk

theorem list_after {α β : Type} (r : Reading) (x : Query α) (f : α → Walk β) :
    (after x f).list r = (f (x.value r)).list r := by
  induction x with
  | done a => rfl
  | ask q next ih => exact ih (r q)

end Walk

namespace Reading

variable (r : Reading)

/-- The alternatives of a type; `expand` gives those of an alias. -/
def alternativesWith (expand : Ty → List Ty) : Ty → List Ty
  | .nothing => []
  | .union a b _ => alternativesWith expand a ++ alternativesWith expand b
  | .typeAlias d as c => expand (.typeAlias d as c)
  | t => [t]

/-- The alternatives of a type with at most `n` aliases expanded one inside the other. -/
def alternativesUpTo : Nat → Ty → List Ty
  | 0 => alternativesWith (fun _ => [])
  | n + 1 => alternativesWith (fun t => alternativesUpTo n (t.fullyUnaliased.value r))

/-- The alternatives of a type, in order. -/
def alternatives (t : Ty) : List Ty := r.alternativesUpTo Limits.aliasNesting t

variable {r} {mode : LookupMode} {name : String}

/-- The members of a type are those of its alternatives, one after the other. -/
theorem list_members (t : Ty) : (Scope.members mode t).list r =
    (r.alternatives t).flatMap (fun a => (Scope.members mode a).list r) := by
  have step : ∀ {expand : Ty → Walk Candidate} {alternatives : Ty → List Ty},
      (∀ t, (expand t).list r =
        (alternatives t).flatMap (fun a => (Scope.members mode a).list r)) →
      ∀ t, (Scope.membersWith mode expand true t).list r =
        (alternativesWith alternatives t).flatMap (fun a => (Scope.members mode a).list r) := by
    intro expand alternatives he t
    fun_induction alternativesWith alternatives t with
    | case1 => rfl
    | case2 a b _ iha ihb =>
      rw [Scope.membersWith, Walk.list_append, List.flatMap_append, iha, ihb]
    | case3 => exact he _
    | case4 t hn hu ha =>
      rw [List.flatMap_singleton]
      cases t with
      | nothing => exact absurd rfl hn
      | union => exact absurd rfl (hu _ _ _)
      | typeAlias => exact absurd rfl (ha _ _ _)
      | _ => rfl
  have upTo : ∀ n t, (Scope.membersUpTo mode true n t).list r =
      (r.alternativesUpTo n t).flatMap (fun a => (Scope.members mode a).list r) := by
    intro n
    induction n with
    | zero => exact step (fun _ => rfl)
    | succ n ih => exact step (fun t => (Walk.list_after r _ _).trans (ih _))
  exact upTo _ t

variable (r mode name)

/-- Whether a type has a member of the name. -/
def declares (t : Ty) : Bool := ((Scope.members mode t).list r).any (·.name == name)

/-- Without `Null` the other alternatives of a type are left as they are, and the first alternative
that has a member of the name is not `Null`. -/
structure StripsNull (t : Ty) : Prop where
  keeps : r.alternatives (t.nonNull.value r) =
    (r.alternatives t).filter (fun a => a.classDecl? != some std.null)
  first : ∀ a, (r.alternatives t).find? (r.declares mode name) = some a →
    a.classDecl? ≠ some std.null

variable {r mode name}

/-- What does not come first can be left out of a search. -/
theorem findSome?_filter {α β : Type} {f : α → Option β} {p : α → Bool} {xs : List α}
    (h : ∀ a, xs.find? (fun a => (f a).isSome) = some a → p a = true) :
    (xs.filter p).findSome? f = xs.findSome? f := by
  induction xs with
  | nil => rfl
  | cons a xs ih =>
    cases hf : f a with
    | some b =>
      have hp : p a = true := h a (by rw [List.find?_cons, hf]; rfl)
      rw [List.filter_cons, if_pos hp, List.findSome?_cons, List.findSome?_cons, hf]
    | none =>
      have later := ih (fun a' ha => h a' (by rw [List.find?_cons, hf]; exact ha))
      rw [List.filter_cons, List.findSome?_cons, hf]
      split
      · rw [List.findSome?_cons, hf, later]
      · exact later

/-- Whether `Null` is stripped or not makes no difference to the first member of the name. -/
theorem StripsNull.value_firstNamed {t : Ty} (h : r.StripsNull mode name t) :
    ((Scope.members mode (t.nonNull.value r)).firstNamed name).value r =
      ((Scope.members mode t).firstNamed name).value r := by
  have declares : ∀ a, (((Scope.members mode a).list r).find? (·.name == name)).isSome =
      r.declares mode name a := fun a => by
    rw [Bool.eq_iff_iff, List.find?_isSome]
    exact List.any_eq_true.symm
  rw [Walk.value_firstNamed, Walk.value_firstNamed, list_members, list_members t, h.keeps,
    List.find?_flatMap, List.find?_flatMap]
  refine findSome?_filter (fun a ha => ?_)
  simp only [declares] at ha
  exact bne_iff_ne.2 (h.first a ha)

end Reading

/-! ## The candidate of an access -/

/-- The candidate that navigation stops at. -/
def accessCandidate (e : NodeRef) : Query (Option Candidate) := do
  match ← Query.construct e with
  | some (_, .access name args) => do
    let this ← thisType e
    (Scope.visible e this (.ofArgs args)).firstNamed name
  | some (_, .memberAccess receiver name args _) => do
    let t ← (← Query.expr (e.sibling receiver) .empty).nonNull
    (Scope.members (.ofArgs args) t).firstNamed name
  | _ => pure none

/-- The type among whose members an access with `.` or `?.` is typed. -/
def searched (receiver : Ty) (nullSafe : Bool) : Query Ty :=
  if nullSafe then receiver.nonNull else pure receiver

/-- The candidate that the type of an access comes from. -/
def typedCandidate (e : NodeRef) : Query (Option Candidate) := do
  match ← Query.construct e with
  | some (_, .access name args) => do
    let this ← thisType e
    (Scope.visible e this (.ofArgs args)).firstNamed name
  | some (_, .memberAccess receiver name args nullSafe) => do
    let t ← Query.expr (e.sibling receiver) .empty
    let t ← searched t nullSafe
    (Scope.members (.ofArgs args) t).firstNamed name
  | _ => pure none

/-- This candidate with the type that it gives to the access. -/
def typedAccess (e : NodeRef) : Query (Option (NodeRef × Ty)) := do
  match ← Query.construct e with
  | some (_, .access name args) => do
    let this ← thisType e
    let facts ← if args.isNone then FlowFacts.collect e else pure []
    (Scope.visible e this (.ofArgs args)).typed name
      { call := args.map (fun as => ⟨e.module, as⟩), facts := facts }
  | some (_, .memberAccess receiver name args nullSafe) => do
    let t ← Query.expr (e.sibling receiver) .empty
    let t ← searched t nullSafe
    (Scope.members (.ofArgs args) t).typed name
      { call := args.map (fun as => ⟨e.module, as⟩), nullSafe := nullSafe }
  | _ => pure none

/-- Navigation goes on from its candidate. -/
theorem resolveAccess_eq (e : NodeRef) : resolveAccess e = accessCandidate e >>= fun
    | none => pure none
    | some c => some <$> c.resolved := by
  unfold resolveAccess accessCandidate
  rw [bind_assoc]
  congr 1
  funext v
  rcases v with _ | ⟨t, c⟩
  · rfl
  cases c with
  | access => exact (bind_assoc ..).symm
  | memberAccess =>
    dsimp only
    rw [bind_assoc]
    congr 1
    funext t
    exact (bind_assoc ..).symm
  | _ => rfl

namespace Session

variable {src : ModuleSource} {e : NodeRef}

/-! ## Around an access -/

variable (src) in
/-- The moments between two queries, and those at which just the type of an access is computed. -/
def Stage.around (e : NodeRef) : Stage src where
  At n m := (Stage.between src).At n m ∨ (Stage.under src [.expr e]).At n m
  answer q h := h.imp ((Stage.between src).answer q) ((Stage.under src [.expr e]).answer q)

variable (src) in
/-- Each question of a query has one answer, whatever was asked before, and no matter whether the
type of the access is being computed. -/
def AsksAround (e : NodeRef) {α : Type} (x : Query α) : Prop :=
  x.Asks (reading src) (fun q => (Stage.around src e).Gives (.ask q .done) (reading src q))

theorem AsksAround.gives {α : Type} {x : Query α} (h : AsksAround src e x) :
    (Stage.around src e).Gives x (x.value (reading src)) :=
  Stage.gives_of_asks h (fun _ hq => hq)

theorem AsksAround.gives_between {α : Type} {x : Query α} (h : AsksAround src e x) :
    Gives src x (x.value (reading src)) :=
  Stage.gives_between.1 (h.gives.restrict (fun _ _ => Or.inl))

variable (src) in
/-- The declaration of an access can be found out without the type of the access itself. -/
structure Traced (e : NodeRef) : Prop where
  navigated : AsksAround src e (accessCandidate e)
  typed : AsksAround src e (typedCandidate e)

/-- The type of a reference belongs to the first candidate of the name. -/
theorem ensures_typed {w : Walk Candidate} {name : String} (h : AsksAround src e (w.firstNamed name))
    (ref : Reference) : (Stage.around src e).Ensures (w.typed name ref) (fun found =>
      found.map (·.1) = ((w.firstNamed name).value (reading src)).map (·.decl)) := by
  refine h.gives.bind_ensures ?_
  cases (w.firstNamed name).value (reading src) with
  | none => exact Stage.ensures_pure rfl
  | some c =>
    exact (Stage.ensures_admits (c.typeFor ref)).bind (fun t _ => Stage.ensures_pure rfl)

/-- The type of an access belongs to the candidate that is found without computing it. -/
theorem ensures_typedAccess (h : AsksAround src e (typedCandidate e)) :
    (Stage.around src e).Ensures (typedAccess e) (fun found =>
      found.map (·.1) = ((typedCandidate e).value (reading src)).map (·.decl)) := by
  unfold AsksAround typedCandidate at h
  obtain ⟨construct, rest⟩ := (Query.asks_bind ..).1 h
  unfold typedAccess typedCandidate
  rw [Query.value_bind]
  refine (AsksAround.gives construct).bind_ensures ?_
  generalize (Query.construct e).value (reading src) = v at rest ⊢
  rcases v with _ | ⟨t, c⟩
  · exact Stage.ensures_pure rfl
  cases c with
  | access name args =>
    obtain ⟨this, found⟩ := (Query.asks_bind ..).1 rest
    dsimp only
    rw [Query.value_bind]
    refine (AsksAround.gives this).bind_ensures ?_
    split <;> exact (Stage.ensures_admits _).bind (fun facts _ => ensures_typed found _)
  | memberAccess receiver name args nullSafe =>
    obtain ⟨type, rest⟩ := (Query.asks_bind ..).1 rest
    obtain ⟨stripped, found⟩ := (Query.asks_bind ..).1 rest
    dsimp only
    rw [Query.value_bind, Query.value_bind]
    refine (AsksAround.gives type).bind_ensures ?_
    exact (AsksAround.gives stripped).bind_ensures (ensures_typed found _)
  | _ => exact Stage.ensures_pure rfl

/-- What navigation and typing have candidates for. -/
inductive IsAccess : Construct → Prop
  | access (name : String) (args : Option (List NodeIndex)) : IsAccess (.access name args)
  | memberAccess (receiver : NodeIndex) (name : String) (args : Option (List NodeIndex))
      (nullSafe : Bool) : IsAccess (.memberAccess receiver name args nullSafe)

theorem exists_isAccess {r : Reading} {c : Candidate} (h : (typedCandidate e).value r = some c) :
    ∃ t k, (Query.construct e).value r = some (t, k) ∧ IsAccess k := by
  unfold typedCandidate at h
  rw [Query.value_bind] at h
  rcases hv : (Query.construct e).value r with _ | ⟨t, k⟩
  · rw [hv] at h
    cases h
  refine ⟨t, k, rfl, ?_⟩
  rw [hv] at h
  cases k with
  | access name args => exact .access name args
  | memberAccess receiver name args nullSafe => exact .memberAccess receiver name args nullSafe
  | _ => cases h

/-- The type of an access is the one that comes with its candidate. -/
theorem run_exprType {n : Nat} {m : Memory} {t : SyntaxTree} {c : Construct}
    (hv : ((Query.construct e).run (answer src n) m).1 = some (t, c))
    (hc : IsAccess c) :
    (exprType e .empty).run (answer src n) m =
      (typedAccess e >>= fun found => pure ((found.map (·.2)).getD .unknown)).run (answer src n) m := by
  unfold exprType typedAccess
  rw [bind_assoc, Stage.run_bind, Stage.run_bind, hv]
  cases hc with
  | access name args =>
    dsimp only
    unfold accessType Walk.typeOf
    rw [bind_assoc]
    cases args <;> simp only [Option.isNone_none, Option.isNone_some, if_true, Bool.false_eq_true, if_false,
      bind_assoc]
  | memberAccess receiver name args nullSafe =>
    dsimp only
    unfold memberType Walk.typeOf searched
    cases nullSafe <;> simp only [if_true, Bool.false_eq_true, if_false, bind_assoc]

/-- Where there is room, the type of an expression is computed one key further in. -/
theorem Entered.exists_expr {ks : List GuardKey} {m : Memory} (hm : Entered src ks m)
    (room : ks.length < Limits.exprTypeDepth) (fresh : .expr e ∉ ks) (b : Bindings) :
    ∃ m₁, Entered src (.expr e :: ks) m₁ ∧ (Session.answer src (fuel - ks.length) (.expr e b) m).1 =
      ((exprType e b).run (Session.answer src (fuel - (.expr e :: ks).length)) m₁).1 := by
  obtain ⟨g, hg, -, -⟩ := (hm.holds (Envelope.source src)).enter_ok (k := .expr e)
    (fun h => h.elim (Nat.not_le.2 room) fresh)
  refine ⟨_, hm.enter hg, ?_⟩
  have less : ks.length < 500 := room
  obtain ⟨n, hn⟩ : ∃ n, fuel - ks.length = n + 1 :=
    ⟨fuel - ks.length - 1, by rw [fuel_eq]; omega⟩
  have hn' : fuel - (GuardKey.expr e :: ks).length = n := by rw [List.length_cons]; omega
  rw [hn, hn']
  show (guarded (.expr e) .unknown ((exprType e b).run (Session.answer src n)) m).1 = _
  rw [Envelope.guarded_ok hg]

/-- The type of an access is computed together with the candidate that it comes from. -/
theorem AsksAround.exists_typedAccess (h : AsksAround src e (typedCandidate e)) {c : Candidate}
    (hc : (typedCandidate e).value (reading src) = some c) {m : Memory} (hm : Reachable src m) :
    ∃ m₁ t, Entered src [.expr e] m₁ ∧
      ((typedAccess e).run (answer src (fuel - 1)) m₁).1 = some (c.decl, t) ∧
      (run src (Query.expr e .empty) m).1 = t := by
  obtain ⟨m₁, hm₁, typed⟩ := (Entered.idle hm).exists_expr (by decide) List.not_mem_nil (e := e) .empty
  have moment : (Stage.around src e).At (fuel - 1) m₁ := .inr ⟨rfl, hm₁⟩
  have found := ensures_typedAccess h _ m₁ moment
  rw [hc] at found
  obtain ⟨⟨decl, t⟩, ha, rfl⟩ := Option.map_eq_some_iff.1 found
  refine ⟨m₁, t, hm₁, ha, typed.trans ?_⟩
  obtain ⟨tree, k, construct, access⟩ := exists_isAccess hc
  have asked : AsksAround src e (Query.construct e) := ((Query.asks_bind ..).1 h).1
  have shown := (asked.gives _ m₁ moment).trans construct
  show ((exprType e .empty).run (answer src (fuel - 1)) m₁).1 = t
  rw [run_exprType shown access, Stage.run_bind, ha]
  rfl

variable (src) in
/-- If the access is written with `.`, it makes no difference whether `Null` is taken from the
receiver. -/
def StripsReceiver (e : NodeRef) : Prop := ∀ receiver name args,
  src.construct? e = some (.memberAccess receiver name args false) →
  (reading src).StripsNull (.ofArgs args) name (reading src (.expr (e.sibling receiver) .empty))

/-- Typing and navigation stop at the same candidate, if they agree about the receiver. -/
theorem value_candidates (strips : StripsReceiver src e) :
    (typedCandidate e).value (reading src) = (accessCandidate e).value (reading src) := by
  have here : (Query.construct e).value (reading src) =
      (src.treeOf e.module).bind (fun t => (t.construct? e.node).map (fun c => (t, c))) := value_construct e
  unfold typedCandidate accessCandidate
  rw [Query.value_bind, Query.value_bind, here]
  cases ht : src.treeOf e.module with
  | none => rfl
  | some t =>
    rw [Option.bind_some]
    cases hc : t.construct? e.node with
    | none => rfl
    | some c =>
      cases c with
      | memberAccess receiver name args nullSafe =>
        cases nullSafe with
        | true => rfl
        | false =>
          have declared : src.construct? e = some (.memberAccess receiver name args false) := by
            unfold ModuleSource.construct?
            rw [ht]
            exact hc
          simp only [Option.map_some, Query.value_bind]
          exact (strips receiver name args declared).value_firstNamed.symm
      | _ => rfl

/-- If an access can be traced, its type is the type of the very declaration that navigation leads
to. -/
theorem access_typed_where_resolved (h : Traced src e) (strips : StripsReceiver src e)
    {m₀ : Memory} (hm₀ : Reachable src m₀) (resolves : (run src (resolveAccess e) m₀).1.isSome = true)
    {m : Memory} (hm : Reachable src m) :
    ∃ m₁ decl t, Entered src [.expr e] m₁ ∧
      ((typedAccess e).run (answer src (fuel - 1)) m₁).1 = some (decl, t) ∧
      (run src (Query.expr e .empty) m).1 = t ∧
      ∀ m', Reachable src m' → ∃ c, (run src (accessCandidate e) m').1 = some c ∧ c.decl = decl := by
  obtain ⟨c, hc⟩ : ∃ c, (accessCandidate e).value (reading src) = some c := by
    have candidate := h.navigated.gives_between m₀ hm₀
    rw [resolveAccess_eq, run_bind, candidate] at resolves
    cases hc : (accessCandidate e).value (reading src) with
    | none => rw [hc] at resolves; cases resolves
    | some c => exact ⟨c, rfl⟩
  obtain ⟨m₁, t, hm₁, found, typed⟩ :=
    h.typed.exists_typedAccess ((value_candidates strips).trans hc) hm
  refine ⟨m₁, c.decl, t, hm₁, found, typed, fun m' hm' => ⟨c, ?_, rfl⟩⟩
  rw [h.navigated.gives_between m' hm', hc]

theorem Traced.resolves (h : Traced src e) {c : Candidate}
    (hc : (accessCandidate e).value (reading src) = some c) {m : Memory} (hm : Reachable src m) :
    (run src (resolveAccess e) m).1.isSome = true := by
  rw [resolveAccess_eq, run_bind, h.navigated.gives_between m hm, hc]
  dsimp only
  rw [← bind_pure_comp, run_bind]
  rfl

/-! ## What is known around an access -/

/-- The table answers while expressions are typed as it does between two queries. -/
theorem Stage.gives_tabled {d : Nat} (hd : d < Limits.exprTypeDepth) {q : Question}
    (h : src.Tabled q) : (Stage.typing src d).Gives (.ask q .done) (src.table q) := by
  have given : ∀ {n m ks}, TypesOnly d ks → (Stage.under src ks).At n m → n ≠ 0 ∧
      (Envelope.source src).given n ks q (Session.answer src n q m).1 := by
    rintro _ m ks hks ⟨rfl, hm⟩
    have less : ks.length < 500 := Nat.lt_of_le_of_lt hks.1 hd
    exact ⟨by rw [fuel_eq]; omega, hm.given _ q⟩
  cases q with
  | tree i => exact fun n m ⟨ks, hks, hm⟩ => (given hks hm).2
  | reference m uri => exact fun n m ⟨ks, hks, hm⟩ => (given hks hm).2
  | supertype c =>
    by_cases hc : c.module = ModuleId.base
    · have answer : src.table (.supertype c) = Standard.hierarchy (.supertype c) := by
        show (if c.module = ModuleId.base then _ else _) = if c.module = ModuleId.base then _ else _
        rw [if_pos hc, if_pos hc]
      rw [answer]
      exact gives_base hd (x := .ask (.supertype c) .done) ⟨beq_iff_eq.2 hc, trivial⟩
    · obtain ⟨s, hs⟩ := Option.isSome_iff_exists.1 (h.resolve_left hc)
      have answer : src.table (.supertype c) = s := by
        show (if c.module = ModuleId.base then _ else (src.plainSupertype c).getD none) = s
        rw [if_neg hc, hs]
        rfl
      rw [answer]
      exact fun n m ⟨ks, hks, hm⟩ => (given hks hm).2 (given hks hm).1 s hs
  | _ => cases h

/-- The type of another expression is computed around an access as well, if the table tells it. -/
theorem gives_expr_around {e' : NodeRef} (hne : e' ≠ e) {b : Bindings}
    (h : (exprType e' b).Asks src.table src.Tabled) :
    (Stage.around src e).Gives (Query.expr e' b) ((exprType e' b).value src.table) := by
  have inner : ∀ {ks m}, Entered src ks m → Stage.TypesOnly 1 ks → .expr e' ∉ ks →
      (Session.answer src (fuel - ks.length) (.expr e' b) m).1 = (exprType e' b).value src.table := by
    intro ks m hm hks fresh
    have room : ks.length < 500 := Nat.lt_of_le_of_lt hks.1 (by decide)
    obtain ⟨m₁, hm₁, typed⟩ := hm.exists_expr room fresh b
    have two : 2 < Limits.exprTypeDepth := by decide
    have known := Stage.gives_of_asks h (fun _ => Stage.gives_tabled two)
    rw [typed]
    exact known _ m₁ (Stage.under_le_typing (hks.cons e') _ m₁ ⟨rfl, hm₁⟩)
  rintro n m (⟨rfl, hm⟩ | ⟨rfl, hm⟩)
  · exact inner (.idle hm) ⟨Nat.zero_le 1, nofun⟩ List.not_mem_nil
  · refine inner hm ⟨Nat.le_refl 1, fun k hk => ⟨e, List.mem_singleton.1 hk⟩⟩ (fun h => hne ?_)
    cases List.mem_singleton.1 h
    rfl

theorem around_le_typing {n : Nat} {m : Memory} (h : (Stage.around src e).At n m) :
    (Stage.typing src 1).At n m := by
  rcases h with h | h
  · exact Stage.between_le_typing 1 n m h
  · exact Stage.under_le_typing ⟨Nat.le_refl 1, fun k hk => ⟨e, List.mem_singleton.1 hk⟩⟩ n m h

theorem reading_of_gives_around {q : Question} {a : q.Answer}
    (h : (Stage.around src e).Gives (.ask q .done) a) : reading src q = a :=
  h fuel {} (.inl ⟨rfl, .fresh⟩)

/-- A query can be followed around an access with whatever answers are given there. -/
theorem asksAround_of_answers {α : Type} {x : Query α} {r : Reading} {P : Question → Prop}
    (h : x.Asks r P) (hP : ∀ q, P q → (Stage.around src e).Gives (.ask q .done) (r q)) :
    AsksAround src e x ∧ x.value (reading src) = x.value r := by
  have same : ∀ q, P q → r q = reading src q := fun q hq => (reading_of_gives_around (hP q hq)).symm
  induction x with
  | done a => exact ⟨trivial, rfl⟩
  | ask q next ih =>
    obtain ⟨hq, rest⟩ := h
    obtain ⟨asks, value⟩ := ih (r q) rest
    refine ⟨⟨?_, ?_⟩, ?_⟩
    · show (Stage.around src e).Gives _ (reading src q)
      rw [← same q hq]
      exact hP q hq
    · show (next (reading src q)).Asks _ _
      rw [← same q hq]
      exact asks
    · rw [Query.value_ask, ← same q hq]
      exact value

/-! ## Three accesses -/

/-- The module
```
class Dog { function toString(): "dog"; tag }
a = (null as Dog?).toString()
b = (null as Dog?).tag
c = (null as Int? | Number).abs
```
-/
def kennelTree : SyntaxTree where
  uri := "file:///kennel.pkl"
  module := 1
  nodes := #[⟨.literalType "dog", .nowhere, some 1⟩,
    ⟨.method { name := "toString", returnType := some 0 }, .nowhere, some 3⟩,
    ⟨.property { name := "tag" }, .nowhere, some 3⟩,
    ⟨.classDecl { name := "Dog", members := [1, 2] }, .nowhere, some 24⟩,
    ⟨.nullLit, .nowhere, some 7⟩,
    ⟨.declaredType none "Dog" [], .nowhere, some 6⟩,
    ⟨.nullableType 5, .nowhere, some 7⟩,
    ⟨.typeCast 4 6, .nowhere, some 8⟩,
    ⟨.memberAccess 7 "toString" (some []) false, .nowhere, some 9⟩,
    ⟨.property { name := "a", value := some 8 }, .nowhere, some 24⟩,
    ⟨.nullLit, .nowhere, some 13⟩,
    ⟨.declaredType none "Dog" [], .nowhere, some 12⟩,
    ⟨.nullableType 11, .nowhere, some 13⟩,
    ⟨.typeCast 10 12, .nowhere, some 14⟩,
    ⟨.memberAccess 13 "tag" none false, .nowhere, some 15⟩,
    ⟨.property { name := "b", value := some 14 }, .nowhere, some 24⟩,
    ⟨.nullLit, .nowhere, some 21⟩,
    ⟨.declaredType none "Int" [], .nowhere, some 18⟩,
    ⟨.nullableType 17, .nowhere, some 20⟩,
    ⟨.declaredType none "Number" [], .nowhere, some 20⟩,
    ⟨.unionType 18 19, .nowhere, some 21⟩,
    ⟨.typeCast 16 20, .nowhere, some 22⟩,
    ⟨.memberAccess 21 "abs" none false, .nowhere, some 23⟩,
    ⟨.property { name := "c", value := some 22 }, .nowhere, some 24⟩,
    ⟨.module { members := [3, 9, 15, 23] }, .nowhere, none⟩]
  root := 24

/-- A session with this module only. -/
def kennel : ModuleSource where
  tree m := if m = 1 then some kennelTree else none
  resolve _ _ := none

/-- `Dog?` -/
def dogOrNull : Ty := .union std.nullTy (.cls ⟨1, 3⟩ [] []) []

/-- `Int?|Number` -/
def numberOrNull : Ty := .union (.union std.nullTy std.intTy []) std.numberTy []

/-- What is answered around the accesses. -/
def kennelAnswers : Reading
  | .expr e _ => if e = ⟨1, 21⟩ then numberOrNull else dogOrNull
  | q => kennel.table q

def kennelReceivers : List NodeRef := [⟨1, 7⟩, ⟨1, 13⟩, ⟨1, 21⟩]

theorem kennel_casts : ∀ e ∈ kennelReceivers, (exprType e .empty).Asks kennel.table kennel.Tabled ∧
    (exprType e .empty).value kennel.table = if e = ⟨1, 21⟩ then numberOrNull else dogOrNull := by
  decide +kernel

/-- Whether the type of a receiver is asked for. -/
def isReceiver : Question → Bool
  | .expr e b => kennelReceivers.contains e && b.entries.isEmpty
  | _ => false

/-- The accesses, the declarations that navigation leads to, and those that typing stops at. -/
def kennelAccesses : List (NodeRef × NodeRef × NodeRef) :=
  [(⟨1, 8⟩, ⟨1, 1⟩, ⟨ModuleId.base, 3⟩), (⟨1, 14⟩, ⟨1, 2⟩, ⟨1, 2⟩),
    (⟨1, 22⟩, ⟨ModuleId.base, 29⟩, ⟨ModuleId.base, 51⟩)]

theorem kennel_candidates : ∀ p ∈ kennelAccesses, p.1 ∉ kennelReceivers ∧
    ((accessCandidate p.1).Asks kennelAnswers (fun q => isReceiver q = true ∨ kennel.Tabled q) ∧
      ((accessCandidate p.1).value kennelAnswers).map (·.decl) = some p.2.1) ∧
    ((typedCandidate p.1).Asks kennelAnswers (fun q => isReceiver q = true ∨ kennel.Tabled q) ∧
      ((typedCandidate p.1).value kennelAnswers).map (·.decl) = some p.2.2) := by
  decide +kernel

theorem gives_kennelAnswers (he : e ∉ kennelReceivers) {q : Question}
    (hq : isReceiver q = true ∨ kennel.Tabled q) :
    (Stage.around kennel e).Gives (.ask q .done) (kennelAnswers q) := by
  have tabled : kennel.Tabled q → (Stage.around kennel e).Gives (.ask q .done) (kennel.table q) :=
    fun h => (Stage.gives_tabled (by decide) h).restrict (fun _ _ => around_le_typing)
  cases q with
  | expr e' b =>
    have receiver : (kennelReceivers.contains e' && b.entries.isEmpty) = true := hq.resolve_right id
    rw [Bool.and_eq_true, List.contains_iff_mem, List.isEmpty_iff] at receiver
    obtain ⟨hr, hb⟩ := receiver
    obtain rfl : b = .empty := congrArg Bindings.mk hb
    obtain ⟨asks, value⟩ := kennel_casts e' hr
    have typed := gives_expr_around (fun same => he (same ▸ hr) : e' ≠ e) asks
    rw [value] at typed
    exact typed
  | _ => exact tabled (hq.resolve_left (by simp [isReceiver]))

theorem kennel_traced {p : NodeRef × NodeRef × NodeRef} (hp : p ∈ kennelAccesses) :
    Traced kennel p.1 ∧
    (∃ c, (accessCandidate p.1).value (reading kennel) = some c ∧ c.decl = p.2.1) ∧
    ∃ c, (typedCandidate p.1).value (reading kennel) = some c ∧ c.decl = p.2.2 := by
  obtain ⟨he, ⟨navigated, leads⟩, typed, stops⟩ := kennel_candidates p hp
  obtain ⟨navigated, hn⟩ := asksAround_of_answers navigated (fun _ => gives_kennelAnswers he)
  obtain ⟨typed, ht⟩ := asksAround_of_answers typed (fun _ => gives_kennelAnswers he)
  rw [← hn] at leads
  rw [← ht] at stops
  exact ⟨⟨navigated, typed⟩, Option.map_eq_some_iff.1 leads, Option.map_eq_some_iff.1 stops⟩

theorem value_kennel {α : Type} {x : Query α} (h : x.Asks kennel.table kennel.Tabled) :
    x.value (reading kennel) = x.value kennel.table :=
  (asksAround_of_answers (e := ⟨1, 0⟩) h (fun _ hq =>
    (Stage.gives_tabled (by decide) hq).restrict (fun _ _ => around_le_typing))).2

/-- Without `Null` a dog is left, and `Null` has no `tag`. -/
theorem stripsNull_dogOrNull : (reading kennel).StripsNull .property "tag" dogOrNull := by
  have asks : ((dogOrNull.nonNull).Asks kennel.table kennel.Tabled ∧
        dogOrNull.nonNull.value kennel.table = .cls ⟨1, 3⟩ [] []) ∧
      ((Scope.members .property std.nullTy).toList.Asks kennel.table kennel.Tabled ∧
        ((Scope.members .property std.nullTy).toList.value kennel.table).any (·.name == "tag") =
          false) ∧
      std.null ≠ ⟨1, 3⟩ := by
    decide +kernel
  obtain ⟨⟨stripped, dog⟩, ⟨listed, untagged⟩, apart⟩ := asks
  have alternatives : (reading kennel).alternatives dogOrNull = [std.nullTy, .cls ⟨1, 3⟩ [] []] := rfl
  constructor
  · have dogs : (reading kennel).alternatives (.cls ⟨1, 3⟩ [] []) = [.cls ⟨1, 3⟩ [] []] := rfl
    have null : std.nullTy.classDecl? = some std.null := rfl
    have kept : (Ty.cls ⟨1, 3⟩ [] []).classDecl? = some ⟨1, 3⟩ := rfl
    rw [value_kennel stripped, dog, alternatives, dogs, List.filter_cons, null, List.filter_cons, kept]
    simp [apart.symm]
  · intro a ha
    have without : (reading kennel).declares .property "tag" std.nullTy = false := by
      unfold Reading.declares
      rw [← Walk.value_toList, value_kennel listed, untagged]
    rw [alternatives, List.find?_cons, without] at ha
    have dog := List.mem_singleton.1 (List.mem_of_find?_eq_some ha)
    rw [dog]
    exact fun same => apart (Option.some.inj same).symm

/-- `tag` is a member of `Dog` only, so `b` is typed where navigation leads to. -/
theorem access_typed_where_resolved_tag :
    Traced kennel ⟨1, 14⟩ ∧ StripsReceiver kennel ⟨1, 14⟩ ∧
    (run kennel (resolveAccess ⟨1, 14⟩) {}).1.isSome = true ∧
    ∃ m₁ decl t, Entered kennel [.expr ⟨1, 14⟩] m₁ ∧
      ((typedAccess ⟨1, 14⟩).run (answer kennel (fuel - 1)) m₁).1 = some (decl, t) ∧
      (run kennel (Query.expr ⟨1, 14⟩ .empty) {}).1 = t ∧
      ∀ m', Reachable kennel m' →
        ∃ c, (run kennel (accessCandidate ⟨1, 14⟩) m').1 = some c ∧ c.decl = decl := by
  obtain ⟨traced, ⟨c, hc, -⟩, -⟩ :=
    kennel_traced (p := (⟨1, 14⟩, ⟨1, 2⟩, ⟨1, 2⟩)) (by decide)
  have strips : StripsReceiver kennel ⟨1, 14⟩ := by
    intro receiver name args h
    have here : kennel.construct? ⟨1, 14⟩ = some (.memberAccess 13 "tag" none false) := rfl
    rw [here] at h
    cases h
    have typed : reading kennel (.expr ⟨1, 13⟩ .empty) = dogOrNull :=
      reading_of_gives_around (gives_kennelAnswers (e := ⟨1, 14⟩) (by decide) (.inl rfl))
    show (reading kennel).StripsNull .property "tag" (reading kennel (.expr ⟨1, 13⟩ .empty))
    rw [typed]
    exact stripsNull_dogOrNull
  have resolves := traced.resolves hc .fresh
  exact ⟨traced, strips, resolves, access_typed_where_resolved traced strips .fresh resolves .fresh⟩

/-- An access resolves, and its type belongs to another declaration than the one navigation leads
to. -/
def TypedElsewhere (src : ModuleSource) (e : NodeRef) : Prop :=
  Traced src e ∧ (run src (resolveAccess e) {}).1.isSome = true ∧
    ∃ m₁ decl t, Entered src [.expr e] m₁ ∧
      ((typedAccess e).run (answer src (fuel - 1)) m₁).1 = some (decl, t) ∧
      (run src (Query.expr e .empty) {}).1 = t ∧
      ∃ c, (run src (accessCandidate e) {}).1 = some c ∧ c.decl ≠ decl

theorem kennel_typedElsewhere {p : NodeRef × NodeRef × NodeRef} (hp : p ∈ kennelAccesses)
    (hne : p.2.1 ≠ p.2.2) : TypedElsewhere kennel p.1 := by
  obtain ⟨traced, ⟨c, hc, navigated⟩, k, hk, typed⟩ := kennel_traced hp
  obtain ⟨m₁, t, hm₁, found, type⟩ := traced.typed.exists_typedAccess hk .fresh
  refine ⟨traced, traced.resolves hc .fresh, m₁, k.decl, t, hm₁, found, type, c, ?_, ?_⟩
  · exact (traced.navigated.gives_between {} .fresh).trans hc
  · rwa [navigated, typed]

/-- `toString` is found in `Null` before it is found in `Dog`, and `Int` is found before it
collapses into `Number`, but navigation does not find them there. -/
theorem access_typed_elsewhere :
    TypedElsewhere kennel ⟨1, 8⟩ ∧ TypedElsewhere kennel ⟨1, 22⟩ :=
  ⟨kennel_typedElsewhere (p := (⟨1, 8⟩, ⟨1, 1⟩, ⟨ModuleId.base, 3⟩)) (by decide) (by decide),
    kennel_typedElsewhere (p := (⟨1, 22⟩, ⟨ModuleId.base, 29⟩, ⟨ModuleId.base, 51⟩)) (by decide)
      (by decide)⟩

end Session

end PklAnalysis
