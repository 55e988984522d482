import PklAnalysis.Completion
import PklAnalysis.Proofs.Scope.Bounds
import PklAnalysis.Proofs.Scope.Questions
import PklAnalysis.Proofs.Session.Substitution

/-!
# Completion and looking up

Completion follows the walks of a place to their ends and keeps the closest candidate of each name;
looking a name up stops at the first candidate. Where what the walks ask has one answer, both meet
the same candidates in the same order, whatever is computed for the details of an item in between,
so completion offers exactly what a look-up finds (`completeUnqualified_mirrors`).

* `Walk.list_unshadowed`: leaving out what is shadowed keeps the first candidate of each name and
  sort.
* `run_completions`: names and kinds of the items are decided by the candidates alone.
-/

namespace PklAnalysis

/-! ## Shadowing -/

/-- What shadows a candidate: its name, apart for methods and for everything else. -/
def Candidate.key (c : Candidate) : Bool × String := (c.construct.isMethod, c.name)

/-- The candidates whose key comes up for the first time and is not among `seen`. -/
def closest (seen : List (Bool × String)) : List Candidate → List Candidate
  | [] => []
  | c :: cs => if seen.contains c.key then closest seen cs else c :: closest (c.key :: seen) cs

theorem Walk.list_unshadowed (r : Reading) (w : Walk Candidate) (seen : List (Bool × String)) :
    (w.unshadowed seen).list r = closest seen (w.list r) := by
  induction w generalizing seen with
  | done => rfl
  | offer c rest ih =>
    show (if seen.contains c.key then rest.unshadowed seen
      else .offer c (rest.unshadowed (c.key :: seen)) : Walk Candidate).list r = _
    rw [list, closest]
    split
    · exact ih seen
    · exact congrArg (c :: ·) (ih _)
  | ask q next ih => exact ih _ seen

theorem Walk.asks_unshadowed {r : Reading} {Q : Question → Prop} {w : Walk Candidate}
    (h : w.Asks r Q) (seen : List (Bool × String)) : (w.unshadowed seen).Asks r Q := by
  induction w generalizing seen with
  | done => trivial
  | offer c rest ih => exact asks_ite (ih h seen) (ih h _)
  | ask q next ih => exact ⟨h.1, ih _ h.2 seen⟩

section

variable {seen : List (Bool × String)} {c : Candidate} {cs ds : List Candidate}

theorem mem_of_mem_closest (h : c ∈ closest seen cs) : c ∈ cs := by
  induction cs generalizing seen with
  | nil => cases h
  | cons d cs ih =>
    rw [closest] at h
    split at h
    · exact List.mem_cons_of_mem d (ih h)
    · rcases List.mem_cons.1 h with rfl | h
      · exact List.mem_cons_self
      · exact List.mem_cons_of_mem d (ih h)

theorem key_not_mem_of_mem_closest (h : c ∈ closest seen cs) : c.key ∉ seen := by
  induction cs generalizing seen with
  | nil => cases h
  | cons d cs ih =>
    rw [closest] at h
    split at h
    · exact ih h
    · next hd =>
      rcases List.mem_cons.1 h with rfl | h
      · rwa [List.contains_iff_mem] at hd
      · exact fun hc => ih h (List.mem_cons_of_mem _ hc)

/-- What is kept is the first candidate that passes a test which other keys do not pass. -/
theorem find?_of_mem_closest {p : Candidate → Bool} (h : c ∈ closest seen cs) (hc : p c = true)
    (hp : ∀ d ∈ cs, p d = true → d.key = c.key) : cs.find? p = some c := by
  induction cs generalizing seen with
  | nil => cases h
  | cons d cs ih =>
    have tail := fun e he => hp e (List.mem_cons_of_mem d he)
    have skip : d.key ≠ c.key → cs.find? p = some c → (d :: cs).find? p = some c := by
      intro hne hf
      rw [List.find?_cons_of_neg (fun e => hne (hp d List.mem_cons_self e)), hf]
    have hs := key_not_mem_of_mem_closest h
    rw [closest] at h
    split at h
    · next hd => exact skip (fun e => hs (e ▸ List.contains_iff_mem.1 hd)) (ih h tail)
    · rcases List.mem_cons.1 h with rfl | h
      · exact List.find?_cons_of_pos hc
      · refine skip (fun e => ?_) (ih h tail)
        exact key_not_mem_of_mem_closest h (e ▸ List.mem_cons_self)

/-- The keys of what is kept are the new keys, each at its first place. -/
theorem keys_closest (seen : List (Bool × String)) (cs : List Candidate) :
    (closest seen cs).map Candidate.key =
      ((cs.map Candidate.key).filter (fun k => !seen.contains k)).eraseDups := by
  induction cs generalizing seen with
  | nil => rfl
  | cons c cs ih =>
    rw [closest, List.map_cons, List.filter_cons]
    cases hc : seen.contains c.key
    · simp only [Bool.not_false, if_true, Bool.false_eq_true, if_false]
      rw [List.map_cons, ih, List.eraseDups_cons, List.filter_filter]
      simp only [List.contains_cons, Bool.not_or]
    · simp only [Bool.not_true, Bool.false_eq_true, if_false, if_true]
      exact ih seen

theorem nodup_eraseDups {α : Type} [BEq α] [LawfulBEq α] (xs : List α) : xs.eraseDups.Nodup := by
  induction hn : xs.length using Nat.strongRecOn generalizing xs with
  | ind n ih =>
    cases xs with
    | nil => exact List.nodup_nil
    | cons x xs =>
      have hl := List.length_filter_le (fun y => !y == x) xs
      rw [List.length_cons] at hn
      rw [List.eraseDups_cons, List.nodup_cons, List.mem_eraseDups]
      exact ⟨fun h => by simp at h, ih _ (by omega) _ rfl⟩

theorem eraseDups_map {α β : Type} [BEq α] [LawfulBEq α] [BEq β] [LawfulBEq β] {f : α → β}
    (hf : ∀ {x y}, f x = f y → x = y) (xs : List α) : (xs.map f).eraseDups = xs.eraseDups.map f := by
  induction hn : xs.length using Nat.strongRecOn generalizing xs with
  | ind n ih =>
    cases xs with
    | nil => rfl
    | cons x xs =>
      have hl := List.length_filter_le (fun y => !y == x) xs
      rw [List.length_cons] at hn
      have same : (fun y => !y == f x) ∘ f = fun y => !y == x := by
        funext y
        rw [Function.comp_apply, Bool.eq_iff_iff]
        simp only [Bool.not_eq_true', beq_eq_false_iff_ne, ne_eq]
        exact not_congr ⟨hf, congrArg f⟩
      rw [List.map_cons, List.eraseDups_cons, List.filter_map, same, ih _ (by omega) _ rfl,
        List.eraseDups_cons, List.map_cons]

theorem nodup_keys_closest (seen : List (Bool × String)) (cs : List Candidate) :
    ((closest seen cs).map Candidate.key).Nodup := by
  rw [keys_closest]
  exact nodup_eraseDups _

/-- Only the keys that come up matter among those seen before. -/
theorem closest_congr {seen' : List (Bool × String)}
    (h : ∀ c ∈ cs, seen.contains c.key = seen'.contains c.key) : closest seen cs = closest seen' cs := by
  induction cs generalizing seen seen' with
  | nil => rfl
  | cons c cs ih =>
    have tail := fun d hd => h d (List.mem_cons_of_mem c hd)
    have below : closest (c.key :: seen) cs = closest (c.key :: seen') cs :=
      ih (fun d hd => by rw [List.contains_cons, List.contains_cons, tail d hd])
    rw [closest, closest, h c List.mem_cons_self, ih tail, below]

/-- Candidates do not shadow those of another sort. -/
theorem closest_append (h : ∀ c ∈ cs, ∀ d ∈ ds, c.key ≠ d.key) :
    closest seen (cs ++ ds) = closest seen cs ++ closest seen ds := by
  induction cs generalizing seen with
  | nil => rfl
  | cons c cs ih =>
    have tail := fun c hc => h c (List.mem_cons_of_mem _ hc)
    rw [List.cons_append, closest, closest]
    split
    · exact ih tail
    · rw [ih tail, List.cons_append]
      refine congrArg (fun l => c :: (closest (c.key :: seen) cs ++ l)) (closest_congr (fun d hd => ?_))
      have hne : (d.key == c.key) = false :=
        beq_eq_false_iff_ne.2 (fun e => h c List.mem_cons_self d hd e.symm)
      rw [List.contains_cons, hne, Bool.false_or]

end

/-! ## Items -/

/-- What identifies an item: its name and its kind. -/
def Candidate.entry (c : Candidate) : String × Option CompletionKind :=
  (c.name, c.construct.completionKind?)

def CompletionItem.entry (i : CompletionItem) : String × Option CompletionKind := (i.label, some i.kind)

theorem LookupMode.isMethod_of_accepts {mode : LookupMode} {c : Construct}
    (h : mode.accepts c = true) : c.isMethod = (mode == .method) := by
  cases mode <;> cases c <;> first | rfl | cases h

theorem LookupMode.kind_of_accepts {mode : LookupMode} {c : Construct} (h : mode.accepts c = true) :
    c.completionKind?.isSome = true := by
  cases mode <;> cases c <;> first | rfl | cases h

theorem key_eq : Candidate.key = (fun e => (e.2 == some .method, e.1)) ∘ Candidate.entry := by
  funext c
  unfold Candidate.key Function.comp Candidate.entry
  cases c.construct <;> rfl

/-- An entry for a candidate, unless there is one already. The newest comes first. -/
def addEntry (es : List (String × Option CompletionKind)) (c : Candidate) :
    List (String × Option CompletionKind) :=
  if es.contains c.entry then es else c.entry :: es

theorem foldl_addEntry {cs : List Candidate} {es : List (String × Option CompletionKind)}
    (hcs : (cs.map Candidate.entry).Nodup) (hes : ∀ c ∈ cs, c.entry ∉ es) :
    cs.foldl addEntry es = (cs.map Candidate.entry).reverse ++ es := by
  induction cs generalizing es with
  | nil => rfl
  | cons c cs ih =>
    rw [List.map_cons, List.nodup_cons] at hcs
    have new : es.contains c.entry = false := by
      rw [← Bool.not_eq_true, List.contains_iff_mem]
      exact hes c List.mem_cons_self
    rw [List.foldl_cons, addEntry, new, if_neg Bool.false_ne_true, ih hcs.2, List.map_cons,
      List.reverse_cons, List.append_assoc]
    · rfl
    · intro d hd hmem
      rcases List.mem_cons.1 hmem with e | hmem
      · exact hcs.1 (e ▸ List.mem_map_of_mem hd)
      · exact hes d (List.mem_cons_of_mem c hd) hmem

namespace Session

variable {src : ModuleSource}

/-- A walk whose questions are settled is followed along its list, whatever the steps ask. What a
step does to a part of the state that only its candidate decides, is done for every candidate of the
list. -/
theorem run_fold {β σ τ : Type} (step : σ → β → Query (σ × Bool)) (part : σ → τ) (next : τ → β → τ)
    {w : Walk β} (hw : w.Asks (reading src) (Settled src))
    (hstep : ∀ b ∈ w.list (reading src), ∀ s m, Reachable src m →
      ∃ s', (run src (step s b) m).1 = (s', true) ∧ part s' = next (part s) b)
    (s : σ) {m : Memory} (hm : Reachable src m) :
    ∃ s', (run src (w.fold step s) m).1 = (s', true) ∧
      part s' = (w.list (reading src)).foldl next (part s) := by
  induction w generalizing s m with
  | done => exact ⟨s, rfl, rfl⟩
  | offer b rest ih =>
    obtain ⟨s₁, h₁, e₁⟩ := hstep b List.mem_cons_self s m hm
    obtain ⟨s₂, h₂, e₂⟩ := ih hw (fun c hc => hstep c (List.mem_cons_of_mem b hc)) s₁
      (hm.query (step s b))
    refine ⟨s₂, ?_, e₂.trans (by rw [e₁]; rfl)⟩
    rw [Walk.fold, run_bind, h₁]
    exact h₂
  | ask q next ih =>
    have ha : (answer src fuel q m).1 = reading src q := hw.1 m hm
    show ∃ s', (run src (.ask q _) m).1 = _ ∧ _
    rw [run_ask, ha]
    exact ih _ hw.2 hstep s (hm.answer q)

theorem entry_completion (c : Candidate) (t : SyntaxTree) (k : CompletionKind) (m : Memory) :
    (run src (c.completion t k) m).1.entry = (c.name, some k) := by
  unfold Candidate.completion
  split <;> simp only [run_bind] <;> rfl

/-- A candidate of a loaded module that has a kind gets an item of its name and kind, once. -/
theorem run_addCompletion {c : Candidate} (ht : (src.treeOf c.decl.module).isSome = true)
    (hk : c.construct.completionKind?.isSome = true) (items : List CompletionItem) {m : Memory}
    (hm : Reachable src m) : ∃ items', (run src (addCompletion items c) m).1 = (items', true) ∧
      items'.map CompletionItem.entry = addEntry (items.map CompletionItem.entry) c := by
  obtain ⟨t, ht⟩ := Option.isSome_iff_exists.1 ht
  obtain ⟨k, hk⟩ := Option.isSome_iff_exists.1 hk
  have same : items.any (fun i => i.label == c.name && i.kind == k) =
      (items.map CompletionItem.entry).contains c.entry := by
    rw [Bool.eq_iff_iff, List.any_eq_true, List.contains_iff_mem, List.mem_map]
    simp [CompletionItem.entry, Candidate.entry, hk]
  unfold addCompletion addEntry
  rw [run_bind, gives_tree src _ m hm, ht, hk, ← same]
  dsimp only
  split
  · exact ⟨items, rfl, rfl⟩
  · refine ⟨_, by rw [run_bind]; rfl, ?_⟩
    rw [List.map_cons, entry_completion, Candidate.entry, hk]

/-! ## What completion offers -/

/-- Completion offers items for the very names that a walk leads to: what is looked up along the
walk is found at the same time, the first candidate has the kind of the item, and the items stand in
the order in which the walk meets their names. -/
structure Mirrors (src : ModuleSource) (w : Walk Candidate) (items : List CompletionItem) : Prop where
  resolves : ∀ (name : String) {m : Memory}, Reachable src m →
    (name ∈ items.map (·.label) ↔ (run src (w.resolve name) m).1.isSome = true)
  kind : ∀ i ∈ items, ∀ {m : Memory}, Reachable src m →
    ∃ c, (run src (w.firstNamed i.label) m).1 = some c ∧ c.construct.completionKind? = some i.kind
  once : (items.map (·.label)).Nodup
  order : ∀ {m : Memory}, Reachable src m →
    items.map (·.label) = ((run src w.toList m).1.map (·.name)).eraseDups

/-- The closest candidates of one sort mirror the walk. -/
theorem mirrors_closest {w : Walk Candidate} (hw : w.Asks (reading src) (Settled src)) {method : Bool}
    (hm' : ∀ c ∈ w.list (reading src), c.construct.isMethod = method) {items : List CompletionItem}
    (hi : items.map CompletionItem.entry =
      (closest [] (w.list (reading src))).map Candidate.entry) : Mirrors src w items := by
  let cs := w.list (reading src)
  have first : ∀ (name : String) {m : Memory}, Reachable src m →
      (run src (w.firstNamed name) m).1 = cs.find? (·.name == name) := by
    intro name m hm
    rw [← Walk.value_firstNamed]
    exact gives_value (Walk.asks_firstNamed hw name) m hm
  have keys : cs.map Candidate.key = (cs.map (·.name)).map (Prod.mk method) := by
    rw [List.map_map]
    exact List.map_congr_left (fun c hc => congrArg (·, c.name) (hm' c hc))
  have names : items.map (·.label) = (cs.map (·.name)).eraseDups := by
    have labels : items.map (·.label) = (closest [] cs).map (·.name) := by
      have h := congrArg (List.map Prod.fst) hi
      rwa [List.map_map, List.map_map] at h
    have kept := congrArg (List.map Prod.snd) (keys_closest [] cs)
    have all : (fun k => !([] : List (Bool × String)).contains k) = fun _ => true := rfl
    rw [all, List.filter_true, keys, eraseDups_map (fun h => (Prod.mk.inj h).2), List.map_map,
      List.map_map] at kept
    rw [labels]
    exact kept.trans (List.map_id _)
  refine ⟨fun name m hm => ?_, fun i hi' m hm => ?_, names ▸ nodup_eraseDups _, fun {m} hm => ?_⟩
  · have resolved : (run src (w.resolve name) m).1.isSome = (cs.find? (·.name == name)).isSome := by
      unfold Walk.resolve
      rw [run_bind, first name hm]
      cases cs.find? (·.name == name) with
      | none => rfl
      | some c =>
        dsimp only
        rw [← bind_pure_comp, run_bind]
        rfl
    rw [names, List.mem_eraseDups, resolved, List.find?_isSome]
    simp
  · obtain ⟨c, hc, he⟩ := List.mem_map.1 (hi ▸ List.mem_map_of_mem hi')
    obtain ⟨hn, hk⟩ := Prod.mk.inj he
    refine ⟨c, ?_, hk⟩
    rw [first _ hm]
    refine find?_of_mem_closest hc (beq_iff_eq.2 hn) (fun d hd hd' => ?_)
    rw [Candidate.key, Candidate.key, hm' d hd, hm' c (mem_of_mem_closest hc), beq_iff_eq.1 hd', ← hn]
  · rw [names, gives_value (Walk.asks_toList hw) m hm, Walk.value_toList]

/-- The items are those of the closest properties, then those of the closest methods. -/
theorem run_valueCompletions {walk : LookupMode → Walk Candidate}
    (hw : ∀ mode, (walk mode).Asks (reading src) (Settled src))
    (hc : ∀ mode, ∀ c ∈ (walk mode).list (reading src),
      mode.accepts c.construct = true ∧ (src.treeOf c.decl.module).isSome = true)
    {m : Memory} (hm : Reachable src m) :
    ((run src (valueCompletions walk) m).1).map CompletionItem.entry =
      (closest [] ((walk .property).list (reading src))).map Candidate.entry ++
        (closest [] ((walk .method).list (reading src))).map Candidate.entry := by
  let w := walk .property ++ walk .method
  have split : (w.unshadowed []).list (reading src) =
      closest [] ((walk .property).list (reading src)) ++
        closest [] ((walk .method).list (reading src)) := by
    rw [Walk.list_unshadowed, Walk.list_append]
    refine closest_append (fun c hp d hd e => ?_)
    have hcd := congrArg Prod.fst e
    rw [Candidate.key, Candidate.key, LookupMode.isMethod_of_accepts (hc _ c hp).1,
      LookupMode.isMethod_of_accepts (hc _ d hd).1] at hcd
    cases hcd
  have asks : (w.unshadowed []).Asks (reading src) (Settled src) :=
    Walk.asks_unshadowed (Walk.asks_append (hw _) (hw _)) []
  have kept : ∀ c ∈ (w.unshadowed []).list (reading src), ∃ mode : LookupMode,
      mode.accepts c.construct = true ∧ (src.treeOf c.decl.module).isSome = true := by
    intro c h
    rw [split] at h
    rcases List.mem_append.1 h with h | h
    · exact ⟨.property, hc _ c (mem_of_mem_closest h)⟩
    · exact ⟨.method, hc _ c (mem_of_mem_closest h)⟩
  obtain ⟨items, run_eq, entries⟩ := run_fold addCompletion
    (List.map CompletionItem.entry) addEntry asks
    (fun c h items m hm => by
      obtain ⟨mode, accepted, ht⟩ := kept c h
      exact run_addCompletion ht (LookupMode.kind_of_accepts accepted) items hm) [] hm
  have result : (run src (valueCompletions walk) m).1 = items.reverse := by
    show (run src ((w.unshadowed []).fold addCompletion [] >>= fun r => pure r.1.reverse) m).1 = _
    rw [run_bind, run_eq]
    rfl
  have once : (((w.unshadowed []).list (reading src)).map Candidate.entry).Nodup := by
    have keys := nodup_keys_closest [] (w.list (reading src))
    rw [← Walk.list_unshadowed, key_eq, ← List.map_map] at keys
    exact keys.of_map _
  have none : ∀ c ∈ (w.unshadowed []).list (reading src),
      c.entry ∉ ([] : List CompletionItem).map CompletionItem.entry := fun _ _ => List.not_mem_nil
  rw [result, List.map_reverse, entries, foldl_addEntry once none, List.map_nil, List.append_nil,
    List.reverse_reverse, split, List.map_append]

/-- Completion at a place offers what look-ups there find, at whatever time, with the type of `this`
that completion found, if what the walks ask there does not hang on what was asked before. -/
theorem completeUnqualified_mirrors (located : src.Located) (site : NodeRef) {m : Memory}
    (hm : Reachable src m) (h : SettledScope src site (run src (thisType site) m).1) :
    let this := (run src (thisType site) m).1
    let items := (run src (completeUnqualified site) m).1
    Mirrors src (Scope.visible site this .property) (items.filter (·.kind != .method)) ∧
      Mirrors src (Scope.visible site this .method) (items.filter (·.kind == .method)) := by
  intro this items
  let walk := Scope.visible site this
  have asks : ∀ mode, (walk mode).Asks (reading src) (Settled src) := h
  have offered : ∀ mode, ∀ c ∈ (walk mode).list (reading src),
      mode.accepts c.construct = true ∧ (src.treeOf c.decl.module).isSome = true := by
    intro mode c hc
    have bounds := (Scope.within_visible located site this).of_mem_list
      (fun q => ModuleSource.tellsTrees_answer fuel q {}) hc
    refine ⟨bounds.accepted, ?_⟩
    obtain ⟨t, ht, -⟩ := Option.bind_eq_some_iff.1 bounds.declared
    rw [ht]
    rfl
  have sort : ∀ mode, ∀ c ∈ (walk mode).list (reading src),
      c.construct.isMethod = (mode == .method) :=
    fun mode c hc => LookupMode.isMethod_of_accepts (offered mode c hc).1
  have entries := run_valueCompletions asks offered (hm.query (thisType site))
  have run_eq : (run src (valueCompletions walk) (run src (thisType site) m).2).1 = items := by
    show _ = (run src (thisType site >>= fun this => valueCompletions (Scope.visible site this)) m).1
    rw [run_bind]
  rw [run_eq] at entries
  -- the two groups are told apart by the entries alone
  have group : ∀ b : Bool, (items.filter (fun i => (i.kind == .method) == b)).map
      CompletionItem.entry = (items.map CompletionItem.entry).filter
        (fun e => (e.2 == some .method) == b) := by
    intro b
    rw [List.filter_map]
    rfl
  have sorted : ∀ mode b, ((closest [] ((walk mode).list (reading src))).map
      Candidate.entry).filter (fun e => (e.2 == some .method) == b) =
      if (mode == .method) == b then
        (closest [] ((walk mode).list (reading src))).map Candidate.entry else [] := by
    intro mode b
    have method : ∀ e ∈ (closest [] ((walk mode).list (reading src))).map Candidate.entry,
        (e.2 == some .method) = (mode == .method) := by
      intro e he
      obtain ⟨c, hc, rfl⟩ := List.mem_map.1 he
      rw [← sort mode c (mem_of_mem_closest hc)]
      exact (congrArg Prod.fst (congrFun key_eq c)).symm
    split
    · next hb => exact List.filter_eq_self.2 (fun e he => (method e he).symm ▸ hb)
    · next hb => exact List.filter_eq_nil_iff.2 (fun e he => (method e he).symm ▸ hb)
  constructor
  · refine mirrors_closest (asks .property) (sort .property) ?_
    have others : (fun i : CompletionItem => i.kind != .method) =
        fun i => (i.kind == .method) == false := funext (fun i => (beq_false _).symm)
    rw [others, group, entries, List.filter_append, sorted, sorted]
    exact List.append_nil _
  · refine mirrors_closest (asks .method) (sort .method) ?_
    have methods : (fun i : CompletionItem => i.kind == .method) =
        fun i => (i.kind == .method) == true := funext (fun i => (beq_true _).symm)
    rw [methods, group, entries, List.filter_append, sorted, sorted]
    rfl

theorem located_aviary : aviary.Located := by
  intro m t h
  change (if m = 1 then some aviaryTree else none) = some t at h
  split at h
  · next hm =>
    cases h
    exact hm.symm
  · cases h

/-- Inside the class, completion offers what look-ups find. -/
theorem completeUnqualified_mirrors_bird :
    let this := (run aviary (thisType bird) {}).1
    let items := (run aviary (completeUnqualified bird) {}).1
    SettledScope aviary bird this ∧
      Mirrors aviary (Scope.visible bird this .property) (items.filter (·.kind != .method)) ∧
      Mirrors aviary (Scope.visible bird this .method) (items.filter (·.kind == .method)) :=
  have settled := scopedDeclarations_aviary.fixed.settledScope bird _
  ⟨settled, completeUnqualified_mirrors located_aviary bird .fresh settled⟩

end Session

end PklAnalysis
