import Mathlib.Data.List.Destutter
import Mathlib.Data.Prod.Lex
import PklAnalysis.Proofs.Diagnostic.Switches
import PklAnalysis.Proofs.Scope.Walks
import PklAnalysis.Proofs.Session.Possible

/-!
# Reports in order

A report holds what the checks have found, ordered by place and severity, and without what repeats
the diagnostic in front of it (`Session.report_ordered`). So between two entries that are the same
there stands another one of the same place and severity, and a diagnostic occurs no more often than
its place occurs in the tree (`Covers`).

Where nodes share a place it can occur more than once: the order does not look at the message, so
that equal diagnostics need not be neighbours (`Session.not_nodup_report`).
-/

namespace PklAnalysis

variable {α β : Type}

/-! ## Order -/

namespace Diagnostic

/-- What diagnostics are ordered by: where they start, where they end, and how serious they are. -/
def key (d : Diagnostic) : Nat ×ₗ Nat ×ₗ Nat :=
  toLex (d.span.start, toLex (d.span.stop, d.severity.rank))

theorem notAfter_iff {d e : Diagnostic} : d.notAfter e = true ↔ d.key ≤ e.key := by
  simp only [notAfter, key, Span.order, Prod.Lex.toLex_le_toLex]
  -- each number is looked at only if those in front of it agree
  rcases lt_trichotomy d.span.start e.span.start with h | h | h
  · simp [Nat.compare_eq_lt.2 h, h]
  · rcases lt_trichotomy d.span.stop e.span.stop with h' | h' | h'
    · simp [h, Nat.compare_eq_lt.2 h', h']
    · simp [h, h', Nat.isLE_compare]
    · simp [h, Nat.compare_eq_gt.2 h', h'.not_gt, h'.ne']
  · simp [Nat.compare_eq_gt.2 h, h.not_gt, h.ne']

theorem withoutRepeats_eq (ds : List Diagnostic) : withoutRepeats ds = ds.destutter (· ≠ ·) := by
  induction ds using withoutRepeats.induct with
  | case1 e ds ih =>
    rw [withoutRepeats, if_pos rfl, ih, List.destutter_cons_cons, if_neg (not_not.2 rfl)]
    rfl
  | case2 e e' ds h ih =>
    rw [withoutRepeats, if_neg h, ih, List.destutter_cons_cons, if_pos h]
    rfl
  | case3 ds h =>
    rw [withoutRepeats]
    · rcases ds with _ | ⟨d, _ | ⟨e, ds⟩⟩
      · rfl
      · rfl
      · exact absurd rfl (h d e ds)
    · exact h

theorem pairwise_sorted (ds : List Diagnostic) :
    (sorted ds).Pairwise (fun d e => d.key ≤ e.key) := by
  have trans : ∀ a b c : Diagnostic, a.notAfter b = true → b.notAfter c = true →
      a.notAfter c = true :=
    fun a b c hab hbc => notAfter_iff.2 ((notAfter_iff.1 hab).trans (notAfter_iff.1 hbc))
  have total : ∀ a b : Diagnostic, (a.notAfter b || b.notAfter a) = true := fun a b =>
    Bool.or_eq_true_iff.2 ((le_total a.key b.key).imp notAfter_iff.2 notAfter_iff.2)
  have merged := List.pairwise_mergeSort trans total ds
  rw [sorted, withoutRepeats_eq]
  exact (merged.imp notAfter_iff.1).sublist (List.destutter_sublist ..)

theorem isChain_sorted (ds : List Diagnostic) : (sorted ds).IsChain (· ≠ ·) := by
  rw [sorted, withoutRepeats_eq]
  exact List.isChain_destutter _ _

theorem count_sorted_le (d : Diagnostic) (ds : List Diagnostic) :
    (sorted ds).count d ≤ ds.count d := by
  rw [sorted, withoutRepeats_eq, ← (List.mergeSort_perm ds notAfter).count_eq d]
  exact (List.destutter_sublist ..).count_le d

/-- Diagnostics that are in order already stay as they are. -/
theorem sorted_eq_self {ds : List Diagnostic}
    (order : ds.Pairwise (fun d e => d.notAfter e = true)) (chain : ds.IsChain (· ≠ ·)) :
    sorted ds = ds := by
  rw [sorted, List.mergeSort_of_pairwise order, withoutRepeats_eq,
    List.destutter_of_isChain _ _ chain]

/-- Between two entries that are the same there is another one that only the message, the kind or
the fix tells apart. -/
theorem exists_between {ds a b c : List Diagnostic} {d : Diagnostic}
    (h : sorted ds = a ++ d :: (b ++ d :: c)) : ∃ e ∈ b, e ≠ d ∧ e.key = d.key := by
  have chain := h ▸ isChain_sorted ds
  have order := h ▸ pairwise_sorted ds
  cases b with
  | nil => simp at chain
  | cons e b =>
    have tail := (List.isChain_append.1 chain).2.1
    have sorted := (List.pairwise_append.1 order).2.1
    obtain ⟨first, rest⟩ := List.pairwise_cons.1 sorted
    have le : d.key ≤ e.key := first e List.mem_cons_self
    have ge : e.key ≤ d.key := (List.pairwise_cons.1 rest).1 d (by simp)
    exact ⟨e, List.mem_cons_self, (List.isChain_cons_cons.1 tail).1.symm, ge.antisymm le⟩

end Diagnostic

/-! ## Places -/

/-- No diagnostic occurs more often than its place. -/
def Covers (places : List Span) (ds : List Diagnostic) : Prop :=
  ∀ d, ds.count d ≤ places.count d.span

theorem covers_nil (places : List Span) : Covers places [] := fun _ => Nat.zero_le _

theorem Covers.append {ps ps' : List Span} {ds ds' : List Diagnostic} (h : Covers ps ds)
    (h' : Covers ps' ds') : Covers (ps ++ ps') (ds ++ ds') := by
  intro d
  rw [List.count_append, List.count_append]
  exact Nat.add_le_add (h d) (h' d)

/-- Diagnostics of certain kinds at one place, each of them once. -/
structure OnceAt (s : Span) (codes : List DiagnosticCode) (ds : List Diagnostic) : Prop where
  span : ∀ d ∈ ds, d.span = s
  code : ∀ d ∈ ds, d.code ∈ codes
  nodup : ds.Nodup

namespace OnceAt

variable {s : Span} {codes codes' : List DiagnosticCode} {ds ds' : List Diagnostic}

theorem nil : OnceAt s codes [] := ⟨nofun, nofun, List.nodup_nil⟩

theorem single {d : Diagnostic} (hs : d.span = s) (hc : d.code ∈ codes) : OnceAt s codes [d] where
  span := by simpa using hs
  code := by simpa using hc
  nodup := List.nodup_singleton d

theorem of {template : Template} (args : List String) (h : template.code ∈ codes) :
    OnceAt s codes [.of s template args] :=
  .single rfl h

/-- Diagnostics of different kinds are different. -/
theorem append (h : OnceAt s codes ds) (h' : OnceAt s codes' ds')
    (disjoint : ∀ c ∈ codes, c ∉ codes') : OnceAt s (codes ++ codes') (ds ++ ds') where
  span d hd := (List.mem_append.1 hd).elim (h.span d) (h'.span d)
  code d hd := List.mem_append.2 ((List.mem_append.1 hd).imp (h.code d) (h'.code d))
  nodup := h.nodup.append h'.nodup (fun d hd hd' => disjoint _ (h.code d hd) (h'.code d hd'))

theorem covers (h : OnceAt s codes ds) : Covers [s] ds := by
  intro d
  by_cases hd : d ∈ ds
  · rw [h.span d hd, List.count_singleton_self]
    exact List.nodup_iff_count_le_one.1 h.nodup d
  · rw [List.count_eq_zero_of_not_mem hd]
    exact Nat.zero_le _

end OnceAt

namespace SyntaxTree

variable (t : SyntaxTree)

/-- The places of the modifiers of a node. -/
def modifierPlaces (i : NodeIndex) : List Span :=
  ((t.construct? i).map (fun c => c.modifierTokens.map (·.span))).getD []

/-- The places that the checks look at: that of the clause, and those of every node and of its
modifiers. -/
def places : List Span :=
  (t.clause?.map (·.span)).toList ++ t.indices.flatMap (fun i => t.modifierPlaces i ++ [t.span i])

end SyntaxTree

/-! ## Checks of modifiers -/

theorem onceAt_modifierProblems (c : Construct) (applicable seen : List Modifier)
    (token : ModifierToken) : OnceAt token.span
      [.duplicateModifier, .modifierNotApplicable, .conflictingModifiers]
      (modifierProblems c applicable seen token) := by
  unfold modifierProblems
  dsimp only
  split
  · exact .of _ (by decide)
  have misplaced : OnceAt token.span [.duplicateModifier, .modifierNotApplicable]
      (if applicable.contains token.modifier then []
        else [.of token.span .modifierNotApplicable [token.modifier.keyword, c.kindName]]) := by
    split
    · exact .nil
    · exact .of _ (by decide)
  have conflicts : OnceAt token.span [.conflictingModifiers]
      (((excludedBy token.modifier).filter seen.contains).toList.map (fun other =>
        .of token.span .conflictingModifiers [other.keyword, token.modifier.keyword])) := by
    cases (excludedBy token.modifier).filter seen.contains with
    | none => exact .nil
    | some other => exact .of [other.keyword, token.modifier.keyword] (by decide)
  exact misplaced.append conflicts (by decide)

theorem covers_modifiersProblems (c : Construct) (applicable seen : List Modifier)
    (tokens : List ModifierToken) :
    Covers (tokens.map (·.span)) (modifiersProblems c applicable seen tokens) := by
  induction tokens generalizing seen with
  | nil => exact covers_nil _
  | cons token tokens ih =>
    exact (onceAt_modifierProblems c applicable seen token).covers.append (ih _)

/-! ## Checks of nodes -/

section

variable {P : (q : Question) → q.Answer → Prop} (t : SyntaxTree) (r : NodeRef)

/-- The check of modifiers finds problems of single modifiers, and at most one of the node. -/
theorem within_checkModifiers : (checkModifiers t r).Within P (fun ds => ∃ problems missing,
    ds = problems ++ missing ∧ Covers (t.modifierPlaces r.node) problems ∧
      OnceAt (t.span r.node) [.missingModifierLocal] missing) := by
  unfold checkModifiers SyntaxTree.modifierPlaces
  split
  · next h => exact Query.within_pure ⟨[], [], rfl, covers_nil _, .nil⟩
  · next c h =>
    rw [h]
    have own := covers_modifiersProblems c (applicableModifiers
      ((t.parent? r.node).any (fun p => t.holdsAt p Construct.isObjectBody)) c) [] c.modifierTokens
    split
    · refine Query.Within.after fun definition => Query.within_pure ⟨_, _, rfl, own, ?_⟩
      split
      · exact .single rfl List.mem_cons_self
      · exact .nil
    · exact Query.within_pure ⟨_, [], (List.append_nil _).symm, own, .nil⟩

/-- The kinds of unresolved references. -/
def unresolvedCodes : List DiagnosticCode :=
  [.unresolvedProperty, .unresolvedMethod, .unresolvedType, .unresolvedModule]

theorem onceAt_unresolvedAccess (span : Span) (name : String) (isCall : Bool)
    (severity : Severity) : OnceAt span unresolvedCodes [unresolvedAccess span name isCall severity] := by
  refine .single rfl ?_
  cases isCall
  · show DiagnosticCode.unresolvedProperty ∈ unresolvedCodes
    decide
  · show DiagnosticCode.unresolvedMethod ∈ unresolvedCodes
    decide

theorem within_checkReference (m : ModuleId) (span : Span) (uri : String) :
    (checkReference m span uri).Within P (OnceAt span unresolvedCodes) := by
  refine Query.Within.after fun target => Query.within_pure ?_
  split
  · exact .nil
  · exact .of _ (by decide)

variable {t r} in
theorem within_silent : (pure [] : Query (List Diagnostic)).Within P
    (OnceAt (t.span r.node) unresolvedCodes) :=
  Query.within_pure .nil

theorem within_report (type : Ty) (name : String) (isCall : Bool) :
    (unresolvedSeverity type >>= fun severity =>
      pure [unresolvedAccess (t.span r.node) name isCall severity]).Within P
        (OnceAt (t.span r.node) unresolvedCodes) :=
  Query.Within.after fun _ => Query.within_pure (onceAt_unresolvedAccess ..)

theorem within_checkAccess (name : String) (isCall : Bool) :
    (checkAccess t r name isCall).Within P (OnceAt (t.span r.node) unresolvedCodes) := by
  refine Query.Within.after fun found => Query.within_ite within_silent ?_
  refine Query.Within.after fun this => Query.within_ite within_silent ?_
  refine Query.within_ite ?_ (within_report ..)
  exact Query.Within.after fun accepts => Query.within_ite within_silent (within_report ..)

theorem within_checkMemberAccess (receiver : NodeIndex) (name : String) (isCall : Bool) :
    (checkMemberAccess t r receiver name isCall).Within P
      (OnceAt (t.span r.node) unresolvedCodes) := by
  have searched : ∀ type, (resolveAccess r >>= fun found => if found.isSome then pure [] else
      unresolvedSeverity type >>= fun severity =>
        pure [unresolvedAccess (t.span r.node) name isCall severity]).Within P
          (OnceAt (t.span r.node) unresolvedCodes) := fun type =>
    Query.Within.after fun found => Query.within_ite within_silent (within_report ..)
  unfold checkMemberAccess
  refine Query.Within.after fun found => Query.Within.after fun type => Query.Within.after
    fun indeterminate => Query.within_ite within_silent (Query.within_ite ?_ (searched type))
  exact Query.Within.after fun accepts => Query.within_ite within_silent (searched type)

theorem within_checkReferences :
    (checkReferences t r).Within P (OnceAt (t.span r.node) unresolvedCodes) := by
  unfold checkReferences
  split
  · exact within_checkAccess ..
  · exact within_checkMemberAccess t r _ _ _
  · refine Query.Within.after fun found => Query.within_pure ?_
    split
    · exact .nil
    · exact .of _ (by decide)
  · exact within_checkReference ..
  · exact within_checkReference ..
  · refine Query.Within.after fun definition => Query.within_pure ?_
    split
    · exact .of _ (by decide)
    · exact .nil
  · exact within_silent

theorem within_checkClause (m : ModuleId) :
    (checkClause t m).Within P (Covers (t.clause?.map (·.span)).toList) := by
  unfold checkClause
  cases t.clause? with
  | none => exact Query.within_pure (covers_nil _)
  | some clause => exact (within_checkReference ..).mono (fun _ h => h.covers)

end

/-! ## Checks that can be broken off -/

theorem Query.within_of_map {P : (q : Question) → q.Answer → Prop} {S : β → Prop} {f : α → β}
    {x : Query α} (h : (f <$> x).Within P S) : x.Within P (fun a => S (f a)) := by
  induction x with
  | done a => exact h
  | ask q next ih => exact fun a ha => ih a (h a ha)

namespace Check

variable {P : (q : Question) → q.Answer → Prop} {S T : α → Prop}

/-- What the check comes to lies in `S` if it is not broken off. -/
def Yields (P : (q : Question) → q.Answer → Prop) (S : α → Prop) (x : Check α) : Prop :=
  (ExceptT.run x).Within P (fun r => ∀ a, r = .ok a → S a)

theorem yields_pure {a : α} (h : S a) : (pure a : Check α).Yields P S :=
  Query.within_pure (fun _ e => Except.ok.inj e ▸ h)

theorem Yields.bind {x : Check α} {f : α → Check β} {S : β → Prop} (hx : x.Yields P T)
    (hf : ∀ a, T a → (f a).Yields P S) : (x >>= f).Yields P S := by
  refine Query.Within.bind hx (fun r hr => ?_)
  cases r with
  | ok a => exact hf a (hr a rfl)
  | error e => exact Query.within_pure nofun

theorem yields_query {x : Query α} (h : x.Within P S) : (query x).Yields P S := by
  refine Query.Within.bind h (fun a ha => Query.within_pure ?_)
  rintro _ ⟨⟩
  exact ha

theorem Yields.after {x : Check α} {f : α → Check β} {S : β → Prop}
    (hf : ∀ a, (f a).Yields P S) : (x >>= f).Yields P S :=
  Yields.bind (T := fun _ => True) (Query.within_true.mono (fun _ _ _ _ => trivial))
    (fun a _ => hf a)

theorem Yields.of_map {x : Check α} {f : α → β} {S : β → Prop} (h : (f <$> x).Yields P S) :
    x.Yields P (fun a => S (f a)) := by
  rw [Yields, ExceptT.run_map] at h
  refine (Query.within_of_map h).mono (fun r hr a ha => hr (f a) ?_)
  rw [ha]
  rfl

theorem Yields.append {x y : Check (List Diagnostic)} {S T U : List Diagnostic → Prop}
    (hx : x.Yields P S) (hy : y.Yields P T) (h : ∀ a b, S a → T b → U (a ++ b)) :
    (x.append y).Yields P U :=
  hx.bind fun a ha => hy.bind fun b hb => yields_pure (h a b ha hb)

/-- A check that is made under a condition. -/
theorem yields_switch {c : Bool} {x : Check (List Diagnostic)} {S : List Diagnostic → Prop}
    (hx : x.Yields P S) (hS : S []) : (if c then x else pure []).Yields P S := by
  split
  · exact hx
  · exact yields_pure hS

end Check

/-- The kinds of value problems. -/
def valueCodes : List DiagnosticCode :=
  [.typeMismatch, .nullableTypeMismatch, .weakTypeMismatch, .constraintViolation]

theorem onceAt_problem (outcome : Outcome) (span : Span) (required found : String) :
    OnceAt span valueCodes (outcome.problem span required found) := by
  cases outcome with
  | pass => exact .nil
  | _ => exact .of _ (by decide)

section

variable {P : (q : Question) → q.Answer → Prop} (t : SyntaxTree) (m : ModuleId)

theorem yields_checkValue (r : NodeRef) :
    (checkValue t r).Yields P (OnceAt (t.span r.node) valueCodes) := by
  unfold checkValue
  split
  · exact Check.yields_pure .nil
  refine Check.Yields.after fun expected => ?_
  split
  · exact Check.yields_pure .nil
  exact Check.Yields.after fun actual => Check.Yields.after fun result => Check.Yields.after
    fun required => Check.Yields.after fun found => Check.yields_pure (onceAt_problem ..)

namespace Report

theorem yields_ofNode (o : ReportOptions) (i : NodeIndex) :
    (ofNode o t m i).Yields P (Covers (t.modifierPlaces i ++ [t.span i])) := by
  have modifiers := Check.yields_switch (c := o.modifiers)
    (Check.yields_query (within_checkModifiers (P := P) t ⟨m, i⟩))
    ⟨[], [], rfl, covers_nil _, .nil⟩
  have references := Check.yields_switch (c := o.references)
    (Check.yields_query (within_checkReferences (P := P) t ⟨m, i⟩)) .nil
  have values := Check.yields_switch (c := o.values) (yields_checkValue (P := P) t ⟨m, i⟩) .nil
  have both : ((if o.modifiers then Check.query (checkModifiers t ⟨m, i⟩) else pure []).append
      (if o.references then Check.query (checkReferences t ⟨m, i⟩) else pure [])).Yields P
      (fun ds => ∃ problems own, ds = problems ++ own ∧ Covers (t.modifierPlaces i) problems ∧
        OnceAt (t.span i) (.missingModifierLocal :: unresolvedCodes) own) := by
    refine modifiers.append references fun ms rs hms hrs => ?_
    -- no two checks find problems of one kind, so that all of them may lie at the node itself
    obtain ⟨problems, missing, rfl, hp, hm⟩ := hms
    exact ⟨problems, missing ++ rs, List.append_assoc .., hp, hm.append hrs (by decide)⟩
  rw [ofNode_eq]
  refine both.append values fun ds vs hds hvs => ?_
  obtain ⟨problems, own, rfl, hp, ho⟩ := hds
  rw [List.append_assoc]
  exact hp.append (ho.append hvs (by decide)).covers

theorem yields_ofNodes (o : ReportOptions) (is : List NodeIndex) : (ofNodes o t m is).Yields P
    (Covers (is.flatMap (fun i => t.modifierPlaces i ++ [t.span i]))) := by
  induction is with
  | nil => exact Check.yields_pure (covers_nil _)
  | cons i is ih => exact (yields_ofNode t m o i).append ih fun _ _ => Covers.append

/-! ## Reports -/

/-- The checks of a node that are switched on. -/
def nodeChecks (o : ReportOptions) (r : NodeRef) : List (Check (List Diagnostic)) :=
  (if o.modifiers then [Check.query (checkModifiers t r)] else []) ++
    (if o.references then [Check.query (checkReferences t r)] else []) ++
      (if o.values then [checkValue t r] else [])

/-- The checks of a module that are switched on, in the order in which they are made. -/
def checks (o : ReportOptions) : List (Check (List Diagnostic)) :=
  (if o.references then [Check.query (checkClause t m)] else []) ++
    t.indices.flatMap (fun i => nodeChecks t o ⟨m, i⟩)

/-- What each of the checks finds. -/
def found (o : ReportOptions) (m : ModuleId) : Check (List (List Diagnostic)) := do
  match ← Check.query (Query.tree m) with
  | none => pure []
  | some t => (checks t m o).mapM id

/-- The findings of several checks in one list. -/
def joined (xs : List (Check (List Diagnostic))) : Check (List Diagnostic) :=
  List.flatten <$> xs.mapM id

theorem joined_append (xs ys : List (Check (List Diagnostic))) :
    joined (xs ++ ys) = (joined xs).append (joined ys) := by
  simp [joined, Check.append, List.mapM_append]

theorem joined_single (x : Check (List Diagnostic)) : joined [x] = x := by
  simp [joined]

theorem joined_switch (c : Bool) (x : Check (List Diagnostic)) :
    joined (if c then [x] else []) = if c then x else pure [] := by
  cases c
  · rfl
  · exact joined_single x

theorem joined_nodeChecks (o : ReportOptions) (i : NodeIndex) :
    joined (nodeChecks t o ⟨m, i⟩) = ofNode o t m i := by
  rw [ofNode_eq, nodeChecks, joined_append, joined_append, joined_switch, joined_switch,
    joined_switch]

theorem joined_flatMap (o : ReportOptions) (is : List NodeIndex) :
    joined (is.flatMap (fun i => nodeChecks t o ⟨m, i⟩)) = ofNodes o t m is := by
  induction is with
  | nil => rfl
  | cons i is ih =>
    rw [List.flatMap_cons, joined_append, joined_nodeChecks, ih]
    rfl

theorem joined_checks (o : ReportOptions) : joined (checks t m o) =
    (if o.references then Check.query (checkClause t m) else pure []).append
      (ofNodes o t m t.indices) := by
  rw [checks, joined_append, joined_switch, joined_flatMap]

theorem yields_joined_checks (o : ReportOptions) :
    (joined (checks t m o)).Yields P (Covers t.places) := by
  rw [joined_checks]
  have clause := Check.yields_switch (c := o.references)
    (Check.yields_query (within_checkClause (P := P) t m)) (covers_nil _)
  exact clause.append (yields_ofNodes t m o t.indices) fun _ _ => Covers.append

end Report

end

/-- A report orders what the checks find. -/
theorem diagnostics_eq_sorted (o : ReportOptions) (m : ModuleId) : diagnostics o m =
    (fun parts => Diagnostic.sorted parts.flatten) <$> Report.found o m := by
  rw [diagnostics_eq, Report.found, map_bind]
  refine congrArg (Check.query (Query.tree m) >>= ·) (funext fun t => ?_)
  cases t with
  | none => simp [Diagnostic.sorted, Diagnostic.withoutRepeats]
  | some t =>
    dsimp only [Option.elim]
    rw [← Report.joined_checks, Report.joined, Functor.map_map]

/-- `ds` is the report of the findings `parts`, which were made at `places`. -/
structure Reports (places : List Span) (parts : List (List Diagnostic)) (ds : List Diagnostic) :
    Prop where
  ordered : ds.Pairwise (fun d e => d.key ≤ e.key)
  mem_iff : ∀ d, d ∈ ds ↔ ∃ part ∈ parts, d ∈ part
  apart : ∀ a b c d, ds = a ++ d :: (b ++ d :: c) → ∃ e ∈ b, e ≠ d ∧ e.key = d.key
  covers : Covers places ds

theorem reports_sorted {places : List Span} {parts : List (List Diagnostic)}
    (h : Covers places parts.flatten) : Reports places parts (Diagnostic.sorted parts.flatten) where
  ordered := Diagnostic.pairwise_sorted _
  mem_iff d := by rw [Diagnostic.mem_sorted, List.mem_flatten]
  apart _ _ _ _ := Diagnostic.exists_between
  covers d := (Diagnostic.count_sorted_le d _).trans (h d)

/-- Where no place occurs twice, no diagnostic does. -/
theorem Reports.nodup {places : List Span} {parts : List (List Diagnostic)} {ds : List Diagnostic}
    (h : Reports places parts ds) (hp : places.Nodup) : ds.Nodup :=
  List.nodup_iff_count_le_one.2 fun d =>
    (h.covers d).trans (List.nodup_iff_count_le_one.1 hp d.span)

namespace ModuleSource

/-- The places of a module; those of a missing one are none. -/
def places (src : ModuleSource) (m : ModuleId) : List Span :=
  ((src.treeOf m).map SyntaxTree.places).getD []

theorem yields_found (src : ModuleSource) (o : ReportOptions) (m : ModuleId) :
    (Report.found o m).Yields src.TellsTrees
      (fun parts => Covers (src.places m) parts.flatten) := by
  refine Check.Yields.bind (Check.yields_query (within_tellsTrees m)) fun t ht => ?_
  subst ht
  unfold places
  cases src.treeOf m with
  | none => exact Check.yields_pure (covers_nil _)
  | some t => exact (Report.yields_joined_checks t m o).of_map

/-- What holds within the bounds of sources holds of every answer. -/
theorem run_of_tellsTrees {src : ModuleSource} {x : Query α} {S : α → Prop}
    (h : x.Within src.TellsTrees S) (memory : Memory) : S (Session.run src x memory).1 := by
  induction x generalizing memory with
  | done a => exact h
  | ask q next ih => exact ih _ (h _ (tellsTrees_answer Session.fuel q memory)) _

end ModuleSource

namespace Session

variable {src : ModuleSource}

/-- What each of the checks finds in a session that remembers `memory`. -/
def found (src : ModuleSource) (o : ReportOptions) (m : ModuleId) (memory : Memory) :
    Except EvalError (List (List Diagnostic)) :=
  (run src (Report.found o m).run memory).1

theorem report_eq_sorted (o : ReportOptions) (m : ModuleId) (memory : Memory) :
    report src o m memory =
      (fun parts => Diagnostic.sorted parts.flatten) <$> found src o m memory := by
  rw [report, diagnostics_eq_sorted, ExceptT.run_map, map_eq_pure_bind, run_bind]
  rfl

/-- A session that starts afresh finds what one with a short ledger does. -/
theorem found_eq_ledger (o : ReportOptions) (m : ModuleId) :
    found src o m {} = (Ledger.run src (Report.found o m).run {}).1 :=
  (Ledger.run_eq Ledger.mirrors_empty _).1

/-- The report of a module is there just where no check was broken off. It is ordered by place and
severity and holds what the checks that are switched on have found. No diagnostic repeats the one in
front of it: where one occurs again, another one of the same place and severity stands between. And
none occurs more often than its place. -/
theorem report_ordered (src : ModuleSource) (o : ReportOptions) (m : ModuleId) (memory : Memory) :
    (∃ e, found src o m memory = .error e ∧ report src o m memory = .error e) ∨
      ∃ parts ds, found src o m memory = .ok parts ∧ report src o m memory = .ok ds ∧
        Reports (src.places m) parts ds := by
  have covered := ModuleSource.run_of_tellsTrees (src.yields_found o m) memory
  rw [report_eq_sorted]
  cases e : found src o m memory with
  | error err => exact .inl ⟨err, rfl, rfl⟩
  | ok parts => exact .inr ⟨parts, _, rfl, rfl, reports_sorted (covered parts e)⟩

/-! ### Types that share a place -/

/-- The module `a: Foo`, `b: Bar`, `c: Foo`, whose three types have one place. -/
def sharedTree : SyntaxTree where
  uri := "file:///shared.pkl"
  module := 1
  nodes := #[⟨.declaredType none "Foo" [], ⟨3, 6⟩, some 1⟩,
    ⟨.property { name := "a", type := some 0 }, ⟨0, 6⟩, some 6⟩,
    ⟨.declaredType none "Bar" [], ⟨3, 6⟩, some 3⟩,
    ⟨.property { name := "b", type := some 2 }, ⟨3, 13⟩, some 6⟩,
    ⟨.declaredType none "Foo" [], ⟨3, 6⟩, some 5⟩,
    ⟨.property { name := "c", type := some 4 }, ⟨3, 20⟩, some 6⟩,
    ⟨.module { members := [1, 3, 5] }, ⟨0, 20⟩, none⟩]
  root := 6

/-- A session with this module only. -/
def shared : ModuleSource where
  tree i := if i = 1 then some sharedTree else none
  resolve _ _ := none

/-- That there is no type of any of these names. -/
def missingTypes : List Diagnostic :=
  ["Foo", "Bar", "Foo"].map (fun name => .of ⟨3, 6⟩ .unresolvedType [name])

/-- The second type that is missing stands between the first one and its repetition. -/
theorem not_nodup_report : report shared {} 1 {} = .ok missingTypes ∧ ¬ missingTypes.Nodup := by
  have evaluated : (Ledger.run shared (Report.found {} 1).run {}).1.toOption.map List.flatten =
      some missingTypes := by decide +kernel
  rw [← found_eq_ledger] at evaluated
  refine ⟨?_, by decide⟩
  rw [report_eq_sorted]
  cases e : found shared {} 1 {} with
  | error _ =>
    rw [e] at evaluated
    cases evaluated
  | ok parts =>
    rw [e] at evaluated
    have flat : parts.flatten = missingTypes := Option.some.inj evaluated
    show Except.ok (Diagnostic.sorted parts.flatten) = _
    rw [flat, Diagnostic.sorted_eq_self (by decide) (by decide)]

end Session

end PklAnalysis
