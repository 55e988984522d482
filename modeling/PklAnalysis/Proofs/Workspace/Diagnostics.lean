import PklAnalysis.Proofs.Workspace.Entries

/-!
# Looking things up in a workspace

Looking up projects, answering queries and asking for diagnostics leave the modules, the projects
and the settings as they are, and keep the cache consistent (`Looked.consistent`,
`Diagnosed.consistent`). `diagnostics_cases` says all that comes of asking for the diagnostics of a
module.
-/

namespace PklAnalysis.Workspace

variable {files : Files} {w w' w'' : Workspace}

/-! ## Nothing changes but the cache -/

theorem openModuleId_congr (hu : w'.uncached = w.uncached) (uri : String) :
    w'.openModuleId uri = w.openModuleId uri := by
  show w'.uncached.openModuleId uri = w.uncached.openModuleId uri
  rw [hu]

theorem analysis_congr (hu : w'.uncached = w.uncached) (i : ModuleId) :
    w'.analysis files i = w.analysis files i := by
  show w'.uncached.answer files (PklAnalysis.diagnostics w'.uncached.settings.reports i) =
    w.uncached.answer files (PklAnalysis.diagnostics w.uncached.settings.reports i)
  rw [hu]

theorem trackersOf_congr (hu : w'.uncached = w.uncached) (loaded : List ModuleId) :
    w'.trackersOf loaded = w.trackersOf loaded := by
  show w'.uncached.trackersOf loaded = w.uncached.trackersOf loaded
  rw [hu]

theorem Kept.congr (hu : w'.uncached = w.uncached) (ht : w'.cache.trackers = w.cache.trackers)
    {key : String} {e : CacheEntry CachedResult} (h : w.Kept files key e) : w'.Kept files key e := by
  cases h with
  | diagnostics hg hc =>
    refine .diagnostics hg (fun hcur => ?_)
    rw [ht] at hcur
    obtain ⟨i, ds, hi, hok, hv, hd⟩ := hc hcur
    refine ⟨i, ds, ?_, ?_, hv, ?_⟩
    · rw [openModuleId_congr hu, hi]
    · rw [analysis_congr hu, hok]
    · rw [analysis_congr hu, trackersOf_congr hu, hd]
  | project hd hc =>
    refine .project hd (fun hcur => ?_)
    rw [ht] at hcur
    exact hc hcur

/-- Only the cache changes, and every entry that is new is in order. -/
theorem Consistent.congr (h : Consistent files w) (hu : w'.uncached = w.uncached)
    (ht : w'.cache.trackers = w.cache.trackers)
    (he : ∀ {key e}, w'.cache.entries[key]? = some e → w.cache.entries[key]? = some e ∨
      e.Dated w.cache.trackers ∧ w.Kept files key e) : Consistent files w' := by
  have hm : w'.uncached.modules = w.uncached.modules := by rw [hu]
  have ha : w'.uncached.addresses = w.uncached.addresses := by rw [hu]
  change w'.modules = w.modules at hm
  change w'.addresses = w.addresses at ha
  refine ⟨⟨?_, ?_, ?_, ?_⟩, ?_, ?_⟩
  · rw [ht]
    exact h.globals
  · intro i m
    unfold id?
    rw [hm, ha]
    exact h.addressed
  · intro i m
    rw [hm, ht]
    exact h.tracked
  · intro i j m n
    rw [hm]
    exact h.apart
  · intro key e hk
    rw [ht]
    rcases he hk with hk | hk
    · exact h.dated hk
    · exact hk.1
  · intro key e hk
    rcases he hk with hk | hk
    · exact (h.kept hk).congr hu ht
    · exact hk.2.congr hu ht

/-! ## Projects -/

/-- The entry of a project that has just been read. -/
def projectEntry (w : Workspace) (files : Files) (dir : Path) : CacheEntry CachedResult :=
  ⟨.project (Project.load files dir).toOption,
    [projectSync, packageDownload].map fun i => (i, w.cache.trackers.count i)⟩

/-- Nothing has changed, except that projects may have been looked up. -/
structure Looked (files : Files) (w w' : Workspace) : Prop where
  uncached : w'.uncached = w.uncached
  trackers : w'.cache.trackers = w.cache.trackers
  computed : w'.diagnosticsComputed = w.diagnosticsComputed
  entries : ∀ key : String, w'.cache.entries[key]? = w.cache.entries[key]? ∨
    ∃ dir, key = projectKey dir ∧ w'.cache.entries[key]? = some (w.projectEntry files dir)

namespace Looked

theorem refl (w : Workspace) : Looked files w w := ⟨rfl, rfl, rfl, fun _ => .inl rfl⟩

theorem trans (h : Looked files w w') (h' : Looked files w' w'') : Looked files w w'' := by
  refine ⟨h'.uncached.trans h.uncached, h'.trackers.trans h.trackers,
    h'.computed.trans h.computed, fun key => ?_⟩
  rcases h'.entries key with he' | ⟨dir, hk, he'⟩
  · rcases h.entries key with he | ⟨dir, hk, he⟩
    · exact .inl (he'.trans he)
    · exact .inr ⟨dir, hk, he'.trans he⟩
  · refine .inr ⟨dir, hk, he'.trans ?_⟩
    unfold projectEntry
    rw [h.trackers]

/-- The entries of diagnostics stay. -/
theorem diagnostics (h : Looked files w w') (uri : String) :
    w'.cache.entries[diagnosticsKey uri]? = w.cache.entries[diagnosticsKey uri]? := by
  rcases h.entries (diagnosticsKey uri) with he | ⟨dir, hk, -⟩
  · exact he
  · exact absurd hk (diagnosticsKey_ne_projectKey uri dir)

theorem consistent (h : Looked files w w') (hw : Consistent files w) : Consistent files w' := by
  refine hw.congr h.uncached h.trackers (fun {key e} hk => ?_)
  rcases h.entries key with he | ⟨dir, rfl, he⟩
  · exact .inl (he ▸ hk)
  · rw [he] at hk
    cases hk
    refine .inr ⟨fun p hp => ?_, .project rfl (fun _ => rfl)⟩
    obtain ⟨i, hi, rfl⟩ := List.mem_map.1 hp
    refine ⟨hw.globals i ?_, Nat.le_refl _⟩
    rcases List.mem_cons.1 hi with rfl | hi
    · exact List.mem_cons_of_mem _ List.mem_cons_self
    · cases List.mem_singleton.1 hi
      exact List.mem_cons_of_mem _ (List.mem_cons_of_mem _ List.mem_cons_self)

end Looked

theorem looked_project (files : Files) (dir : Path) (w : Workspace) :
    Looked files w (project files dir w).2 := by
  let load : StateM Workspace (Option (Option Project × List TrackerId)) := do
    modify fun w => { w with projectsLoaded := w.projectsLoaded + 1 }
    pure (some ((Project.load files dir).toOption, [projectSync, packageDownload]))
  show Looked files w (cached CachedResult.projectKind (projectKey dir) load w).2
  cases hl : (HasCache.cache w).lookup? CachedResult.projectKind (projectKey dir) with
  | some p =>
    rw [cached_of_hit hl]
    exact ⟨rfl, rfl, rfl, fun _ => .inl rfl⟩
  | none =>
    have hc : load (HasCache.withCache w (HasCache.cache w).countMiss) =
        (some ((Project.load files dir).toOption, [projectSync, packageDownload]),
          { w with cache := w.cache.countMiss, projectsLoaded := w.projectsLoaded + 1 }) := rfl
    rw [cached_of_some hl hc]
    refine ⟨rfl, rfl, rfl, fun key => ?_⟩
    by_cases hk : projectKey dir = key
    · refine .inr ⟨dir, hk.symm, ?_⟩
      show (w.cache.entries.insert (projectKey dir) (w.projectEntry files dir))[key]? = _
      rw [hk, Std.HashMap.getElem?_insert_self]
    · refine .inl ?_
      show (w.cache.entries.insert (projectKey dir) (w.projectEntry files dir))[key]? = _
      rw [Std.HashMap.getElem?_insert, if_neg (by rwa [beq_iff_eq])]

theorem looked_projectFor (files : Files) (uri : String) (w : Workspace) :
    Looked files w (projectFor files uri w).2 := by
  unfold projectFor
  simp only [bind, StateT.bind, get, getThe, MonadStateOf.get, StateT.get, pure]
  cases w.projectDir? uri with
  | some dir => exact looked_project files dir w
  | none => exact .refl w

theorem looked_countLookups (files : Files) (memory : Memory) (w : Workspace) :
    Looked files w (countLookups files memory w).2 := by
  unfold countLookups
  generalize memory.references.keys = keys
  induction keys generalizing w with
  | nil => exact .refl w
  | cons key keys ih =>
    obtain ⟨source, target⟩ := key
    simp only [List.forM, bind, StateT.bind, get, getThe, MonadStateOf.get, StateT.get, pure]
    refine Looked.trans ?_ (ih _)
    cases w.modules[source]? with
    | some m => exact looked_projectFor files m.uri w
    | none => exact .refl w

theorem looked_ask {α : Type} (files : Files) (x : Query α) (w : Workspace) :
    Looked files w (ask files x w).2 :=
  looked_countLookups files (w.answer files x).2 w

/-! ## Diagnostics -/

/-- The diagnostics that an analysis from scratch gives; a module that is not open has none, and
neither has one whose analysis is broken off. -/
def freshDiagnostics (w : Workspace) (files : Files) (uri : String) : List Diagnostic :=
  (w.openModuleId uri).elim [] fun i => (w.analysis files i).1.toOption.getD []

/-- An analysis is counted as begun, and so is the lookup that found nothing. -/
def begun (w : Workspace) : Workspace :=
  { w with cache := w.cache.countMiss, diagnosticsComputed := w.diagnosticsComputed + 1 }

/-- The trackers that the diagnostics of a module depend on. -/
def dependencies (w : Workspace) (files : Files) (i : ModuleId) : List TrackerId :=
  globals ++ w.trackersOf (w.analysis files i).2.loaded

/-- Diagnostics are stored together with what they depend on. -/
def keepDiagnostics (w : Workspace) (uri : String) (ds : List Diagnostic)
    (trackers : List TrackerId) : Workspace :=
  { w with cache := w.cache.store (diagnosticsKey uri) (.diagnostics ds) trackers }

theorem consistent_begun (h : Consistent files w) : Consistent files w.begun :=
  h.congr rfl rfl (fun hk => .inl hk)

theorem run_modify (f : Workspace → Workspace) (w : Workspace) :
    (modify f : StateM Workspace PUnit) w = (⟨⟩, f w) := rfl

/-- The computation in so many words. -/
theorem computeDiagnostics_eq {v : Workspace} {i : ModuleId}
    {result : Except EvalError (List Diagnostic)} {memory : Memory}
    (hr : { w with diagnosticsComputed := w.diagnosticsComputed + 1 }.answer files
      (PklAnalysis.diagnostics w.settings.reports i) = (result, memory))
    (hv : (countLookups files memory
      { w with diagnosticsComputed := w.diagnosticsComputed + 1 }).2 = v) :
    computeDiagnostics files i w =
      (result.toOption.map (fun ds => (ds, globals ++ w.trackersOf memory.loaded)), v) := by
  unfold computeDiagnostics
  simp only [bind, StateT.bind, get, getThe, MonadStateOf.get, StateT.get, pure]
  rw [run_modify]
  dsimp only
  rw [hr, ← hv]
  cases result <;> rfl

theorem run_computeDiagnostics (h : Consistent files w) (i : ModuleId) :
    ∃ v, Looked files w.begun v ∧
      computeDiagnostics files i (HasCache.withCache w (HasCache.cache w).countMiss) =
        ((w.analysis files i).1.toOption.map (fun ds => (ds, w.dependencies files i)), v) := by
  have hr : w.begun.answer files (PklAnalysis.diagnostics w.settings.reports i) =
      w.analysis files i := (consistent_begun h).answer _
  exact ⟨_, looked_countLookups files (w.analysis files i).2 w.begun, computeDiagnostics_eq hr rfl⟩

/-- All that comes of asking for the diagnostics of a module: it is not open, they have been kept,
or they are computed anew, in which case the analysis may be broken off. -/
inductive Diagnosed (files : Files) (uri : String) (w : Workspace) :
    List Diagnostic × Workspace → Prop
  | closed : w.openModuleId uri = none → Diagnosed files uri w ([], w)
  | kept {e : CacheEntry CachedResult} {ds : List Diagnostic} :
      w.cache.current? (diagnosticsKey uri) = some e → e.value = .diagnostics ds →
      Diagnosed files uri w (ds, { w with cache := w.cache.countHit })
  | broken {i : ModuleId} {err : EvalError} {v : Workspace} : w.openModuleId uri = some i →
      w.cache.current? (diagnosticsKey uri) = none → (w.analysis files i).1 = .error err →
      Looked files w.begun v → Diagnosed files uri w ([], v)
  | computed {i : ModuleId} {ds : List Diagnostic} {v : Workspace} : w.openModuleId uri = some i →
      w.cache.current? (diagnosticsKey uri) = none → (w.analysis files i).1 = .ok ds →
      Looked files w.begun v →
      Diagnosed files uri w (ds, v.keepDiagnostics uri ds (w.dependencies files i))

theorem diagnostics_cases (h : Consistent files w) (uri : String) :
    Diagnosed files uri w (diagnostics files uri w) := by
  unfold diagnostics
  simp only [bind, StateT.bind, get, getThe, MonadStateOf.get, StateT.get, pure]
  cases hi : w.openModuleId uri with
  | none => exact .closed hi
  | some i =>
    dsimp only
    unfold StateT.bind
    cases hc : w.cache.current? (diagnosticsKey uri) with
    | some e =>
      obtain ⟨he, hcur⟩ := Cache.current?_eq_some_iff.1 hc
      obtain ⟨_, ds, _, _, hv, _⟩ := (h.kept he).of_diagnosticsKey hcur
      have hl : (HasCache.cache w).lookup? CachedResult.diagnosticsKind (diagnosticsKey uri) =
          some ds := by
        show w.cache.lookup? _ _ = _
        rw [Cache.lookup?_of_current hc, hv]
        rfl
      rw [cached_of_hit hl]
      exact .kept hc hv
    | none =>
      have hl : (HasCache.cache w).lookup? CachedResult.diagnosticsKind (diagnosticsKey uri) =
          none := Cache.lookup?_of_not_current hc
      obtain ⟨v, hv, hr⟩ := run_computeDiagnostics h i
      cases ha : (w.analysis files i).1 with
      | error err =>
        rw [ha] at hr
        rw [cached_of_none hl hr]
        exact .broken hi hc ha hv
      | ok ds =>
        rw [ha] at hr
        rw [cached_of_some hl hr]
        exact .computed hi hc ha hv

/-- The diagnostics of the module at `uri` are kept and current. -/
def Holds (w : Workspace) (uri : String) : Prop :=
  ∃ e, w.cache.entries[diagnosticsKey uri]? = some e ∧ e.isCurrent w.cache.trackers = true

theorem Holds.of_looked {uri : String} (h : w.Holds uri) (hl : Looked files w w') :
    w'.Holds uri := by
  obtain ⟨e, he, hc⟩ := h
  refine ⟨e, (hl.diagnostics uri).trans he, ?_⟩
  rw [hl.trackers]
  exact hc

theorem Holds.current? {uri : String} (h : w.Holds uri) :
    w.cache.current? (diagnosticsKey uri) ≠ none := by
  obtain ⟨e, he⟩ := h
  rw [Cache.current?_eq_some_iff.2 he]
  exact Option.some_ne_none e

namespace Diagnosed

variable {uri : String} {ds : List Diagnostic}

theorem uncached (h : Diagnosed files uri w (ds, w')) : w'.uncached = w.uncached := by
  cases h with
  | closed | kept => rfl
  | broken _ _ _ hl => exact hl.uncached
  | computed _ _ _ hl => exact hl.uncached

theorem trackers (h : Diagnosed files uri w (ds, w')) :
    w'.cache.trackers = w.cache.trackers := by
  cases h with
  | closed | kept => rfl
  | broken _ _ _ hl => exact hl.trackers
  | computed _ _ _ hl => exact hl.trackers

/-- Kept or computed, the diagnostics are those of an analysis from scratch. -/
theorem fresh (hw : Consistent files w) (h : Diagnosed files uri w (ds, w')) :
    ds = w.freshDiagnostics files uri := by
  unfold freshDiagnostics
  cases h with
  | closed hi => rw [hi]; rfl
  | kept hc hv =>
    obtain ⟨he, hcur⟩ := Cache.current?_eq_some_iff.1 hc
    obtain ⟨i, ds', hi, ha, hv', _⟩ := (hw.kept he).of_diagnosticsKey hcur
    have hds : CachedResult.diagnostics ds' = .diagnostics ds := hv'.symm.trans hv
    cases hds
    rw [hi, Option.elim_some, ha]
    rfl
  | broken hi _ ha _ => rw [hi, Option.elim_some, ha]; rfl
  | computed hi _ ha _ => rw [hi, Option.elim_some, ha]; rfl

/-- What is stored depends on trackers that there are. -/
theorem mem_dependencies_lt (hw : Consistent files w) {i : ModuleId} {t : TrackerId}
    (ht : t ∈ w.dependencies files i) : t < w.cache.trackers.next := by
  rcases List.mem_append.1 ht with ht | ht
  · exact hw.globals t ht
  · obtain ⟨j, _, hj⟩ := List.mem_filterMap.1 ht
    obtain ⟨m, hm, rfl⟩ := Option.map_eq_some_iff.1 hj
    exact (hw.tracked hm).2

theorem consistent (hw : Consistent files w) (h : Diagnosed files uri w (ds, w')) :
    Consistent files w' := by
  cases h with
  | closed => exact hw
  | kept => exact hw.congr rfl rfl (fun hk => .inl hk)
  | broken _ _ _ hl => exact hl.consistent (consistent_begun hw)
  | @computed i ds v hi _ ha hl =>
    refine (hl.consistent (consistent_begun hw)).congr rfl rfl (fun {key e} hk => ?_)
    change (v.cache.entries.insert (diagnosticsKey uri) _)[key]? = some e at hk
    rw [Std.HashMap.getElem?_insert] at hk
    split at hk
    · next hkey =>
      cases hk
      cases beq_iff_eq.1 hkey
      have deps : ∀ v : Trackers, ((w.dependencies files i).map (fun t => (t, v.count t))).map (·.1) =
          w.dependencies files i := by
        intro v
        rw [List.map_map]
        exact List.map_id _
      refine .inr ⟨fun p hp => ?_, .diagnostics (fun g hg => ?_) (fun _ => ⟨i, ds, ?_, ?_, rfl, ?_⟩)⟩
      · obtain ⟨t, ht, rfl⟩ := List.mem_map.1 hp
        rw [hl.trackers]
        exact ⟨mem_dependencies_lt hw ht, Nat.le_refl _⟩
      · show g ∈ List.map _ (List.map _ _)
        rw [deps]
        exact List.mem_append_left _ hg
      · rw [openModuleId_congr hl.uncached]
        exact hi
      · rw [analysis_congr hl.uncached]
        exact ha
      · show List.map _ (List.map _ _) = _
        rw [deps, analysis_congr hl.uncached, trackersOf_congr hl.uncached]
        rfl
    · exact .inl hk

/-- A module that is open and whose analysis comes to an end has current diagnostics afterwards. -/
theorem holds (h : Diagnosed files uri w (ds, w')) {i : ModuleId} {ds' : List Diagnostic}
    (hi : w.openModuleId uri = some i) (ha : (w.analysis files i).1 = .ok ds') : w'.Holds uri := by
  cases h with
  | closed hn => rw [hi] at hn; cases hn
  | kept hc => exact ⟨_, Cache.current?_eq_some_iff.1 hc⟩
  | broken hj _ hb =>
    rw [hi] at hj
    cases hj
    rw [ha] at hb
    cases hb
  | @computed j ds v _ _ _ hl =>
    refine ⟨⟨.diagnostics ds,
      (w.dependencies files j).map (fun t => (t, v.cache.trackers.count t))⟩, ?_, ?_⟩
    · exact Std.HashMap.getElem?_insert_self
    · refine CacheEntry.isCurrent_iff.2 (fun p hp => ?_)
      obtain ⟨t, _, rfl⟩ := List.mem_map.1 hp
      rfl

/-- Diagnostics that are kept and current are not computed again. -/
theorem computed_eq_of_holds (h : Diagnosed files uri w (ds, w')) (hh : w.Holds uri) :
    w'.diagnosticsComputed = w.diagnosticsComputed := by
  cases h with
  | closed | kept => rfl
  | broken _ hn => exact absurd hn hh.current?
  | computed _ hn => exact absurd hn hh.current?

/-- Asking for the diagnostics of one module leaves those of the others where they are. -/
theorem holds_of_holds {other : String} (h : Diagnosed files uri w (ds, w'))
    (hh : w.Holds other) : w'.Holds other := by
  have started : w.begun.Holds other := hh
  cases h with
  | closed => exact hh
  | kept => exact hh
  | broken _ _ _ hl => exact started.of_looked hl
  | @computed j ds v _ hn _ hl =>
    obtain ⟨e, he, hc⟩ := started.of_looked hl
    refine ⟨e, ?_, hc⟩
    have hne : ¬ diagnosticsKey uri = diagnosticsKey other := by
      intro hk
      rw [hk] at hn
      exact hh.current? hn
    show (v.cache.entries.insert (diagnosticsKey uri) _)[diagnosticsKey other]? = some e
    rw [Std.HashMap.getElem?_insert, if_neg (by rwa [beq_iff_eq])]
    exact he

end Diagnosed

end PklAnalysis.Workspace
