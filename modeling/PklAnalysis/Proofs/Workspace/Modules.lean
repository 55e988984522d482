import PklAnalysis.Proofs.Workspace.Diagnostics

/-!
# Opening, replacing and closing modules

Every change to the modules, the projects or the settings of a workspace keeps its cache consistent.
Most changes are counted on a global tracker, on which all diagnostics depend
(`Consistent.of_global`). If the tree of an open module is replaced, the analyses that have not
loaded it come out the same (`analysis_withTree`), and those that have depend on its tracker
(`tracker_mem_trackersOf`).
-/

namespace PklAnalysis.Workspace

variable {files files' : Files} {w w' : Workspace}

/-! ## Addresses -/

theorem id?_eq_some_iff {uri : String} {i : ModuleId} : w.id? uri = some i ↔
    ∃ k : Nat, k + 1 = i ∧ w.addresses[k]? = some uri ∧ ∀ j < k, w.addresses[j]? ≠ some uri := by
  unfold id?
  rw [Option.map_eq_some_iff]
  constructor
  · rintro ⟨k, hk, rfl⟩
    obtain ⟨hu, hj⟩ := Array.finIdxOf?_eq_some_iff.1 hk
    refine ⟨k, rfl, ?_, fun j hlt h => ?_⟩
    · rw [Array.getElem?_eq_getElem k.isLt]
      exact congrArg some hu
    · have hs : j < w.addresses.size := Nat.lt_trans hlt k.isLt
      rw [Array.getElem?_eq_getElem hs] at h
      exact hj ⟨j, hs⟩ hlt (Option.some.inj h)
  · rintro ⟨k, rfl, hu, hj⟩
    obtain ⟨hs, hu⟩ := Array.getElem?_eq_some_iff.1 hu
    refine ⟨⟨k, hs⟩, Array.finIdxOf?_eq_some_iff.2 ⟨hu, fun j hlt h => ?_⟩, rfl⟩
    refine hj j hlt ?_
    rw [Array.getElem?_eq_getElem j.isLt]
    exact congrArg some h

theorem id?_inj {u v : String} {i : ModuleId} (hu : w.id? u = some i) (hv : w.id? v = some i) :
    u = v := by
  obtain ⟨k, rfl, hk, -⟩ := id?_eq_some_iff.1 hu
  obtain ⟨j, hj, hv', -⟩ := id?_eq_some_iff.1 hv
  obtain rfl := Nat.succ.inj hj
  exact Option.some.inj (hk.symm.trans hv')

/-- The workspace with one more address. -/
def withAddress (w : Workspace) (uri : String) : Workspace :=
  { w with addresses := w.addresses.push uri }

theorem id?_withAddress_of_some {uri other : String} {i : ModuleId} (h : w.id? other = some i) :
    (w.withAddress uri).id? other = some i := by
  obtain ⟨k, rfl, hu, hj⟩ := id?_eq_some_iff.1 h
  obtain ⟨hs, -⟩ := Array.getElem?_eq_some_iff.1 hu
  have old : ∀ j : Nat, j ≤ k → (w.withAddress uri).addresses[j]? = w.addresses[j]? := by
    intro j hjk
    show (w.addresses.push uri)[j]? = _
    rw [Array.getElem?_push, if_neg (by omega)]
  refine id?_eq_some_iff.2 ⟨k, rfl, ?_, fun j hlt => ?_⟩
  · rw [old k (Nat.le_refl k)]
    exact hu
  · rw [old j (Nat.le_of_lt hlt)]
    exact hj j hlt

theorem id?_withAddress_of_none {uri : String} (h : w.id? uri = none) :
    (w.withAddress uri).id? uri = some (w.addresses.size + 1) := by
  have hnot : uri ∉ w.addresses := by
    unfold id? at h
    rw [Option.map_eq_none_iff] at h
    exact Array.finIdxOf?_eq_none_iff.1 h
  refine id?_eq_some_iff.2 ⟨_, rfl, ?_, fun j hlt hj => hnot ?_⟩
  · show (w.addresses.push uri)[w.addresses.size]? = _
    rw [Array.getElem?_push, if_pos rfl]
  · change (w.addresses.push uri)[j]? = some uri at hj
    rw [Array.getElem?_push, if_neg (Nat.ne_of_lt hlt)] at hj
    exact Array.mem_of_getElem? hj

/-- An address that is new is not that of an open module. -/
theorem openModuleId_withAddress (hr : Registered w) (uri other : String) :
    (w.withAddress uri).openModuleId other = w.openModuleId other := by
  unfold openModuleId
  cases ho : w.id? other with
  | some i => rw [id?_withAddress_of_some ho]; rfl
  | none =>
    cases hn : (w.withAddress uri).id? other with
    | none => rfl
    | some i =>
      rw [Option.filter_none, Option.filter_eq_none_iff]
      rintro _ ⟨⟩ hc
      change w.modules.contains i = true at hc
      rw [Std.HashMap.contains_eq_isSome_getElem?] at hc
      obtain ⟨m, hm⟩ := Option.isSome_iff_exists.1 hc
      have hi := hr.addressed hm
      have he : m.uri = other := id?_inj (id?_withAddress_of_some hi) hn
      rw [he, ho] at hi
      cases hi

theorem registered_withAddress (hr : Registered w) (uri : String) :
    Registered (w.withAddress uri) :=
  ⟨hr.globals, fun hm => id?_withAddress_of_some (hr.addressed hm), hr.tracked, hr.apart⟩

/-! ## References -/

/-- References are resolved by the addresses of the open modules and the projects, whatever the
trees. -/
theorem resolve_uncached_eq
    (hm : ∀ i : ModuleId, w'.modules[i]?.map (·.uri) = w.modules[i]?.map (·.uri))
    (hp : w'.projectDirs = w.projectDirs)
    (ho : ∀ uri, w'.openModuleId uri = w.openModuleId uri) :
    w'.uncached.resolve files = w.uncached.resolve files := by
  funext i target
  have hn : w'.uncached.projectNow files = w.uncached.projectNow files := by
    funext dir
    rw [projectNow_uncached, projectNow_uncached]
  have hd : ∀ uri, w'.uncached.projectDir? uri = w.uncached.projectDir? uri := by
    intro uri
    unfold projectDir?
    rw [show w'.uncached.projectDirs = w.uncached.projectDirs from hp]
  have ho' : ∀ uri, w'.uncached.openModuleId uri = w.uncached.openModuleId uri := ho
  have hi := hm i
  unfold resolve
  change (w'.uncached.modules[i]?).map (·.uri) = (w.uncached.modules[i]?).map (·.uri) at hi
  cases hm' : w'.uncached.modules[i]? with
  | none =>
    rw [hm', Option.map_none, eq_comm, Option.map_eq_none_iff] at hi
    rw [hi]
    rfl
  | some m' =>
    rw [hm', Option.map_some, eq_comm, Option.map_eq_some_iff] at hi
    obtain ⟨m, hm, hu⟩ := hi
    rw [hm]
    simp only [Option.bind_eq_bind, Option.bind_some]
    rw [hn, hd, hu]
    simp only [ho']

theorem source_uncached_eq (hm : w'.modules = w.modules) (hp : w'.projectDirs = w.projectDirs)
    (ho : ∀ uri, w'.openModuleId uri = w.openModuleId uri) :
    w'.uncached.source files = w.uncached.source files := by
  have hr : w'.uncached.resolve files = w.uncached.resolve files :=
    resolve_uncached_eq (fun i => by rw [hm]) hp ho
  unfold source
  rw [hr, show w'.uncached.modules = w.uncached.modules from hm]

/-- A new address changes no analysis. -/
theorem analysis_withAddress (hr : Registered w) (uri : String) (i : ModuleId) :
    (w.withAddress uri).analysis files i = w.analysis files i := by
  have hs : (w.withAddress uri).uncached.source files = w.uncached.source files :=
    source_uncached_eq rfl rfl (openModuleId_withAddress hr uri)
  unfold analysis answer
  rw [hs]
  rfl

theorem consistent_withAddress (h : Consistent files w) (uri : String) :
    Consistent files (w.withAddress uri) := by
  refine ⟨registered_withAddress h.toRegistered uri, h.dated, fun hk => ?_⟩
  cases h.kept hk with
  | diagnostics hg hc =>
    refine .diagnostics hg (fun hcur => ?_)
    obtain ⟨i, ds, hi, ha, hv, hd⟩ := hc hcur
    refine ⟨i, ds, ?_, ?_, hv, ?_⟩
    · rw [openModuleId_withAddress h.toRegistered, hi]
    · rw [analysis_withAddress h.toRegistered, ha]
    · rw [analysis_withAddress h.toRegistered]
      exact hd
  | project hd hc => exact .project hd hc

/-! ## Global changes -/

/-- All entries that depend on a global tracker are out of date once a change is counted on it, and
the others are about projects. -/
theorem Consistent.of_global (h : Consistent files w) (hr : Registered w') {g : TrackerId}
    {t : Trackers} (hg : g ∈ Workspace.globals)
    (hf : files' = files ∨ g = projectSync ∨ g = packageDownload)
    (ht : t = w.cache.trackers ∨ t = w.cache.trackers.add)
    (hw : w'.cache.trackers = t.increment g)
    (he : ∀ {key : String} {e : CacheEntry CachedResult}, w'.cache.entries[key]? = some e →
      w.cache.entries[key]? = some e) : Consistent files' w' := by
  have hnext : g < t.next := by
    have hlt := h.globals g hg
    rcases ht with rfl | rfl
    · exact hlt
    · rw [Trackers.next_add]
      exact Nat.lt_succ_of_lt hlt
  have dated : ∀ {key : String} {e : CacheEntry CachedResult}, w'.cache.entries[key]? = some e →
      e.Dated t := by
    intro key e hk
    have hd := h.dated (he hk)
    rcases ht with rfl | rfl
    · exact hd
    · exact hd.add
  have current : ∀ {key : String} {e : CacheEntry CachedResult},
      w'.cache.entries[key]? = some e → e.isCurrent w'.cache.trackers = true →
      g ∉ e.trackers ∧ e.isCurrent w.cache.trackers = true := by
    intro key e hk hcur
    rw [hw, (dated hk).isCurrent_increment hnext] at hcur
    refine ⟨hcur.1, ?_⟩
    rcases ht with rfl | rfl
    · exact hcur.2
    · rw [← CacheEntry.isCurrent_add]
      exact hcur.2
  refine ⟨hr, fun hk => ?_, fun {key e} hk => ?_⟩
  · rw [hw]
    exact (dated hk).increment hnext
  · have hcurrent := current hk
    cases h.kept (he hk) with
    | diagnostics hd _ =>
      exact .diagnostics hd (fun hcur => absurd (hd g hg) (hcurrent hcur).1)
    | project hd hc =>
      refine .project hd (fun hcur => ?_)
      obtain ⟨hn, hold⟩ := hcurrent hcur
      rw [hd] at hn
      rcases hf with rfl | rfl | rfl
      · exact hc hold
      · exact absurd List.mem_cons_self hn
      · exact absurd (List.mem_cons_of_mem _ List.mem_cons_self) hn

/-- A global tracker counts a change of the settings or the projects. -/
theorem Consistent.touch (h : Consistent files w) {g : TrackerId} (hg : g ∈ Workspace.globals)
    (hf : files' = files ∨ g = projectSync ∨ g = packageDownload) (hm : w'.modules = w.modules)
    (ha : w'.addresses = w.addresses) (hc : w'.cache = w.cache.touch g) : Consistent files' w' := by
  refine h.of_global ⟨?_, ?_, ?_, ?_⟩ hg hf (.inl rfl) (by rw [hc]; rfl) (fun hk => ?_)
  · rw [hc]
    intro t ht
    show t < (w.cache.trackers.increment g).next
    rw [Trackers.next_increment]
    exact h.globals t ht
  · rw [hm]
    unfold id?
    rw [ha]
    exact h.addressed
  · rw [hm, hc]
    intro i m hi
    show _ ∧ m.tracker < (w.cache.trackers.increment g).next
    rw [Trackers.next_increment]
    exact h.tracked hi
  · rw [hm]
    exact h.apart
  · rw [hc] at hk
    exact hk

/-! ## Modules -/

/-- The workspace in which a module with a new tracker is open at a free id. -/
def withModule (w : Workspace) (i : ModuleId) (tree : SyntaxTree) : Workspace :=
  { w with
    modules := w.modules.insert i ⟨tree.uri, tree, w.cache.trackers.next⟩
    cache := w.cache.addTracker }.touch moduleSet

theorem moduleSet_mem_globals : moduleSet ∈ Workspace.globals := List.mem_cons_self

theorem consistent_withModule (h : Consistent files w) {i : ModuleId} {tree : SyntaxTree}
    (hi : w.id? tree.uri = some i) : Consistent files (w.withModule i tree) := by
  have hnext : (w.withModule i tree).cache.trackers.next = w.cache.trackers.next + 1 := by
    show (w.cache.trackers.add.increment moduleSet).next = _
    rw [Trackers.next_increment, Trackers.next_add]
  -- an open module is the new one, or it was open before and has an older tracker
  have cases : ∀ {j : ModuleId} {m : OpenModule}, (w.withModule i tree).modules[j]? = some m →
      (j = i ∧ m = ⟨tree.uri, tree, w.cache.trackers.next⟩) ∨
        (w.modules[j]? = some m ∧ m.tracker < w.cache.trackers.next) := by
    intro j m hm
    change (w.modules.insert i _)[j]? = some m at hm
    rw [Std.HashMap.getElem?_insert] at hm
    split at hm
    · next hj =>
      cases hm
      exact .inl ⟨(beq_iff_eq.1 hj).symm, rfl⟩
    · exact .inr ⟨hm, (h.tracked hm).2⟩
  refine h.of_global ⟨fun g hg => ?_, fun {j m} hm => ?_, fun {j m} hm => ?_,
    fun {j k m n} hm hn ht => ?_⟩ moduleSet_mem_globals (.inl rfl) (.inr rfl) rfl (fun hk => hk)
  · rw [hnext]
    exact Nat.lt_succ_of_lt (h.globals g hg)
  · rcases cases hm with ⟨rfl, rfl⟩ | ⟨hm, -⟩
    · exact hi
    · exact h.addressed hm
  · rw [hnext]
    rcases cases hm with ⟨rfl, rfl⟩ | ⟨hm, hlt⟩
    · exact ⟨fun hg => Nat.lt_irrefl _ (h.globals _ hg), Nat.lt_succ_self _⟩
    · exact ⟨(h.tracked hm).1, Nat.lt_succ_of_lt hlt⟩
  · rcases cases hm with ⟨rfl, rfl⟩ | ⟨hm, hmt⟩
    · rcases cases hn with ⟨rfl, rfl⟩ | ⟨hn, hnt⟩
      · rfl
      · rw [← ht] at hnt
        exact absurd hnt (Nat.lt_irrefl _)
    · rcases cases hn with ⟨rfl, rfl⟩ | ⟨hn, -⟩
      · rw [ht] at hmt
        exact absurd hmt (Nat.lt_irrefl _)
      · exact h.apart hm hn ht

theorem consistent_closeModule (h : Consistent files w) (uri : String) :
    Consistent files (w.closeModule uri).2 := by
  unfold closeModule
  cases ho : w.openModuleId uri with
  | none => exact h
  | some i =>
    let v : Workspace :=
      { w with
        modules := w.modules.erase i
        cache := w.cache.erase (diagnosticsKey uri) }.touch moduleSet
    have before : ∀ {j : ModuleId} {m : OpenModule}, v.modules[j]? = some m →
        w.modules[j]? = some m := by
      intro j m hm
      change (w.modules.erase i)[j]? = some m at hm
      rw [Std.HashMap.getElem?_erase] at hm
      split at hm
      · cases hm
      · exact hm
    have hnext : v.cache.trackers.next = w.cache.trackers.next :=
      Trackers.next_increment w.cache.trackers moduleSet
    show Consistent files v
    refine h.of_global ⟨fun g hg => ?_, fun hm => h.addressed (before hm), fun {j m} hm => ?_,
      fun hm hn ht => h.apart (before hm) (before hn) ht⟩ moduleSet_mem_globals (.inl rfl)
      (.inl rfl) rfl (fun {key e} hk => ?_)
    · rw [hnext]
      exact h.globals g hg
    · rw [hnext]
      exact h.tracked (before hm)
    · change (w.cache.entries.erase (diagnosticsKey uri))[key]? = some e at hk
      rw [Std.HashMap.getElem?_erase] at hk
      split at hk
      · cases hk
      · exact hk

/-! ## Replacing a tree -/

/-- The workspace in which the tree of an open module is replaced. -/
def withTree (w : Workspace) (i : ModuleId) (m : OpenModule) (tree : SyntaxTree) : Workspace :=
  { w with modules := w.modules.insert i { m with tree } }.touch m.tracker

section

variable {i : ModuleId} {m : OpenModule} (tree : SyntaxTree) (hi : w.modules[i]? = some m)
include hi

theorem openModuleId_withTree (uri : String) :
    (w.withTree i m tree).openModuleId uri = w.openModuleId uri := by
  have hc : (w.modules.insert i { m with tree }).contains = w.modules.contains := by
    funext j
    rw [Std.HashMap.contains_insert]
    by_cases hj : i = j
    · rw [← hj, Std.HashMap.contains_eq_isSome_getElem?, hi, beq_self_eq_true]
      rfl
    · rw [beq_false_of_ne hj]
      rfl
  unfold openModuleId
  show ((w.id? uri).filter (w.modules.insert i { m with tree }).contains) = _
  rw [hc]

/-- Nothing but trees is different. -/
theorem map_modules_withTree {α : Type} {f : OpenModule → α} (hf : ∀ m t, f { m with tree := t } = f m)
    (j : ModuleId) : (w.withTree i m tree).modules[j]?.map f = w.modules[j]?.map f := by
  show (w.modules.insert i { m with tree })[j]?.map f = _
  rw [Std.HashMap.getElem?_insert]
  split
  · next hj =>
    rw [← beq_iff_eq.1 hj, hi]
    exact congrArg some (hf m tree)
  · rfl

theorem trackersOf_withTree (loaded : List ModuleId) :
    (w.withTree i m tree).trackersOf loaded = w.trackersOf loaded := by
  have hm : (fun j : ModuleId => (w.withTree i m tree).modules[j]?.map OpenModule.tracker) =
      fun j : ModuleId => w.modules[j]?.map OpenModule.tracker :=
    funext (map_modules_withTree tree hi (fun _ _ => rfl))
  unfold trackersOf
  rw [hm]

/-- An analysis that has not loaded a module comes out the same with another tree of it. -/
theorem analysis_withTree {j : ModuleId} (hl : i ∉ (w.analysis files j).2.loaded) :
    (w.withTree i m tree).analysis files j = w.analysis files j := by
  refine Session.run_eq_of_loaded (fun k uri => ?_) (fun k hk => ?_)
  · have hr : (w.withTree i m tree).uncached.resolve files = w.uncached.resolve files :=
      resolve_uncached_eq (map_modules_withTree tree hi (fun _ _ => rfl)) rfl
        (openModuleId_withTree tree hi)
    exact congrFun (congrFun hr k) uri
  · have hne : ¬ (i == k) = true := by
      intro he
      rw [beq_iff_eq.1 he] at hl
      exact hl hk
    show (w.modules.insert i { m with tree })[k]?.map (·.tree) = w.modules[k]?.map (·.tree)
    rw [Std.HashMap.getElem?_insert, if_neg hne]

omit tree hi in
/-- Exactly what has loaded a module depends on its tracker. -/
theorem tracker_mem_trackersOf (h : Registered w) (hi : w.modules[i]? = some m)
    {loaded : List ModuleId} : m.tracker ∈ w.trackersOf loaded ↔ i ∈ loaded := by
  constructor
  · intro ht
    obtain ⟨j, hj, hm⟩ := List.mem_filterMap.1 ht
    obtain ⟨n, hn, hmn⟩ := Option.map_eq_some_iff.1 hm
    exact h.apart hn hi hmn ▸ hj
  · intro hl
    exact List.mem_filterMap.2 ⟨i, hl, by rw [hi]; rfl⟩

theorem registered_withTree (h : Registered w) : Registered (w.withTree i m tree) := by
  have hnext : (w.withTree i m tree).cache.trackers.next = w.cache.trackers.next :=
    Trackers.next_increment w.cache.trackers m.tracker
  -- every open module was open before, with the same address and the same tracker
  have before : ∀ {j : ModuleId} {n : OpenModule}, (w.withTree i m tree).modules[j]? = some n →
      ∃ k, w.modules[j]? = some k ∧ k.uri = n.uri ∧ k.tracker = n.tracker := by
    intro j n hn
    change (w.modules.insert i { m with tree })[j]? = some n at hn
    rw [Std.HashMap.getElem?_insert] at hn
    split at hn
    · next hj =>
      cases hn
      exact ⟨m, by rw [← beq_iff_eq.1 hj, hi], rfl, rfl⟩
    · exact ⟨n, hn, rfl, rfl⟩
  refine ⟨fun g hg => ?_, fun {j n} hn => ?_, fun {j n} hn => ?_, fun {j k n l} hn hl ht => ?_⟩
  · rw [hnext]
    exact h.globals g hg
  · obtain ⟨k, hk, hu, -⟩ := before hn
    rw [← hu]
    exact h.addressed hk
  · obtain ⟨k, hk, -, ht⟩ := before hn
    rw [hnext, ← ht]
    exact h.tracked hk
  · obtain ⟨a, ha, -, hat⟩ := before hn
    obtain ⟨b, hb, -, hbt⟩ := before hl
    exact h.apart ha hb (by rw [hat, hbt, ht])

theorem consistent_withTree (h : Consistent files w) : Consistent files (w.withTree i m tree) := by
  obtain ⟨hglobal, hlt⟩ := h.tracked hi
  refine ⟨registered_withTree tree hi h.toRegistered, fun hk => (h.dated hk).increment hlt,
    fun {key e} hk => ?_⟩
  have hcurrent := (h.dated hk).isCurrent_increment hlt
  cases h.kept hk with
  | diagnostics hg hc =>
    refine .diagnostics hg (fun hcur => ?_)
    obtain ⟨hnot, hold⟩ := hcurrent.1 hcur
    obtain ⟨j, ds, hj, ha, hv, hd⟩ := hc hold
    have hl : i ∉ (w.analysis files j).2.loaded := by
      intro hl
      rw [hd] at hnot
      exact hnot (List.mem_append_right _ ((tracker_mem_trackersOf h.toRegistered hi).2 hl))
    refine ⟨j, ds, ?_, ?_, hv, ?_⟩
    · rw [openModuleId_withTree tree hi, hj]
    · rw [analysis_withTree tree hi hl, ha]
    · rw [analysis_withTree tree hi hl, trackersOf_withTree tree hi, hd]
  | project hd hc => exact .project hd (fun hcur => hc (hcurrent.1 hcur).2)

end

/-! ## Updates -/

theorem moduleId_eq_or (w : Workspace) (uri : String) :
    (w.moduleId uri).2 = w ∨ (w.moduleId uri).2 = w.withAddress uri := by
  unfold moduleId
  cases w.id? uri with
  | some i => exact .inl rfl
  | none => exact .inr rfl

theorem id?_moduleId (w : Workspace) (uri : String) :
    (w.moduleId uri).2.id? uri = some (w.moduleId uri).1 := by
  unfold moduleId
  cases h : w.id? uri with
  | some i => exact h
  | none => exact id?_withAddress_of_none h

/-- A tree is rejected, it opens a module, or it replaces another one. -/
theorem updateModule_cases (w : Workspace) (tree : SyntaxTree) {i : ModuleId} {v : Workspace}
    (h : w.moduleId tree.uri = (i, v)) :
    (tree.module ≠ i ∧ (w.updateModule tree).2 = v) ∨
      (tree.module = i ∧ v.modules[i]? = none ∧ (w.updateModule tree).2 = v.withModule i tree) ∨
      ∃ m, tree.module = i ∧ v.modules[i]? = some m ∧
        (w.updateModule tree).2 = v.withTree i m tree := by
  unfold updateModule
  rw [h]
  by_cases hi : tree.module = i
  · dsimp only
    rw [if_pos hi]
    cases hm : v.modules[i]? with
    | none => exact .inr (.inl ⟨hi, rfl, rfl⟩)
    | some m => exact .inr (.inr ⟨m, hi, rfl, rfl⟩)
  · dsimp only
    rw [if_neg hi]
    exact .inl ⟨hi, rfl⟩

theorem consistent_moduleId (h : Consistent files w) (uri : String) :
    Consistent files (w.moduleId uri).2 := by
  rcases moduleId_eq_or w uri with he | he
  · rw [he]
    exact h
  · rw [he]
    exact consistent_withAddress h uri

theorem consistent_updateModule (h : Consistent files w) (tree : SyntaxTree) :
    Consistent files (w.updateModule tree).2 := by
  have hv := consistent_moduleId h tree.uri
  have hid := id?_moduleId w tree.uri
  obtain ⟨-, hu⟩ | ⟨-, -, hu⟩ | ⟨m, -, hm, hu⟩ := updateModule_cases w tree rfl
  · rw [hu]
    exact hv
  · rw [hu]
    exact consistent_withModule hv hid
  · rw [hu]
    exact consistent_withTree tree hm hv

/-! ## Open trees -/

theorem tree?_eq (w : Workspace) (uri : String) :
    w.tree? uri = (w.id? uri).bind fun i => w.modules[i]?.map (·.tree) := by
  unfold tree? openModuleId
  cases w.id? uri with
  | none => rfl
  | some i =>
    rw [Option.filter_some, Option.bind_some]
    by_cases hc : w.modules.contains i = true
    · rw [if_pos hc, Option.bind_some]
    · rw [if_neg hc]
      rw [Std.HashMap.contains_eq_isSome_getElem?, Option.not_isSome_iff_eq_none] at hc
      rw [hc]
      rfl

/-- The open modules are those with a tree. -/
theorem openModuleId_eq (w : Workspace) (uri : String) :
    w.openModuleId uri = if (w.tree? uri).isSome then w.id? uri else none := by
  rw [tree?_eq]
  unfold openModuleId
  cases w.id? uri with
  | none => exact (ite_self none).symm
  | some i =>
    rw [Option.filter_some, Option.bind_some, Option.isSome_map,
      Std.HashMap.contains_eq_isSome_getElem?]

theorem tree?_congr {v : Workspace} (hu : v.uncached = w.uncached) (uri : String) :
    v.tree? uri = w.tree? uri := by
  show v.uncached.tree? uri = w.uncached.tree? uri
  rw [hu]

theorem tree?_withAddress (hr : Registered w) (uri other : String) :
    (w.withAddress uri).tree? other = w.tree? other := by
  unfold tree?
  rw [openModuleId_withAddress hr]
  rfl

theorem tree?_moduleId (hr : Registered w) (uri other : String) :
    (w.moduleId uri).2.tree? other = w.tree? other := by
  rcases moduleId_eq_or w uri with he | he <;> rw [he]
  exact tree?_withAddress hr uri other

/-- A module that is put at the id of an address has its tree there. -/
theorem tree?_of_insert (v : Workspace) {uri : String} {i : ModuleId} {m : OpenModule}
    (hi : w.id? uri = some i) (ha : v.addresses = w.addresses)
    (hm : v.modules = w.modules.insert i m) (other : String) :
    v.tree? other = if other = uri then some m.tree else w.tree? other := by
  have hv : v.id? other = w.id? other := by
    unfold id?
    rw [ha]
  rw [tree?_eq, tree?_eq, hv, hm]
  by_cases ho : other = uri
  · rw [if_pos ho, ho, hi, Option.bind_some, Std.HashMap.getElem?_insert_self]
    rfl
  · rw [if_neg ho]
    cases hj : w.id? other with
    | none => rfl
    | some j =>
      have hne : ¬ (i == j) = true := fun he => ho (id?_inj (beq_iff_eq.1 he ▸ hj) hi)
      rw [Option.bind_some, Option.bind_some, Std.HashMap.getElem?_insert, if_neg hne]

theorem tree?_withModule {tree : SyntaxTree} {i : ModuleId} (hi : w.id? tree.uri = some i)
    (other : String) :
    (w.withModule i tree).tree? other = if other = tree.uri then some tree else w.tree? other :=
  tree?_of_insert (w.withModule i tree) hi rfl rfl other

theorem tree?_withTree {tree : SyntaxTree} {i : ModuleId} (hi : w.id? tree.uri = some i)
    (m : OpenModule) (other : String) :
    (w.withTree i m tree).tree? other = if other = tree.uri then some tree else w.tree? other :=
  tree?_of_insert (w.withTree i m tree) hi rfl rfl other

/-- A tree takes its place if it was built with the id of its address; nothing else changes. -/
theorem tree?_updateModule (hr : Registered w) (tree : SyntaxTree) (uri : String) :
    (w.updateModule tree).2.tree? uri =
      if tree.module = (w.moduleId tree.uri).1 ∧ uri = tree.uri then some tree else w.tree? uri := by
  have hid := id?_moduleId w tree.uri
  have old := tree?_moduleId hr tree.uri uri
  rcases he : w.moduleId tree.uri with ⟨i, v⟩
  rw [he] at hid old
  dsimp only at hid old ⊢
  obtain ⟨hn, hu⟩ | ⟨hi, -, hu⟩ | ⟨m, hi, -, hu⟩ := updateModule_cases w tree he
  · rw [hu, old, if_neg (fun h => hn h.1)]
  · rw [hu, tree?_withModule hid, old]
    simp only [hi, true_and]
  · rw [hu, tree?_withTree hid, old]
    simp only [hi, true_and]

/-- Whether it was open or not, a module that is closed has no tree. -/
theorem tree?_closeModule (w : Workspace) (uri other : String) :
    (w.closeModule uri).2.tree? other = if other = uri then none else w.tree? other := by
  unfold closeModule
  cases ho : w.openModuleId uri with
  | none =>
    show w.tree? other = _
    by_cases h : other = uri
    · rw [if_pos h, h]
      unfold tree?
      rw [ho]
      rfl
    · rw [if_neg h]
  | some i =>
    have hi : w.id? uri = some i := (Option.filter_eq_some_iff.1 ho).1
    show Workspace.tree? { w with modules := w.modules.erase i, cache := _ } other = _
    rw [tree?_eq, tree?_eq]
    show ((w.id? other).bind fun j => (w.modules.erase i)[j]?.map (·.tree)) = _
    split
    · next h =>
      rw [h, hi, Option.bind_some, Std.HashMap.getElem?_erase_self]
      rfl
    · next h =>
      cases hj : w.id? other with
      | none => rfl
      | some j =>
        have hne : ¬ (i == j) = true := fun he => h (id?_inj (beq_iff_eq.1 he ▸ hj) hi)
        rw [Option.bind_some, Option.bind_some, Std.HashMap.getElem?_erase, if_neg hne]

end PklAnalysis.Workspace
