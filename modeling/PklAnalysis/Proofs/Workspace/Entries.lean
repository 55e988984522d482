import PklAnalysis.Proofs.Session.Locality
import PklAnalysis.Workspace.Analysis

/-!
# What the cache of a workspace holds

An entry that is current was made from what the workspace holds now: the diagnostics of a module are
those of an analysis from scratch, a project is what its files say (`Workspace.Kept`). An entry that
is not current never becomes current again, for the counts of trackers only grow (`Dated.increment`,
`Dated.isCurrent_increment`).

`Workspace.Consistent` says this of all entries, and that open modules have trackers of their own.
-/

namespace PklAnalysis

/-! ## Trackers -/

namespace Trackers

theorem next_increment (t : Trackers) (i : TrackerId) : (t.increment i).next = t.next :=
  Array.size_modify

theorem next_add (t : Trackers) : t.add.next = t.next + 1 := Array.size_push 0

end Trackers

namespace CacheEntry

variable {ν : Type} {e : CacheEntry ν} {t : Trackers} {i : TrackerId}

/-- The trackers that an entry depends on. -/
def trackers (e : CacheEntry ν) : List TrackerId := e.dependencies.map (·.1)

/-- The trackers of an entry exist, and have counted at least as much as when it was stored. -/
def Dated (t : Trackers) (e : CacheEntry ν) : Prop :=
  ∀ p ∈ e.dependencies, p.1 < t.next ∧ p.2 ≤ t.count p.1

theorem isCurrent_iff : e.isCurrent t = true ↔ ∀ p ∈ e.dependencies, t.count p.1 = p.2 := by
  unfold isCurrent
  rw [List.all_eq_true]
  exact forall₂_congr (fun p _ => beq_iff_eq)

theorem Dated.add (h : e.Dated t) : e.Dated t.add := by
  intro p hp
  have hd := h p hp
  rw [Trackers.next_add, Trackers.count_add]
  exact ⟨Nat.lt_succ_of_lt hd.1, hd.2⟩

theorem isCurrent_add : e.isCurrent t.add = e.isCurrent t := by
  unfold isCurrent
  simp only [Trackers.count_add]

theorem Dated.increment (h : e.Dated t) (hi : i < t.next) : e.Dated (t.increment i) := by
  intro p hp
  have hd := h p hp
  rw [Trackers.next_increment, Trackers.count_increment t i p.1 hi]
  refine ⟨hd.1, ?_⟩
  split
  · exact Nat.le_succ_of_le hd.2
  · exact hd.2

/-- Once a change is counted, exactly the entries that do not depend on it are still current. -/
theorem Dated.isCurrent_increment (h : e.Dated t) (hi : i < t.next) :
    e.isCurrent (t.increment i) = true ↔ i ∉ e.trackers ∧ e.isCurrent t = true := by
  rw [isCurrent_iff, isCurrent_iff]
  constructor
  · intro hc
    have apart : ∀ p ∈ e.dependencies, i ≠ p.1 := by
      intro p hp hip
      have hd := (h p hp).2
      have hn := hc p hp
      rw [Trackers.count_increment t i p.1 hi, if_pos hip] at hn
      omega
    refine ⟨fun hmem => ?_, fun p hp => ?_⟩
    · obtain ⟨p, hp, hip⟩ := List.mem_map.1 hmem
      exact apart p hp hip.symm
    · have hn := hc p hp
      rwa [Trackers.count_increment t i p.1 hi, if_neg (apart p hp)] at hn
  · rintro ⟨hmem, hc⟩ p hp
    have apart : i ≠ p.1 := fun hip => hmem (hip ▸ List.mem_map_of_mem hp)
    rw [Trackers.count_increment t i p.1 hi, if_neg apart]
    exact hc p hp

end CacheEntry

namespace Cache

variable {ν α : Type} {c : Cache ν} {kind : ValueKind ν α} {key : String} {e : CacheEntry ν}

theorem current?_eq_some_iff :
    c.current? key = some e ↔ c.entries[key]? = some e ∧ e.isCurrent c.trackers = true := by
  unfold current?
  rw [Option.filter_eq_some_iff]

theorem lookup?_of_current (h : c.current? key = some e) :
    c.lookup? kind key = kind.unwrap e.value := by
  unfold lookup?
  rw [h]
  rfl

theorem lookup?_of_not_current (h : c.current? key = none) : c.lookup? kind key = none := by
  unfold lookup?
  rw [h]
  rfl

end Cache

/-! ## Looking a value up -/

section

variable {σ ν α : Type} [HasCache σ ν] {kind : ValueKind ν α} {key : String}
  {compute : StateM σ (Option (α × List TrackerId))} {s s' : σ}

theorem run_modifyCache (f : Cache ν → Cache ν) (s : σ) :
    modifyCache f s = ((), HasCache.withCache s (f (HasCache.cache s))) := rfl

theorem cached_of_hit {a : α} (h : (HasCache.cache s).lookup? kind key = some a) :
    cached kind key compute s = (some a, HasCache.withCache s (HasCache.cache s).countHit) := by
  unfold cached
  simp only [bind, StateT.bind, get, getThe, MonadStateOf.get, StateT.get, pure, h]
  rfl

theorem cached_of_none (h : (HasCache.cache s).lookup? kind key = none)
    (hc : compute (HasCache.withCache s (HasCache.cache s).countMiss) = (none, s')) :
    cached kind key compute s = (none, s') := by
  unfold cached
  simp only [bind, StateT.bind, get, getThe, MonadStateOf.get, StateT.get, pure, h]
  rw [run_modifyCache]
  dsimp only
  rw [hc]
  rfl

theorem cached_of_some {a : α} {ds : List TrackerId}
    (h : (HasCache.cache s).lookup? kind key = none)
    (hc : compute (HasCache.withCache s (HasCache.cache s).countMiss) = (some (a, ds), s')) :
    cached kind key compute s = (some a,
      HasCache.withCache s' ((HasCache.cache s').store key (kind.wrap a) ds)) := by
  unfold cached
  simp only [bind, StateT.bind, get, getThe, MonadStateOf.get, StateT.get, pure, h]
  rw [run_modifyCache]
  dsimp only
  rw [hc]
  rfl

end

/-! ## What is to be kept -/

namespace Workspace

variable {files : Files} {w w' : Workspace}

/-- A workspace with the same modules, projects and settings that keeps nothing yet. -/
def uncached (w : Workspace) : Workspace :=
  { w with cache := {}, diagnosticsComputed := 0, projectsLoaded := 0 }

/-- An analysis from scratch, for which every project is read anew. -/
def analysis (w : Workspace) (files : Files) (i : ModuleId) :
    Except EvalError (List Diagnostic) × Memory :=
  w.uncached.answer files (PklAnalysis.diagnostics w.settings.reports i)

/-- The trackers of the open modules among the given ones. -/
def trackersOf (w : Workspace) (loaded : List ModuleId) : List TrackerId :=
  loaded.filterMap fun j => w.modules[j]?.map (·.tracker)

/-- The trackers of the workspace as a whole. -/
def globals : List TrackerId := [moduleSet, projectSync, packageDownload, settingsChanged]

theorem diagnosticsKey_ne_projectKey (uri : String) (dir : Path) :
    diagnosticsKey uri ≠ projectKey dir := by
  intro h
  have hl := congrArg String.toList h
  unfold diagnosticsKey projectKey at hl
  rw [String.toList_append, String.toList_append] at hl
  cases hl

theorem diagnosticsKey_inj {u v : String} (h : diagnosticsKey u = diagnosticsKey v) : u = v := by
  have hl := congrArg String.toList h
  unfold diagnosticsKey at hl
  rw [String.toList_append, String.toList_append] at hl
  exact String.toList_inj.1 (List.append_cancel_left hl)

theorem projectKey_inj {d e : Path} (h : projectKey d = projectKey e) : d = e := by
  have hl := congrArg String.toList h
  unfold projectKey at hl
  rw [String.toList_append, String.toList_append] at hl
  have ht := String.toList_inj.1 (List.append_cancel_left hl)
  cases d
  cases e
  exact congrArg Path.mk ht

/-- What an entry is about, and that it is right if it is current. -/
inductive Kept (w : Workspace) (files : Files) : String → CacheEntry CachedResult → Prop
  | diagnostics {uri : String} {e : CacheEntry CachedResult} :
      (∀ g ∈ globals, g ∈ e.trackers) →
      (e.isCurrent w.cache.trackers = true → ∃ i ds, w.openModuleId uri = some i ∧
        (w.analysis files i).1 = .ok ds ∧ e.value = .diagnostics ds ∧
        e.trackers = globals ++ w.trackersOf (w.analysis files i).2.loaded) →
      Kept w files (diagnosticsKey uri) e
  | project {dir : Path} {e : CacheEntry CachedResult} :
      e.trackers = [projectSync, packageDownload] →
      (e.isCurrent w.cache.trackers = true →
        e.value = .project (Project.load files dir).toOption) →
      Kept w files (projectKey dir) e

theorem Kept.of_diagnosticsKey {uri : String} {e : CacheEntry CachedResult}
    (h : w.Kept files (diagnosticsKey uri) e) (hc : e.isCurrent w.cache.trackers = true) :
    ∃ i ds, w.openModuleId uri = some i ∧ (w.analysis files i).1 = .ok ds ∧
      e.value = .diagnostics ds ∧
      e.trackers = globals ++ w.trackersOf (w.analysis files i).2.loaded := by
  generalize hk : diagnosticsKey uri = key at h
  cases h with
  | diagnostics _ h => exact diagnosticsKey_inj hk ▸ h hc
  | project => exact absurd hk (diagnosticsKey_ne_projectKey _ _)

theorem Kept.of_projectKey {dir : Path} {e : CacheEntry CachedResult}
    (h : w.Kept files (projectKey dir) e) (hc : e.isCurrent w.cache.trackers = true) :
    e.value = .project (Project.load files dir).toOption := by
  generalize hk : projectKey dir = key at h
  cases h with
  | diagnostics => exact absurd hk.symm (diagnosticsKey_ne_projectKey _ _)
  | project _ h => exact projectKey_inj hk ▸ h hc

/-- The ids of open modules belong to their addresses, and their trackers are no global ones and
differ. -/
structure Registered (w : Workspace) : Prop where
  globals : ∀ g ∈ globals, g < w.cache.trackers.next
  addressed : ∀ {i : ModuleId} {m : OpenModule}, w.modules[i]? = some m → w.id? m.uri = some i
  tracked : ∀ {i : ModuleId} {m : OpenModule}, w.modules[i]? = some m →
    m.tracker ∉ Workspace.globals ∧ m.tracker < w.cache.trackers.next
  apart : ∀ {i j : ModuleId} {m n : OpenModule}, w.modules[i]? = some m → w.modules[j]? = some n →
    m.tracker = n.tracker → i = j

/-- Modules have ids and trackers of their own, and all entries of the cache are in order. -/
structure Consistent (files : Files) (w : Workspace) : Prop extends Registered w where
  dated : ∀ {key : String} {e : CacheEntry CachedResult}, w.cache.entries[key]? = some e → e.Dated w.cache.trackers
  kept : ∀ {key : String} {e : CacheEntry CachedResult}, w.cache.entries[key]? = some e → w.Kept files key e

/-! ## Analysis with the cache -/

/-- Projects are as their files say, whether they were read before or not. -/
theorem Consistent.projectNow (h : Consistent files w) (dir : Path) :
    w.projectNow files dir = (Project.load files dir).toOption := by
  unfold Workspace.projectNow
  cases hc : w.cache.current? (projectKey dir) with
  | none => rw [Cache.lookup?_of_not_current hc]
  | some e =>
    obtain ⟨he, hcur⟩ := Cache.current?_eq_some_iff.1 hc
    have hv := (h.kept he).of_projectKey hcur
    rw [Cache.lookup?_of_current hc, hv]
    rfl

theorem projectNow_uncached (w : Workspace) (dir : Path) :
    w.uncached.projectNow files dir = (Project.load files dir).toOption := by
  have hc : w.uncached.cache.current? (projectKey dir) = none := by
    unfold Cache.current?
    show (({} : Std.HashMap String (CacheEntry CachedResult))[projectKey dir]?).filter _ = none
    rw [Std.HashMap.getElem?_empty]
    rfl
  unfold Workspace.projectNow
  rw [Cache.lookup?_of_not_current hc]

theorem Consistent.source (h : Consistent files w) : w.source files = w.uncached.source files := by
  have hp : w.projectNow files = w.uncached.projectNow files := by
    funext dir
    rw [h.projectNow dir, projectNow_uncached]
  have hr : w.resolve files = w.uncached.resolve files := by
    funext i target
    unfold Workspace.resolve
    rw [hp]
    rfl
  unfold Workspace.source
  rw [hr]
  rfl

/-- What was kept before makes no difference to an analysis. -/
theorem Consistent.answer (h : Consistent files w) {α : Type} (x : Query α) :
    w.answer files x = w.uncached.answer files x := by
  unfold Workspace.answer
  rw [h.source]

end Workspace

end PklAnalysis
