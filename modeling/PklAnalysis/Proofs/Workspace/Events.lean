import Mathlib.Data.List.Nodup
import PklAnalysis.Proofs.Workspace.Modules

/-!
# What happens to a workspace

A workspace is told of events: trees come and go, settings are put in force, projects are
registered, files change. `Known` is what the events amount to, without caches, trackers or ids that
are handed out: `Known.after` says it of one event. A workspace holds what its events say
(`knows_handle`, `knows_run`), and its cache stays consistent (`consistent_handle`,
`consistent_run`).
-/

namespace PklAnalysis.Workspace

variable {files files' : Files} {w w' : Workspace}

/-! ## Events -/

/-- What can happen to a workspace. Project files change when projects are synchronised or a package
has been downloaded, and at no other time. -/
inductive Event : Type 1 where
  | address (uri : String)
  | update (tree : SyntaxTree)
  | close (uri : String)
  | settings (settings : Settings)
  | addProject (dir : Path)
  | sync (files : Files)
  | download (files : Files)
  | project (dir : Path)
  | request {α : Type} (x : Query α)
  | diagnostics (uri : String)

/-- The files and the workspace after an event. -/
def handle : Files × Workspace → Event → Files × Workspace
  | (files, w), .address uri => (files, (w.moduleId uri).2)
  | (files, w), .update tree => (files, (w.updateModule tree).2)
  | (files, w), .close uri => (files, (w.closeModule uri).2)
  | (files, w), .settings settings => (files, w.updateSettings settings)
  | (files, w), .addProject dir => (files, w.addProject dir)
  | (_, w), .sync files => (files, w.syncProjects)
  | (_, w), .download files => (files, w.packageDownloaded)
  | (files, w), .project dir => (files, (Workspace.project files dir w).2)
  | (files, w), .request x => (files, (ask files x w).2)
  | (files, w), .diagnostics uri => (files, (Workspace.diagnostics files uri w).2)

theorem consistent_handle {s : Files × Workspace} (h : Consistent s.1 s.2) (e : Event) :
    Consistent (handle s e).1 (handle s e).2 := by
  obtain ⟨files, w⟩ := s
  have member : ∀ g ∈ [projectSync, packageDownload, settingsChanged], g ∈ Workspace.globals :=
    fun g hg => List.mem_cons_of_mem _ hg
  cases e with
  | address uri => exact consistent_moduleId h uri
  | update tree => exact consistent_updateModule h tree
  | close uri => exact consistent_closeModule h uri
  | settings settings =>
    refine h.touch (member settingsChanged ?_) (.inl rfl) rfl rfl rfl
    exact List.mem_cons_of_mem _ (List.mem_cons_of_mem _ List.mem_cons_self)
  | addProject dir =>
    show Consistent files (w.addProject dir)
    unfold Workspace.addProject
    split
    · exact h
    · exact h.touch (member projectSync List.mem_cons_self) (.inl rfl) rfl rfl rfl
  | sync files' =>
    exact h.touch (member projectSync List.mem_cons_self) (.inr (.inl rfl)) rfl rfl rfl
  | download files' =>
    refine h.touch (member packageDownload ?_) (.inr (.inr rfl)) rfl rfl rfl
    exact List.mem_cons_of_mem _ List.mem_cons_self
  | project dir => exact (looked_project files dir w).consistent h
  | request x => exact (looked_ask files x w).consistent h
  | diagnostics uri => exact (diagnostics_cases h uri).consistent h

theorem consistent_run {s : Files × Workspace} (h : Consistent s.1 s.2) (es : List Event) :
    Consistent (es.foldl handle s).1 (es.foldl handle s).2 := by
  induction es generalizing s with
  | nil => exact h
  | cons e es ih => exact ih (consistent_handle h e)

theorem consistent_new (files : Files) (settings : Settings) : Consistent files (new settings) := by
  have hm : (new settings).modules = {} := rfl
  have he : (new settings).cache.entries = {} := rfl
  have hn : (new settings).cache.trackers.next = 4 := by
    show (Trackers.increment _ settingsChanged).next = 4
    rw [Trackers.next_increment]
    rfl
  refine ⟨⟨fun g hg => ?_, fun {i m} h => ?_, fun {i m} h => ?_, fun {i j m n} h => ?_⟩,
    fun {key e} h => ?_, fun {key e} h => ?_⟩
  · rw [hn]
    revert g
    decide
  · rw [hm, Std.HashMap.getElem?_empty] at h
    cases h
  · rw [hm, Std.HashMap.getElem?_empty] at h
    cases h
  · rw [hm, Std.HashMap.getElem?_empty] at h
    cases h
  · rw [he, Std.HashMap.getElem?_empty] at h
    cases h
  · rw [he, Std.HashMap.getElem?_empty] at h
    cases h

/-! ## What the events amount to -/

/-- What the events have said: all addresses that were mentioned, in the order of their first
mention, the trees of the open modules by their addresses, the settings, the directories of the
projects, and the files. -/
structure Known where
  files : Files
  settings : Settings
  addresses : List String := []
  trees : String → Option SyntaxTree := fun _ => none
  projects : List Path := []

namespace Known

variable {k : Known}

/-- An address that was mentioned has its place among them as its id; the first has the id 1. -/
def id? (k : Known) (uri : String) : Option ModuleId := (k.addresses.idxOf? uri).map (· + 1)

def mention (k : Known) (uri : String) : Known :=
  if uri ∈ k.addresses then k else { k with addresses := k.addresses ++ [uri] }

/-- Whether a tree was built with the id of its address; it is rejected otherwise. -/
def accepts (k : Known) (tree : SyntaxTree) : Bool :=
  (k.mention tree.uri).id? tree.uri == some tree.module

/-- What is known after an event. Questions make no difference. -/
def after (k : Known) : Event → Known
  | .address uri => k.mention uri
  | .update tree =>
    if k.accepts tree then
      { k.mention tree.uri with
        trees := fun uri => if uri = tree.uri then some tree else k.trees uri }
    else k.mention tree.uri
  | .close uri => { k with trees := fun other => if other = uri then none else k.trees other }
  | .settings settings => { k with settings }
  | .addProject dir =>
    if k.projects.any (·.parts == dir.parts) then k else { k with projects := k.projects ++ [dir] }
  | .sync files => { k with files }
  | .download files => { k with files }
  | .project _ | .request _ | .diagnostics _ => k

end Known

/-- A workspace holds what is known. -/
structure Knows (k : Known) (files : Files) (w : Workspace) : Prop where
  files : k.files = files
  settings : w.settings = k.settings
  projects : w.projectDirs = k.projects
  addresses : w.addresses.toList = k.addresses
  trees : ∀ uri, w.tree? uri = k.trees uri
  distinct : k.addresses.Nodup

section

variable {k : Known}

theorem Knows.id? (h : Knows k files w) (uri : String) : w.id? uri = k.id? uri := by
  unfold Workspace.id? Known.id?
  rw [← h.addresses, ← List.idxOf?_toArray, Array.toArray_toList,
    Array.idxOf?_eq_map_finIdxOf?_val, Option.map_map]
  rfl

/-- Only the cache has changed. -/
theorem Knows.congr (h : Knows k files w) (hu : w'.uncached = w.uncached) :
    Knows k files w' where
  files := h.files
  settings := (congrArg Workspace.settings hu).trans h.settings
  projects := (congrArg Workspace.projectDirs hu).trans h.projects
  addresses := (congrArg (·.addresses.toList) hu).trans h.addresses
  trees uri := (tree?_congr hu uri).trans (h.trees uri)
  distinct := h.distinct

theorem knows_new (files : Files) (settings : Settings) :
    Knows { files, settings } files (new settings) where
  files := rfl
  settings := rfl
  projects := rfl
  addresses := rfl
  trees uri := by
    rw [tree?_eq]
    have hm : (new settings).modules = {} := rfl
    rw [hm]
    cases (new settings).id? uri with
    | none => rfl
    | some i => rw [Option.bind_some, Std.HashMap.getElem?_empty]; rfl
  distinct := List.nodup_nil

theorem knows_moduleId (hw : Registered w) (h : Knows k files w) (uri : String) :
    Knows (k.mention uri) files (w.moduleId uri).2 := by
  have hid := h.id? uri
  unfold Known.mention
  by_cases hm : uri ∈ k.addresses
  · rw [if_pos hm]
    obtain ⟨i, hi⟩ : ∃ i, w.id? uri = some i := by
      rw [hid]
      unfold Known.id?
      obtain ⟨n, hn⟩ := Option.isSome_iff_exists.1 (List.isSome_idxOf?.2 hm)
      exact ⟨n + 1, by rw [hn]; rfl⟩
    have he : (w.moduleId uri).2 = w := by
      unfold moduleId
      rw [hi]
    rw [he]
    exact h
  · rw [if_neg hm]
    have hi : w.id? uri = none := by
      rw [hid]
      unfold Known.id?
      rw [List.idxOf?_eq_none_iff.2 hm]
      rfl
    have he : (w.moduleId uri).2 = w.withAddress uri := by
      unfold moduleId
      rw [hi]
      rfl
    rw [he]
    exact {
      files := h.files
      settings := h.settings
      projects := h.projects
      addresses := by
        show (w.addresses.push uri).toList = k.addresses ++ [uri]
        rw [Array.toList_push, h.addresses]
      trees := fun other => (tree?_withAddress hw uri other).trans (h.trees other)
      distinct := List.nodup_append.2 ⟨h.distinct, List.nodup_singleton uri, fun a ha b hb hab =>
        hm (List.mem_singleton.1 hb ▸ hab ▸ ha)⟩ }

theorem Knows.accepts_iff (hw : Registered w) (h : Knows k files w) (tree : SyntaxTree) :
    k.accepts tree = true ↔ tree.module = (w.moduleId tree.uri).1 := by
  unfold Known.accepts
  rw [← (knows_moduleId hw h tree.uri).id?, id?_moduleId, beq_iff_eq, Option.some_inj, eq_comm]

theorem knows_updateModule (hw : Registered w) (h : Knows k files w) (tree : SyntaxTree) :
    Knows (k.after (.update tree)) files (w.updateModule tree).2 := by
  have hv := knows_moduleId hw h tree.uri
  have accepted := h.accepts_iff hw tree
  have trees := tree?_updateModule hw tree
  rcases he : w.moduleId tree.uri with ⟨i, v⟩
  rw [he] at hv accepted
  simp only [he] at trees
  -- opened or replaced, the tree is the only thing that has changed since the address was met
  have placed : tree.module = i → (w.updateModule tree).2.settings = v.settings ∧
      (w.updateModule tree).2.projectDirs = v.projectDirs ∧
      (w.updateModule tree).2.addresses = v.addresses := by
    intro hi
    obtain ⟨hn, -⟩ | ⟨-, -, hu⟩ | ⟨m, -, -, hu⟩ := updateModule_cases w tree he
    · exact absurd hi hn
    · exact hu ▸ ⟨rfl, rfl, rfl⟩
    · exact hu ▸ ⟨rfl, rfl, rfl⟩
  by_cases hi : tree.module = i
  · obtain ⟨settings, projects, addresses⟩ := placed hi
    rw [Known.after, if_pos (accepted.2 hi)]
    exact {
      files := hv.files
      settings := settings.trans hv.settings
      projects := projects.trans hv.projects
      addresses := (congrArg Array.toList addresses).trans hv.addresses
      trees := fun uri => by
        rw [trees uri, h.trees uri]
        simp only [hi, true_and]
      distinct := hv.distinct }
  · rw [Known.after, if_neg (fun ha => hi (accepted.1 ha))]
    obtain ⟨-, hu⟩ | ⟨hj, -, -⟩ | ⟨m, hj, -, -⟩ := updateModule_cases w tree he
    · rw [hu]
      exact hv
    · exact absurd hj hi
    · exact absurd hj hi

theorem knows_closeModule (h : Knows k files w) (uri : String) :
    Knows (k.after (.close uri)) files (w.closeModule uri).2 := by
  have same : (w.closeModule uri).2.settings = w.settings ∧
      (w.closeModule uri).2.projectDirs = w.projectDirs ∧
      (w.closeModule uri).2.addresses = w.addresses := by
    unfold closeModule
    cases w.openModuleId uri <;> exact ⟨rfl, rfl, rfl⟩
  obtain ⟨settings, projects, addresses⟩ := same
  exact {
    files := h.files
    settings := settings.trans h.settings
    projects := projects.trans h.projects
    addresses := (congrArg Array.toList addresses).trans h.addresses
    trees := fun other => by rw [tree?_closeModule, h.trees other]; rfl
    distinct := h.distinct }

theorem knows_addProject (h : Knows k files w) (dir : Path) :
    Knows (k.after (.addProject dir)) files (w.addProject dir) := by
  rw [Known.after, Workspace.addProject, h.projects]
  split
  · exact h
  · exact { h with projects := rfl, trees := h.trees }

/-- A workspace that holds what is known holds what is known after an event. -/
theorem knows_handle {s : Files × Workspace} (hs : Consistent s.1 s.2) (h : Knows k s.1 s.2)
    (e : Event) : Knows (k.after e) (handle s e).1 (handle s e).2 := by
  obtain ⟨files, w⟩ := s
  cases e with
  | address uri => exact knows_moduleId hs.toRegistered h uri
  | update tree => exact knows_updateModule hs.toRegistered h tree
  | close uri => exact knows_closeModule h uri
  | settings settings => exact { h with settings := rfl, trees := h.trees }
  | addProject dir => exact knows_addProject h dir
  | sync files' => exact { h with files := rfl, trees := h.trees }
  | download files' => exact { h with files := rfl, trees := h.trees }
  | project dir => exact h.congr (looked_project files dir w).uncached
  | request x => exact h.congr (looked_ask files x w).uncached
  | diagnostics uri => exact h.congr (diagnostics_cases hs uri).uncached

theorem knows_run {s : Files × Workspace} (hs : Consistent s.1 s.2) (h : Knows k s.1 s.2)
    (es : List Event) : Knows (es.foldl Known.after k) (es.foldl handle s).1 (es.foldl handle s).2 := by
  induction es generalizing s k with
  | nil => exact h
  | cons e es ih => exact ih (consistent_handle hs e) (knows_handle hs h e)

end

end PklAnalysis.Workspace
