import PklAnalysis.Cache
import PklAnalysis.Project.Resolution
import PklAnalysis.Session
import PklAnalysis.Settings

/-!
# Workspaces

A workspace holds the open modules, the projects that are known and the settings. It keeps the
diagnostics of modules and the projects it has read in a cache.

Each open module has a tracker, which counts the replacements of its tree; a module that is opened
again gets a new one. Four more trackers count the changes of the set of open modules, the changes
of project files, the downloads of packages and the changes of the settings.
-/

namespace PklAnalysis

structure OpenModule where
  uri : String
  tree : SyntaxTree
  tracker : TrackerId

/-- What the cache of a workspace holds. -/
inductive CachedResult where
  | diagnostics (ds : List Diagnostic)
  /-- A project, or `none` if it could not be read. -/
  | project (p : Option Project)
  deriving Inhabited

namespace CachedResult

def diagnosticsKind : ValueKind CachedResult (List Diagnostic) where
  wrap := diagnostics
  unwrap
    | diagnostics ds => some ds
    | _ => none

def projectKind : ValueKind CachedResult (Option Project) where
  wrap := project
  unwrap
    | project p => some p
    | _ => none

end CachedResult

structure Workspace where
  modules : Std.HashMap ModuleId OpenModule := {}
  /-- All addresses that were ever given an id; the first has the id 1. -/
  addresses : Array String := #[]
  projectDirs : List Path := []
  settings : Settings := {}
  cache : Cache CachedResult := {}
  diagnosticsComputed : Nat := 0
  projectsLoaded : Nat := 0

instance : HasCache Workspace CachedResult where
  cache := Workspace.cache
  withCache w c := { w with cache := c }

/-- Why a module cannot be opened: its tree belongs to another module. -/
structure UpdateError where
  uri : String
  built : ModuleId
  known : ModuleId
  deriving DecidableEq, Repr, Inhabited

def UpdateError.message (e : UpdateError) : String :=
  "tree for " ++ e.uri ++ " was built as module " ++ toString e.built ++
    " but the workspace knows it as " ++ toString e.known

namespace Workspace

/-! ### Trackers -/

/-- Counts how modules are opened and closed. -/
def moduleSet : TrackerId := 0

/-- Counts the changes of project files. -/
def projectSync : TrackerId := 1

/-- Counts the downloads of packages. -/
def packageDownload : TrackerId := 2

/-- Counts the changes of the settings. -/
def settingsChanged : TrackerId := 3

def touch (w : Workspace) (i : TrackerId) : Workspace := { w with cache := w.cache.touch i }

/-! ### Settings -/

/-- Put new settings in force. -/
def updateSettings (w : Workspace) (settings : Settings) : Workspace :=
  { w with settings }.touch settingsChanged

/-- An empty workspace: four trackers, one of which has counted the settings. -/
def new (settings : Settings) : Workspace :=
  { cache := (List.range 4).foldl (fun c _ => c.addTracker) {} : Workspace }.updateSettings settings

/-! ### Modules -/

/-- The id of an address, if it has one. -/
def id? (w : Workspace) (uri : String) : Option ModuleId :=
  (w.addresses.finIdxOf? uri).map (·.val + 1)

/-- The id of an address, which is given one if it has none. -/
def moduleId (w : Workspace) (uri : String) : ModuleId × Workspace :=
  match w.id? uri with
  | some i => (i, w)
  | none => (w.addresses.size + 1, { w with addresses := w.addresses.push uri })

/-- The id of an open module. -/
def openModuleId (w : Workspace) (uri : String) : Option ModuleId :=
  (w.id? uri).filter w.modules.contains

/-- Open a module, or replace its tree. -/
def updateModule (w : Workspace) (tree : SyntaxTree) : Except UpdateError ModuleId × Workspace :=
  let (i, w) := w.moduleId tree.uri
  if tree.module = i then
    match w.modules[i]? with
    | some m => (.ok i, { w with modules := w.modules.insert i { m with tree } }.touch m.tracker)
    | none =>
      let m := ⟨tree.uri, tree, w.cache.trackers.next⟩
      (.ok i,
        { w with modules := w.modules.insert i m, cache := w.cache.addTracker }.touch moduleSet)
  else (.error ⟨tree.uri, tree.module, i⟩, w)

/-- The key of a module's diagnostics in the cache. -/
def diagnosticsKey (uri : String) : String := "diagnostics:" ++ uri

/-- Close a module; says whether it was open. -/
def closeModule (w : Workspace) (uri : String) : Bool × Workspace :=
  match w.openModuleId uri with
  | none => (false, w)
  | some i =>
    let cache := w.cache.erase (diagnosticsKey uri)
    (true, { w with modules := w.modules.erase i, cache }.touch moduleSet)

/-- The tree of an open module. -/
def tree? (w : Workspace) (uri : String) : Option SyntaxTree :=
  ((w.openModuleId uri).bind (w.modules[·]?)).map (·.tree)

/-- The addresses of the open modules, sorted. -/
def openUris (w : Workspace) : List String :=
  (w.modules.values.map (·.uri)).mergeSort (· ≤ ·)

/-! ### Projects -/

/-- Register a project, so that the modules inside its directory use its dependencies. -/
def addProject (w : Workspace) (dir : Path) : Workspace :=
  if w.projectDirs.any (·.parts == dir.parts) then w
  else { w with projectDirs := w.projectDirs ++ [dir] }.touch projectSync

/-- Project files have changed. -/
def syncProjects (w : Workspace) : Workspace := w.touch projectSync

/-- A package has been downloaded. -/
def packageDownloaded (w : Workspace) : Workspace := w.touch packageDownload

/-- The innermost registered directory around the file of a module. -/
def projectDir? (w : Workspace) (uri : String) : Option Path := do
  let path ← Text.dropStart? Address.fileScheme uri.toList
  let around := w.projectDirs.filter fun dir => Path.isInside ⟨String.ofList path⟩ dir
  around.foldl (fun best dir => match best with
    | some b => if b.parts.length ≤ dir.parts.length then some dir else best
    | none => some dir) none

/-- The key of a project in the cache. -/
def projectKey (dir : Path) : String := "project:" ++ dir.text

/-- The project in a directory, as far as it is known or can be read. -/
def projectNow (w : Workspace) (files : Files) (dir : Path) : Option Project :=
  match w.cache.lookup? CachedResult.projectKind (projectKey dir) with
  | some p => p
  | none => (Project.load files dir).toOption

/-- The project in a directory. It is read only if that has not been done since project files
changed or a package was downloaded. -/
def project (files : Files) (dir : Path) : StateM Workspace (Option Project) := do
  let found ← cached CachedResult.projectKind (projectKey dir) do
    modify fun w => { w with projectsLoaded := w.projectsLoaded + 1 }
    pure (some ((Project.load files dir).toOption, [projectSync, packageDownload]))
  pure found.join

/-- The project of a module. -/
def projectFor (files : Files) (uri : String) : StateM Workspace (Option Project) := do
  match (← get).projectDir? uri with
  | some dir => project files dir
  | none => pure none

end Workspace

end PklAnalysis
