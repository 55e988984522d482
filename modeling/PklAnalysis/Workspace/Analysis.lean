import PklAnalysis.Workspace.Basic

/-!
# Analysis in a workspace

Every analysis runs in a new session over the open modules. Resolving references looks up the
projects of the modules in which they stand; since an analysis changes nothing on which these
lookups depend, they are counted when it is done.

* `Workspace.ask` answers a query.
* `Workspace.diagnostics` gives the diagnostics of a module; they are kept until a module on which
  they depend, the set of modules, a project, a package or the settings change.
-/

namespace PklAnalysis

namespace Workspace

/-- The id of the open module to which a reference leads. -/
def resolve (w : Workspace) (files : Files) (source : ModuleId) (target : String) :
    Option ModuleId := do
  let m ← w.modules[source]?
  let project := (w.projectDir? m.uri).bind (w.projectNow files)
  w.openModuleId (← (resolveReference project m.uri target).toOption)

/-- The open modules as the source of a session. -/
def source (w : Workspace) (files : Files) : ModuleSource where
  tree i := w.modules[i]?.map (·.tree)
  resolve := w.resolve files

/-- Answer a query in a new session; also gives what the session remembers. -/
def answer {α : Type} (w : Workspace) (files : Files) (x : Query α) : α × Memory :=
  (Session.run (w.source files) x).run {}

/-- Look up the project of each module in which a session has resolved a reference. -/
def countLookups (files : Files) (memory : Memory) : StateM Workspace Unit :=
  memory.references.keys.forM fun (source, _) => do
    match (← get).modules[source]? with
    | some m => discard (projectFor files m.uri)
    | none => pure ()

/-- Answer a query. -/
def ask {α : Type} (files : Files) (x : Query α) : StateM Workspace α := do
  let (a, memory) := (← get).answer files x
  countLookups files memory
  pure a

/-- Analyse a module. There is nothing to keep if the analysis is broken off. -/
def computeDiagnostics (files : Files) (i : ModuleId) :
    StateM Workspace (Option (List Diagnostic × List TrackerId)) := do
  modify fun w => { w with diagnosticsComputed := w.diagnosticsComputed + 1 }
  let w ← get
  let (result, memory) := w.answer files (PklAnalysis.diagnostics w.settings.reports i)
  countLookups files memory
  let read := memory.loaded.filterMap fun j => w.modules[j]?.map (·.tracker)
  match result with
  | .ok ds => pure (some (ds, [moduleSet, projectSync, packageDownload, settingsChanged] ++ read))
  | .error _ => pure none

/-- The diagnostics of an open module. -/
def diagnostics (files : Files) (uri : String) : StateM Workspace (List Diagnostic) := do
  match (← get).openModuleId uri with
  | none => pure []
  | some i =>
    let found ←
      cached CachedResult.diagnosticsKind (diagnosticsKey uri) (computeDiagnostics files i)
    pure (found.getD [])

/-- The diagnostics of all open modules, by address. -/
def allDiagnostics (files : Files) : StateM Workspace (List (String × List Diagnostic)) := do
  (← get).openUris.mapM fun uri => do pure (uri, ← diagnostics files uri)

/-- The id of the module to which a reference leads. -/
def resolveModule (files : Files) (source : ModuleId) (target : String) :
    StateM Workspace (Option ModuleId) :=
  ask files (Query.reference source target)

end Workspace

end PklAnalysis
