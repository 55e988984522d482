import PklAnalysis.Files.Basic
import PklAnalysis.Json.Decoder
import PklAnalysis.Project.Package

/-!
# Projects

A directory with a file `PklProject.json` is a project. The file declares dependencies: packages,
each under a name of its own. A second file, `PklProject.deps.json`, may lock them: it says for the
packages of a name and a major version which package is used in their place, or which directory.

* `Project.load` reads both files. Without a lock file every dependency is the declared package; a
  dependency that the lock file does not know is left out.
* `Project.directoryOf?` finds the innermost project around a path.
-/

namespace PklAnalysis

/-- What a dependency leads to. -/
inductive DependencyTarget where
  | package (package : Package) (sha256 : Option String)
  | directory (dir : Path)
  deriving DecidableEq, Repr, Inhabited

structure Project where
  dir : Path
  /-- The dependencies by name; no name occurs twice. -/
  dependencies : List (String × DependencyTarget)
  deriving DecidableEq, Repr, Inhabited

/-- Why a directory cannot be read as a project. -/
inductive ProjectError where
  | unreadable (file : Path)
  | malformed (file : Path)
  | unsupportedSchema (version : Nat) (file : Path)
  | badDependency (name : String) (file : Path) (uri : String) (cause : PackageError)
  deriving DecidableEq, Repr, Inhabited

def ProjectError.message : ProjectError → String
  | unreadable file => "failed to read " ++ file.text ++ ": <io>"
  | malformed file => "failed to parse " ++ file.text ++ ": <json>"
  | unsupportedSchema version file =>
    "unsupported schema version " ++ toString version ++ " in " ++ file.text
  | badDependency name file uri cause =>
    "dependency `" ++ name ++ "` in " ++ file.text ++ ": " ++ cause.message uri

/-- What the lock file puts in the place of a package. -/
inductive Lock where
  | remote (uri : String) (sha256 : Option String)
  | directory (uri path : String)
  deriving DecidableEq, Repr, Inhabited

namespace Lock

def sha256? (v : JsonValue) : Option String := do
  match ← v.fields? .refused ["sha256"] with
  | [sum] => JsonValue.required JsonValue.toText? sum
  | _ => none

/-- Read a lock of a kind from a value that no longer holds the kind. -/
def ofFields? (kind : String) (v : JsonValue) : Option Lock := do
  if kind = "remote" then
    match ← v.fields? .refused ["uri", "checksums"] with
    | [uri, sums] =>
      pure (remote (← JsonValue.required JsonValue.toText? uri) (← JsonValue.optional sha256? sums))
    | _ => none
  else if kind = "local" then
    match ← v.fields? .refused ["uri", "path"] with
    | [uri, path] =>
      pure (directory (← JsonValue.required JsonValue.toText? uri)
        (← JsonValue.required JsonValue.toText? path))
    | _ => none
  else none

/-- Locks are nested in two objects of their file. -/
def maxDepth : Nat := 125

/-- Read a lock. Its kind is the member `type` of an object, or the first item of an array. All of a
lock has to be sound, since its kind may come last. -/
def ofValue? (v : JsonValue) : Option Lock := do
  if !v.isSound maxDepth then none
  else match v with
    | .object members =>
      let (kinds, rest) := members.partition (·.1 == some "type")
      match kinds with
      | [(_, kind)] => ofFields? (← kind.toText?) (.object rest)
      | _ => none
    | .array (kind :: rest) => ofFields? (← kind.toText?) (.array rest)
    | _ => none

/-- What a lock leads to. A locked directory has a package address too, which has to be one. -/
def target (dir : Path) : Lock → Except (String × PackageError) DependencyTarget
  | remote uri sha256 => ((Package.ofUri uri).mapError (uri, ·)).map (.package · sha256)
  | directory uri path =>
    ((Package.ofUri uri).mapError (uri, ·)).map fun _ => .directory (dir.join ⟨path⟩)

end Lock

namespace Project

def fileName : Path := ⟨"PklProject.json"⟩

def lockFileName : Path := ⟨"PklProject.deps.json"⟩

/-- The version of the lock file's form that can be read. -/
def lockSchema : Nat := 1

/-- Dependencies of which a later one replaces an earlier one of its name. -/
def ofDependencies (dir : Path) (dependencies : List (String × DependencyTarget)) : Project :=
  let put (kept : List (String × DependencyTarget)) (d : String × DependencyTarget) :=
    kept.filter (·.1 != d.1) ++ [d]
  ⟨dir, dependencies.foldl put []⟩

def dependency? (p : Project) (name : String) : Option DependencyTarget :=
  (p.dependencies.find? (·.1 == name)).map (·.2)

def declaredUri? (v : JsonValue) : Option String := do
  match ← v.fields? .refused ["uri"] with
  | [uri] => JsonValue.required JsonValue.toText? uri
  | _ => none

/-- The declared dependencies: names and addresses of packages. -/
def declarations? (text : String) : Option (List (String × String)) := do
  match ← (← JsonValue.ofText? text).fields? .refused ["dependencies"] with
  | [declared] => JsonValue.orElse (JsonValue.entries? declaredUri?) [] declared
  | _ => none

/-- The schema version of a lock file and its locks. -/
def locks? (text : String) : Option (Nat × List (String × Lock)) := do
  match ← (← JsonValue.ofText? text).fields? .refused ["schemaVersion", "resolvedDependencies"] with
  | [version, locks] =>
    pure (← JsonValue.required (JsonValue.toNat? UInt32.size) version,
      ← JsonValue.orElse (JsonValue.entries? Lock.ofValue?) [] locks)
  | _ => none

/-- Read a file as what `decode` makes of it. -/
def readFile {α : Type} (files : Files) (file : Path) (decode : String → Option α) :
    Except ProjectError α :=
  match files.text? file with
  | none => .error (.unreadable file)
  | some text => match decode text with
    | some a => .ok a
    | none => .error (.malformed file)

/-- The locks of a project in a directory, if it has a lock file. -/
def readLocks (files : Files) (dir : Path) :
    Except ProjectError (Option (List (String × Lock))) := do
  let file := dir.join lockFileName
  if files.isFile file then
    let (version, locks) ← readFile files file locks?
    if version = lockSchema then pure (some locks) else .error (.unsupportedSchema version file)
  else pure none

/-- What a declared dependency leads to; `none` if it is not locked. -/
def target (dir : Path) (locks : Option (List (String × Lock))) (name uri : String) :
    Except ProjectError (Option DependencyTarget) := do
  let package ← (Package.ofUri uri).mapError (.badDependency name (dir.join fileName) uri)
  match locks with
  | none => pure (some (.package package none))
  | some locks => match locks.find? (·.1 == package.lockKey) with
    | none => pure none
    | some (_, lock) =>
      some <$> (lock.target dir).mapError fun (uri, cause) =>
        .badDependency name (dir.join lockFileName) uri cause

/-- Load the project in a directory. -/
def load (files : Files) (dir : Path) : Except ProjectError Project := do
  let declared ← readFile files (dir.join fileName) declarations?
  let locks ← readLocks files dir
  let targets ← declared.mapM fun (name, uri) => do
    pure ((← target dir locks name uri).map fun t => (name, t))
  pure (ofDependencies dir (targets.filterMap id))

/-- The innermost directory around a path, or the path itself, that holds a project file. -/
def directoryOf? (files : Files) (p : Path) : Option Path :=
  p.ancestors.find? fun dir => files.isFile (dir.join fileName)

end Project

end PklAnalysis
