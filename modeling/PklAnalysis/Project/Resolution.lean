import PklAnalysis.Project.Basic

/-!
# Resolving references to modules

A module refers to another by a reference that stands for an address:

* an address, such as `pkl:json`, `package://host/path@1.0.0#/b.pkl` or one of any other scheme,
* an address of a file, `file:///a/b.pkl`,
* `@name/path`, a path in a dependency of the project,
* a path, which leads on from the directory of the module that refers.

Paths in addresses of files and packages are folded: `.` and `..` are gone, and `..` above the root
is refused. `resolveReference` gives the address.
-/

namespace PklAnalysis

/-- Why a reference leads nowhere. -/
inductive ResolutionError where
  | unknownDependency (name : String)
  | escapesRoot (target : String)
  | noBase (target source : String)
  | malformed (target : String)
  deriving DecidableEq, Repr, Inhabited

def ResolutionError.message : ResolutionError → String
  | unknownDependency name => "unknown dependency `@" ++ name ++ "`"
  | escapesRoot target => "`" ++ target ++ "` escapes the root directory"
  | noBase target source => "cannot resolve `" ++ target ++ "` relative to `" ++ source ++ "`"
  | malformed target => "malformed module URI `" ++ target ++ "`"

namespace Address

def fileScheme : String := "file://"

/-- Fold `.` and `..` away; `stack` holds the segments so far, the newest first. -/
def fold (stack : List (List Char)) : List (List Char) → Option (List (List Char))
  | [] => some stack.reverse
  | segment :: rest =>
    if segment = [] ∨ segment = ['.'] then fold stack rest
    else if segment = ['.', '.'] then
      match stack with
      | [] => none
      | _ :: stack => fold stack rest
    else fold (segment :: stack) rest

/-- Lead on from a directory. A path that starts with a slash replaces the directory. There is no
such path if it climbs above the root. -/
def foldPath (dir path : List Char) : Option (List Char) :=
  let start := if path.head? = some '/' then [] else dir
  (fold [] (Text.split '/' start ++ Text.split '/' path)).map fun segments =>
    '/' :: Text.join '/' segments

/-- The directory of a path, with the slash at its end. -/
def directory (path : List Char) : List Char :=
  match Text.cutLast '/' path with
  | some (dir, _) => dir ++ ['/']
  | none => []

/-- The path in the address of a file. -/
def filePath? (uri : List Char) : Option (List Char) :=
  ((Text.dropStart? fileScheme uri).or (Text.dropStart? "file:" uri)).filter (·.head? == some '/')

/-- The address of the file to which a path leads on from a directory. -/
def file (dir path : List Char) (target : String) : Except ResolutionError String :=
  match foldPath dir path with
  | some path => .ok (fileScheme ++ String.ofList path)
  | none => .error (.escapesRoot target)

/-- The package in an address and the path inside it. -/
def package? (uri : List Char) : Option (Package × List Char) :=
  let (package, path) := (Text.cut '#' uri).getD (uri, ['/'])
  (Package.ofUri (String.ofList package)).toOption.map fun p => (p, path)

/-- The address of the module to which a path leads on from a directory inside a package. -/
def inPackage (p : Package) (dir path : List Char) (target : String) :
    Except ResolutionError String :=
  match foldPath dir path with
  | some path => .ok (p.moduleUri (String.ofList path))
  | none => .error (.escapesRoot target)

def isSchemeChar (c : Char) : Bool := c.isAlphanum || c == '+' || c == '-' || c == '.'

/-- Whether a text is an address of some scheme. -/
def hasScheme (uri : List Char) : Bool :=
  match Text.cut ':' uri with
  | some (scheme, _) => !scheme.isEmpty && scheme.all isSchemeChar
  | none => false

/-- A path as it is written in an address. -/
def ofPath (p : Path) : List Char := p.text.toList.map fun c => if c = '\\' then '/' else c

/-- The address of a file. A path that climbs above the root is kept as it is. -/
def ofFile (p : Path) : String :=
  fileScheme ++ String.ofList ((foldPath [] (ofPath p)).getD (ofPath p))

end Address

open Address

/-- Resolve a path that is written in a module. -/
def resolvePath (source target : String) : Except ResolutionError String :=
  match filePath? source.toList with
  | some path => file (directory path) target.toList target
  | none =>
    if (Text.dropStart? Package.scheme source.toList).isSome then
      match package? source.toList with
      | some (p, path) => inPackage p (directory path) target.toList target
      | none => .error (.malformed source)
    else .error (.noBase target source)

/-- Resolve `name/path`, where the name is that of a dependency. -/
def resolveDependency (project : Option Project) (reference : List Char) :
    Except ResolutionError String :=
  let (name, path) := (Text.cut '/' reference).getD (reference, [])
  match project.bind (·.dependency? (String.ofList name)) with
  | none => .error (.unknownDependency (String.ofList name))
  | some (.package p _) => inPackage p [] path (String.ofList reference)
  | some (.directory dir) => file (ofPath dir) path (String.ofList reference)

/-- The address to which a reference leads that is written in the module at the address `source`, in
the given project. -/
def resolveReference (project : Option Project) (source target : String) :
    Except ResolutionError String :=
  let cs := target.toList
  let starts (part : String) : Bool := (Text.dropStart? part cs).isSome
  if starts "pkl:" then .ok target
  else match Text.dropStart? "@" cs with
    | some reference => resolveDependency project reference
    | none =>
      if starts fileScheme || starts "file:/" then
        match filePath? cs with
        | some path => file path [] target
        | none => .error (.malformed target)
      else if starts Package.scheme then
        match package? cs with
        | some (p, path) => inPackage p [] path target
        | none => .error (.malformed target)
      else if hasScheme cs then .ok target
      else resolvePath source target

end PklAnalysis
