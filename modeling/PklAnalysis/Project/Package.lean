import PklAnalysis.Project.Version

/-!
# Packages

The address of a package is `package://` with its name, `@` and its version. The name is an
authority and a path. What follows a `#` names a module inside the package and is not part of its
address.
-/

namespace PklAnalysis

structure Package where
  /-- Authority and path. -/
  name : String
  version : Version
  deriving DecidableEq, Repr, Inhabited

/-- Why a text is not the address of a package. -/
inductive PackageError where
  | otherScheme
  | noVersion
  | noPath
  | badVersion
  deriving DecidableEq, Repr, Inhabited

/-- Say what is wrong with an address. -/
def PackageError.message (uri : String) : PackageError → String
  | otherScheme => "not a package URI: " ++ uri
  | noVersion => "package URI has no version: " ++ uri
  | noPath => "package URI has no path: " ++ uri
  | badVersion => "malformed package version in " ++ uri

namespace Package

def scheme : String := "package://"

/-- Read the address of a package. The version stands after the last `@`. -/
def ofUri (uri : String) : Except PackageError Package :=
  match Text.dropStart? scheme uri.toList with
  | none => .error .otherScheme
  | some rest =>
    let address := ((Text.cut '#' rest).map (·.1)).getD rest
    match Text.cutLast '@' address with
    | none => .error .noVersion
    | some (name, version) =>
      if name.contains '/' then
        match Version.ofText? version with
        | some v => .ok ⟨String.ofList name, v⟩
        | none => .error .badVersion
      else .error .noPath

/-- The address of a package. -/
def uri (p : Package) : String := scheme ++ p.name ++ "@" ++ p.version.text

/-- Packages of one name and one major version share a lock. -/
def lockKey (p : Package) : String := scheme ++ p.name ++ "@" ++ toString p.version.major.toNat

/-- The address of a module in a package. -/
def moduleUri (p : Package) (path : String) : String :=
  p.uri ++ "#/" ++ String.ofList (path.toList.dropWhile (· == '/'))

end Package

end PklAnalysis
