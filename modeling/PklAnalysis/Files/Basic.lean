import PklAnalysis.Files.Path
import Std.Data.HashMap

/-!
# Files

Directories and the texts of files, by the names that lead to them from the root, the innermost name
first. A place is reached through directories only.
-/

namespace PklAnalysis

inductive FileEntry where
  | directory
  | file (text : String)
  deriving DecidableEq, Repr, Inhabited

structure Files where
  entries : Std.HashMap (List String) FileEntry := {}

namespace Files

instance : Inhabited Files := ⟨{}⟩

/-- What stands at a place. The root is a directory. -/
def entryAt (fs : Files) : List String → Option FileEntry
  | [] => some .directory
  | place => fs.entries[place]?

/-- Follow the parts of a path from a directory. -/
def follow (fs : Files) (dir : List String) : List PathPart → Option (List String)
  | [] => some dir
  | part :: parts =>
    if fs.entryAt dir = some .directory then
      match part with
      | .root => follow fs [] parts
      | .here => follow fs dir parts
      | .up => follow fs dir.tail parts
      | .name n => follow fs (n :: dir) parts
    else none

/-- What an absolute path leads to. -/
def find? (fs : Files) (p : Path) : Option FileEntry :=
  if p.isAbsolute then (fs.follow [] p.parts).bind fs.entryAt else none

/-- The text of the file to which a path leads. -/
def text? (fs : Files) (p : Path) : Option String :=
  match fs.find? p with
  | some (.file text) => some text
  | _ => none

def isFile (fs : Files) (p : Path) : Bool := (fs.text? p).isSome

/-- Make the directories on the way to a place; what is there already stays. -/
def makeWay (fs : Files) (dir : List String) : List PathPart → Files × List String
  | [] => (fs, dir)
  | part :: parts => match part with
    | .root => makeWay fs [] parts
    | .here => makeWay fs dir parts
    | .up => makeWay fs dir.tail parts
    | .name n => makeWay ⟨fs.entries.insertIfNew (n :: dir) .directory⟩ (n :: dir) parts

/-- Make a directory and all directories around it. -/
def makeDirectory (fs : Files) (p : Path) : Files := (fs.makeWay [] p.parts).1

/-- Write a file, and make the directories around it. -/
def write (fs : Files) (p : Path) (text : String) : Files :=
  match p.parts.getLast? with
  | some (.name n) =>
    let (fs, dir) := fs.makeWay [] p.parts.dropLast
    ⟨fs.entries.insert (n :: dir) (.file text)⟩
  | _ => fs

/-- Remove a file. -/
def remove (fs : Files) (p : Path) : Files :=
  match fs.follow [] p.parts with
  | some place => match fs.entryAt place with
    | some (.file _) => ⟨fs.entries.erase place⟩
    | _ => fs
  | none => fs

end Files

end PklAnalysis
