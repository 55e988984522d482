import PklAnalysis.Text.Split

/-!
# Paths of files

A path keeps the text as which it was written. Two texts may name the same place: repeated slashes,
a slash at the end and `.` behind the first part do not count. `Path.parts` are what does.
-/

namespace PklAnalysis

structure Path where
  text : String
  deriving DecidableEq, Repr, Inhabited

/-- A part of a path. -/
inductive PathPart where
  | root
  /-- A `.` at the start of a relative path. -/
  | here
  | up
  | name (text : String)
  deriving DecidableEq, Repr, Inhabited

namespace Path

def isAbsolute (p : Path) : Bool := p.text.toList.head? == some '/'

/-- Whether a piece between slashes, behind the first, leads anywhere. -/
def counts (piece : List Char) : Bool := !(piece == [] || piece == ['.'])

def part (piece : List Char) : PathPart :=
  if piece = ['.', '.'] then .up else .name (String.ofList piece)

/-- The pieces between slashes: those behind the first slash of an absolute path, or all. The first
piece of a relative path is counted unless it is empty. -/
def parts (p : Path) : List PathPart :=
  let pieces := Text.split '/' p.text.toList
  let start := match pieces with
    | [] :: _ => if p.isAbsolute then [.root] else []
    | ['.'] :: _ => [.here]
    | _ => []
  start ++ (pieces.filter counts).map part

/-- Lead on from a directory. An absolute path replaces the directory. -/
def join (dir p : Path) : Path :=
  if p.isAbsolute || dir.text.isEmpty then p
  else if dir.text.toList.getLast? = some '/' then ⟨dir.text ++ p.text⟩
  else ⟨dir.text ++ "/" ++ p.text⟩

/-- Whether a path leads to a place inside a directory or to the directory itself. -/
def isInside (p dir : Path) : Bool := dir.parts.isPrefixOf p.parts

/-- Drop the pieces at the end that do not count. A `.` that starts a relative path counts. -/
def dropIdle (relative : Bool) (pieces : List (List Char)) : List (List Char) :=
  let kept := (pieces.reverse.dropWhile fun piece => !counts piece).reverse
  if kept.isEmpty && relative && pieces.head? == some ['.'] then [['.']] else kept

/-- The directory that holds what a path leads to. -/
def parent? (p : Path) : Option Path :=
  let relative := !p.isAbsolute
  let pieces := Text.split '/' p.text.toList
  let body := if relative then pieces else pieces.drop 1
  match dropIdle relative body with
  | [] => none
  | kept =>
    let up := Text.join '/' (dropIdle relative kept.dropLast)
    some ⟨String.ofList (if relative then up else '/' :: up)⟩

/-- A path and the directories around it, the innermost first, at most `n` of them. -/
def outward : Nat → Path → List Path
  | 0, _ => []
  | n + 1, p => p :: match p.parent? with
    | some dir => outward n dir
    | none => []

/-- A path and all directories around it, the innermost first. -/
def ancestors (p : Path) : List Path := outward (p.text.length + 1) p

end Path

end PklAnalysis
