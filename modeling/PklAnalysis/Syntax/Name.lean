import PklAnalysis.Span

/-!
# Names of modules and nodes

A module of the session has a number, and a node has its position in the node table of its module.
Module `0` is the standard library module `pkl:base`.
-/

namespace PklAnalysis

/-- The number of a module within a session. -/
abbrev ModuleId := Nat

/-- The module `pkl:base`. -/
def ModuleId.base : ModuleId := 0

/-- The position of a node in the node table of its module. -/
abbrev NodeIndex := Nat

/-- The index that stands for "no node": no table is long enough to hold it. -/
def NodeIndex.absent : NodeIndex := 4294967295

/-- A node anywhere in the session. Declarations and constraints are named by it. -/
structure NodeRef where
  module : ModuleId
  node : NodeIndex
  deriving DecidableEq, Repr, Hashable, Inhabited

/-- A node of the same module. -/
def NodeRef.sibling (r : NodeRef) (i : NodeIndex) : NodeRef := ⟨r.module, i⟩

/-- References are ordered by module, then by position. -/
def NodeRef.order (r s : NodeRef) : Ordering :=
  (compare r.module s.module).then (compare r.node s.node)

/-- The address under which every module finds the standard library module. -/
def baseUri : String := "pkl:base"

/-- The name that an import binds when it gives none: the last segment of the address, after the
last `/` or `#` or else after the last `:`, without the extension `.pkl`. -/
def importedName (uri : String) : String :=
  let cs := uri.toList.reverse
  let ends (c : Char) : Bool :=
    if cs.any (fun d => d == '/' || d == '#') then c == '/' || c == '#' else c == ':'
  let tail := cs.takeWhile (fun c => !ends c)
  let extension := ".pkl".toList.reverse
  String.ofList
    (if extension.isPrefixOf tail then (tail.drop extension.length).reverse else tail.reverse)

end PklAnalysis
