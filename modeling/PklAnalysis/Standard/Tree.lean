import PklAnalysis.Standard.Table

/-!
# The syntax tree of the standard library

`Standard.tree` is the module `pkl:base` as a tree of declarations without bodies.
-/

namespace PklAnalysis.Standard

open Build

/-- `typealias name = Int(isBetween(low, high))`. -/
def rangeAlias (r : String × Int64 × Int64) : Build NodeIndex := do
  let int ← add (.declaredType none "Int" [])
  let low ← add (.intLit r.2.1)
  let high ← add (.intLit r.2.2)
  let between ← add (.access "isBetween" (some [low, high]))
  let target ← add (.constrainedType int [between])
  aliasDecl r.1 [] target

/-- `typealias UInt = Int(isPositive)`. -/
def unsignedAlias : Build NodeIndex := do
  let int ← add (.declaredType none "Int" [])
  let positive ← add (.access "isPositive" none)
  let target ← add (.constrainedType int [positive])
  aliasDecl "UInt" [] target

/-- `typealias Comparable = String|Number|Duration|DataSize`. -/
def comparableAlias : Build NodeIndex := do
  let target ←
    type (.union (.union (.union Table.string Table.number) Table.duration) Table.dataSize)
  aliasDecl "Comparable" [] target

/-- `typealias Mixin<Type> = (Type) -> Type`. -/
def mixinAlias : Build NodeIndex := do
  let param ← typeParam ("Type", .invariant)
  let target ← type (.function [Table.simple "Type"] (Table.simple "Type"))
  aliasDecl "Mixin" [param] target

/-- All declarations of the module, then the module. -/
def module : Build NodeIndex := do
  let classes ← Table.classes.mapM classDecl
  let ranges ← Table.ranges.mapM rangeAlias
  let unsigned ← unsignedAlias
  let comparable ← comparableAlias
  let mixin ← mixinAlias
  let members ← Table.moduleMembers.mapM member
  add (.module { name := some "base",
                 members := classes ++ ranges ++ [unsigned, comparable, mixin] ++ members })

/-- The tree of `pkl:base`. -/
def tree : SyntaxTree :=
  let (root, b) := module (.start baseUri ModuleId.base)
  b.finish root

end PklAnalysis.Standard
