/-!
# Limits

Walks over structures the user writes (class chains, `amends` chains, nested expressions) are cut
at these bounds, so that a malformed or cyclic module costs bounded work.
-/

namespace PklAnalysis.Limits

/-- How many ancestors of a node a walk up a tree visits. -/
def treeWalk : Nat := 10000

/-- How many classes a walk along `extends` clauses visits. -/
def supertypeChain : Nat := 100

/-- How many steps a walk along `amends` and `extends` clauses of modules takes. -/
def moduleChain : Nat := 100

/-- How many guarded computations may be nested. -/
def exprTypeDepth : Nat := 500

/-- How deep a subtype query goes before it assumes that the relation holds. -/
def subtypeDepth : Nat := 100

/-- How deep a type check is distributed before it assumes conformance. -/
def typeCheckDepth : Nat := 64

/-- How deep a constant expression is evaluated. -/
def constantDepth : Nat := 200

/-- How many aliases are expanded one inside the other while a type is taken apart. This bound is
the library's own and none of those published: what it stands for goes on without one, and never
comes to an end on an alias such as `typealias A = String|A(x)`. -/
def aliasNesting : Nat := 100000

/-- The documented limits in their order of publication. -/
def published : List Nat :=
  [treeWalk, supertypeChain, moduleChain, exprTypeDepth, subtypeDepth, typeCheckDepth,
    constantDepth]

end PklAnalysis.Limits
