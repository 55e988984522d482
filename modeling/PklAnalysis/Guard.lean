import PklAnalysis.Limits
import PklAnalysis.Syntax.Name

/-!
# The recursion guard

Declarations may depend on themselves. Every computation that could run into such a circle enters
under a key; a key that is already entered, or a key that would nest too deep, is refused, and the
caller goes on with a default. The guard counts the refusals, so that a result which may hold a
default is recognised.
-/

namespace PklAnalysis

/-- What a guarded computation is about. -/
inductive GuardKey where
  | expansion (decl : NodeRef)
  | superclass (cls : NodeRef)
  | expr (expr : NodeRef)
  | member (decl : NodeRef)
  | this (body : NodeRef)
  | expected (node : NodeRef)
  | constant (node : NodeRef)
  | chain (module : ModuleId)
  deriving DecidableEq, Repr, Inhabited

/-- Why a computation is refused. -/
inductive Refusal where
  | cycle
  | tooDeep
  deriving DecidableEq, Repr, Inhabited

/-- The keys that are entered, newest first, how many they are, and how many were refused so far. -/
structure Guard where
  visiting : List GuardKey := []
  depth : Nat := 0
  maxDepth : Nat := Limits.exprTypeDepth
  fallbacks : Nat := 0
  deriving Repr, Inhabited

namespace Guard

def isVisiting (g : Guard) (k : GuardKey) : Bool := g.visiting.contains k

def isEmpty (g : Guard) : Bool := g.visiting.isEmpty

/-- Count a refusal. -/
def refuse (g : Guard) : Guard := { g with fallbacks := g.fallbacks + 1 }

/-- Enter a key. The depth is looked at before the key. A caller that is refused goes on with
`g.refuse`. -/
def enter (g : Guard) (k : GuardKey) : Except Refusal Guard :=
  if g.maxDepth ≤ g.depth then .error .tooDeep
  else if g.isVisiting k then .error .cycle
  else .ok { g with visiting := k :: g.visiting, depth := g.depth + 1 }

/-- Leave a key that was entered. -/
def leave (g : Guard) (k : GuardKey) : Guard :=
  { g with visiting := g.visiting.erase k, depth := g.depth - 1 }

/-- Leaving the key that was entered last restores the guard. -/
theorem leave_of_enter {g g' : Guard} {k : GuardKey} (h : g.enter k = .ok g') : g'.leave k = g := by
  unfold enter at h
  split at h
  · cases h
  · split at h
    · cases h
    · cases h; simp [leave]

end Guard

end PklAnalysis
