import PklAnalysis.Base
import PklAnalysis.Proofs.Syntax.Binders

/-!
# The tree of the standard library

Indexing a tree keeps it, so that the index of the standard library holds the tree that was built
(`std_tree_eq`). This tree is lexical.
-/

namespace PklAnalysis

/-- Indexing a tree keeps it. -/
theorem Base.tree_of_ofTree {t : SyntaxTree} {b : Base} (h : ofTree t = .ok b) : b.tree = t := by
  have step : ∀ {α : Type} {x : Except BaseError α} {f : α → Except BaseError Base},
      (∀ a, f a = .ok b → b.tree = t) → (x >>= f) = .ok b → b.tree = t := by
    intro α x f hf hx
    cases x with
    | error e => cases hx
    | ok a => exact hf a hx
  unfold ofTree at h
  split at h
  · cases h
  · revert h
    repeat refine step (fun _ => ?_)
    intro h
    cases h
    rfl

namespace Standard

theorem isOk_ofTree : (Base.ofTree tree).isOk = true := by decide +kernel

theorem std_tree_eq : std.tree = tree := by
  have ok := isOk_ofTree
  cases h : Base.ofTree tree with
  | ok b =>
    have index : std = b := by
      unfold std
      rw [h]
    rw [index]
    exact Base.tree_of_ofTree h
  | error e =>
    rw [h] at ok
    cases ok

theorem linked_std : std.tree.Linked := by
  rw [std_tree_eq, tree]
  split
  exact TreeBuilder.linked_finish ..

/-- The standard library is lexical. -/
theorem lexical_std : std.tree.Lexical := by
  have linked := linked_std
  -- the tree is computed faster than its index
  rw [std_tree_eq] at linked ⊢
  refine SyntaxTree.lexical_of_ordered linked ?_ ?_ ?_ ?_
  · decide +kernel
  · decide +kernel
  · decide +kernel
  · decide +kernel

end Standard

end PklAnalysis
