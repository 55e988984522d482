import PklAnalysis.Syntax.Printer
import Mathlib.Data.List.Basic

/-!
# Expressions as trees

The expressions made of names, operators, parentheses, `if`, `let` and lambdas, as trees and as the
sequence of lexemes that a tree stands for. Parentheses are part of the tree, so a tree says where
every pair of them stands; `bare` forgets them.

Two trees with the same lexemes and the same tree without parentheses are the same tree
(`ExprTree.eq_of_lexemes`): how many parentheses a lexeme stands in tells where they open and close.
-/

namespace PklAnalysis

/-! ## Lexemes -/

/-- The words and signs of an expression. The minus sign is an operator whichever way it is used. -/
inductive Lexeme where
  | name (s : String)
  | ifWord
  | elseWord
  | letWord
  | op (o : BinaryOp)
  | bang
  | assign
  | arrow
  | comma
  | opening
  | closing
  | stray (c : Char)
  deriving DecidableEq, Repr

namespace Lexeme

def ofUnary : UnaryOp → Lexeme
  | .neg => .op .sub
  | .not => .bang

/-- Names with commas between them. -/
def names : List String → List Lexeme
  | [] => []
  | [x] => [.name x]
  | x :: xs => .name x :: .comma :: names xs

end Lexeme

/-! ## Trees -/

/-- An expression with its parentheses. -/
inductive ExprTree where
  | name (s : String)
  | unary (op : UnaryOp) (e : ExprTree)
  | binary (op : BinaryOp) (l r : ExprTree)
  | group (e : ExprTree)
  | ifElse (c a b : ExprTree)
  | letIn (x : String) (v b : ExprTree)
  | lambda (xs : List String) (b : ExprTree)
  deriving DecidableEq, Repr

namespace ExprTree

/-- The tree without its parentheses. -/
def bare : ExprTree → ExprTree
  | name s => name s
  | unary op e => unary op e.bare
  | binary op l r => binary op l.bare r.bare
  | group e => e.bare
  | ifElse c a b => ifElse c.bare a.bare b.bare
  | letIn x v b => letIn x v.bare b.bare
  | lambda xs b => lambda xs b.bare

/-- What stands for the tree, from left to right. -/
def lexemes : ExprTree → List Lexeme
  | name s => [.name s]
  | unary op e => .ofUnary op :: e.lexemes
  | binary op l r => l.lexemes ++ .op op :: r.lexemes
  | group e => .opening :: (e.lexemes ++ [.closing])
  | ifElse c a b =>
    .ifWord :: .opening ::
      (c.lexemes ++ .closing :: (a.lexemes ++ .elseWord :: b.lexemes))
  | letIn x v b =>
    .letWord :: .opening :: .name x :: .assign :: (v.lexemes ++ .closing :: b.lexemes)
  | lambda xs b => .opening :: (Lexeme.names xs ++ .closing :: .arrow :: b.lexemes)

/-- How many levels of constructs the tree has. -/
def height : ExprTree → Nat
  | name _ => 1
  | unary _ e => e.height + 1
  | binary _ l r => max l.height r.height + 1
  | group e => e.height + 1
  | ifElse c a b => max c.height (max a.height b.height) + 1
  | letIn _ v b => max v.height b.height + 1
  | lambda _ b => b.height + 1

/-- Whether the construct goes on as far to the right as it can. -/
def isOpen : ExprTree → Bool
  | ifElse _ _ _ | letIn _ _ _ | lambda _ _ => true
  | _ => false

def isBinary : ExprTree → Bool
  | binary _ _ _ => true
  | _ => false

theorem height_pos (e : ExprTree) : 0 < e.height := by
  cases e <;> simp only [height] <;> omega

theorem height_le_length (e : ExprTree) : e.height ≤ e.lexemes.length := by
  induction e with
  | name s => exact Nat.le_refl 1
  | unary op e ih => simpa only [height, lexemes, List.length_cons] using Nat.succ_le_succ ih
  | binary op l r ihl ihr =>
    simp only [height, lexemes, List.length_append, List.length_cons]
    omega
  | group e ih =>
    simp only [height, lexemes, List.length_append, List.length_cons]
    omega
  | ifElse c a b ihc iha ihb =>
    simp only [height, lexemes, List.length_append, List.length_cons]
    omega
  | letIn x v b ihv ihb =>
    simp only [height, lexemes, List.length_append, List.length_cons]
    omega
  | lambda xs b ih =>
    simp only [height, lexemes, List.length_append, List.length_cons]
    omega

/-! ## Where the parentheses stand -/

end ExprTree

namespace Lexeme

/-- In how many parentheses each lexeme stands that is none itself, counted from the start `d`. -/
def depths (d : Nat) : List Lexeme → List Nat
  | [] => []
  | .opening :: ls => depths (d + 1) ls
  | .closing :: ls => depths (d - 1) ls
  | _ :: ls => d :: depths d ls

theorem depths_names (d : Nat) (xs : List String) (ls : List Lexeme) :
    depths d (names xs ++ ls) = (names xs).map (fun _ => d) ++ depths d ls := by
  induction xs using names.induct with
  | case1 => rfl
  | case2 x => rfl
  | case3 x xs hx ih =>
    rw [names.eq_3 x xs hx]
    simp only [List.cons_append, depths, List.map_cons, ih]

end Lexeme

namespace ExprTree

open Lexeme (depths)

/-- In how many parentheses the lexemes of a tree stand that stands in `d` pairs itself. -/
def depthsIn (d : Nat) : ExprTree → List Nat
  | name _ => [d]
  | unary _ e => d :: e.depthsIn d
  | binary _ l r => l.depthsIn d ++ d :: r.depthsIn d
  | group e => e.depthsIn (d + 1)
  | ifElse c a b => d :: (c.depthsIn (d + 1) ++ (a.depthsIn d ++ d :: b.depthsIn d))
  | letIn _ v b => d :: (d + 1) :: (d + 1) :: (v.depthsIn (d + 1) ++ b.depthsIn d)
  | lambda xs b => (Lexeme.names xs).map (fun _ => d + 1) ++ d :: b.depthsIn d

theorem depths_lexemes (e : ExprTree) :
    ∀ d ls, depths d (e.lexemes ++ ls) = e.depthsIn d ++ depths d ls := by
  induction e with
  | name s => exact fun _ _ => rfl
  | unary op e ih =>
    intro d ls
    cases op <;> simp only [lexemes, Lexeme.ofUnary, List.cons_append, depths, ih, depthsIn]
  | binary op l r ihl ihr =>
    intro d ls
    simp only [lexemes, List.append_assoc, List.cons_append, ihl, depths, ihr, depthsIn]
  | group e ih =>
    intro d ls
    simp only [lexemes, List.append_assoc, List.cons_append, List.nil_append, ih, depths, depthsIn,
      Nat.add_sub_cancel]
  | ifElse c a b ihc iha ihb =>
    intro d ls
    simp only [lexemes, List.append_assoc, List.cons_append, depths, ihc, iha, ihb, depthsIn,
      Nat.add_sub_cancel]
  | letIn x v b ihv ihb =>
    intro d ls
    simp only [lexemes, List.append_assoc, List.cons_append, depths, ihv, ihb, depthsIn,
      Nat.add_sub_cancel]
  | lambda xs b ih =>
    intro d ls
    simp only [lexemes, List.append_assoc, List.cons_append, depths, Lexeme.depths_names, ih,
      depthsIn, Nat.add_sub_cancel]

theorem depthsIn_eq_depths (e : ExprTree) (d : Nat) : e.depthsIn d = depths d e.lexemes := by
  have h := e.depths_lexemes d []
  rw [List.append_nil] at h
  rw [h]
  exact (List.append_nil _).symm

theorem le_of_mem_depthsIn (e : ExprTree) : ∀ d, ∀ k ∈ e.depthsIn d, d ≤ k := by
  induction e with
  | name s => simp [depthsIn]
  | unary op e ih =>
    intro d k hk
    rcases List.mem_cons.1 hk with rfl | hk
    · exact Nat.le_refl k
    · exact ih d k hk
  | binary op l r ihl ihr =>
    intro d k hk
    simp only [depthsIn, List.mem_append, List.mem_cons] at hk
    rcases hk with hk | rfl | hk
    · exact ihl d k hk
    · exact Nat.le_refl k
    · exact ihr d k hk
  | group e ih =>
    intro d k hk
    exact Nat.le_of_succ_le (ih (d + 1) k hk)
  | ifElse c a b ihc iha ihb =>
    intro d k hk
    simp only [depthsIn, List.mem_append, List.mem_cons] at hk
    rcases hk with rfl | hk | hk | rfl | hk
    · exact Nat.le_refl k
    · exact Nat.le_of_succ_le (ihc (d + 1) k hk)
    · exact iha d k hk
    · exact Nat.le_refl k
    · exact ihb d k hk
  | letIn x v b ihv ihb =>
    intro d k hk
    simp only [depthsIn, List.mem_append, List.mem_cons] at hk
    rcases hk with rfl | rfl | rfl | hk | hk
    · exact Nat.le_refl k
    · exact Nat.le_succ d
    · exact Nat.le_succ d
    · exact Nat.le_of_succ_le (ihv (d + 1) k hk)
    · exact ihb d k hk
  | lambda xs b ih =>
    intro d k hk
    simp only [depthsIn, List.mem_append, List.mem_map, List.mem_cons] at hk
    rcases hk with ⟨_, -, rfl⟩ | rfl | hk
    · exact Nat.le_succ d
    · exact Nat.le_refl k
    · exact ih d k hk

/-- A tree that is no pair of parentheses has a lexeme that stands in no parentheses of the tree. -/
theorem mem_depthsIn_or_group (e : ExprTree) (d : Nat) :
    d ∈ e.depthsIn d ∨ ∃ x, e = group x := by
  cases e with
  | group e => exact .inr ⟨e, rfl⟩
  | _ => exact .inl (by simp [depthsIn])

theorem not_mem_depthsIn_group (e : ExprTree) (d : Nat) : d ∉ (group e).depthsIn d := by
  intro h
  have := e.le_of_mem_depthsIn (d + 1) d h
  omega

/-- How many lexemes there are does not depend on the parentheses. -/
theorem length_depthsIn_of_bare {x y : ExprTree} (h : x.bare = y.bare) (d k : Nat) :
    (x.depthsIn d).length = (y.depthsIn k).length := by
  have key : ∀ (e : ExprTree) (d k : Nat), (e.depthsIn d).length = (e.bare.depthsIn k).length := by
    intro e
    induction e with
    | group e ih => exact fun d k => ih (d + 1) k
    | name s => exact fun _ _ => rfl
    | unary op e ih =>
      intro d k
      simp only [bare, depthsIn, List.length_cons]
      rw [ih d k]
    | binary op l r ihl ihr =>
      intro d k
      simp only [bare, depthsIn, List.length_append, List.length_cons]
      rw [ihl d k, ihr d k]
    | ifElse c a b ihc iha ihb =>
      intro d k
      simp only [bare, depthsIn, List.length_append, List.length_cons]
      rw [ihc (d + 1) (k + 1), iha d k, ihb d k]
    | letIn x v b ihv ihb =>
      intro d k
      simp only [bare, depthsIn, List.length_append, List.length_cons]
      rw [ihv (d + 1) (k + 1), ihb d k]
    | lambda xs b ih =>
      intro d k
      simp only [bare, depthsIn, List.length_append, List.length_cons, List.length_map]
      rw [ih d k]
  rw [key x d d, key y k d, h]

/-- A tree is known from its tree without parentheses and from how many of them each lexeme stands
in. -/
theorem eq_of_depthsIn {x : ExprTree} :
    ∀ {y : ExprTree} {d : Nat}, x.bare = y.bare → x.depthsIn d = y.depthsIn d → x = y := by
  -- Where only one side has parentheses around it, the other side has a lexeme that stands in
  -- fewer of them.
  have outside : ∀ {x y : ExprTree} {d : Nat}, x.depthsIn d = (group y).depthsIn d →
      ∃ z, x = group z := by
    intro x y d h
    rcases x.mem_depthsIn_or_group d with hd | hd
    · rw [h] at hd
      exact absurd hd (not_mem_depthsIn_group y d)
    · exact hd
  induction x with
  | group x ih =>
    intro y d hb hd
    obtain ⟨z, rfl⟩ := outside hd.symm
    exact congrArg group (ih hb hd)
  | name s =>
    intro y d hb hd
    cases y with
    | group y => obtain ⟨z, hz⟩ := outside hd; cases hz
    | name s' => exact hb
    | _ => cases hb
  | unary op e ih =>
    intro y d hb hd
    cases y with
    | group y => obtain ⟨z, hz⟩ := outside hd; cases hz
    | unary op' e' =>
      simp only [bare, unary.injEq] at hb
      obtain ⟨rfl, hb⟩ := hb
      rw [ih hb (List.cons.inj hd).2]
    | _ => cases hb
  | binary op l r ihl ihr =>
    intro y d hb hd
    cases y with
    | group y => obtain ⟨z, hz⟩ := outside hd; cases hz
    | binary op' l' r' =>
      simp only [bare, binary.injEq] at hb
      obtain ⟨rfl, hl, hr⟩ := hb
      obtain ⟨dl, dr⟩ := List.append_inj hd (length_depthsIn_of_bare hl d d)
      rw [ihl hl dl, ihr hr (List.cons.inj dr).2]
    | _ => cases hb
  | ifElse c a b ihc iha ihb =>
    intro y d hb hd
    cases y with
    | group y => obtain ⟨z, hz⟩ := outside hd; cases hz
    | ifElse c' a' b' =>
      simp only [bare, ifElse.injEq] at hb
      obtain ⟨hc, ha, hb⟩ := hb
      obtain ⟨dc, dab⟩ :=
        List.append_inj (List.cons.inj hd).2 (length_depthsIn_of_bare hc (d + 1) (d + 1))
      obtain ⟨da, db⟩ := List.append_inj dab (length_depthsIn_of_bare ha d d)
      rw [ihc hc dc, iha ha da, ihb hb (List.cons.inj db).2]
    | _ => cases hb
  | letIn x v b ihv ihb =>
    intro y d hb hd
    cases y with
    | group y => obtain ⟨z, hz⟩ := outside hd; cases hz
    | letIn x' v' b' =>
      simp only [bare, letIn.injEq] at hb
      obtain ⟨rfl, hv, hb⟩ := hb
      simp only [depthsIn, List.cons.injEq, true_and] at hd
      obtain ⟨dv, db⟩ := List.append_inj hd (length_depthsIn_of_bare hv (d + 1) (d + 1))
      rw [ihv hv dv, ihb hb db]
    | _ => cases hb
  | lambda xs b ih =>
    intro y d hb hd
    cases y with
    | group y => obtain ⟨z, hz⟩ := outside hd; cases hz
    | lambda xs' b' =>
      simp only [bare, lambda.injEq] at hb
      obtain ⟨rfl, hb⟩ := hb
      rw [ih hb (List.cons.inj (List.append_cancel_left hd)).2]
    | _ => cases hb

theorem eq_of_lexemes {x y : ExprTree} (hb : x.bare = y.bare) (hl : x.lexemes = y.lexemes) :
    x = y := by
  apply eq_of_depthsIn hb (d := 0)
  rw [depthsIn_eq_depths, depthsIn_eq_depths, hl]

end ExprTree

end PklAnalysis
