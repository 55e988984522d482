import PklAnalysis.Syntax.Name

/-!
# Types

The types of the analysis, with decidable structural equality. A constraint is named by the node of
its expression; constraint lists are kept in the order in which they were attached.

`Ty.constraints_withConstraints`, `Ty.addConstraints_append`: the constraint list behaves like a
list under replacement and extension, except for `unknown` and `nothing`, which carry none.
-/

namespace PklAnalysis

/-- The nodes of the constraint expressions attached to a type. -/
abbrev Constraints := List NodeRef

/-- `unknown` means that nothing is known: it is above and below every type. `nothing` has no
values. A module is named by the topmost module of its `amends` chain. -/
inductive Ty where
  | unknown
  | nothing
  | var (param : NodeRef) (constraints : Constraints)
  | cls (decl : NodeRef) (args : List Ty) (constraints : Constraints)
  | module (id : ModuleId) (name : Option String) (constraints : Constraints)
  | typeAlias (decl : NodeRef) (args : List Ty) (constraints : Constraints)
  | literal (text : String) (constraints : Constraints)
  | union (left right : Ty) (constraints : Constraints)
  deriving Repr, Inhabited

namespace Ty

/-! ## Equality -/

mutual
/-- Structural equality. -/
def same : Ty → Ty → Bool
  | .unknown, .unknown => true
  | .nothing, .nothing => true
  | .var p c, .var q d => p == q && c == d
  | .cls n as c, .cls m bs d => n == m && sameAll as bs && c == d
  | .module i n c, .module j m d => i == j && n == m && c == d
  | .typeAlias n as c, .typeAlias m bs d => n == m && sameAll as bs && c == d
  | .literal s c, .literal t d => s == t && c == d
  | .union l r c, .union m s d => same l m && same r s && c == d
  | _, _ => false
/-- Structural equality of argument lists. -/
def sameAll : List Ty → List Ty → Bool
  | [], [] => true
  | a :: as, b :: bs => same a b && sameAll as bs
  | _, _ => false
end

mutual
theorem eq_of_same : ∀ (a b : Ty), same a b = true → a = b
  | .unknown, b, h => by cases b <;> simp_all [same]
  | .nothing, b, h => by cases b <;> simp_all [same]
  | .var p c, b, h => by cases b <;> simp_all [same]
  | .cls n as c, b, h => by
    cases b <;> simp only [same, Bool.and_eq_true, beq_iff_eq, Bool.false_eq_true] at h
    next m bs d => rw [h.1.1, eq_of_sameAll as bs h.1.2, h.2]
  | .module i n c, b, h => by cases b <;> simp_all [same]
  | .typeAlias n as c, b, h => by
    cases b <;> simp only [same, Bool.and_eq_true, beq_iff_eq, Bool.false_eq_true] at h
    next m bs d => rw [h.1.1, eq_of_sameAll as bs h.1.2, h.2]
  | .literal s c, b, h => by cases b <;> simp_all [same]
  | .union l r c, b, h => by
    cases b <;> simp only [same, Bool.and_eq_true, beq_iff_eq, Bool.false_eq_true] at h
    next m s d => rw [eq_of_same l m h.1.1, eq_of_same r s h.1.2, h.2]
theorem eq_of_sameAll : ∀ (as bs : List Ty), sameAll as bs = true → as = bs
  | [], bs, h => by cases bs <;> simp_all [sameAll]
  | a :: as, bs, h => by
    cases bs <;> simp only [sameAll, Bool.and_eq_true, Bool.false_eq_true] at h
    next b bs => rw [eq_of_same a b h.1, eq_of_sameAll as bs h.2]
end

mutual
theorem same_refl : ∀ a : Ty, same a a = true
  | .unknown => rfl
  | .nothing => rfl
  | .var _ _ => by simp [same]
  | .cls _ as _ => by simp [same, sameAll_refl as]
  | .module _ _ _ => by simp [same]
  | .typeAlias _ as _ => by simp [same, sameAll_refl as]
  | .literal _ _ => by simp [same]
  | .union l r _ => by simp [same, same_refl l, same_refl r]
theorem sameAll_refl : ∀ as : List Ty, sameAll as as = true
  | [] => rfl
  | a :: as => by simp [sameAll, same_refl a, sameAll_refl as]
end

theorem same_iff {a b : Ty} : same a b = true ↔ a = b :=
  ⟨eq_of_same a b, fun h => h ▸ same_refl a⟩

instance : DecidableEq Ty := fun _ _ => decidable_of_iff _ same_iff

/-! ## Shape -/

def isUnknown : Ty → Bool
  | .unknown => true
  | _ => false

def isNothing : Ty → Bool
  | .nothing => true
  | _ => false

def isAlias : Ty → Bool
  | .typeAlias _ _ _ => true
  | _ => false

/-- The declaration behind a class type. -/
def classDecl? : Ty → Option NodeRef
  | .cls d _ _ => some d
  | _ => none

/-- The type arguments of a class or an alias type. -/
def args : Ty → List Ty
  | .cls _ as _ => as
  | .typeAlias _ as _ => as
  | _ => []

/-- The types a union is made of, from left to right; any other type is its own only member. -/
def members : Ty → List Ty
  | .union l r _ => l.members ++ r.members
  | t => [t]

/-! ## Constraints -/

def constraints : Ty → Constraints
  | .unknown => []
  | .nothing => []
  | .var _ c => c
  | .cls _ _ c => c
  | .module _ _ c => c
  | .typeAlias _ _ c => c
  | .literal _ c => c
  | .union _ _ c => c

def hasConstraints (t : Ty) : Bool := !t.constraints.isEmpty

/-- Replace the constraints. -/
def withConstraints : Ty → Constraints → Ty
  | .unknown, _ => .unknown
  | .nothing, _ => .nothing
  | .var p _, c => .var p c
  | .cls d as _, c => .cls d as c
  | .module i n _, c => .module i n c
  | .typeAlias d as _, c => .typeAlias d as c
  | .literal s _, c => .literal s c
  | .union l r _, c => .union l r c

/-- Attach further constraints behind the ones that are there. -/
def addConstraints (t : Ty) (c : Constraints) : Ty := t.withConstraints (t.constraints ++ c)

def withoutConstraints (t : Ty) : Ty := t.withConstraints []

theorem withConstraints_constraints (t : Ty) : t.withConstraints t.constraints = t := by
  cases t <;> rfl

theorem constraints_withConstraints (t : Ty) (c : Constraints) :
    (t.withConstraints c).constraints = if t.isUnknown || t.isNothing then [] else c := by
  cases t <;> rfl

theorem withConstraints_withConstraints (t : Ty) (c d : Constraints) :
    (t.withConstraints c).withConstraints d = t.withConstraints d := by
  cases t <;> rfl

theorem addConstraints_nil (t : Ty) : t.addConstraints [] = t := by
  simp [addConstraints, withConstraints_constraints]

theorem addConstraints_append (t : Ty) (c d : Constraints) :
    (t.addConstraints c).addConstraints d = t.addConstraints (c ++ d) := by
  cases t <;> simp [addConstraints, withConstraints, constraints]

end Ty

/-! ## Class types -/

/-- A class with its type arguments: the part of a class type that the walk along superclasses
needs. -/
structure ClassTy where
  decl : NodeRef
  args : List Ty
  constraints : Constraints := []
  deriving Repr, Inhabited

def ClassTy.toTy (c : ClassTy) : Ty := .cls c.decl c.args c.constraints

/-- The type argument at a position. -/
def ClassTy.arg (c : ClassTy) (position : Nat) : Ty := (c.args[position]?).getD .unknown

/-- The class behind a type that is one. -/
def Ty.class? : Ty → Option ClassTy
  | .cls d as c => some ⟨d, as, c⟩
  | _ => none

end PklAnalysis
