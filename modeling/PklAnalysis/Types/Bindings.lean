import PklAnalysis.Types.Basic

/-!
# Bindings

What type parameters stand for, and the substitution of it into a type. A parameter is bound at most
once: binding it again replaces what it stood for.

`Bindings.get?_insert`, `Bindings.get?_insert_of_ne`: looking up after binding.
-/

namespace PklAnalysis

/-- Type parameters with what they stand for. -/
structure Bindings where
  entries : List (NodeRef × Ty)
  deriving Repr, Inhabited

namespace Bindings

def empty : Bindings := ⟨[]⟩

def isEmpty (b : Bindings) : Bool := b.entries.isEmpty

/-- How many parameters are bound. -/
def size (b : Bindings) : Nat := b.entries.length

def get? (b : Bindings) (p : NodeRef) : Option Ty :=
  (b.entries.find? (fun e => e.1 == p)).map (·.2)

/-- Forget what a parameter stands for. -/
def erase (b : Bindings) (p : NodeRef) : Bindings := ⟨b.entries.filter (fun e => !(e.1 == p))⟩

/-- Bind a parameter. -/
def insert (b : Bindings) (p : NodeRef) (t : Ty) : Bindings := ⟨(p, t) :: (b.erase p).entries⟩

/-- Bind several parameters; later entries win. -/
def extend (b : Bindings) (es : List (NodeRef × Ty)) : Bindings :=
  es.foldl (fun b e => b.insert e.1 e.2) b

theorem get?_empty (p : NodeRef) : empty.get? p = none := rfl

theorem get?_insert (b : Bindings) (p : NodeRef) (t : Ty) : (b.insert p t).get? p = some t := by
  simp [insert, get?]

theorem get?_insert_of_ne (b : Bindings) {p q : NodeRef} (t : Ty) (h : p ≠ q) :
    (b.insert p t).get? q = b.get? q := by
  have key : ∀ es : List (NodeRef × Ty),
      (es.filter (fun e => !(e.1 == p))).find? (fun e => e.1 == q) =
        es.find? (fun e => e.1 == q) := by
    intro es
    induction es with
    | nil => rfl
    | cons e es ih =>
      by_cases hp : e.1 = p
      · have hq : ¬ e.1 = q := fun hq => h (hp.symm.trans hq)
        rw [List.filter_cons_of_neg (by simp [hp]), List.find?_cons_of_neg (by simp [hq]), ih]
      · rw [List.filter_cons_of_pos (by simp [hp]), List.find?_cons, List.find?_cons, ih]
  simp [insert, get?, erase, h, key]

end Bindings

/-! ## Substitution -/

mutual
/-- Put what the parameters stand for in their place. A parameter keeps its own constraints, behind
those of what it stands for. -/
def Ty.bind (b : Bindings) : Ty → Ty
  | .unknown => .unknown
  | .nothing => .nothing
  | .var p c => match b.get? p with
    | some t => t.addConstraints c
    | none => .var p c
  | .cls d as c => .cls d (Ty.bindAll b as) c
  | .module i n c => .module i n c
  | .typeAlias d as c => .typeAlias d (Ty.bindAll b as) c
  | .literal s c => .literal s c
  | .union l r c => .union (l.bind b) (r.bind b) c
/-- Substitution in an argument list. -/
def Ty.bindAll (b : Bindings) : List Ty → List Ty
  | [] => []
  | a :: as => a.bind b :: Ty.bindAll b as
end

theorem Ty.bindAll_eq_map (b : Bindings) (as : List Ty) : Ty.bindAll b as = as.map (Ty.bind b) := by
  induction as with
  | nil => rfl
  | cons a as ih => simp [Ty.bindAll, ih]

mutual
theorem Ty.bind_empty : ∀ t : Ty, t.bind Bindings.empty = t
  | .unknown => rfl
  | .nothing => rfl
  | .var p c => by simp [Ty.bind, Bindings.get?_empty]
  | .cls d as c => by simp [Ty.bind, Ty.bindAll_empty as]
  | .module i n c => rfl
  | .typeAlias d as c => by simp [Ty.bind, Ty.bindAll_empty as]
  | .literal s c => rfl
  | .union l r c => by simp [Ty.bind, Ty.bind_empty l, Ty.bind_empty r]
theorem Ty.bindAll_empty : ∀ as : List Ty, Ty.bindAll Bindings.empty as = as
  | [] => rfl
  | a :: as => by simp [Ty.bindAll, Ty.bind_empty a, Ty.bindAll_empty as]
end

/-- First substitute by `inner`, then by `outer`: what `inner` binds is itself substituted, and what
only `outer` binds stays bound. -/
def Bindings.compose (inner outer : Bindings) : Bindings :=
  inner.entries.foldr (fun e b => b.insert e.1 (e.2.bind outer)) outer

end PklAnalysis
