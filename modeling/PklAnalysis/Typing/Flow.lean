import PklAnalysis.Typing.Access

/-!
# Flow facts

What the conditions around a place say about declarations. In the first branch of `if (x != null)`
the fact is that `x` is not null; in the second branch of `if (x is Int)` it is that `x` is no
`Int`. The right operand of `&&` sees what holds if the left one is true, that of `||` what holds if
it is false. A fact is about the declaration its operand refers to, so that a parameter which
shadows `x` is not narrowed by a condition on the outer `x`.
-/

namespace PklAnalysis

/-- What is known about the value of a declaration. -/
inductive FlowFact where
  | nonNull
  | is (type : Ty)
  | isNot (type : Ty)
  deriving DecidableEq, Repr, Inhabited

/-- Facts about declarations, outermost condition first. -/
abbrev FlowFacts := List (NodeRef × FlowFact)

namespace FlowFacts

/-- The facts about one declaration. -/
def about (fs : FlowFacts) (decl : NodeRef) : List FlowFact :=
  (fs.filter (fun f => f.1 == decl)).map (·.2)

/-! ## Collecting -/

/-- The declaration that a plain property access refers to, through at most `n` parentheses. -/
def subject (t : SyntaxTree) (m : ModuleId) : Nat → NodeIndex → Query (Option NodeRef)
  | 0, _ => pure none
  | n + 1, i =>
    match t.construct? i with
    | some (.access _ none) => do
      let found ← resolveAccess ⟨m, i⟩
      pure (found.map (·.decl))
    | some (.grouped inner) => subject t m n inner
    | _ => pure none

/-- The fact that one of two operands is not null because the other one is `null`. -/
def notNull (t : SyntaxTree) (m : ModuleId) (n : Nat) (left right : NodeIndex) :
    Query FlowFacts := do
  let isNull (i : NodeIndex) : Bool := t.holdsAt i (fun | .nullLit => true | _ => false)
  let decl ←
    if isNull right then subject t m n left
    else if isNull left then subject t m n right
    else pure none
  pure (decl.toList.map (fun d => (d, .nonNull)))

/-- The fact a type test states about its operand. -/
def tested (t : SyntaxTree) (m : ModuleId) (n : Nat) (fact : Ty → FlowFact)
    (operand type : NodeIndex) : Query FlowFacts := do
  match ← subject t m n operand with
  | none => pure []
  | some decl => do
    let asserted ← typeOfNode ⟨m, type⟩ .empty
    pure [(decl, fact asserted)]

/-- The facts that hold when a condition, whose parts nest at most `n` deep, has the value `holds`;
innermost first. -/
def ofCondition (t : SyntaxTree) (m : ModuleId) : Nat → Bool → NodeIndex → Query FlowFacts
  | 0, _, _ => pure []
  | n + 1, holds, i =>
    match t.construct? i with
    | some (.binary .notEq l r) => if holds then notNull t m n l r else pure []
    | some (.binary .eq l r) => if holds then pure [] else notNull t m n l r
    | some (.binary .and l r) =>
      if holds then do
        let right ← ofCondition t m n true r
        let left ← ofCondition t m n true l
        pure (right ++ left)
      else pure []
    | some (.binary .or l r) =>
      if holds then pure []
      else do
        let right ← ofCondition t m n false r
        let left ← ofCondition t m n false l
        pure (right ++ left)
    | some (.typeTest operand type) => tested t m n (if holds then .is else .isNot) operand type
    | some (.unary .not operand) => ofCondition t m n (!holds) operand
    | some (.grouped inner) => ofCondition t m n holds inner
    | _ => pure []

/-- What a construct says about its part `child`: the condition that decides whether the part is
reached, and the value it has then. -/
def conditionFor (child : NodeIndex) : Construct → Option (Bool × NodeIndex)
  | .ifElse c a b =>
    if a = child then some (true, c) else if b = child then some (false, c) else none
  | .binary .and l r => if r = child then some (true, l) else none
  | .binary .or l r => if r = child then some (false, l) else none
  | _ => none

/-- The facts of the constructs around a place, innermost first. -/
def collectFrom (t : SyntaxTree) (m : ModuleId) : NodeIndex → List NodeIndex → Query FlowFacts
  | _, [] => pure []
  | child, i :: is =>
    match t.construct? i with
    | none => collectFrom t m i is
    | some c =>
      if c.isClass || c.isModule then pure []
      else do
        let here ← match conditionFor child c with
          | some (holds, condition) => ofCondition t m (t.size + 1) holds condition
          | none => pure []
        let further ← collectFrom t m i is
        pure (here ++ further)

/-- The facts that hold at a place. -/
def collect (site : NodeRef) : Query FlowFacts := do
  match ← Query.tree site.module with
  | none => pure []
  | some t => do
    let facts ← collectFrom t site.module site.node (t.ancestors site.node)
    pure facts.reverse

/-! ## Narrowing -/

/-- The types among several that are not below another one. -/
def withoutBelow (excluded : Ty) : List Ty → Query (List Ty)
  | [] => pure []
  | t :: ts => do
    let below ← t.isSubtype excluded
    let rest ← withoutBelow excluded ts
    pure (if below then rest else t :: rest)

/-- What a fact leaves of a type. -/
def narrowBy (t : Ty) : FlowFact → Query Ty
  | .nonNull => t.nonNull
  | .is asserted => do
    if t.isUnknown then pure asserted
    else if ← asserted.isSubtype t then pure asserted
    else if ← t.isSubtype asserted then pure t
    else pure asserted
  | .isNot excluded =>
    if t.isUnknown then pure t
    else do
      let t ← t.fullyUnaliased
      let remaining ← withoutBelow excluded t.members
      Ty.anyOf remaining

/-- Narrow a type by several facts, in order. -/
def narrowByAll (t : Ty) : List FlowFact → Query Ty
  | [] => pure t
  | f :: fs => do
    let t ← narrowBy t f
    narrowByAll t fs

/-- Narrow the type of a declaration by every fact about it. -/
def narrow (fs : FlowFacts) (decl : NodeRef) (t : Ty) : Query Ty := narrowByAll t (fs.about decl)

end FlowFacts

end PklAnalysis
