import PklAnalysis.Constant.Member
import PklAnalysis.Syntax.Tree

/-!
# Evaluation of constant expressions

An expression is evaluated if it is made of literals, operators, `if`, and members of constants.
Inside a constraint it may also refer to the value that the constraint is about, by `this`, by the
parameter of a lambda, or through the members of the value. Whatever else it holds makes the result
unknown.

`SyntaxTree.constant?` evaluates an expression, `SyntaxTree.satisfies` a constraint.
-/

namespace PklAnalysis

/-- What names refer to besides constants: the value a constraint is about and the name of the
parameter that stands for it. -/
structure Receiver where
  value : Option Constant := none
  param : Option String := none
  deriving Inhabited

namespace Eval

def ofOption {α : Type} (x : Option α) : Eval α := OptionT.mk (.ok x)

/-- `&&` of two conditions; the right one is not looked at if the left one is false. -/
def conjunction (truth : NodeIndex → Except EvalError Truth) (l r : NodeIndex) :
    Except EvalError Truth := do
  let left ← truth l
  if left = .no then pure .no else return left.and (← truth r)

/-- `||` of two conditions; the right one is not looked at if the left one is true. -/
def disjunction (truth : NodeIndex → Except EvalError Truth) (l r : NodeIndex) :
    Except EvalError Truth := do
  let left ← truth l
  if left = .yes then pure .yes else return left.or (← truth r)

/-- A condition as a constant. -/
def ofTruth (x : Except EvalError Truth) : Eval Constant := do
  let truth ← OptionT.lift x
  let b ← ofOption truth.toBool?
  pure (.bool b)

/-- `Regex("…")`. -/
def regexOf : List Constant → Option Constant
  | [.string source] => some (.regex source)
  | _ => none

/-- The value of a construct, given the values and truths of its parts. -/
def construct (r : Receiver) (value : NodeIndex → Eval Constant)
    (truth : NodeIndex → Except EvalError Truth) : Construct → Eval Constant
  | .stringLit s => pure (.string s)
  | .intLit i => pure (.int i)
  | .floatLit f => pure (.float f)
  | .boolLit b => pure (.bool b)
  | .nullLit => pure .null
  | .this => ofOption r.value
  | .grouped inner => value inner
  | .unary op operand => do
    let v ← value operand
    ofOption (Constant.unary op v)
  | .binary .and l r => ofTruth (conjunction truth l r)
  | .binary .or l r => ofTruth (disjunction truth l r)
  | .binary .coalesce l r => do
    let left ← value l
    if left.isNull then value r else pure left
  | .binary op l r => do
    let left ← value l
    let right ← value r
    ofOption (Constant.binary op left right)
  | .ifElse c a b => do
    match ← value c with
    | .bool true => value a
    | .bool false => value b
    | _ => failure
  | .access name none =>
    if r.param = some name then ofOption r.value
    else ofOption (r.value.bind (·.property name))
  | .access name (some args) => do
    let vs ← args.mapM value
    if name = "Regex" then ofOption (regexOf vs)
    else
      match r.value with
      | some this => this.method name vs
      | none => failure
  | .memberAccess receiver name args nullSafe => do
    let v ← value receiver
    if nullSafe && v.isNull then pure .null
    else
      match args with
      | none => ofOption (v.property name)
      | some args => do
        let vs ← args.mapM value
        v.method name vs
  | _ => failure

/-- The truth of a construct that is a condition, given the truths of its parts; `other` answers for
any other construct. -/
def condition (truth : NodeIndex → Except EvalError Truth) (other : Eval Constant) :
    Option Construct → Except EvalError Truth
  | some (.binary .and l r) => conjunction truth l r
  | some (.binary .or l r) => disjunction truth l r
  | some (.unary .not operand) => do return (← truth operand).not
  | some (.grouped inner) => truth inner
  | _ => do
    match ← other.run with
    | some (.bool b) => pure (.ofBool b)
    | _ => pure .undecided

mutual
/-- The value of an expression that nests less than `n` deep. -/
def value (t : SyntaxTree) (r : Receiver) : Nat → NodeIndex → Eval Constant
  | 0, _ => failure
  | n + 1, i =>
    match t.construct? i with
    | some c => construct r (value t r n) (truth t r n) c
    | none => failure
/-- The truth of a condition that nests less than `n` deep. -/
def truth (t : SyntaxTree) (r : Receiver) : Nat → NodeIndex → Except EvalError Truth
  | 0, _ => .ok .undecided
  | n + 1, i => condition (truth t r n) (value t r n i) (t.construct? i)
end

end Eval

namespace SyntaxTree

/-- The value of an expression, if it is constant. -/
def constant? (t : SyntaxTree) (e : NodeIndex) : Except EvalError (Option Constant) :=
  (Eval.value t {} Limits.constantDepth e).run

/-- Whether a value satisfies a constraint, which is a condition or a lambda with one parameter. -/
def satisfies (t : SyntaxTree) (v : Constant) (constraint : NodeIndex) : Except EvalError Truth :=
  match t.construct? constraint with
  | some (.lambda [p] body) => Eval.truth t ⟨some v, t.name? p⟩ Limits.constantDepth body
  | some (.lambda _ _) => .ok .undecided
  | _ => Eval.truth t ⟨some v, none⟩ Limits.constantDepth constraint

end SyntaxTree

end PklAnalysis
