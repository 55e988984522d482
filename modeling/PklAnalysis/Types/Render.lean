import PklAnalysis.Syntax.Printer
import PklAnalysis.Types.Hierarchy

/-!
# Types as source text

A type is written as it would be in a module: `T?` for a union with `Null`, `(A) -> B` for
functions, constraints in parentheses behind the type they belong to. How declarations and modules
are called is up to a `Naming`.
-/

namespace PklAnalysis

/-- How declarations and modules are called. -/
structure Naming where
  declaration : NodeRef → Query String
  module : ModuleId → Option String → Query String

namespace Naming

/-- The declared name of a module, or else its address. -/
def moduleLabel (m : ModuleId) : Query String := do
  match ← Query.tree m with
  | some t => pure (t.moduleName?.getD t.uri)
  | none => pure ("<module " ++ toString m ++ ">")

/-- `module#Declaration`. -/
def full : Naming where
  declaration d := do
    let label ← moduleLabel d.module
    let name ← declName? d
    pure (label ++ "#" ++ name.getD "?")
  module m _ := moduleLabel m

/-- The part of a dotted name behind the last dot. -/
def lastSegment (s : String) : String :=
  String.ofList (s.toList.reverse.takeWhile (· != '.')).reverse

/-- Bare names; a module by the name it is referred to with. -/
def simple : Naming where
  declaration d := do
    let name ← declName? d
    pure (name.getD "?")
  module m name := match name with
    | some name => pure name
    | none => do
      match ← Query.tree m with
      | none => pure "module"
      | some t => match t.moduleName? with
        | some name => pure (lastSegment name)
        | none => pure (importedName t.uri)

end Naming

namespace Ty

/-- Whether the type is written with an arrow. -/
def isFunction : Ty → Bool
  | .cls d as _ => (std.functionArity d).isSome && !as.isEmpty
  | _ => false

def isUnion : Ty → Bool
  | .union _ _ _ => true
  | _ => false

/-- Parentheses around the text of a type that is followed by `?` or by constraints. -/
def grouped (t : Ty) (text : String) : String :=
  if t.isUnion || t.isFunction then SyntaxTree.inParens text else text

/-- The text of a constraint. -/
def renderConstraint (c : NodeRef) : Query String := do
  match ← Query.tree c.module with
  | some t => pure (t.print c.node)
  | none => pure "?"

/-- The texts of constraints, with commas between them. -/
def renderConstraints (cs : Constraints) : Query String := do
  let texts ← cs.mapM renderConstraint
  pure (", ".intercalate texts)

/-- Put the constraints of a type behind its text. -/
def withRenderedConstraints (t : Ty) (bare : String) : Query String :=
  if t.hasConstraints then do
    let cs ← renderConstraints t.constraints
    pure (t.grouped bare ++ SyntaxTree.inParens cs)
  else pure bare

/-- An alternative of a union. -/
def alternative (t : Ty) (text : String) : String :=
  if t.isFunction && !t.hasConstraints then SyntaxTree.inParens text else text

mutual
/-- The text of a type. -/
def render (names : Naming) : Ty → Query String
  | .unknown => pure "unknown"
  | .nothing => pure "nothing"
  | .var p c => do
    let name ← declName? p
    withRenderedConstraints (.var p c) (name.getD "?")
  | .literal s c => withRenderedConstraints (.literal s c) (Text.quoted s)
  | .module m n c => do
    let bare ← names.module m n
    withRenderedConstraints (.module m n c) bare
  | .cls d as c => do
    let texts ← renderAll names as
    let bare ←
      if (Ty.cls d as c).isFunction then
        pure (SyntaxTree.inParens (", ".intercalate texts.dropLast) ++ " -> " ++ texts.getLastD "")
      else do
        let name ← names.declaration d
        pure (name ++ renderedArgs texts)
    withRenderedConstraints (.cls d as c) bare
  | .typeAlias d as c => do
    let name ← names.declaration d
    let texts ← renderAll names as
    withRenderedConstraints (.typeAlias d as c) (name ++ renderedArgs texts)
  | .union l r c => do
    let bare ←
      if std.isNullClass l && !std.isNullClass r then do
        let text ← render names r
        pure (r.grouped text ++ "?")
      else if std.isNullClass r && !std.isNullClass l then do
        let text ← render names l
        pure (l.grouped text ++ "?")
      else do
        let left ← render names l
        let right ← render names r
        pure (l.alternative left ++ "|" ++ r.alternative right)
    withRenderedConstraints (.union l r c) bare
/-- The texts of several types. -/
def renderAll (names : Naming) : List Ty → Query (List String)
  | [] => pure []
  | t :: ts => do
    let text ← render names t
    let texts ← renderAll names ts
    pure (text :: texts)
/-- Type arguments in angle brackets, if there are any. -/
def renderedArgs (texts : List String) : String :=
  if texts.isEmpty then "" else "<" ++ ", ".intercalate texts ++ ">"
end

/-- The text of a type for messages, with bare names. -/
def display (t : Ty) : Query String := t.render .simple

end Ty

end PklAnalysis
