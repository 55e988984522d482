import PklAnalysis.Decimal.Text
import PklAnalysis.Syntax.Tree
import PklAnalysis.Text.Quoted

/-!
# Printing

Expressions and types as source text. An operand that is itself a binary expression gets parentheses
only where the precedence of the operators asks for them; object bodies are abbreviated.

A node on a path that never repeats has at most `size` nodes below it, which bounds the recursion.
-/

namespace PklAnalysis

/-- How the source text writes a number with a fraction: without exponent from `1e-4` up to, and
without, `1e16`. -/
def Decimal.sourceStyle : FloatStyle := ⟨fun k => -3 ≤ k && k ≤ 16, 1⟩

namespace SyntaxTree

/-- The binding strength of postfix and unary operators. -/
def tightest : Nat := 255

/-- Whether an operand of the construct needs parentheses beside an operator of the given
precedence; `right` says that it stands to the right of it. -/
def needsParens (c : Option Construct) (precedence : Nat) (right : Bool) : Bool :=
  match c with
  | some (.binary op _ _) =>
    op.precedence < precedence || (right && op.precedence == precedence)
  | some (.ifElse _ _ _) | some (.letIn _ _ _) | some (.lambda _ _) => true
  | _ => false

/-- Text in parentheses. -/
def inParens (s : String) : String := "(" ++ s ++ ")"

variable (t : SyntaxTree)

/-- The text of a construct, given the text of the nodes it is made of. -/
def printConstruct (print : NodeIndex → String) (c : Construct) : String :=
  let list (is : List NodeIndex) : String := ", ".intercalate (is.map print)
  let args (as : Option (List NodeIndex)) : String :=
    match as with
    | none => ""
    | some is => inParens (list is)
  let operand (i : NodeIndex) (precedence : Nat) (right : Bool) : String :=
    if needsParens (t.construct? i) precedence right then inParens (print i) else print i
  match c with
  | .declaredType qualifier name is =>
    (match qualifier with | some q => q ++ "." | none => "") ++ name ++
      (if is.isEmpty then "" else "<" ++ list is ++ ">")
  | .literalType s => Text.quoted s
  | .nullableType i => print i ++ "?"
  | .unionType l r => print l ++ "|" ++ print r
  | .constrainedType i cs => print i ++ inParens (list cs)
  | .functionType ps r => inParens (list ps) ++ " -> " ++ print r
  | .groupedType i => inParens (print i)
  | .grouped i => inParens (print i)
  | .unknownType => "unknown"
  | .nothingType => "nothing"
  | .moduleType => "module"
  | .stringLit s => Text.quoted s
  | .intLit n => toString n
  | .floatLit f => Decimal.sourceStyle.text "NaN" "inf" f
  | .boolLit b => if b then "true" else "false"
  | .nullLit => "null"
  | .this => "this"
  | .outer => "outer"
  | .moduleExpr => "module"
  | .access name as => name ++ args as
  | .memberAccess r name as nullSafe =>
    operand r tightest false ++ (if nullSafe then "?." else ".") ++ name ++ args as
  | .superAccess name as => "super." ++ name ++ args as
  | .newObject type _ =>
    "new " ++ (match type with | some i => print i ++ " " | none => "") ++ "\x7b ... \x7d"
  | .amend source _ => operand source tightest false ++ " \x7b ... \x7d"
  | .binary op l r =>
    operand l op.precedence false ++ " " ++ op.symbol ++ " " ++ operand r op.precedence true
  | .unary op i => op.symbol ++ operand i tightest false
  | .nonNull i => operand i tightest false ++ "!!"
  | .typeTest i type => operand i tightest false ++ " is " ++ print type
  | .typeCast i type => operand i tightest false ++ " as " ++ print type
  | .ifElse c a b => "if (" ++ print c ++ ") " ++ print a ++ " else " ++ print b
  | .letIn p v b => "let (" ++ print p ++ " = " ++ print v ++ ") " ++ print b
  | .lambda ps b => inParens (list ps) ++ " -> " ++ print b
  | .importExpr uri isGlob => (if isGlob then "import*(" else "import(") ++ Text.quoted uri ++ ")"
  | .subscript r i => operand r tightest false ++ "[" ++ print i ++ "]"
  | .throwExpr m => "throw(" ++ print m ++ ")"
  | .param d => d.name ++ (match d.type with | some i => ": " ++ print i | none => "")
  | .typeParam d => d.name
  | c => (c.name?).getD c.kindName

/-- The text of a node whose parts nest at most `n` deep. -/
def printUpTo : Nat → NodeIndex → String
  | 0, _ => "<missing>"
  | n + 1, i =>
    match t.construct? i with
    | none => "<missing>"
    | some c => t.printConstruct (printUpTo n) c

/-- The source text of a node. -/
def print (i : NodeIndex) : String := t.printUpTo (t.size + 1) i

/-- The source texts of several nodes with a separator between them. -/
def printList (is : List NodeIndex) (separator : String) : String :=
  separator.intercalate (is.map t.print)

end SyntaxTree

end PklAnalysis
