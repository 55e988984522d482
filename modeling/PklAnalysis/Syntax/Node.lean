import PklAnalysis.Syntax.Name

/-!
# Nodes

What a node of a syntax tree can be, with the indices of the nodes it is made of. Declarations,
members of object bodies, types and expressions share one table.
-/

namespace PklAnalysis

/-! ## Modifiers -/

inductive Modifier where
  | abstractKw
  | openKw
  | localKw
  | hiddenKw
  | fixedKw
  | constKw
  | externalKw
  deriving DecidableEq, Repr, Inhabited

namespace Modifier

/-- Every modifier, in the order of their bits. -/
def all : List Modifier := [abstractKw, openKw, localKw, hiddenKw, fixedKw, constKw, externalKw]

/-- How the modifier is written. -/
def keyword : Modifier → String
  | abstractKw => "abstract"
  | openKw => "open"
  | localKw => "local"
  | hiddenKw => "hidden"
  | fixedKw => "fixed"
  | constKw => "const"
  | externalKw => "external"

def ofKeyword? (s : String) : Option Modifier := all.find? (fun m => m.keyword == s)

/-- The set of modifiers as a bit mask. -/
def mask (ms : List Modifier) : Nat :=
  (all.zipIdx.filter (fun p => ms.contains p.1)).foldl (fun n p => n + 1 <<< p.2) 0

end Modifier

/-- A modifier as it is written at some place. -/
structure ModifierToken where
  modifier : Modifier
  span : Span
  deriving DecidableEq, Repr, Inhabited

/-! ## Small parts of declarations -/

/-- Whether a type parameter is written with `in`, with `out`, or with neither. -/
inductive Variance where
  | invariant
  | contravariant
  | covariant
  deriving DecidableEq, Repr, Inhabited

def Variance.name : Variance → String
  | invariant => "invariant"
  | contravariant => "in"
  | covariant => "out"

inductive ClauseKind where
  | amending
  | extending
  deriving DecidableEq, Repr, Inhabited

def ClauseKind.keyword : ClauseKind → String
  | .amending => "amends"
  | .extending => "extends"

/-- The `amends` or `extends` clause of a module. -/
structure Clause where
  kind : ClauseKind
  uri : String
  span : Span
  deriving DecidableEq, Repr, Inhabited

/-! ## Operators -/

inductive BinaryOp where
  | add
  | sub
  | mul
  | div
  | intDiv
  | rem
  | pow
  | eq
  | notEq
  | lt
  | le
  | gt
  | ge
  | and
  | or
  | coalesce
  | pipe
  deriving DecidableEq, Repr, Inhabited

namespace BinaryOp

def all : List BinaryOp :=
  [add, sub, mul, div, intDiv, rem, pow, eq, notEq, lt, le, gt, ge, and, or, coalesce, pipe]

/-- How the operator is written. -/
def symbol : BinaryOp → String
  | add => "+"
  | sub => "-"
  | mul => "*"
  | div => "/"
  | intDiv => "~/"
  | rem => "%"
  | pow => "**"
  | eq => "=="
  | notEq => "!="
  | lt => "<"
  | le => "<="
  | gt => ">"
  | ge => ">="
  | and => "&&"
  | or => "||"
  | coalesce => "??"
  | pipe => "|>"

def ofSymbol? (s : String) : Option BinaryOp := all.find? (fun o => o.symbol == s)

def isComparison : BinaryOp → Bool
  | eq | notEq | lt | le | gt | ge => true
  | _ => false

/-- How tightly the operator binds; a larger number binds tighter. -/
def precedence : BinaryOp → Nat
  | coalesce => 1
  | pipe => 2
  | or => 3
  | and => 4
  | eq | notEq => 5
  | lt | le | gt | ge => 6
  | add | sub => 7
  | mul | div | intDiv | rem => 8
  | pow => 9

end BinaryOp

inductive UnaryOp where
  | neg
  | not
  deriving DecidableEq, Repr, Inhabited

def UnaryOp.symbol : UnaryOp → String
  | .neg => "-"
  | .not => "!"

/-! ## Declarations -/

structure ModuleDecl where
  name : Option String := none
  modifiers : List ModifierToken := []
  clause : Option Clause := none
  imports : List NodeIndex := []
  members : List NodeIndex := []
  deriving Repr, Inhabited

structure ImportDecl where
  uri : String
  localName : Option String := none
  isGlob : Bool := false
  deriving Repr, Inhabited

/-- The name that the import binds. -/
def ImportDecl.name (d : ImportDecl) : String := d.localName.getD (importedName d.uri)

structure ClassDecl where
  name : String
  modifiers : List ModifierToken := []
  typeParams : List NodeIndex := []
  superclass : Option NodeIndex := none
  members : List NodeIndex := []
  deriving Repr, Inhabited

structure AliasDecl where
  name : String
  modifiers : List ModifierToken := []
  typeParams : List NodeIndex := []
  target : NodeIndex
  deriving Repr, Inhabited

structure TypeParamDecl where
  name : String
  variance : Variance := .invariant
  deriving Repr, Inhabited

/-- A property of a class, a module or an object body. -/
structure PropertyDecl where
  name : String
  modifiers : List ModifierToken := []
  type : Option NodeIndex := none
  value : Option NodeIndex := none
  bodies : List NodeIndex := []
  deriving Repr, Inhabited

structure MethodDecl where
  name : String
  modifiers : List ModifierToken := []
  typeParams : List NodeIndex := []
  params : List NodeIndex := []
  returnType : Option NodeIndex := none
  body : Option NodeIndex := none
  deriving Repr, Inhabited

/-- A parameter of a method, a lambda, a `let` or a generator. -/
structure ParamDecl where
  name : String
  type : Option NodeIndex := none
  deriving Repr, Inhabited

/-! ## Constructs -/

/-- The construct a node stands for. An access without an argument list reads a property; with
one, be it empty, it calls a method. -/
inductive Construct where
  | module (d : ModuleDecl)
  | importClause (d : ImportDecl)
  | classDecl (d : ClassDecl)
  | aliasDecl (d : AliasDecl)
  | typeParam (d : TypeParamDecl)
  | property (d : PropertyDecl)
  | method (d : MethodDecl)
  | param (d : ParamDecl)
  | objectBody (params members : List NodeIndex)
  | element (value : NodeIndex)
  | entry (key : NodeIndex) (value : Option NodeIndex) (bodies : List NodeIndex)
  | forGenerator (key : Option NodeIndex) (value iterable body : NodeIndex)
  | whenGenerator (condition body : NodeIndex) (elseBody : Option NodeIndex)
  | spread (source : NodeIndex) (nullSafe : Bool)
  | declaredType (qualifier : Option String) (name : String) (args : List NodeIndex)
  | literalType (text : String)
  | nullableType (inner : NodeIndex)
  | unionType (left right : NodeIndex)
  | constrainedType (inner : NodeIndex) (constraints : List NodeIndex)
  | functionType (params : List NodeIndex) (result : NodeIndex)
  | groupedType (inner : NodeIndex)
  | unknownType
  | nothingType
  | moduleType
  | stringLit (text : String)
  | intLit (value : Int64)
  | floatLit (value : Float)
  | boolLit (value : Bool)
  | nullLit
  | this
  | outer
  | moduleExpr
  | access (name : String) (args : Option (List NodeIndex))
  | memberAccess (receiver : NodeIndex) (name : String) (args : Option (List NodeIndex))
      (nullSafe : Bool)
  | superAccess (name : String) (args : Option (List NodeIndex))
  | newObject (type : Option NodeIndex) (body : NodeIndex)
  | amend (source body : NodeIndex)
  | binary (op : BinaryOp) (left right : NodeIndex)
  | unary (op : UnaryOp) (operand : NodeIndex)
  | nonNull (operand : NodeIndex)
  | typeTest (operand type : NodeIndex)
  | typeCast (operand type : NodeIndex)
  | ifElse (condition whenTrue whenFalse : NodeIndex)
  | letIn (binder value body : NodeIndex)
  | lambda (params : List NodeIndex) (body : NodeIndex)
  | importExpr (uri : String) (isGlob : Bool)
  | subscript (receiver index : NodeIndex)
  | grouped (inner : NodeIndex)
  | throwExpr (message : NodeIndex)
  deriving Repr, Inhabited

namespace Construct

/-- The nodes a construct is made of, in source order. -/
def children : Construct → List NodeIndex
  | .module d => d.imports ++ d.members
  | .importClause _ => []
  | .classDecl d => d.typeParams ++ d.superclass.toList ++ d.members
  | .aliasDecl d => d.typeParams ++ [d.target]
  | .typeParam _ => []
  | .property d => d.type.toList ++ d.value.toList ++ d.bodies
  | .method d => d.typeParams ++ d.params ++ d.returnType.toList ++ d.body.toList
  | .param d => d.type.toList
  | .objectBody params members => params ++ members
  | .element value => [value]
  | .entry key value bodies => key :: (value.toList ++ bodies)
  | .forGenerator key value iterable body => key.toList ++ [value, iterable, body]
  | .whenGenerator condition body elseBody => condition :: body :: elseBody.toList
  | .spread source _ => [source]
  | .declaredType _ _ args => args
  | .literalType _ => []
  | .nullableType inner => [inner]
  | .unionType left right => [left, right]
  | .constrainedType inner constraints => inner :: constraints
  | .functionType params result => params ++ [result]
  | .groupedType inner => [inner]
  | .unknownType | .nothingType | .moduleType => []
  | .stringLit _ | .intLit _ | .floatLit _ | .boolLit _ | .nullLit => []
  | .this | .outer | .moduleExpr => []
  | .access _ args => args.getD []
  | .memberAccess receiver _ args _ => receiver :: args.getD []
  | .superAccess _ args => args.getD []
  | .newObject type body => type.toList ++ [body]
  | .amend source body => [source, body]
  | .binary _ left right => [left, right]
  | .unary _ operand => [operand]
  | .nonNull operand => [operand]
  | .typeTest operand type => [operand, type]
  | .typeCast operand type => [operand, type]
  | .ifElse condition whenTrue whenFalse => [condition, whenTrue, whenFalse]
  | .letIn binder value body => [binder, value, body]
  | .lambda params body => params ++ [body]
  | .importExpr _ _ => []
  | .subscript receiver index => [receiver, index]
  | .grouped inner => [inner]
  | .throwExpr message => [message]

/-- The name a declaration declares. -/
def name? : Construct → Option String
  | .module d => d.name
  | .importClause d => some d.name
  | .classDecl d => some d.name
  | .aliasDecl d => some d.name
  | .typeParam d => some d.name
  | .property d => some d.name
  | .method d => some d.name
  | .param d => some d.name
  | _ => none

/-- The modifiers of a declaration as written. -/
def modifierTokens : Construct → List ModifierToken
  | .module d => d.modifiers
  | .classDecl d => d.modifiers
  | .aliasDecl d => d.modifiers
  | .property d => d.modifiers
  | .method d => d.modifiers
  | _ => []

def modifiers (c : Construct) : List Modifier := c.modifierTokens.map (·.modifier)

def hasModifier (c : Construct) (m : Modifier) : Bool := c.modifiers.contains m

/-- The type parameters a class, an alias or a method declares. -/
def typeParams : Construct → List NodeIndex
  | .classDecl d => d.typeParams
  | .aliasDecl d => d.typeParams
  | .method d => d.typeParams
  | _ => []

/-- The members written directly in a module, a class or an object body. -/
def members : Construct → List NodeIndex
  | .module d => d.members
  | .classDecl d => d.members
  | .objectBody _ members => members
  | _ => []

def isModule : Construct → Bool
  | .module _ => true
  | _ => false

def isImport : Construct → Bool
  | .importClause _ => true
  | _ => false

def isClass : Construct → Bool
  | .classDecl _ => true
  | _ => false

def isAlias : Construct → Bool
  | .aliasDecl _ => true
  | _ => false

def isProperty : Construct → Bool
  | .property _ => true
  | _ => false

def isMethod : Construct → Bool
  | .method _ => true
  | _ => false

def isObjectBody : Construct → Bool
  | .objectBody _ _ => true
  | _ => false

def isType : Construct → Bool
  | .declaredType _ _ _ | .literalType _ | .nullableType _ | .unionType _ _
  | .constrainedType _ _ | .functionType _ _ | .groupedType _
  | .unknownType | .nothingType | .moduleType => true
  | _ => false

def isObjectMember : Construct → Bool
  | .property _ | .method _ | .element _ | .entry _ _ _ | .forGenerator _ _ _ _
  | .whenGenerator _ _ _ | .spread _ _ => true
  | _ => false

/-- What kind of thing a message calls the node. -/
def kindName : Construct → String
  | .module _ => "module"
  | .importClause _ => "import"
  | .classDecl _ => "class"
  | .aliasDecl _ => "type alias"
  | .typeParam _ => "type parameter"
  | .property _ => "property"
  | .method _ => "method"
  | .param _ => "parameter"
  | .objectBody _ _ => "object body"
  | .element _ => "element"
  | .entry _ _ _ => "entry"
  | .forGenerator _ _ _ _ => "for generator"
  | .whenGenerator _ _ _ => "when generator"
  | .spread _ _ => "spread"
  | c => if c.isType then "type" else "expression"

def isExpression (c : Construct) : Bool := c.kindName == "expression"

end Construct

/-- A node of a finished tree: its construct, the text it covers and the node it is part of. -/
structure Node where
  construct : Construct
  span : Span
  parent : Option NodeIndex := none
  deriving Repr, Inhabited

end PklAnalysis
