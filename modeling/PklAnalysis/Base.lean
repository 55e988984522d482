import PklAnalysis.Standard.Tree
import PklAnalysis.Types.Basic

/-!
# The index of the standard library

`Base` names the classes of `pkl:base` that the analysis treats specially and builds their types.
`std` is the index of the bundled module.
-/

namespace PklAnalysis

/-- Why a tree cannot serve as the standard library. -/
inductive BaseError where
  | notBaseModule (uri : String)
  | missingClass (name : String)
  deriving DecidableEq, Repr

def BaseError.message : BaseError → String
  | .notBaseModule uri => "`" ++ uri ++ "` is not the base module"
  | .missingClass name => "base module does not declare class `" ++ name ++ "`"

/-- The declarations of the classes with a special role. `functions` holds `Function0`, `Function1`
and so on, by the number of parameters. -/
structure Base where
  tree : SyntaxTree
  any : NodeRef
  null : NodeRef
  boolean : NodeRef
  number : NodeRef
  int : NodeRef
  float : NodeRef
  string : NodeRef
  duration : NodeRef
  dataSize : NodeRef
  object : NodeRef
  dynamic : NodeRef
  typed : NodeRef
  module : NodeRef
  listing : NodeRef
  mapping : NodeRef
  collection : NodeRef
  list : NodeRef
  set : NodeRef
  map : NodeRef
  function : NodeRef
  functions : List NodeRef
  pair : NodeRef
  regex : NodeRef
  intSeq : NodeRef
  class_ : NodeRef
  typeAlias : NodeRef
  deriving Inhabited

namespace Base

/-- The class that a tree declares under a name. -/
def classNamed (t : SyntaxTree) (name : String) : Except BaseError NodeRef :=
  match (t.findTypeDecl name).filter (fun i => t.holdsAt i Construct.isClass) with
  | some i => .ok (t.ref i)
  | none => .error (.missingClass name)

/-- Index a tree. The classes are looked up in the order of the fields, so that the first one
missing is the one reported. -/
def ofTree (t : SyntaxTree) : Except BaseError Base := do
  if t.uri != baseUri then throw (.notBaseModule t.uri)
  let find := classNamed t
  let any ← find "Any"
  let null ← find "Null"
  let boolean ← find "Boolean"
  let number ← find "Number"
  let int ← find "Int"
  let float ← find "Float"
  let string ← find "String"
  let duration ← find "Duration"
  let dataSize ← find "DataSize"
  let object ← find "Object"
  let dynamic ← find "Dynamic"
  let typed ← find "Typed"
  let module ← find "Module"
  let listing ← find "Listing"
  let mapping ← find "Mapping"
  let collection ← find "Collection"
  let list ← find "List"
  let set ← find "Set"
  let map ← find "Map"
  let function ← find "Function"
  let functions ←
    ["Function0", "Function1", "Function2", "Function3", "Function4", "Function5"].mapM find
  let pair ← find "Pair"
  let regex ← find "Regex"
  let intSeq ← find "IntSeq"
  let class_ ← find "Class"
  let typeAlias ← find "TypeAlias"
  pure { tree := t, any, null, boolean, number, int, float, string, duration, dataSize, object,
         dynamic, typed, module, listing, mapping, collection, list, set, map, function, functions,
         pair, regex, intSeq, class_, typeAlias }

/-- The indexed classes, without the function classes, in the order of the fields. -/
def classes (b : Base) : List NodeRef :=
  [b.any, b.null, b.boolean, b.number, b.int, b.float, b.string, b.duration, b.dataSize, b.object,
    b.dynamic, b.typed, b.module, b.listing, b.mapping, b.collection, b.list, b.set, b.map,
    b.function, b.pair, b.regex, b.intSeq, b.class_, b.typeAlias]

/-! ## Types of the standard library -/

/-- A class without type parameters as a type. -/
def simple (decl : NodeRef) : Ty := .cls decl [] []

/-- A class with its arguments as a type. -/
def generic (decl : NodeRef) (args : List Ty) : Ty := .cls decl args []

variable (b : Base)

def anyTy : Ty := simple b.any
def nullTy : Ty := simple b.null
def booleanTy : Ty := simple b.boolean
def numberTy : Ty := simple b.number
def intTy : Ty := simple b.int
def floatTy : Ty := simple b.float
def stringTy : Ty := simple b.string
def durationTy : Ty := simple b.duration
def dataSizeTy : Ty := simple b.dataSize
def dynamicTy : Ty := simple b.dynamic
def typedTy : Ty := simple b.typed
def moduleTy : Ty := simple b.module
def regexTy : Ty := simple b.regex
def intSeqTy : Ty := simple b.intSeq
def listingTy (element : Ty) : Ty := generic b.listing [element]
def mappingTy (key value : Ty) : Ty := generic b.mapping [key, value]
def listTy (element : Ty) : Ty := generic b.list [element]
def setTy (element : Ty) : Ty := generic b.set [element]
def mapTy (key value : Ty) : Ty := generic b.map [key, value]
def pairTy (first second : Ty) : Ty := generic b.pair [first, second]
def classTy (of : Ty) : Ty := generic b.class_ [of]

/-- `(params) -> result`. There are function classes for up to five parameters; beyond that only the
result is kept. -/
def functionTy (params : List Ty) (result : Ty) : Ty :=
  match b.functions[params.length]? with
  | some decl => generic decl (params ++ [result])
  | none => generic b.function [result]

/-- How many parameters the functions of a function class take. -/
def functionArity (decl : NodeRef) : Option Nat := b.functions.findIdx? (· == decl)

def isFunctionClass (decl : NodeRef) : Bool := decl == b.function || (b.functionArity decl).isSome

def isStringClass (t : Ty) : Bool := t.classDecl? == some b.string

def isNullClass (t : Ty) : Bool := t.classDecl? == some b.null

end Base

/-- The index of the bundled standard library. It is too large to be unfolded in passing. -/
@[irreducible] def std : Base :=
  match Base.ofTree Standard.tree with
  | .ok b => b
  | .error _ => default

end PklAnalysis
