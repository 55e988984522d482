import PklAnalysis.Typing.Declaration

/-!
# Types of expressions

The static type of an expression, from the types of its parts. `unknown` is the answer whenever
nothing better is known.
-/

namespace PklAnalysis

/-! ## Operators -/

/-- The type of an arithmetic operation on quantities such as durations, if the left operand is
one. -/
def quantityType (op : BinaryOp) (left right : Ty) : List Ty → Query (Option Ty)
  | [] => pure none
  | q :: qs => do
    if ← left.isSubtype q then
      if op = .div then
        if ← right.isSubtype q then pure (some std.floatTy) else pure (some q)
      else pure (some q)
    else quantityType op left right qs

/-- The type of an arithmetic operation on numbers. -/
def numericType (op : BinaryOp) (left right : Ty) : Query Ty := do
  let bothInt ← do if ← left.isSubtype std.intTy then right.isSubtype std.intTy else pure false
  if op = .div then pure std.floatTy
  else if bothInt then pure std.intTy
  else if ← left.isSubtype std.floatTy then pure std.floatTy
  else if ← right.isSubtype std.floatTy then pure std.floatTy
  else pure std.numberTy

/-- The type of an arithmetic operation. Collections are concatenated to the type of the left
one. -/
def arithmeticType (op : BinaryOp) (left right : Ty) : Query Ty := do
  if left.isUnknown || right.isUnknown then return .unknown
  if op = .add then
    if ← left.isSubtype std.stringTy then return std.stringTy
  let numbers ← do
    if ← left.isSubtype std.numberTy then right.isSubtype std.numberTy else pure false
  if numbers then return ← numericType op left right
  match ← quantityType op left right [std.durationTy, std.dataSizeTy] with
  | some t => pure t
  | none => pure (if op = .add then left.withoutConstraints else .unknown)

/-- The result type of a function type. -/
def functionResult : Ty → Ty
  | .cls d as _ => if std.isFunctionClass d then as.getLastD .unknown else .unknown
  | _ => .unknown

/-- The type of a binary operation on two expressions. -/
def binaryType (op : BinaryOp) (left right : NodeRef) (b : Bindings) : Query Ty :=
  match op with
  | .eq | .notEq | .lt | .le | .gt | .ge | .and | .or => pure std.booleanTy
  | .coalesce => do
    let l ← (← Query.expr left b).nonNull
    let r ← Query.expr right b
    Ty.either l r
  | .pipe => do
    let f ← (← Query.expr right b).fullyUnaliased
    pure (functionResult f)
  | .intDiv => pure std.intTy
  | .add | .sub | .mul | .div | .rem | .pow => do
    let l ← Query.expr left b
    let r ← Query.expr right b
    arithmeticType op l r

/-! ## Accesses -/

/-- The type argument that a subscript reads, for the first container found among the
superclasses. -/
def readFrom (t : Ty) : List (NodeRef × Nat) → Query Ty
  | [] => pure .unknown
  | (container, position) :: cs => do
    match ← typeArgs? t container with
    | some c => pure (c.arg position)
    | none => readFrom t cs

/-- The type of `receiver[…]`. -/
def subscriptType (receiver : Ty) : Query Ty := do
  let t ← receiver.fullyUnaliased
  if t.classDecl? = some std.string then pure std.stringTy
  else readFrom t [(std.listing, 0), (std.collection, 0), (std.mapping, 1), (std.map, 1)]

/-- The type of an access to something visible at the place. Conditions narrow properties, not
calls. -/
def accessType (site : NodeRef) (name : String) (args : Option (List NodeIndex)) : Query Ty := do
  let this ← thisType site
  let facts ← if args.isNone then FlowFacts.collect site else pure []
  (Scope.visible site this (.ofArgs args)).typeOf name
    { call := args.map (fun as => ⟨site.module, as⟩), facts := facts }

/-- The type of an access to a member of a value. -/
def memberType (m : ModuleId) (receiver : Ty) (name : String) (args : Option (List NodeIndex))
    (nullSafe : Bool) : Query Ty :=
  (Scope.members (.ofArgs args) receiver).typeOf name
    { call := args.map (fun as => ⟨m, as⟩), nullSafe := nullSafe }

/-! ## Expressions -/

/-- The type of an expression. -/
def exprType (e : NodeRef) (b : Bindings) : Query Ty := do
  match ← Query.construct e with
  | none => pure .unknown
  | some (_, c) =>
    match c with
    | .stringLit s => pure (.literal s [])
    | .intLit _ => pure std.intTy
    | .floatLit _ => pure std.floatTy
    | .boolLit _ => pure std.booleanTy
    | .nullLit => pure std.nullTy
    | .this => thisType e
    | .outer => outerType e
    | .moduleExpr => Ty.ofModule e.module none
    | .access name args => accessType e name args
    | .memberAccess receiver name args nullSafe => do
      let t ← Query.expr (e.sibling receiver) b
      let t ← if nullSafe then t.nonNull else pure t
      memberType e.module t name args nullSafe
    | .superAccess name args => do
      match ← superType? e with
      | none => pure .unknown
      | some t => memberType e.module t name args false
    | .newObject (some type) _ => do
      let t ← typeOfNode (e.sibling type) b
      t.instantiated
    | .newObject none _ => do
      let expected ← Query.expected e
      if expected.isUnknown then pure std.dynamicTy else (← expected.nonNull).amending
    | .amend source _ => do
      let t ← Query.expr (e.sibling source) b
      t.amended
    | .binary op l r => binaryType op (e.sibling l) (e.sibling r) b
    | .unary .not _ => pure std.booleanTy
    | .unary .neg operand => Query.expr (e.sibling operand) b
    | .nonNull operand => do
      let t ← Query.expr (e.sibling operand) b
      t.nonNull
    | .typeTest _ _ => pure std.booleanTy
    | .typeCast _ type => typeOfNode (e.sibling type) b
    | .ifElse _ l r => do
      let l ← Query.expr (e.sibling l) b
      let r ← Query.expr (e.sibling r) b
      Ty.either l r
    | .letIn _ _ body => Query.expr (e.sibling body) b
    | .lambda _ body => do
      let params ← lambdaParamTypes e
      let result ← Query.expr (e.sibling body) b
      pure (std.functionTy params result)
    | .importExpr uri _ => do
      match ← Query.reference e.module uri with
      | some m => Ty.ofModule m none
      | none => pure .unknown
    | .subscript receiver _ => do
      let t ← Query.expr (e.sibling receiver) b
      subscriptType t
    | .grouped inner => Query.expr (e.sibling inner) b
    | .throwExpr _ => pure .nothing
    | _ => pure .unknown

end PklAnalysis
