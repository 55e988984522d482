import PklAnalysis.Typing.Flow

/-!
# Calls

The type of a reference to a declaration, and what the type parameters of a method stand for in a
call. They are inferred by laying the argument types over the annotations of the parameters.
-/

namespace PklAnalysis

/-- The type of a declaration that is referred to by name. For a method it is the result type. -/
def typeOfDeclaration (decl : NodeRef) (b : Bindings) : Query Ty := do
  let t ← Query.declared decl
  pure (t.bind b)

/-- The declared result type of a method, or else the type of its body. -/
def methodReturnType (method : NodeRef) (b : Bindings) : Query Ty := do
  match ← Query.construct method with
  | some (_, .method { returnType := some type, .. }) => typeOfNode (method.sibling type) b
  | some (_, .method { body := some body, .. }) => Query.expr (method.sibling body) b
  | _ => pure .unknown

/-! ## Inference -/

/-- Add the evidence that a parameter stands for `t`. -/
def Bindings.addEvidence (b : Bindings) (p : NodeRef) (t : Ty) : Query Bindings := do
  let merged ← match b.get? p with
    | some known => Ty.either known t
    | none => pure t
  pure (b.insert p merged)

mutual
/-- Lay a type over an annotation and record what the parameters in it must stand for; `expand`
answers for an annotation that is an alias. -/
def unifyWith (params : List NodeRef) (expand : Ty → Ty → Bindings → Query Bindings) :
    Ty → Ty → Bindings → Query Bindings
  | .var p _, actual, b =>
    if !actual.isUnknown && params.contains p then b.addEvidence p actual else pure b
  | .cls d as _, actual, b =>
    if actual.isUnknown then pure b
    else do
      match (← actual.fullyUnaliased).class? with
      | none => pure b
      | some c =>
        match ← c.projectTo d with
        | none => pure b
        | some projected => unifyAllWith params expand as projected.args b
  | .typeAlias d as c, actual, b =>
    if actual.isUnknown then pure b else expand (.typeAlias d as c) actual b
  | _, _, b => pure b
/-- The same for argument lists. -/
def unifyAllWith (params : List NodeRef) (expand : Ty → Ty → Bindings → Query Bindings) :
    List Ty → List Ty → Bindings → Query Bindings
  | e :: es, a :: as, b => do
    let b ← unifyWith params expand e a b
    unifyAllWith params expand es as b
  | _, _, b => pure b
end

/-- Lay a type over an annotation, with at most `n` aliases expanded one inside the other. -/
def unifyUpTo (params : List NodeRef) : Nat → Ty → Ty → Bindings → Query Bindings
  | 0 => unifyWith params (fun _ _ b => pure b)
  | n + 1 => unifyWith params (fun e a b => do unifyUpTo params n (← e.unaliased) a b)

/-- Lay a type over an annotation. -/
def unify (params : List NodeRef) (declared actual : Ty) (b : Bindings) : Query Bindings :=
  unifyUpTo params Limits.aliasNesting declared actual b

/-- The arguments of a call, and the module they are written in. -/
structure CallSite where
  module : ModuleId
  args : List NodeIndex
  deriving Repr, Inhabited

/-- Gather evidence from the arguments of a call, one parameter after the other. -/
def inferFrom (t : SyntaxTree) (method : NodeRef) (outer : Bindings) (callModule : ModuleId)
    (typeParams : List NodeRef) : List NodeIndex → List NodeIndex → Bindings → Query Bindings
  | p :: ps, a :: as, b =>
    match t.construct? p with
    | some (.param { type := some written, .. }) => do
      let annotated ← typeOfNode (method.sibling written) outer
      let actual ← Query.expr ⟨callModule, a⟩ .empty
      let b ← unify typeParams annotated actual b
      inferFrom t method outer callModule typeParams ps as b
    | _ => inferFrom t method outer callModule typeParams ps as b
  | _, _, b => pure b

/-- Bind parameters to what was inferred for them, or to `unknown`. What was inferred for a
parameter is used once. -/
def Bindings.assign (b inferred : Bindings) : List NodeRef → Bindings
  | [] => b
  | p :: ps => (b.insert p ((inferred.get? p).getD .unknown)).assign (inferred.erase p) ps

/-- The bindings of the class a method belongs to, together with those of the type parameters of the
method that the arguments of a call suggest. -/
def callBindings (method : NodeRef) (outer : Bindings) (call : CallSite) : Query Bindings := do
  match ← Query.construct method with
  | some (t, .method d) =>
    if d.typeParams.isEmpty then pure outer
    else do
      let typeParams := d.typeParams.map method.sibling
      let inferred ← inferFrom t method outer call.module typeParams d.params call.args .empty
      pure (outer.assign inferred typeParams)
  | _ => pure outer

/-! ## References -/

/-- How a name is referred to: by a call or not, with `?.` or not, and under which conditions. -/
structure Reference where
  call : Option CallSite := none
  nullSafe : Bool := false
  facts : FlowFacts := []
  deriving Inhabited

/-- The type of a candidate that is referred to. -/
def Candidate.typeFor (c : Candidate) (r : Reference) : Query Ty := do
  let t ← match r.call, c.construct with
    | some call, .method _ => do
      let b ← callBindings c.decl c.bindings call
      methodReturnType c.decl b
    | _, _ => typeOfDeclaration c.decl c.bindings
  let t ← r.facts.narrow c.decl t
  if r.nullSafe then t.nullable else pure t

/-- The first candidate of a name, with the type of the reference. -/
def Walk.typed (w : Walk Candidate) (name : String) (r : Reference) :
    Query (Option (NodeRef × Ty)) := do
  match ← w.firstNamed name with
  | none => pure none
  | some c => do
    let t ← c.typeFor r
    pure (some (c.decl, t))

/-- The type of a reference to the first candidate of a name. -/
def Walk.typeOf (w : Walk Candidate) (name : String) (r : Reference) : Query Ty := do
  let found ← w.typed name r
  pure ((found.map (·.2)).getD .unknown)

end PklAnalysis
