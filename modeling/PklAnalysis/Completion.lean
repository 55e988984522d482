import PklAnalysis.Text.Case
import PklAnalysis.Typing.Expr
import PklAnalysis.Types.Render

/-!
# Completion

The declarations that can be named at a place, closest first, with their types and the text that
inserts them. A call is inserted with its parameters; for a parameter of function type a lambda is
inserted whose parameters are named after their types.
-/

namespace PklAnalysis

inductive CompletionKind where
  | property
  | method
  | parameter
  | classDecl
  | aliasDecl
  | typeParameter
  | module
  deriving DecidableEq, Repr, Inhabited

def CompletionKind.name : CompletionKind → String
  | property => "Property"
  | method => "Method"
  | parameter => "Parameter"
  | classDecl => "Class"
  | aliasDecl => "TypeAlias"
  | typeParameter => "TypeParameter"
  | module => "Module"

structure CompletionItem where
  label : String
  kind : CompletionKind
  /-- The type of a property, the signature of a method. -/
  detail : String
  insertText : String
  deriving DecidableEq, Repr, Inhabited

def Construct.completionKind? : Construct → Option CompletionKind
  | .property _ => some .property
  | .method _ => some .method
  | .param _ => some .parameter
  | .classDecl _ => some .classDecl
  | .aliasDecl _ => some .aliasDecl
  | .typeParam _ => some .typeParameter
  | .importClause _ => some .module
  | .module _ => some .module
  | _ => none

/-! ## Names of lambda parameters -/

/-- A name that starts with a small letter. -/
def decapitalized (name : String) : String :=
  match name.toList with
  | [] => ""
  | c :: cs => String.ofList (Text.toLower c ++ cs)

namespace SyntaxTree

variable (t : SyntaxTree)

/-- The name suggested for a parameter of some type, looking through at most `n` wrappers. -/
def suggestedName : Nat → NodeIndex → String
  | 0, _ => "it"
  | n + 1, i =>
    match t.construct? i with
    | some (.declaredType _ name _) => decapitalized name
    | some (.nullableType inner) => suggestedName n inner
    | some (.constrainedType inner _) => suggestedName n inner
    | some (.functionType _ _) => "function"
    | _ => "it"

/-- The parameter types of a function type, behind at most `n` parentheses and question marks. -/
def functionParams? : Nat → NodeIndex → Option (List NodeIndex)
  | 0, _ => none
  | n + 1, i =>
    match t.construct? i with
    | some (.functionType params _) => some params
    | some (.groupedType inner) => functionParams? n inner
    | some (.nullableType inner) => functionParams? n inner
    | _ => none

/-- Number the names that occur more than once, from 1. -/
def numbered (names : List String) : List String :=
  names.zipIdx.map (fun (name, i) =>
    if names.count name = 1 then name else name ++ toString ((names.take i).count name + 1))

/-- The names suggested for the parameters of a lambda where a type is expected that is a function
type. -/
def lambdaParameterNames (type : NodeIndex) : Option (List String) :=
  (t.functionParams? (t.size + 1) type).map (fun params =>
    numbered (params.map (t.suggestedName (t.size + 1))))

/-! ## Methods -/

/-- A parameter as it stands in a signature. -/
def signatureParam (p : NodeIndex) : String :=
  match t.construct? p with
  | some (.param { name, type := some type }) => name ++ ": " ++ t.print type
  | some (.param { name, type := none }) => name
  | _ => ""

/-- A parameter as it is inserted. -/
def insertedParam (p : NodeIndex) : String :=
  match t.construct? p with
  | some (.param { name, type := some type }) =>
    match t.lambdaParameterNames type with
    | some names => SyntaxTree.inParens (", ".intercalate names) ++ " -> "
    | none => name
  | some (.param { name, type := none }) => name
  | _ => ""

end SyntaxTree

/-- The signature of a method. -/
def methodSignature (t : SyntaxTree) (method : NodeRef) (d : MethodDecl) (b : Bindings) :
    Query String := do
  let params := ", ".intercalate (d.params.map t.signatureParam)
  let result ← methodReturnType method b
  let result ← result.display
  pure (SyntaxTree.inParens params ++ ": " ++ result)

/-- The text that inserts a call. -/
def methodInsertText (t : SyntaxTree) (name : String) (d : MethodDecl) : String :=
  name ++ SyntaxTree.inParens (", ".intercalate (d.params.map t.insertedParam))

/-- The item for a candidate of some kind. -/
def Candidate.completion (c : Candidate) (t : SyntaxTree) (kind : CompletionKind) :
    Query CompletionItem :=
  match c.construct with
  | .method d => do
    let signature ← methodSignature t c.decl d c.bindings
    pure ⟨c.name, kind, signature, methodInsertText t c.name d⟩
  | _ => do
    let type ← typeOfDeclaration c.decl c.bindings
    let detail ← type.display
    pure ⟨c.name, kind, detail, c.name⟩

/-! ## Collecting -/

/-- Add the item for a candidate, unless there is one of the same name and kind. The items are kept
with the newest first. -/
def addCompletion (items : List CompletionItem) (c : Candidate) :
    Query (List CompletionItem × Bool) := do
  match ← Query.tree c.decl.module, c.construct.completionKind? with
  | some t, some kind =>
    if items.any (fun i => i.label == c.name && i.kind == kind) then pure (items, true)
    else do
      let item ← c.completion t kind
      pure (item :: items, true)
  | _, _ => pure (items, true)

/-- The items for all candidates of a walk. -/
def Walk.completions (w : Walk Candidate) : Query (List CompletionItem) := do
  let (items, _) ← w.fold addCompletion []
  pure items.reverse

/-- Properties, then methods, of which the closest one of each name counts. -/
def valueCompletions (walk : LookupMode → Walk Candidate) : Query (List CompletionItem) :=
  ((walk .property ++ walk .method).unshadowed []).completions

/-- What can be named at a place. -/
def completeUnqualified (site : NodeRef) : Query (List CompletionItem) := do
  let this ← thisType site
  valueCompletions (Scope.visible site this)

/-- What can be named behind a value of some type. -/
def completeMembers (receiver : Ty) : Query (List CompletionItem) :=
  valueCompletions (fun mode => Scope.members mode receiver)

/-- What can be named behind an expression. -/
def completeQualified (receiver : NodeRef) : Query (List CompletionItem) := do
  let t ← Query.expr receiver .empty
  completeMembers (← t.nonNull)

/-- The types that can be named at a place. -/
def completeType (site : NodeRef) : Query (List CompletionItem) :=
  ((Scope.visible site .unknown .type).unshadowed []).completions

end PklAnalysis
