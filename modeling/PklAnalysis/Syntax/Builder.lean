import PklAnalysis.Syntax.Tree

/-!
# Building trees

Nodes are added one after the other, each with a span of its own or with the next free offset.
Sealing the table links every node to the node it is part of and widens the span of a node until it
covers its modifiers and its children. A node that is listed as a child more than once belongs to
the last node that lists it.
-/

namespace PklAnalysis

/-- A tree under construction, with its nodes newest first. `cursor` lies at or behind the end of
every node added. -/
structure TreeBuilder where
  uri : String
  module : ModuleId
  nodes : List Node := []
  size : Nat := 0
  cursor : Nat := 0
  size_eq : size = nodes.length := by rfl

namespace TreeBuilder

/-- The builder of a tree without nodes. -/
def start (uri : String) (module : ModuleId) : TreeBuilder := { uri, module }

instance : Inhabited TreeBuilder := ⟨start "" default⟩

/-- Add a node that covers the given span. -/
def push (b : TreeBuilder) (c : Construct) (span : Span) : NodeIndex × TreeBuilder :=
  (b.size,
    { b with
      nodes := ⟨c, span, none⟩ :: b.nodes
      size := b.size + 1
      cursor := max b.cursor span.stop
      size_eq := by rw [b.size_eq, List.length_cons] })

/-- Take the next free offset as a span. -/
def nextSpan (b : TreeBuilder) : Span × TreeBuilder :=
  (⟨b.cursor, b.cursor + 1⟩, { b with cursor := b.cursor + 1 })

/-- Add a node at the next free offset. -/
def add (b : TreeBuilder) (c : Construct) : NodeIndex × TreeBuilder :=
  let (span, b) := b.nextSpan
  b.push c span

/-- Place modifiers at the next free offsets, in order. -/
def placeModifiers (b : TreeBuilder) : List Modifier → List ModifierToken × TreeBuilder
  | [] => ([], b)
  | m :: ms =>
    let (span, b) := b.nextSpan
    let (tokens, b) := b.placeModifiers ms
    (⟨m, span⟩ :: tokens, b)

/-- Place the clause of a module at the next free offset. -/
def placeClause (b : TreeBuilder) : Option (ClauseKind × String) → Option Clause × TreeBuilder
  | none => (none, b)
  | some (kind, uri) =>
    let (span, b) := b.nextSpan
    (some ⟨kind, uri, span⟩, b)

/-- Add `let (name = value) body` with a parameter that has no type. -/
def addLet (b : TreeBuilder) (name : String) (value body : NodeIndex) : NodeIndex × TreeBuilder :=
  let (param, b) := b.add (.param ⟨name, none⟩)
  b.add (.letIn param value body)

/-! ## Sealing -/

/-- The span of a sealed node: its own span, those of its modifiers, and those of its children that
are not empty. `done` holds the spans of the nodes sealed so far; a child behind them counts with
the span it was added with, and a child that is not in the table does not count. -/
def sealedSpan (nodes : Array Node) (done : Array Span) (n : Node) : Span :=
  let own := n.construct.modifierTokens.foldl (fun s t => s.cover t.span) n.span
  n.construct.children.foldl (fun s c =>
    match done[c]? <|> (nodes[c]?.map (·.span)) with
    | some span => if span.isEmpty then s else s.cover span
    | none => s) own

/-- The spans of the sealed nodes, in the order of the table. -/
def sealedSpans (nodes : Array Node) : Array Span :=
  nodes.foldl (fun done n => done.push (sealedSpan nodes done n)) #[]

/-- Every child with the node that lists it, in reverse order of the table. -/
def sealedLinks (nodes : List Node) : List (NodeIndex × NodeIndex) :=
  nodes.zipIdx.foldl
    (fun links p => p.1.construct.children.foldl (fun links c => (c, p.2) :: links) links) []

/-- Seal the tree. -/
def finish (b : TreeBuilder) (root : NodeIndex) : SyntaxTree :=
  let nodes := b.nodes.reverse
  let spans := sealedSpans nodes.toArray
  let links := sealedLinks nodes
  { uri := b.uri, module := b.module, root := root,
    nodes := (nodes.zipIdx.map (fun p =>
      { p.1 with span := spans[p.2]?.getD p.1.span, parent := links.lookup p.2 })).toArray }

end TreeBuilder

end PklAnalysis
