import PklAnalysis.Diagnostic.Catalogue
import PklAnalysis.Diagnostic.Definition

/-!
# Modifier diagnostics

Modifiers that do not belong to a declaration, that are repeated or that exclude each other, and
properties that lack `local`.
-/

namespace PklAnalysis

/-- The modifiers a declaration may have. -/
def applicableModifiers (inObjectBody : Bool) : Construct → List Modifier
  | .module _ => [.abstractKw, .openKw]
  | .classDecl _ => [.abstractKw, .openKw, .externalKw, .localKw]
  | .aliasDecl _ => [.externalKw, .localKw]
  | .property _ =>
    if inObjectBody then [.localKw]
    else [.abstractKw, .externalKw, .hiddenKw, .fixedKw, .constKw, .localKw]
  | .method _ =>
    if inObjectBody then [.localKw] else [.abstractKw, .externalKw, .constKw, .localKw]
  | _ => []

/-- The modifier that cannot stand beside another one. -/
def excludedBy : Modifier → Option Modifier
  | .abstractKw => some .openKw
  | .openKw => some .abstractKw
  | _ => none

/-- The problems of one modifier, where `seen` holds the modifiers in front of it. -/
def modifierProblems (c : Construct) (applicable seen : List Modifier) (token : ModifierToken) :
    List Diagnostic :=
  let keyword := token.modifier.keyword
  if seen.contains token.modifier then [.of token.span .duplicateModifier [keyword]]
  else
    let misplaced :=
      if applicable.contains token.modifier then []
      else [Diagnostic.of token.span .modifierNotApplicable [keyword, c.kindName]]
    let conflicts := ((excludedBy token.modifier).filter seen.contains).toList.map (fun other =>
      Diagnostic.of token.span .conflictingModifiers [other.keyword, keyword])
    misplaced ++ conflicts

/-- The problems of all modifiers of a declaration. -/
def modifiersProblems (c : Construct) (applicable : List Modifier) (seen : List Modifier) :
    List ModifierToken → List Diagnostic
  | [] => []
  | token :: tokens =>
    modifierProblems c applicable seen token ++
      modifiersProblems c applicable (token.modifier :: seen) tokens

/-- The problem of a property that lacks `local`. -/
def missingLocal (t : SyntaxTree) (property : NodeRef) (name : String) : Diagnostic :=
  let span := t.span property.node
  (Diagnostic.of span .missingModifierLocal [name]).withFix "Add modifier `local`"
    ⟨span.start, span.start⟩ "local "

/-- The modifier problems of a node. -/
def checkModifiers (t : SyntaxTree) (r : NodeRef) : Query (List Diagnostic) := do
  match t.construct? r.node with
  | none => pure []
  | some c => do
    let inObjectBody := (t.parent? r.node).any (fun p => t.holdsAt p Construct.isObjectBody)
    let problems := modifiersProblems c (applicableModifiers inObjectBody c) [] c.modifierTokens
    match c with
    | .property d => do
      let definition ← definitionOf t r
      pure (problems ++ if definition = .needsLocal then [missingLocal t r d.name] else [])
    | _ => pure problems

end PklAnalysis
