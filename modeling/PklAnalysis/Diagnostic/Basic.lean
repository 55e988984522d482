import PklAnalysis.Span

/-!
# Diagnostics

A problem in a module: where it is, what it is, and how it may be mended. The texts are templates
with numbered places; `formatMessage` fills the places in order, so that a later argument also
replaces places that an earlier one has brought in.
-/

namespace PklAnalysis

/-- How serious a problem is; the more serious ones come first. -/
inductive Severity where
  | error
  | warning
  | hint
  deriving DecidableEq, Repr, Inhabited

namespace Severity

def rank : Severity → Nat
  | error => 0
  | warning => 1
  | hint => 2

def name : Severity → String
  | error => "Error"
  | warning => "Warning"
  | hint => "Hint"

def all : List Severity := [error, warning, hint]

end Severity

inductive DiagnosticCode where
  | typeMismatch
  | weakTypeMismatch
  | nullableTypeMismatch
  | constraintViolation
  | unresolvedProperty
  | unresolvedMethod
  | unresolvedType
  | unresolvedModule
  | missingModifierLocal
  | modifierNotApplicable
  | conflictingModifiers
  | duplicateModifier
  deriving DecidableEq, Repr, Inhabited

/-- A kind of problem: its usual severity, its text, and the group under which it is suppressed. -/
structure Template where
  code : DiagnosticCode
  severity : Severity
  text : String
  group : Option String
  deriving DecidableEq, Repr, Inhabited

/-- Replace every occurrence of a text. `skip` characters belong to an occurrence that was just
replaced. -/
def replaceAll (part replacement : List Char) (skip : Nat) : List Char → List Char
  | [] => []
  | c :: cs =>
    if 0 < skip then replaceAll part replacement (skip - 1) cs
    else if part.isPrefixOf (c :: cs) then
      replacement ++ replaceAll part replacement (part.length - 1) cs
    else c :: replaceAll part replacement 0 cs

/-- The place with a number: its digits in braces. -/
def place (number : Nat) : List Char := '\x7b' :: ((toString number).toList ++ ['\x7d'])

/-- Fill the places of a text with arguments, from place `number` on. -/
def fillFrom (number : Nat) (text : List Char) : List String → List Char
  | [] => text
  | arg :: args => fillFrom (number + 1) (replaceAll (place number) arg.toList 0 text) args

/-- Fill the places of a text with arguments. -/
def formatMessage (text : String) (args : List String) : String :=
  String.ofList (fillFrom 0 text.toList args)

/-- An edit that mends a problem. -/
structure QuickFix where
  title : String
  span : Span
  replacement : String
  deriving DecidableEq, Repr, Inhabited

structure Diagnostic where
  span : Span
  message : String
  severity : Severity
  code : DiagnosticCode
  fix : Option QuickFix := none
  group : Option String
  deriving DecidableEq, Repr, Inhabited

namespace Diagnostic

/-- The problem of a kind at a place. -/
def of (span : Span) (template : Template) (args : List String) : Diagnostic where
  span
  message := formatMessage template.text args
  severity := template.severity
  code := template.code
  group := template.group

def withFix (d : Diagnostic) (title : String) (span : Span) (replacement : String) : Diagnostic :=
  { d with fix := some ⟨title, span, replacement⟩ }

def isError (d : Diagnostic) : Bool := d.severity == .error

/-- Diagnostics are ordered by their place, then by severity. -/
def notAfter (d e : Diagnostic) : Bool :=
  ((d.span.order e.span).then (compare d.severity.rank e.severity.rank)).isLE

/-- Drop a diagnostic that repeats the one before it. -/
def withoutRepeats : List Diagnostic → List Diagnostic
  | d :: e :: ds => if d = e then withoutRepeats (d :: ds) else d :: withoutRepeats (e :: ds)
  | ds => ds
termination_by ds => ds.length

/-- Put diagnostics in order. -/
def sorted (ds : List Diagnostic) : List Diagnostic := withoutRepeats (ds.mergeSort notAfter)

end Diagnostic

end PklAnalysis
