import PklAnalysis.Diagnostic.Basic

/-!
# The catalogue of diagnostics

Every kind of problem with its text.
-/

namespace PklAnalysis

namespace DiagnosticCode

/-- The identifier of a kind of problem. -/
def name : DiagnosticCode → String
  | typeMismatch => "TypeMismatch"
  | weakTypeMismatch => "WeakTypeMismatch"
  | nullableTypeMismatch => "NullableTypeMismatch"
  | constraintViolation => "ConstraintViolation"
  | unresolvedProperty => "UnresolvedProperty"
  | unresolvedMethod => "UnresolvedMethod"
  | unresolvedType => "UnresolvedType"
  | unresolvedModule => "UnresolvedModule"
  | missingModifierLocal => "MissingModifierLocal"
  | modifierNotApplicable => "ModifierNotApplicable"
  | conflictingModifiers => "ConflictingModifiers"
  | duplicateModifier => "DuplicateModifier"

end DiagnosticCode

namespace Template

def typeMismatch : Template :=
  ⟨.typeMismatch, .error, "Type mismatch.\nRequired: \x7b0\x7d\nActual: \x7b1\x7d",
    some "TypeMismatch"⟩

def weakTypeMismatch : Template :=
  ⟨.weakTypeMismatch, .warning, "Type mismatch.\nRequired: \x7b0\x7d\nActual: \x7b1\x7d",
    some "TypeMismatch"⟩

def nullableTypeMismatch : Template :=
  ⟨.nullableTypeMismatch, .warning,
    "Type mismatch.\nRequired: \x7b0\x7d\nActual: \x7b1\x7d\nThe value may be `null`.",
    some "TypeMismatch"⟩

def constraintViolation : Template :=
  ⟨.constraintViolation, .error, "Constraint violation.\nRequired: \x7b0\x7d\nFound: \x7b1\x7d",
    some "TypeMismatch"⟩

def unresolvedProperty : Template :=
  ⟨.unresolvedProperty, .error, "Unresolved reference: `\x7b0\x7d`", some "UnresolvedElement"⟩

def unresolvedMethod : Template :=
  ⟨.unresolvedMethod, .error, "Unresolved method: `\x7b0\x7d`", some "UnresolvedElement"⟩

def unresolvedType : Template :=
  ⟨.unresolvedType, .error, "Unresolved type: `\x7b0\x7d`", some "UnresolvedElement"⟩

def unresolvedModule : Template :=
  ⟨.unresolvedModule, .error, "Cannot resolve module `\x7b0\x7d`", some "UnresolvedElement"⟩

def missingModifierLocal : Template :=
  ⟨.missingModifierLocal, .error,
    "Missing modifier `local`.\nModules that amend another module can only declare new properties as `local`: `\x7b0\x7d`",
    none⟩

def modifierNotApplicable : Template :=
  ⟨.modifierNotApplicable, .error, "Modifier `\x7b0\x7d` is not applicable to \x7b1\x7d", none⟩

def conflictingModifiers : Template :=
  ⟨.conflictingModifiers, .error, "Modifiers `\x7b0\x7d` and `\x7b1\x7d` cannot be combined", none⟩

def duplicateModifier : Template :=
  ⟨.duplicateModifier, .error, "Duplicate modifier `\x7b0\x7d`", none⟩

/-- Every kind of problem. -/
def catalogue : List Template :=
  [typeMismatch, weakTypeMismatch, nullableTypeMismatch, constraintViolation, unresolvedProperty,
    unresolvedMethod, unresolvedType, unresolvedModule, missingModifierLocal, modifierNotApplicable,
    conflictingModifiers, duplicateModifier]

/-- The template of a kind of problem. -/
def ofCode? (code : DiagnosticCode) : Option Template := catalogue.find? (·.code == code)

theorem isSome_ofCode? (code : DiagnosticCode) : (ofCode? code).isSome = true := by
  cases code <;> rfl

end Template

end PklAnalysis
