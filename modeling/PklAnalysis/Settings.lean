import PklAnalysis.Diagnostic.Report
import PklAnalysis.Json.Decoder
import PklAnalysis.Json.Quoted

/-!
# Settings

The settings of a workspace: which diagnostics it reports, how many threads analyse it and what it
logs. They are read from a JSON text, where `null` stands for the defaults, and written as one.
-/

namespace PklAnalysis

structure Settings where
  reports : ReportOptions := {}
  /-- How many threads analyse modules, if that is fixed. -/
  parallelism : Option Nat := none
  logLevel : Option String := none
  deriving Repr, Inhabited

/-- Why a text gives no settings. -/
inductive SettingsError where
  | notJson
  | otherShape
  deriving DecidableEq, Repr, Inhabited

def SettingsError.message : SettingsError → String
  | notJson => "initialization options are not valid JSON: <json>"
  | otherShape => "failed to parse server settings: <json>"

namespace Settings

/-- The reports that are switched on; one that is not mentioned is. -/
def reports? (v : JsonValue) : Option ReportOptions := do
  let switch := JsonValue.orElse JsonValue.toBool? true
  match ← v.fields? .last ["typeCheck", "unresolvedReference", "modifiers"] with
  | [values, references, modifiers] =>
    pure { values := ← switch values, references := ← switch references,
           modifiers := ← switch modifiers }
  | _ => none

def ofValue? (v : JsonValue) : Option Settings := do
  match ← v.fields? .last ["analyzers", "parallelism", "logLevel"] with
  | [reports, parallelism, logLevel] =>
    pure { reports := ← JsonValue.orElse reports? {} reports
           parallelism := ← JsonValue.optional (JsonValue.toNat? UInt64.size) parallelism
           logLevel := ← JsonValue.optional JsonValue.toText? logLevel }
  | _ => none

/-- Arrays and objects may be nested this deep. -/
def maxDepth : Nat := 127

/-- Read settings. All of the text has to be sound, also what is skipped. -/
def ofText (text : String) : Except SettingsError Settings :=
  match (JsonValue.ofText? text).filter (·.isSound maxDepth) with
  | none => .error .notJson
  | some .null => .ok {}
  | some v => match ofValue? v with
    | some settings => .ok settings
    | none => .error .otherShape

/-- The text of settings. What is not set is left out. -/
def text (s : Settings) : String :=
  let switch (name : String) (on : Bool) :=
    Json.quoted name ++ ":" ++ (if on then "true" else "false")
  let reports := ",".intercalate [switch "typeCheck" s.reports.values,
    switch "unresolvedReference" s.reports.references, switch "modifiers" s.reports.modifiers]
  let fields := [some ("\"analyzers\":\x7b" ++ reports ++ "\x7d"),
    s.parallelism.map ("\"parallelism\":" ++ toString ·),
    s.logLevel.map ("\"logLevel\":" ++ Json.quoted ·)]
  "\x7b" ++ ",".intercalate (fields.filterMap id) ++ "\x7d"

end Settings

end PklAnalysis
