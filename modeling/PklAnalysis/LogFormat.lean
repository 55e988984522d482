import PklAnalysis.Text.Case

/-! # Formats of the log -/

namespace PklAnalysis

inductive LogFormat where
  | text
  | tree
  | json
  deriving DecidableEq, Repr, Inhabited

namespace LogFormat

def name : LogFormat → String
  | text => "text"
  | tree => "tree"
  | json => "json"

/-- The format of a name in any case; any other name stands for `text`. -/
def ofName (name : String) : LogFormat :=
  let lower := Text.lowerCase name.toList
  if lower = "tree".toList then .tree else if lower = "json".toList then .json else .text

end LogFormat

end PklAnalysis
