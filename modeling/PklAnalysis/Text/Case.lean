import PklAnalysis.Text.Case.Table

/-!
# Upper and lower case

A letter may become several characters. In lower case a capital sigma at the end of a word has a
form of its own.
-/

namespace PklAnalysis.Text

namespace Case

/-- Change the case of a character by a list of exceptions and a list of shifts. -/
def change (several : List (Nat × List Nat)) (shifts : List Shift) (c : Char) : List Char :=
  match several.lookup c.toNat with
  | some cs => cs.map Char.ofNat
  | none => match shifts.find? (·.covers c.toNat) with
    | some r => [Char.ofNat (r.apply c.toNat)]
    | none => [c]

/-- The representative of the letters that differ from `c` only by case. -/
def folded (c : Nat) : Nat := match fold.find? (·.covers c) with
  | some r => r.apply c
  | none => c

/-- The code points of the letters that differ from `c` only by case, with `c` itself. -/
def variants (c : Nat) : List Nat :=
  let f := folded c
  f :: fold.filterMap (fun r =>
    let d := (Int.ofNat f - r.amount).toNat
    if r.covers d && r.apply d == f then some d else none)

/-- Whether the first character that is not ignorable is a letter with case. -/
def meetsCased (cs : List Char) : Bool :=
  match cs.dropWhile ignorable.has with
  | c :: _ => cased.has c
  | [] => false

end Case

def toUpper (c : Char) : List Char := Case.change Case.upperSeveral Case.upper c

def toLower (c : Char) : List Char := Case.change Case.lowerSeveral Case.lower c

def upperCase (cs : List Char) : List Char := cs.flatMap toUpper

/-- Lower case of a text, where `before` is what stands in front of it, last character first. -/
def lowerCaseAfter (before : List Char) : List Char → List Char
  | [] => []
  | c :: cs =>
    let changed :=
      if c = 'Σ' then
        if Case.meetsCased before && !Case.meetsCased cs then ['ς'] else ['σ']
      else toLower c
    changed ++ lowerCaseAfter (c :: before) cs

def lowerCase (cs : List Char) : List Char := lowerCaseAfter [] cs

end PklAnalysis.Text
