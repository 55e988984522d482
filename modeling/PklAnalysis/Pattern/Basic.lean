import PklAnalysis.Text.Blank
import PklAnalysis.Text.Case
import PklAnalysis.Text.Word

/-!
# Patterns

Regular expressions over characters, and whether a text contains a match. `Pattern.ends` maps the
set of positions where a match may start to the set of positions where it may end; which of several
matches a search would prefer does not matter for that, so greedy and reluctant repetition are the
same.
-/

namespace PklAnalysis

/-- A set of characters. -/
inductive CharSet where
  | ranges (rs : List (Nat × Nat))
  | digit
  | blank
  | word
  | complement (s : CharSet)
  | union (s t : CharSet)
  | inter (s t : CharSet)
  /-- With every character also the ones that differ from it only by case. -/
  | anyCase (s : CharSet)
  deriving Repr, Inhabited

namespace CharSet

def empty : CharSet := .ranges []

def single (c : Char) : CharSet := .ranges [(c.toNat, c.toNat)]

def has : CharSet → Char → Bool
  | ranges rs, c => (Text.CodePoints.mk rs).has c
  | digit, c => Text.isDecimalDigit c
  | blank, c => Text.isBlank c
  | word, c => Text.isWord c
  | complement s, c => !s.has c
  | union s t, c => s.has c || t.has c
  | inter s t, c => s.has c && t.has c
  | anyCase s, c => s.has c || (Text.Case.variants c.toNat).any (fun d => s.has (Char.ofNat d))

end CharSet

/-- A condition on a position. -/
inductive Look where
  | textStart
  | textEnd
  | lineStart
  | lineEnd
  | wordBoundary
  | notWordBoundary
  | wordStart
  | wordEnd
  | beforeWord
  | afterWord
  deriving Repr, DecidableEq, Inhabited

inductive Pattern where
  | empty
  | one (s : CharSet)
  | look (l : Look)
  | seq (p q : Pattern)
  | alt (p q : Pattern)
  | repeat (p : Pattern) (least : Nat) (most : Option Nat)
  deriving Repr, Inhabited

/-- Whether there is a word character at the position. -/
def wordAt (text : Array Char) (i : Nat) : Bool := (text[i]?).any Text.isWord

/-- Whether there is a word character in front of the position. -/
def wordBefore (text : Array Char) (i : Nat) : Bool := i != 0 && wordAt text (i - 1)

def Look.holds (text : Array Char) (i : Nat) : Look → Bool
  | textStart => i == 0
  | textEnd => i == text.size
  | lineStart => i == 0 || text[i - 1]? == some '\n'
  | lineEnd => i == text.size || text[i]? == some '\n'
  | wordBoundary => wordBefore text i != wordAt text i
  | notWordBoundary => wordBefore text i == wordAt text i
  | wordStart => !wordBefore text i && wordAt text i
  | wordEnd => wordBefore text i && !wordAt text i
  | beforeWord => !wordBefore text i
  | afterWord => !wordAt text i

/-! ## Sets of positions -/

/-- The positions of both lists. -/
def joinPositions (is js : List Nat) : List Nat := is ++ js.filter (fun j => !is.contains j)

/-- Apply `n` times, or until nothing changes. -/
def iterate (f : List Nat → List Nat) : Nat → List Nat → List Nat
  | 0, is => is
  | n + 1, is =>
    let js := f is
    if js == is then is else iterate f n js

/-- What is reached within `n` applications. `fresh` was reached by the last of them. -/
def reach (f : List Nat → List Nat) : Nat → List Nat → List Nat → List Nat
  | 0, _, all => all
  | n + 1, fresh, all =>
    let next := (f fresh).filter (fun i => !all.contains i)
    if next.isEmpty then all else reach f n next (all ++ next)

namespace Pattern

/-- Where a match can end that starts at one of the positions. -/
def ends (text : Array Char) : Pattern → List Nat → List Nat
  | empty, is => is
  | one s, is => is.filterMap (fun i => if (text[i]?).any s.has then some (i + 1) else none)
  | look l, is => is.filter (fun i => l.holds text i)
  | seq p q, is => q.ends text (p.ends text is)
  | alt p q, is => joinPositions (p.ends text is) (q.ends text is)
  | .repeat p least most, is =>
    let start := iterate (p.ends text) least is
    reach (p.ends text) (match most with
      | some n => n - least
      | none => text.size + 1) start start

/-- Whether there is a match anywhere in the text. -/
def isFoundIn (p : Pattern) (text : String) : Bool :=
  let text := text.toList.toArray
  !(p.ends text (List.range (text.size + 1))).isEmpty

end Pattern

end PklAnalysis
