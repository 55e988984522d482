import PklAnalysis.Pattern.Basic

/-!
# Patterns as text

Reading a pattern. Besides characters, classes, groups, alternatives and repetition there are named
groups and flags such as `(?i)`; a flag holds up to the end of the group it is written in. Text that
is no pattern has no reading; neither have look-around and references to groups, which cannot be
matched in one pass.

The patterns are those that are searched for in one pass, with these differences. Unicode classes
with a name, such as `\p{Greek}` or `\pL`, have no reading here. There is no bound on how large a
pattern becomes when its counts are written out, nor on how deep its groups nest, so that some
patterns have a reading here which are refused for their size, such as `a{4000000000}`. The flag `R`
is read, but a line still ends at its line feed.
-/

namespace PklAnalysis.Pattern

/-- The flags in force at a place of a pattern. -/
structure Flags where
  anyCase : Bool := false
  multiLine : Bool := false
  dotAll : Bool := false
  verbose : Bool := false
  unicode : Bool := true
  deriving Repr, Inhabited

namespace Source

/-- Drop blanks and comments, which a verbose pattern may hold. -/
def skipComments (comment : Bool) : List Char → List Char
  | [] => []
  | c :: cs =>
    if comment then skipComments (c != '\n') cs
    else if Text.isBlank c then skipComments false cs
    else if c = '#' then skipComments true cs
    else c :: cs

def skip (f : Flags) (cs : List Char) : List Char := if f.verbose then skipComments false cs else cs

/-! ## Characters and sets -/

/-- What stands for one position of a text: a character, a set of them, or a condition. -/
inductive Atom where
  | char (c : Char)
  | set (s : CharSet)
  | look (l : Look)
  deriving Repr, Inhabited

def hexValue (c : Char) : Option Nat :=
  if '0' ≤ c && c ≤ '9' then some (c.toNat - 48)
  else if 'a' ≤ c && c ≤ 'f' then some (c.toNat - 87)
  else if 'A' ≤ c && c ≤ 'F' then some (c.toNat - 55)
  else none

/-- The character that hexadecimal digits name. -/
def ofHex (ds : List Char) : Option Char := do
  let values ← ds.mapM hexValue
  if values.isEmpty then none
  else
    let n := values.foldl (fun n d => 16 * n + d) 0
    if h : n.isValidChar then some (Char.ofNatAux n h) else none

/-- A character by its code point: in braces, or with `width` digits. -/
def hexEscape (width : Nat) : List Char → Option (Atom × List Char)
  | '\x7b' :: cs => do
    let ds := cs.takeWhile (· != '\x7d')
    match cs.drop ds.length with
    | _ :: rest =>
      let c ← ofHex ds
      pure (.char c, rest)
    | [] => none
  | cs => do
    if cs.length < width then none
    else
      let c ← ofHex (cs.take width)
      pure (.char c, cs.drop width)

/-- The set a letter names: decimal digits, blanks or word characters, or in upper case the
others. -/
def shorthand (f : Flags) (c : Char) : Option CharSet :=
  let ascii (s : CharSet) : CharSet := if f.unicode then s else .inter s (.ranges [(0, 127)])
  let others (s : CharSet) : Option CharSet := if f.unicode then some (.complement s) else none
  match c with
  | 'd' => some (ascii .digit)
  | 's' => some (ascii .blank)
  | 'w' => some (ascii .word)
  | 'D' => others .digit
  | 'S' => others .blank
  | 'W' => others .word
  | _ => none

/-- The name in braces behind `\b`, if there is one. -/
def boundaryName (cs : List Char) : Option (String × List Char) :=
  match cs with
  | '\x7b' :: cs =>
    let isNameChar (c : Char) : Bool := c.isAlpha || c == '-'
    let name := cs.takeWhile isNameChar
    if name.isEmpty then none else some (String.ofList name, cs.drop name.length)
  | _ => none

/-- A word boundary, which may be named. -/
def boundary (cs : List Char) : Option (Atom × List Char) :=
  match boundaryName cs with
  | none => if cs == ['\x7b'] then none else some (.look .wordBoundary, cs)
  | some (name, '\x7d' :: rest) =>
    match name with
    | "start" => some (.look .wordStart, rest)
    | "end" => some (.look .wordEnd, rest)
    | "start-half" => some (.look .beforeWord, rest)
    | "end-half" => some (.look .afterWord, rest)
    | _ => none
  | some _ => none

/-- What follows a backslash. Any ASCII character that is no letter and no digit stands for
itself. -/
def escape (f : Flags) : List Char → Option (Atom × List Char)
  | [] => none
  | c :: cs =>
    match c with
    | 'x' => hexEscape 2 cs
    | 'u' => hexEscape 4 cs
    | 'U' => hexEscape 8 cs
    | 'a' => some (.char '\x07', cs)
    | 'f' => some (.char '\x0c', cs)
    | 't' => some (.char '\t', cs)
    | 'n' => some (.char '\n', cs)
    | 'r' => some (.char '\r', cs)
    | 'v' => some (.char '\x0b', cs)
    | 'A' => some (.look .textStart, cs)
    | 'z' => some (.look .textEnd, cs)
    | 'b' => boundary cs
    | 'B' => some (.look .notWordBoundary, cs)
    | '<' => some (.look .wordStart, cs)
    | '>' => some (.look .wordEnd, cs)
    | _ =>
      match shorthand f c with
      | some s => some (.set s, cs)
      | none => if c.isAlphanum || 127 < c.toNat then none else some (.char c, cs)

/-! ## Bracketed sets -/

inductive SetOp where
  | inter
  | minus
  | differ
  deriving Repr, DecidableEq, Inhabited

/-- With case ignored if the flags say so. -/
def foldSet (f : Flags) (s : CharSet) : CharSet := if f.anyCase then .anyCase s else s

/-- Combine the operand in front of an operator with the one behind it. -/
def combine (f : Flags) (left : Option (SetOp × CharSet)) (right : CharSet) : CharSet :=
  match left with
  | none => right
  | some (op, left) =>
    let left := foldSet f left
    let right := foldSet f right
    match op with
    | .inter => .inter left right
    | .minus => .inter left (.complement right)
    | .differ => .union (.inter left (.complement right)) (.inter right (.complement left))

/-- A finished set. -/
def closeSet (f : Flags) (negated : Bool) (s : CharSet) : Option CharSet :=
  if negated then if f.unicode then some (.complement (foldSet f s)) else none
  else some (foldSet f s)

/-- The start of a bracketed set: `^`, then any number of `-`, or else a `]` that stands for
itself. -/
def openSet (f : Flags) (cs : List Char) : Bool × CharSet × List Char :=
  let cs := skip f cs
  let negated := cs.head? == some '^'
  let cs := if negated then skip f cs.tail else cs
  let dashes := cs.takeWhile (· == '-')
  if !dashes.isEmpty then (negated, .single '-', skip f (cs.drop dashes.length))
  else if cs.head? == some ']' then (negated, .single ']', skip f cs.tail)
  else (negated, .empty, cs)

/-- The sets with a name. -/
def namedSet (name : String) : Option (List (Char × Char)) :=
  match name with
  | "alnum" => some [('0', '9'), ('A', 'Z'), ('a', 'z')]
  | "alpha" => some [('A', 'Z'), ('a', 'z')]
  | "ascii" => some [('\x00', '\x7f')]
  | "blank" => some [('\t', '\t'), (' ', ' ')]
  | "cntrl" => some [('\x00', '\x1f'), ('\x7f', '\x7f')]
  | "digit" => some [('0', '9')]
  | "graph" => some [('!', '~')]
  | "lower" => some [('a', 'z')]
  | "print" => some [(' ', '~')]
  | "punct" => some [('!', '/'), (':', '@'), ('[', '\x60'), ('\x7b', '~')]
  | "space" => some [('\t', '\r'), (' ', ' ')]
  | "upper" => some [('A', 'Z')]
  | "word" => some [('0', '9'), ('A', 'Z'), ('_', '_'), ('a', 'z')]
  | "xdigit" => some [('0', '9'), ('A', 'F'), ('a', 'f')]
  | _ => none

/-- `:name:]` or `:^name:]`, behind a bracket inside brackets. -/
def posixSet (cs : List Char) : Option (CharSet × List Char) :=
  match cs with
  | ':' :: cs =>
    let negated := cs.head? == some '^'
    let cs := if negated then cs.tail else cs
    let name := cs.takeWhile (· != ':')
    match cs.drop name.length with
    | ':' :: ']' :: rest => do
      let pairs ← namedSet (String.ofList name)
      let s := CharSet.ranges (pairs.map (fun p => (p.1.toNat, p.2.toNat)))
      pure (if negated then .complement s else s, rest)
    | _ => none
  | _ => none

/-- One character or named set inside brackets. -/
def setItem (f : Flags) : List Char → Option (Atom × List Char)
  | [] => none
  | '\\' :: cs => escape f cs
  | c :: cs => some (.char c, cs)

def Atom.toSet? : Atom → Option CharSet
  | char c => some (.single c)
  | set s => some s
  | look _ => none

/-- A character, a named set or a range inside brackets. A `-` in front of `]` or of another `-`
makes no range. -/
def setRange (f : Flags) (cs : List Char) : Option (CharSet × List Char) := do
  let (first, rest) ← setItem f cs
  match skip f rest with
  | '-' :: rest' =>
    let behind := skip f rest'
    if behind.head? == some ']' || behind.head? == some '-' then
      let s ← first.toSet?
      pure (s, skip f rest)
    else
      let (last, rest) ← setItem f behind
      match first, last with
      | .char a, .char b => if a ≤ b then some (.ranges [(a.toNat, b.toNat)], rest) else none
      | _, _ => none
  | rest =>
    let s ← first.toSet?
    pure (s, rest)

/-- The rest of a bracketed set up to its `]`; `acc` is what was read since the last operator. -/
def setItems (f : Flags) : Nat → Option (SetOp × CharSet) → CharSet → List Char →
    Option (CharSet × List Char)
  | 0, _, _, _ => none
  | n + 1, left, acc, cs =>
    match skip f cs with
    | [] => none
    | ']' :: cs => some (combine f left acc, cs)
    | '[' :: cs =>
      match posixSet cs with
      | some (s, rest) => setItems f n left (.union acc s) rest
      | none => do
        let (negated, start, rest) := openSet f cs
        let (s, rest) ← setItems f n none start rest
        let s ← closeSet f negated s
        setItems f n left (.union acc s) rest
    | '&' :: '&' :: cs => setItems f n (some (.inter, combine f left acc)) .empty cs
    | '-' :: '-' :: cs => setItems f n (some (.minus, combine f left acc)) .empty cs
    | '~' :: '~' :: cs => setItems f n (some (.differ, combine f left acc)) .empty cs
    | cs => do
      let (s, rest) ← setRange f cs
      setItems f n left (.union acc s) rest

/-- A bracketed set behind its `[`. -/
def bracketed (f : Flags) (cs : List Char) : Option (CharSet × List Char) := do
  let (negated, start, rest) := openSet f cs
  let (s, rest) ← setItems f (cs.length + 1) none start rest
  let s ← closeSet f negated s
  pure (s, rest)

/-! ## Repetition -/

/-- A decimal number between blanks; `none` if there is no digit. -/
def decimal (cs : List Char) : Option Nat × List Char :=
  let cs := cs.dropWhile Text.isBlank
  let ds := cs.takeWhile Char.isDigit
  let rest := (cs.drop ds.length).dropWhile Text.isBlank
  (if ds.isEmpty then none else some (ds.foldl (fun n d => 10 * n + (d.toNat - 48)) 0), rest)

/-- The greatest count a repetition may have. -/
def maxCount : Nat := 4294967295

/-- The counts of a repetition behind its `{`. -/
def counts (cs : List Char) : Option ((Nat × Option Nat) × List Char) := do
  let (least, rest) := decimal cs
  let least ← least
  match rest with
  | '\x7d' :: rest => if least ≤ maxCount then some ((least, some least), rest) else none
  | ',' :: rest =>
    match rest.dropWhile Text.isBlank with
    | '\x7d' :: rest => if least ≤ maxCount then some ((least, none), rest) else none
    | rest =>
      let (most, rest) := decimal rest
      let most ← most
      match rest with
      | '\x7d' :: rest =>
        if least ≤ most && most ≤ maxCount then some ((least, some most), rest) else none
      | _ => none
  | _ => none

/-- The counts of a repetition, if one starts here. -/
def repetition? : List Char → Option (Option ((Nat × Option Nat) × List Char))
  | '?' :: cs => some (some ((0, some 1), cs))
  | '*' :: cs => some (some ((0, none), cs))
  | '+' :: cs => some (some ((1, none), cs))
  | '\x7b' :: cs => some (counts cs)
  | _ => none

/-- Drop the mark of a reluctant repetition. -/
def dropReluctant (f : Flags) (cs : List Char) : List Char :=
  match skip f cs with
  | '?' :: cs => cs
  | _ => cs

/-! ## Groups -/

/-- The flags up to `:` or `)`, and which of the two it is. `seen` holds the flags read so far. -/
def readFlags (f : Flags) (on : Bool) (seen : List Char) : List Char →
    Option (Flags × List Char × Char × List Char)
  | [] => none
  | c :: cs =>
    if c = ':' || c = ')' then
      if !on && seen.head? == some '-' then none else some (f, seen, c, cs)
    else if seen.contains c then none
    else
      let next (f : Flags) (on : Bool) := readFlags f on (c :: seen) cs
      match c with
      | '-' => next f false
      | 'i' => next { f with anyCase := on } on
      | 'm' => next { f with multiLine := on } on
      | 's' => next { f with dotAll := on } on
      | 'x' => next { f with verbose := on } on
      | 'u' => next { f with unicode := on } on
      | 'U' => next f on
      | 'R' => next f on
      | _ => none

/-- The name of a group, up to its `>`. -/
def groupName (cs : List Char) : Option (String × List Char) :=
  let name := cs.takeWhile (· != '>')
  let starts (c : Char) : Bool := c == '_' || (Text.isWord c && !Text.isDecimalDigit c)
  let goesOn (c : Char) : Bool := Text.isWord c || c == '.' || c == '[' || c == ']'
  match name, cs.drop name.length with
  | c :: more, _ :: rest =>
    if starts c && more.all goesOn then some (String.ofList name, rest) else none
  | _, _ => none

/-- How a group begins behind its `(`. -/
inductive Opening where
  | group (f : Flags) (names : List String) (rest : List Char)
  | flags (f : Flags) (rest : List Char)
  deriving Inhabited

def named (f : Flags) (names : List String) (cs : List Char) : Option Opening := do
  let (name, rest) ← groupName cs
  if names.contains name then none else some (.group f (name :: names) rest)

def opening (f : Flags) (names : List String) (cs : List Char) : Option Opening :=
  match skip f cs with
  | '?' :: 'P' :: '<' :: cs => named f names cs
  | '?' :: '<' :: cs => named f names cs
  | '?' :: cs => do
    let (g, seen, terminator, rest) ← readFlags f true [] cs
    if terminator = ':' then some (.group g names rest)
    else if seen.isEmpty then none
    else some (.flags g rest)
  | cs => some (.group f names cs)

/-! ## The whole -/

def foldAtom (f : Flags) : Atom → Pattern
  | .char c => .one (foldSet f (.single c))
  | .set s => .one s
  | .look l => .look l

/-- A character outside brackets that is no operator of a sequence. -/
def atom (f : Flags) : List Char → Option (Pattern × List Char)
  | [] => none
  | '.' :: cs =>
    if f.unicode then
      some (.one (.complement (if f.dotAll then .empty else .single '\n')), cs)
    else none
  | '^' :: cs => some (.look (if f.multiLine then .lineStart else .textStart), cs)
  | '$' :: cs => some (.look (if f.multiLine then .lineEnd else .textEnd), cs)
  | '[' :: cs => do
    let (s, rest) ← bracketed f cs
    pure (.one s, rest)
  | '\\' :: cs => do
    let (a, rest) ← escape f cs
    pure (foldAtom f a, rest)
  | c :: cs => some (foldAtom f (.char c), cs)

/-- What was read of a group: the alternatives in front of the current one, the sequence up to the
last item, and the last item, if it can be repeated. -/
structure Partial where
  alternatives : Option Pattern := none
  front : Pattern := .empty
  last : Option Pattern := none
  deriving Inhabited

namespace Partial

def sequence (p : Partial) : Pattern :=
  match p.last with
  | some q => .seq p.front q
  | none => p.front

def whole (p : Partial) : Pattern :=
  match p.alternatives with
  | some q => .alt q p.sequence
  | none => p.sequence

def push (p : Partial) (q : Pattern) : Partial := { p with front := p.sequence, last := some q }

/-- Nothing in front of this place can be repeated. -/
def close (p : Partial) : Partial := { p with front := p.sequence, last := none }

def alternate (p : Partial) : Partial := { alternatives := some p.whole }

end Partial

/-- Read the rest of a group, or of the whole pattern. Every character read costs one of the `n`
steps. -/
def groupRest : Nat → Bool → Flags → List String → Partial → List Char →
    Option (Pattern × List String × List Char)
  | 0, _, _, _, _, _ => none
  | n + 1, inside, f, names, p, cs =>
    let cs := skip f cs
    match repetition? cs with
    | some counted => do
      let ((least, most), rest) ← counted
      let q ← p.last
      groupRest n inside f names { p with last := some (.repeat q least most) }
        (dropReluctant f rest)
    | none =>
      match cs with
      | [] => if inside then none else some (p.whole, names, [])
      | ')' :: rest => if inside then some (p.whole, names, rest) else none
      | '|' :: rest => groupRest n inside f names p.alternate rest
      | '(' :: rest => do
        match ← opening f names rest with
        | .flags g rest => groupRest n inside g names p.close rest
        | .group g names rest =>
          let (q, names, rest) ← groupRest n true g names {} rest
          groupRest n inside f names (p.push q) rest
      | cs => do
        let (q, rest) ← atom f cs
        groupRest n inside f names (p.push q) rest

end Source

/-- The pattern that a text denotes. -/
def ofSource? (source : String) : Option Pattern :=
  let cs := source.toList
  (Source.groupRest (cs.length + 1) false {} [] {} cs).map (·.1)

end PklAnalysis.Pattern
