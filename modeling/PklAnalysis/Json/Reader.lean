import PklAnalysis.Json.Value

/-!
# Reading JSON texts

A text is cut into tokens; the tokens are read one by one, with the arrays and objects that are
still open on a stack, the innermost first.

* `JsonValue.ofText?` reads a text that holds one value and white space around it.
-/

namespace PklAnalysis

namespace Json

/-- White space between tokens. -/
def isBlank (c : Char) : Bool := c == ' ' || c == '\n' || c == '\r' || c == '\t'

inductive Token where
  | openArray
  | closeArray
  | openObject
  | closeObject
  | colon
  | comma
  | null
  | bool (b : Bool)
  | number (n : JsonNumber)
  | string (text : JsonText)
  deriving Repr, Inhabited

def punctuation? (c : Char) : Option Token :=
  if c = '[' then some .openArray
  else if c = ']' then some .closeArray
  else if c = '\x7b' then some .openObject
  else if c = '\x7d' then some .closeObject
  else if c = ':' then some .colon
  else if c = ',' then some .comma
  else none

/-! ### Words -/

/-- Whether a character belongs to a word: a number, `null`, `true` or `false`. -/
def inWord (c : Char) : Bool := !(isBlank c || (punctuation? c).isSome || c == '"')

/-- Read the part of a number behind its whole digits. -/
def tail? (negative : Bool) (whole : List Char) (cs : List Char) : Option JsonNumber :=
  let (fraction, cs, hasPoint) := match cs with
    | '.' :: cs => (cs.takeWhile Char.isDigit, cs.dropWhile Char.isDigit, true)
    | cs => ([], cs, false)
  if hasPoint && fraction.isEmpty then none
  else
    let number exponent : JsonNumber := ⟨negative, whole, fraction, exponent, hasPoint⟩
    match cs with
    | [] => some (number none)
    | e :: cs =>
      let (minus, cs) := match cs with
        | '+' :: cs => (false, cs)
        | '-' :: cs => (true, cs)
        | cs => (false, cs)
      if (e == 'e' || e == 'E') && !cs.isEmpty && cs.all Char.isDigit then
        some (number (some (minus, cs)))
      else none

/-- Read a number. Its whole digits start with a zero only if that is all. -/
def number? (cs : List Char) : Option JsonNumber :=
  let (negative, cs) := match cs with
    | '-' :: cs => (true, cs)
    | cs => (false, cs)
  let whole := cs.takeWhile Char.isDigit
  if whole.isEmpty || (whole.head? == some '0' && 1 < whole.length) then none
  else tail? negative whole (cs.dropWhile Char.isDigit)

def word? (cs : List Char) : Option Token :=
  if cs = "null".toList then some .null
  else if cs = "true".toList then some (.bool true)
  else if cs = "false".toList then some (.bool false)
  else (number? cs).map .number

/-! ### Strings -/

/-- A character of a string, or half of a surrogate pair. -/
inductive StringUnit where
  | char (c : Char)
  | half (n : Nat)
  deriving Repr, Inhabited

def isHighHalf (n : Nat) : Bool := 0xD800 ≤ n && n < 0xDC00

def isLowHalf (n : Nat) : Bool := 0xDC00 ≤ n && n < 0xE000

def StringUnit.ofCode (n : Nat) : StringUnit :=
  if isHighHalf n || isLowHalf n then .half n else .char (Char.ofNat n)

/-- Join the halves of surrogate pairs. -/
def textOf? : List StringUnit → Option (List Char)
  | [] => some []
  | .char c :: us => (textOf? us).map (c :: ·)
  | .half h :: .half l :: us =>
    if isHighHalf h && isLowHalf l then
      (textOf? us).map (Char.ofNat (0x10000 + 0x400 * (h - 0xD800) + (l - 0xDC00)) :: ·)
    else none
  | .half _ :: _ => none

def hexValue? (c : Char) : Option Nat :=
  if c.isDigit then some (c.toNat - '0'.toNat)
  else if 'a' ≤ c && c ≤ 'f' then some (c.toNat - 'a'.toNat + 10)
  else if 'A' ≤ c && c ≤ 'F' then some (c.toNat - 'A'.toNat + 10)
  else none

/-- The number that hexadecimal digits write. -/
def hex? (cs : List Char) : Option Nat :=
  cs.foldlM (fun n c => (hexValue? c).map (16 * n + ·)) 0

/-- The character that a letter behind a backslash stands for. -/
def escape? (c : Char) : Option Char :=
  if c = '"' || c = '\\' || c = '/' then some c
  else if c = 'b' then some '\x08'
  else if c = 'f' then some '\x0c'
  else if c = 'n' then some '\n'
  else if c = 'r' then some '\r'
  else if c = 't' then some '\t'
  else none

/-- Read a string behind its opening quote: what it holds, and the rest of the text. -/
def string? : List Char → Option (List StringUnit × List Char)
  | [] => none
  | '"' :: cs => some ([], cs)
  | '\\' :: 'u' :: a :: b :: c :: d :: cs => do
    let n ← hex? [a, b, c, d]
    let (us, rest) ← string? cs
    pure (.ofCode n :: us, rest)
  | '\\' :: c :: cs => do
    let c ← escape? c
    let (us, rest) ← string? cs
    pure (.char c :: us, rest)
  | c :: cs =>
    if c.toNat < 0x20 || c == '\\' then none
    else do
      let (us, rest) ← string? cs
      pure (.char c :: us, rest)

/-! ### Tokens -/

/-- Cut at most `n` tokens and blanks off a text. -/
def tokensUpTo? : Nat → List Char → Option (List Token)
  | _, [] => some []
  | 0, _ => none
  | n + 1, c :: cs =>
    if isBlank c then tokensUpTo? n cs
    else match punctuation? c with
      | some t => (tokensUpTo? n cs).map (t :: ·)
      | none =>
        if c = '"' then do
          let (us, rest) ← string? cs
          let ts ← tokensUpTo? n rest
          pure (.string ((textOf? us).map String.ofList) :: ts)
        else do
          let t ← word? (c :: cs.takeWhile inWord)
          let ts ← tokensUpTo? n (cs.dropWhile inWord)
          pure (t :: ts)

/-- The tokens of a text. Each takes at least one character. -/
def tokens? (cs : List Char) : Option (List Token) := tokensUpTo? cs.length cs

/-! ### Values -/

/-- An array or object that is still open: what it holds so far, the newest first, and the key under
which the next member goes. -/
inductive Frame where
  | array (items : List JsonValue)
  | object (members : List (JsonText × JsonValue)) (key : JsonText)
  deriving Inhabited

/-- What may come next. -/
inductive Expected where
  | value
  /-- A value, or the end of an array that has just been opened. -/
  | firstItem
  /-- A key, or the end of an object that has just been opened. -/
  | firstKey (members : List (JsonText × JsonValue))
  | key (members : List (JsonText × JsonValue))
  | colon
  /-- A value has been read: a comma or the end of what is open. -/
  | next (v : JsonValue)
  deriving Inhabited

/-- Read the first token of a value. -/
def begin? (frames : List Frame) : Token → Option (List Frame × Expected)
  | .null => some (frames, .next .null)
  | .bool b => some (frames, .next (.bool b))
  | .number n => some (frames, .next (.number n))
  | .string s => some (frames, .next (.string s))
  | .openArray => some (.array [] :: frames, .firstItem)
  | .openObject => some (frames, .firstKey [])
  | _ => none

/-- Read a token. -/
def advance? : List Frame × Expected → Token → Option (List Frame × Expected)
  | (frames, .value), t => begin? frames t
  | (.array _ :: frames, .firstItem), .closeArray => some (frames, .next (.array []))
  | (frames, .firstItem), t => begin? frames t
  | (frames, .firstKey members), .string s => some (.object members s :: frames, .colon)
  | (frames, .firstKey _), .closeObject => some (frames, .next (.object []))
  | (frames, .key members), .string s => some (.object members s :: frames, .colon)
  | (frames, .colon), .colon => some (frames, .value)
  | (.array items :: frames, .next v), .comma => some (.array (v :: items) :: frames, .value)
  | (.array items :: frames, .next v), .closeArray =>
    some (frames, .next (.array (v :: items).reverse))
  | (.object members key :: frames, .next v), .comma => some (frames, .key ((key, v) :: members))
  | (.object members key :: frames, .next v), .closeObject =>
    some (frames, .next (.object ((key, v) :: members).reverse))
  | _, _ => none

end Json

/-- The value that a text writes. -/
def JsonValue.ofText? (text : String) : Option JsonValue := do
  let ts ← Json.tokens? text.toList
  match ← ts.foldlM Json.advance? ([], .value) with
  | ([], .next v) => some v
  | _ => none

end PklAnalysis
