import PklAnalysis.Text.Printable

/-!
# Escaped text

Text between quotes in which every character that does not print on its own is written as an escape:
by a letter where there is one, else by its code point in braces.
-/

namespace PklAnalysis.Text

/-- A code point in braces. -/
def codePointEscape (c : Char) : List Char :=
  '\\' :: 'u' :: '\x7b' :: (Nat.toDigits 16 c.toNat ++ ['\x7d'])

def escapeUnprintable (c : Char) : List Char :=
  if c = '\x00' then ['\\', '0']
  else if c = '\t' then ['\\', 't']
  else if c = '\r' then ['\\', 'r']
  else if c = '\n' then ['\\', 'n']
  else if c = '"' then ['\\', '"']
  else if c = '\\' then ['\\', '\\']
  else if isExtending c || !isPrintable c then codePointEscape c
  else [c]

def escaped (s : String) : String :=
  String.ofList ('"' :: (s.toList.flatMap escapeUnprintable ++ ['"']))

end PklAnalysis.Text
