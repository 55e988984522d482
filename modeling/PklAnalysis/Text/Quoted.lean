/-!
# Quoted text

Source text of a string: quotes and backslashes are escaped, and so are line feeds and tabs; every
other character stands for itself.
-/

namespace PklAnalysis.Text

/-- How one character is written between quotes. -/
def escape (c : Char) : List Char :=
  if c = '"' then ['\\', '"']
  else if c = '\\' then ['\\', '\\']
  else if c = '\n' then ['\\', 'n']
  else if c = '\t' then ['\\', 't']
  else [c]

def quotedChars (cs : List Char) : List Char := '"' :: (cs.flatMap escape ++ ['"'])

def quoted (s : String) : String := String.ofList (quotedChars s.toList)

end PklAnalysis.Text
