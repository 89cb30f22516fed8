/-
  ComponentScript.Script.Quoted — string literals of the script language.

  A double quote, a backslash and the controls that have a short escape are escaped; every
  other character stands for itself.
-/

namespace ComponentScript.Script

/-- One character inside a double-quoted literal. -/
def escapeChar (c : Char) : List Char :=
  if c = '\x5c' then ['\x5c', '\x5c']
  else if c = '\x22' then ['\x5c', '\x22']
  else if c = '\n' then ['\x5c', 'n']
  else if c = '\r' then ['\x5c', 'r']
  else if c = '\t' then ['\x5c', 't']
  else if c = '\x00' then ['\x5c', '0']
  else [c]

def escape (s : String) : String := String.ofList (s.toList.flatMap escapeChar)

/-- The text as a double-quoted literal. -/
def quote (s : String) : String := "\"" ++ escape s ++ "\""

end ComponentScript.Script
