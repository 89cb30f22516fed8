/-
  ComponentScript.Script.Template — literal text inside a template literal.

  A backtick would end the template and a dollar sign before an opening brace would start
  a substitution, so both are escaped, and so are backslashes and the line controls.
-/

namespace ComponentScript.Script

/-- One character of template text that opens nothing together with its successor. -/
def templateChar (c : Char) : List Char :=
  if c = '\x5c' then ['\x5c', '\x5c']
  else if c = '\x60' then ['\x5c', '\x60']
  else if c = '\n' then ['\x5c', 'n']
  else if c = '\r' then ['\x5c', 'r']
  else if c = '\t' then ['\x5c', 't']
  else [c]

def templateChars : List Char → List Char
  | [] => []
  | '$' :: '\x7b' :: rest => '\x5c' :: '$' :: '\x7b' :: templateChars rest
  | c :: rest => templateChar c ++ templateChars rest

/-- Literal text as it is written inside a template. -/
def escapeTemplate (s : String) : String := String.ofList (templateChars s.toList)

/-- A substitution: the expression between a dollar sign with brace and its closing brace. -/
def substitution (text : String) : String := "$\x7b" ++ text ++ "\x7d"

end ComponentScript.Script
