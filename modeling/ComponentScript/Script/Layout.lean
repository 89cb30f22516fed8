/-
  ComponentScript.Script.Layout — indentation and braced blocks.
-/

import ComponentScript.Text.Lines

namespace ComponentScript.Script

open Text

def indentLine (indent : String) (line : List Char) : String :=
  if line.isEmpty then "" else indent ++ String.ofList line

/-- Indents every line that is not empty. -/
def indentLines (text indent : String) : String :=
  joinLines ((lines text.toList).map (indentLine indent))

/-- The statements in braces, one below the other; empty ones are left out. -/
def block (statements : List String) (indent : String) : String :=
  let body := statements.filter (· ≠ "")
  if body.isEmpty then "\x7b\x7d"
  else "\x7b\n" ++ indentLines (joinLines body) indent ++ "\n\x7d"

end ComponentScript.Script
