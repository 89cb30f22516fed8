/-
  ComponentScript.Json.Printer — JSON values as text, in one line or laid out over several.

  Strings escape quotes, backslashes and controls and write every other character as it is.
-/

import ComponentScript.Text.Lines
import ComponentScript.Json.Basic

namespace ComponentScript.Json

open Text

def hexChar (n : Nat) : Char := if n < 10 then Char.ofNat (48 + n) else Char.ofNat (87 + n)

def printChar (c : Char) : List Char :=
  if c = '\x22' then ['\x5c', '\x22']
  else if c = '\x5c' then ['\x5c', '\x5c']
  else if c = '\n' then ['\x5c', 'n']
  else if c = '\r' then ['\x5c', 'r']
  else if c = '\t' then ['\x5c', 't']
  else if c = '\x08' then ['\x5c', 'b']
  else if c = '\x0c' then ['\x5c', 'f']
  else if c.toNat < 0x20 then
    ['\x5c', 'u', '0', '0', hexChar (c.toNat / 16), hexChar (c.toNat % 16)]
  else [c]

def printString (s : String) : String := "\"" ++ String.ofList (s.toList.flatMap printChar) ++ "\""

/-- A value without parts. What a text leaves unreadable has no text of its own. -/
def printLeaf : Json → String
  | .null => "null"
  | .bool b => if b then "true" else "false"
  | .int n => toString n
  | .real literal => literal
  | .str s => printString s
  | _ => ""

mutual
/-- The value in one line. -/
def compact : Json → String
  | .arr items => "[" ++ ",".intercalate (compactItems items) ++ "]"
  | .obj fields => "\x7b" ++ ",".intercalate (compactFields fields) ++ "\x7d"
  | .null => printLeaf .null
  | .bool b => printLeaf (.bool b)
  | .int n => printLeaf (.int n)
  | .real literal => printLeaf (.real literal)
  | .str s => printLeaf (.str s)
  | .loose | .misnamed _ | .cut | .unnamed => ""
def compactItems : List Json → List String
  | [] => []
  | j :: js => compact j :: compactItems js
def compactFields : List (String × Json) → List String
  | [] => []
  | (key, j) :: fs => (printString key ++ ":" ++ compact j) :: compactFields fs
end

/-- Two blanks a level. -/
def indentation (level : Nat) : String := String.ofList (List.replicate (2 * level) ' ')

/-- Parts between brackets, each on its own line one level deeper. -/
def spread (opening closing : String) (level : Nat) (parts : List String) : String :=
  if parts.isEmpty then opening ++ closing
  else
    let inner := parts.map (indentation (level + 1) ++ ·)
    opening ++ "\n" ++ ",\n".intercalate inner ++ "\n" ++ indentation level ++ closing

mutual
/-- The value over several lines, two blanks a level, starting at `level`. -/
def pretty (level : Nat) : Json → String
  | .arr items => spread "[" "]" level (prettyItems (level + 1) items)
  | .obj fields => spread "\x7b" "\x7d" level (prettyFields (level + 1) fields)
  | .null => printLeaf .null
  | .bool b => printLeaf (.bool b)
  | .int n => printLeaf (.int n)
  | .real literal => printLeaf (.real literal)
  | .str s => printLeaf (.str s)
  | .loose | .misnamed _ | .cut | .unnamed => ""
def prettyItems (level : Nat) : List Json → List String
  | [] => []
  | j :: js => pretty level j :: prettyItems level js
def prettyFields (level : Nat) : List (String × Json) → List String
  | [] => []
  | (key, j) :: fs => (printString key ++ ": " ++ pretty level j) :: prettyFields level fs
end

end ComponentScript.Json
