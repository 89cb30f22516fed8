/-
  ComponentScript.Text.Lines — text as lines.

  A line ends at a line feed; one carriage return right before it belongs to the line end.
  A final line end adds no empty line, and a carriage return anywhere else is part of its
  line.
-/

namespace ComponentScript.Text

/-- Puts a character in front of the first line. -/
def consLine (c : Char) : List (List Char) → List (List Char)
  | [] => [[c]]
  | l :: ls => (c :: l) :: ls

def lines : List Char → List (List Char)
  | [] => []
  | '\r' :: '\n' :: rest => [] :: lines rest
  | '\n' :: rest => [] :: lines rest
  | c :: rest => consLine c (lines rest)

/-- The texts with a line feed between neighbours. -/
def joinLines (ls : List String) : String := "\n".intercalate ls

/-- The texts with a comma and a blank between neighbours. -/
def commaList (items : List String) : String := ", ".intercalate items

end ComponentScript.Text
