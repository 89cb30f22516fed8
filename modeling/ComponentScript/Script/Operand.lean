/-
  ComponentScript.Script.Operand — which texts can be a receiver or an operand as they are.

  A scan over the text keeps track of quotes, escapes and bracket depth. Outside of
  brackets and quotes only names, numbers, dots and question marks may occur: anything else
  is an operator or a blank, and the text needs parentheses.
-/

import ComponentScript.Text.Numeric

namespace ComponentScript.Script

open Text

/-- Where the scan is: in code, inside a quoted piece, or right after its backslash. -/
inductive Place where
  | code (depth : Nat)
  | quoted (depth : Nat) (mark : Char)
  | escaped (depth : Nat) (mark : Char)
  deriving DecidableEq, Repr

def isQuoteMark (c : Char) : Bool := c = '\x22' || c = '\x27' || c = '\x60'

def isOpening (c : Char) : Bool := c = '(' || c = '[' || c = '\x7b'

def isClosing (c : Char) : Bool := c = ')' || c = ']' || c = '\x7d'

/-- A character that may stand in an operand outside of all brackets. -/
def isOperandChar (c : Char) : Bool :=
  isAlphanumeric c || c = '_' || c = '$' || c = '.' || c = '?'

/-- The place after one more character, or nothing when the text needs parentheses. -/
def Place.next : Place → Char → Option Place
  | .quoted d q, c => some (if c = '\x5c' then .escaped d q else if c = q then .code d else .quoted d q)
  | .escaped d q, _ => some (.quoted d q)
  | .code d, c =>
    if isQuoteMark c then some (.quoted d c)
    else if isOpening c then some (.code (d + 1))
    else if isClosing c then some (.code (d - 1))
    else if 0 < d || isOperandChar c then some (.code d)
    else none

/-- Whether the text can be used as an operand without parentheses. -/
def isSimpleOperand (text : String) : Bool :=
  text ≠ "" && (text.toList.foldlM Place.next (Place.code 0)).isSome

/-- The text, in parentheses unless it is a simple operand. -/
def operand (text : String) : String := if isSimpleOperand text then text else "(" ++ text ++ ")"

end ComponentScript.Script
