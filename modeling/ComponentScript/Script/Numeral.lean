/-
  ComponentScript.Script.Numeral — numeric literals without type suffixes and digit
  separators: `1.5f` is `1.5` and `1_000L` is `1000`.

  In a hexadecimal literal the letters `f` and `d` are digits, so only `u` and `l` count as
  suffixes there. A text of suffix letters only stays as it is.
-/

namespace ComponentScript.Script

def isHexLiteral : List Char → Bool
  | '0' :: x :: _ => x = 'x' || x = 'X'
  | _ => false

def isIntegerSuffix (c : Char) : Bool := c = 'u' || c = 'U' || c = 'l' || c = 'L'

def isRealSuffix (c : Char) : Bool :=
  c = 'f' || c = 'F' || c = 'd' || c = 'D' || c = 'm' || c = 'M'

/-- A letter that names the type of the literal `cs` when it stands at its end. -/
def isSuffixOf (cs : List Char) (c : Char) : Bool :=
  isIntegerSuffix c || (!isHexLiteral cs && isRealSuffix c)

def numeralChars (text : List Char) : List Char :=
  let cs := text.filter (· ≠ '_')
  let bare := (cs.reverse.dropWhile (isSuffixOf cs)).reverse
  if bare.isEmpty then cs else bare

def numeral (text : String) : String := String.ofList (numeralChars text.toList)

end ComponentScript.Script
