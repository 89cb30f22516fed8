/-
  ComponentScript.Text.Dotted — dotted names, cut into their segments.
-/

namespace ComponentScript.Text

/-- Splits at every occurrence of `sep`; there is always a first part. -/
def splitOn (sep : Char) : List Char → List (List Char)
  | [] => [[]]
  | c :: rest =>
    if c = sep then [] :: splitOn sep rest
    else
      match splitOn sep rest with
      | [] => [[c]]
      | part :: parts => (c :: part) :: parts

/-- What follows the last occurrence of `sep`, or everything. -/
def afterLast (sep : Char) (cs : List Char) : List Char :=
  (cs.reverse.takeWhile (· ≠ sep)).reverse

/-- What precedes the first occurrence of `sep`, or everything. -/
def beforeFirst (sep : Char) (cs : List Char) : List Char :=
  cs.takeWhile (· ≠ sep)

end ComponentScript.Text
