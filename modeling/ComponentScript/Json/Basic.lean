/-
  ComponentScript.Json.Basic — JSON values as a text shows them.

  An object keeps its fields in the order of the text, repeated ones included. A text can
  break off or go wrong in the middle of a value: the value then has a `cut` at that place,
  behind everything that came before it. Some texts follow the grammar and still have no
  value: a string with half a surrogate pair, a number past the range of a double. They
  harm only a reader who wants the value, so they stay in the tree as `loose` and
  `misnamed`.
-/

namespace ComponentScript

inductive Json where
  | null
  | bool (b : Bool)
  /-- An integer literal that fits in 64 bits, signed or unsigned. -/
  | int (n : Int)
  /-- Any other number, as it is written. -/
  | real (literal : String)
  | str (s : String)
  | arr (items : List Json)
  | obj (fields : List (String × Json))
  /-- A string or a number that is well written and has no value. -/
  | loose
  /-- The value of a field whose name cannot be read. -/
  | misnamed (value : Json)
  /-- The place where the text stops being JSON. -/
  | cut
  /-- The same place, with a value where the name of a field should stand. -/
  | unnamed
  deriving Inhabited

namespace Json

def isMisnamed : Json → Bool
  | .misnamed _ => true
  | _ => false

mutual
/-- Whether the value can be passed over: its text follows the grammar to the end. -/
def skippable : Json → Bool
  | .arr items => skippableItems items
  | .obj fields => skippableFields fields
  | .misnamed j => skippable j
  | .cut | .unnamed => false
  | _ => true
def skippableItems : List Json → Bool
  | [] => true
  | j :: js => skippable j && skippableItems js
def skippableFields : List (String × Json) → Bool
  | [] => true
  | (_, j) :: fs => skippable j && skippableFields fs
end

mutual
/-- Whether every part of the value can be read and the parts nest at most `room` deep. -/
def readable (room : Nat) : Json → Bool
  | .arr items =>
    match room with
    | 0 => false
    | room + 1 => readableItems room items
  | .obj fields =>
    match room with
    | 0 => false
    | room + 1 => readableFields room fields
  | .loose | .misnamed _ | .cut | .unnamed => false
  | _ => true
def readableItems (room : Nat) : List Json → Bool
  | [] => true
  | j :: js => readable room j && readableItems room js
def readableFields (room : Nat) : List (String × Json) → Bool
  | [] => true
  | (_, j) :: fs => readable room j && readableFields room fs
end

mutual
/-- How many values lie inside one another at most. -/
def depth : Json → Nat
  | .arr items => depthItems items + 1
  | .obj fields => depthFields fields + 1
  | _ => 1
def depthItems : List Json → Nat
  | [] => 0
  | j :: js => max (depth j) (depthItems js)
def depthFields : List (String × Json) → Nat
  | [] => 0
  | (_, j) :: fs => max (depth j) (depthFields fs)
end

end Json

end ComponentScript
