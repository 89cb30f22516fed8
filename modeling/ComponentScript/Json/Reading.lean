/-
  ComponentScript.Json.Reading — what a value is read from, and how reading fails.

  A reader takes the JSON value and where it comes from. A text is read from front to back
  and the first fault counts: a value of the wrong shape in front of a broken place hides
  it. Part of a text is set aside when it stands before the tag that says how to read it.
  What is set aside is complete by then, so all its faults are faults of shape. A value
  that was at hand from the start is complete too.
-/

import ComponentScript.Json.Basic

namespace ComponentScript.Json

inductive Fault where
  /-- The text is not JSON. -/
  | malformed
  /-- The value is not of the shape asked for. -/
  | shape
  deriving DecidableEq, Repr

/-- The outcome of reading a value. -/
abbrev Reading := Except Fault

/-- Where a value comes from. -/
inductive Origin where
  /-- A text in the course of being read; values may nest `room` levels deeper. -/
  | text (room : Nat)
  /-- A complete value. -/
  | value
  /-- A part of a value that was set aside until its tag was known. -/
  | aside

abbrev Reader (α : Type) := Origin → Json → Reading α

namespace Origin

/-- Where the parts of an object or array come from. -/
def enter : Origin → Reading Origin
  | .text 0 => .error .malformed
  | .text (room + 1) => .ok (.text room)
  | o => .ok o

/-- Whether a field that no one asks for can be passed over. -/
def skips : Origin → Json → Bool
  | .text _, j => j.skippable
  | _, _ => true

/-- Whether a field can be set aside. -/
def keeps : Origin → Json → Bool
  | .text room, j => j.readable room
  | _, _ => true

/-- The fault of an array that has more items than anyone asks for: a text is expected to
    close it there. -/
def surplus : Origin → Fault
  | .text _ => .malformed
  | _ => .shape

end Origin

/-! ## Plain values -/

/-- The fault of a value that is not what was asked for. -/
def mismatch {α : Type} : Json → Reading α
  | .loose | .misnamed _ | .cut | .unnamed => .error .malformed
  | _ => .error .shape

def readString : Reader String
  | _, .str s => .ok s
  | _, j => mismatch j

def readBool : Reader Bool
  | _, .bool b => .ok b
  | _, j => mismatch j

def readUInt32 : Reader UInt32
  | _, .int n => if 0 ≤ n && n < 4294967296 then .ok (UInt32.ofNat n.toNat) else .error .shape
  | _, j => mismatch j

/-- A string of exactly one character. -/
def readChar : Reader Char
  | _, .str s =>
    match s.toList with
    | [c] => .ok c
    | _ => .error .shape
  | _, j => mismatch j

def readList {α : Type} (read : Reader α) : Reader (List α)
  | o, .arr items => do
    let o ← o.enter
    items.mapM (read o)
  | _, j => mismatch j

/-- Null for nothing. -/
def readOption {α : Type} (read : Reader α) : Reader (Option α)
  | _, .null => .ok none
  | o, j => some <$> read o j

/-- What stands for nothing: null, and among values set aside the empty object too. -/
def readNothing : Reader Unit
  | _, .null => .ok ()
  | .aside, .obj [] => .ok ()
  | _, j => mismatch j

/-! ## Forms and words -/

/-- The value of a field whose name says how to read it. -/
def readNamed {α : Type} (forms : List (String × Reader α)) (o : Origin) :
    String × Json → Reading α
  | (_, .misnamed _) => .error .malformed
  | (_, .unnamed) => .error .shape
  | (key, j) =>
    match forms.lookup key with
    | some read => read o j
    | none => .error .shape

/-- An object of one field, whose name is one of `forms`. A text that has anything else
    there, a string aside, is malformed at once. -/
def readForm {α : Type} (forms : List (String × Reader α)) : Reader α
  | .text room, .obj (field :: rest) => do
    let a ← readNamed forms (← (Origin.text room).enter) field
    if rest.isEmpty then return a else .error .malformed
  | o, .obj [field] => readNamed forms o field
  | _, .str _ => .error .shape
  | .text _, _ => .error .malformed
  | _, _ => .error .shape

/-- One of `all`, by its word. -/
def readWord {α : Type} (all : List α) (word : α → String) : Reader α
  | _, .str s =>
    match all.find? fun a => word a = s with
    | some a => .ok a
    | none => .error .shape
  | o, j => readForm (all.map fun a => (word a, fun o j => (fun _ => a) <$> readNothing o j)) o j

end ComponentScript.Json
