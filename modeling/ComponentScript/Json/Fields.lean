/-
  ComponentScript.Json.Fields — records read from objects and arrays.

  A `Fields` names the fields of a record and says how to read them. The fields of an
  object are looked at in the order of the text. One that no one asks for is passed over;
  one that is asked for may not occur twice. Every fault has a place among the fields, a
  missing field the place behind the last one, and the first fault counts. A record may
  also be given as an array of its fields in order.
-/

import ComponentScript.Json.Reading

namespace ComponentScript.Json

/-! ## Faults with a place -/

/-- A reading of some fields of an object; a fault has the place of its field. -/
inductive Located (α : Type) where
  | ok (a : α)
  | error (place : Nat) (f : Fault)

namespace Located

/-- Both readings, with the first fault when both fail. -/
def both {α β : Type} : Located (α → β) → Located α → Located β
  | .ok f, .ok a => .ok (f a)
  | .ok _, .error place e => .error place e
  | .error place e, .ok _ => .error place e
  | .error place e, .error place' e' =>
    if place ≤ place' then .error place e else .error place' e'

def outcome {α : Type} : Located α → Reading α
  | .ok a => .ok a
  | .error _ e => .error e

def ofReading {α : Type} (place : Nat) : Reading α → Located α
  | .ok a => .ok a
  | .error e => .error place e

end Located

/-! ## Fields -/

structure Fields (α : Type) where
  names : List String
  read : Origin → List (String × Json) → Located α

instance : Functor Fields where
  map f x := ⟨x.names, fun o fields => (Located.ok f).both (x.read o fields)⟩

instance : Applicative Fields where
  pure a := ⟨[], fun _ _ => .ok a⟩
  seq f x := ⟨f.names ++ (x ()).names, fun o fields => (f.read o fields).both ((x ()).read o fields)⟩

/-- The value of a field and its place, counted from `place`. -/
def findField (key : String) (place : Nat) : List (String × Json) → Option (Nat × Json)
  | [] => none
  | (name, j) :: rest => if name = key then some (place, j) else findField key (place + 1) rest

/-- A field that must be there. -/
def required {α : Type} (key : String) (read : Reader α) : Fields α where
  names := [key]
  read o fields :=
    match findField key 0 fields with
    | some (place, j) => .ofReading place (read o j)
    | none => .error fields.length .shape

/-- A field with a value of its own when it is missing. -/
def defaulted {α : Type} (key : String) (default : α) (read : Reader α) : Fields α where
  names := [key]
  read o fields :=
    match findField key 0 fields with
    | some (place, j) => .ofReading place (read o j)
    | none => .ok default

/-- A field that may be missing or null. -/
def nullable {α : Type} (key : String) (read : Reader α) : Fields (Option α) :=
  defaulted key none (readOption read)

/-- The first field that stands in the way, from `place` on and with the names in `seen`
    behind us: its name cannot be read or has been seen, or no one asks for it and it does
    not `pass`. -/
def obstacle (names : List String) (pass : Json → Bool) (place : Nat) (seen : List String) :
    List (String × Json) → Located Unit
  | [] => .ok ()
  | (key, j) :: rest =>
    if j.isMisnamed then .error place .malformed
    else if names.contains key then
      if seen.contains key then .error place .shape
      else obstacle names pass (place + 1) (key :: seen) rest
    else if pass j then obstacle names pass (place + 1) seen rest
    else .error place .malformed

namespace Fields

/-- The fields of an object, where the others have to `pass`. -/
def ofObject {α : Type} (f : Fields α) (pass : Json → Bool) (o : Origin)
    (fields : List (String × Json)) : Reading α :=
  ((Located.ok fun a _ => a).both (f.read o fields)
    |>.both (obstacle f.names pass 0 [] fields)).outcome

/-- The fields of an array, in order. -/
def ofArray {α : Type} (f : Fields α) (o : Origin) (items : List Json) : Reading α :=
  let surplus : Located Unit :=
    if items.length ≤ f.names.length then .ok () else .error f.names.length o.surplus
  ((Located.ok fun a _ => a).both (f.read o (f.names.zip items)) |>.both surplus).outcome

/-- The fields of an object that has been set aside. -/
def ofAside {α : Type} (f : Fields α) (fields : List (String × Json)) : Reading α :=
  f.ofObject (fun _ => true) .aside fields

end Fields

/-! ## Records -/

def without (names : List String) (fields : List (String × Json)) : List (String × Json) :=
  fields.filter fun f => !names.contains f.1

/-- A record, with its fields by name or in order. -/
def readRecord {α : Type} (f : Fields α) : Reader α
  | o, .obj fields => do
    let o ← o.enter
    f.ofObject o.skips o fields
  | o, .arr items => do
    let o ← o.enter
    f.ofArray o items
  | _, j => mismatch j

/-- The variants of a tagged record: a word and the fields that go with it. -/
abbrev Variants (α : Type) := List (String × Fields α)

/-- The fields that a tag asks for. A tag that has been set aside may also be the number of
    its variant. -/
def readTag {α : Type} (variants : Variants α) : Reader (Fields α)
  | _, .str word =>
    match variants.lookup word with
    | some f => .ok f
    | none => .error .shape
  | .aside, .int n =>
    match if 0 ≤ n then variants[n.toNat]? else none with
    | some variant => .ok variant.2
    | none => .error .shape
  | _, j => mismatch j

/-- A record whose field `tag` says which variant it is. The tag is read where it stands
    and the other fields are set aside. In an array the tag comes first. -/
def readTagged {α : Type} (tag : String) (variants : Variants α) : Reader α
  | o, .obj fields => do
    let o ← o.enter
    let f ← (required tag (readTag variants)).ofObject o.keeps o fields
    f.ofAside (without [tag] fields)
  | o, .arr items => do
    let o ← o.enter
    match items with
    | [] => .error .shape
    | j :: rest =>
      let f ← readTag variants o j
      if rest.all o.keeps then f.ofArray .aside rest else .error .malformed
  | _, j => mismatch j

/-- An object of its `own` fields and those of a tagged record, both in one. The own fields
    are read where they stand and all others, the tag among them, are set aside. -/
def readNode {α β γ : Type} (own : Fields α) (tag : String) (variants : Variants β)
    (make : α → β → γ) : Reader γ
  | o, .obj fields => do
    let o ← o.enter
    let a ← own.ofObject o.keeps o fields
    let others := without own.names fields
    let f ← (required tag (readTag variants)).ofAside others
    return make a (← f.ofAside (without [tag] others))
  | _, j => mismatch j

end ComponentScript.Json
