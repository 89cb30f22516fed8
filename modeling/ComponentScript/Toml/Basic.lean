/-
  ComponentScript.Toml.Basic — TOML values, and tables that grow line by line.

  A table can come into being in four ways, and what may be added to it later depends on
  which: a header opens a table once, the tables on the path of a header may still be
  opened by one, the tables on a dotted key may be extended by dotted keys, and an inline
  table is complete as it stands.
-/

namespace ComponentScript

inductive TableOrigin where
  | header
  /-- On the path of a header. -/
  | implied
  /-- On a dotted key. -/
  | dotted
  | inline
  deriving DecidableEq

inductive Toml where
  | string (s : String)
  | integer (n : Int)
  | float (literal : String)
  | boolean (b : Bool)
  | datetime (literal : String)
  | array (items : List Toml)
  | table (origin : TableOrigin) (entries : List (String × Toml))
  /-- An array of tables, opened by headers of its own. -/
  | tables (items : List (List (String × Toml)))

namespace Toml

abbrev Entries := List (String × Toml)

def Entries.get? (es : Entries) (key : String) : Option Toml := es.lookup key

/-- The entries with a new value for a key; a new key goes to the end. -/
def Entries.set (es : Entries) (key : String) (value : Toml) : Entries :=
  match es with
  | [] => [(key, value)]
  | e :: rest => if e.1 = key then (key, value) :: rest else e :: set rest key value

/-- Changes the last of some tables. -/
def changeLast (change : Entries → Option Entries) : List Entries → Option (List Entries)
  | [] => none
  | [es] => (change es).map fun es => [es]
  | es :: rest => (changeLast change rest).map (es :: ·)

/-- Changes the table that a header's path leads to. Missing tables are implied; of an array
    of tables the last is meant. -/
def changeAt (change : Entries → Option Entries) : List String → Entries → Option Entries
  | [], es => change es
  | key :: path, es =>
    match es.get? key with
    | none => (changeAt change path []).map fun inner => es.set key (.table .implied inner)
    | some (.table .inline _) => none
    | some (.table origin inner) =>
      (changeAt change path inner).map fun inner => es.set key (.table origin inner)
    | some (.tables items) =>
      (changeLast (changeAt change path) items).map fun items => es.set key (.tables items)
    | some _ => none

/-- Opens a table by its header: it must be new, or so far only implied. -/
def openTable (key : String) (es : Entries) : Option Entries :=
  match es.get? key with
  | none => some (es.set key (.table .header []))
  | some (.table .implied inner) => some (es.set key (.table .header inner))
  | some _ => none

/-- Opens the next table of an array of tables. -/
def openNext (key : String) (es : Entries) : Option Entries :=
  match es.get? key with
  | none => some (es.set key (.tables [[]]))
  | some (.tables items) => some (es.set key (.tables (items ++ [[]])))
  | some _ => none

/-- Adds a value under a dotted key. The table it ends up in must be made by dotted keys;
    on the way there, implied tables and arrays of tables may be passed. -/
def put (last : String) (value : Toml) : List String → Entries → Option Entries
  | [], es => if (es.get? last).isSome then none else some (es.set last value)
  | key :: path, es =>
    match es.get? key with
    | none => (put last value path []).map fun inner => es.set key (.table .dotted inner)
    | some (.table .dotted inner) =>
      (put last value path inner).map fun inner => es.set key (.table .dotted inner)
    | some (.table .implied inner) =>
      if path.isEmpty then none
      else (put last value path inner).map fun inner => es.set key (.table .implied inner)
    | some (.tables items) =>
      if path.isEmpty then none
      else (changeLast (put last value path) items).map fun items => es.set key (.tables items)
    | some _ => none

/-! ## Documents -/

/-- A key: the names before its last one, and the last. -/
structure Key where
  path : List String
  last : String

inductive Line where
  | header (key : Key)
  | nextHeader (key : Key)
  | entry (key : Key) (value : Toml)

/-- The tables so far, and the path of the open one. -/
structure Document where
  entries : Entries := []
  current : List String := []

def Document.add (d : Document) : Line → Option Document
  | .header key =>
    (changeAt (openTable key.last) key.path d.entries).map fun es => ⟨es, key.path ++ [key.last]⟩
  | .nextHeader key =>
    (changeAt (openNext key.last) key.path d.entries).map fun es => ⟨es, key.path ++ [key.last]⟩
  | .entry key value =>
    (changeAt (put key.last value key.path) d.current d.entries).map fun es => ⟨es, d.current⟩

/-- The entries of a document, unless two of its lines contradict each other. -/
def ofLines (lines : List Line) : Option Entries :=
  (lines.foldlM Document.add {}).map (·.entries)

/-- The entries of an inline table. -/
def ofPairs (pairs : List (Key × Toml)) : Option Entries :=
  pairs.foldlM (fun es p => put p.1.last p.2 p.1.path es) []

end Toml

end ComponentScript
