/-
  ComponentScript.Toml.Reader — TOML text, read to the entries of its root table.

  The grammar is that of version 1.0. Arrays and inline tables nest less than `maxDepth`
  deep, and a key has fewer names than that.
-/

import ComponentScript.Toml.Quoted

namespace ComponentScript.Toml

/-- The nesting and the length of keys at which reading stops. -/
def maxDepth : Nat := 80

/-! ## Between values -/

/-- What follows a comment, if there is one. A comment ends before its line break. -/
def skipComment : List Char → List Char
  | '#' :: rest => rest.dropWhile isPlainChar
  | cs => cs

/-- What follows the end of a line: blanks, a comment, and a line break or the end. -/
def lineEnd? (cs : List Char) : Option (List Char) :=
  match skipComment (skipBlanks cs) with
  | [] => some []
  | rest => newline? rest

/-- Blanks, comments and line breaks between the values of an array. -/
def skipGaps : Nat → List Char → List Char
  | 0, cs => cs
  | n + 1, cs =>
    match newline? (skipComment (skipBlanks cs)) with
    | some rest => skipGaps n rest
    | none => skipBlanks cs

def skipGap (cs : List Char) : List Char := skipGaps cs.length cs

/-! ## Keys -/

def isKeyChar (c : Char) : Bool := c.isAlphanum || c = '-' || c = '_'

/-- One name of a key. -/
def name? (cs : List Char) : Option (String × List Char) :=
  match shortString? cs with
  | some (s, rest) => some (String.ofList s, rest)
  | none =>
    match cs.takeWhile isKeyChar with
    | [] => none
    | s => some (String.ofList s, cs.dropWhile isKeyChar)

/-- The names of a key, with blanks around them. -/
def names? : Nat → List Char → Option (List String × List Char)
  | 0, _ => none
  | n + 1, cs => do
    let (name, rest) ← name? (skipBlanks cs)
    match skipBlanks rest with
    | '.' :: rest =>
      let (names, rest) ← names? n rest
      return (name :: names, rest)
    | rest => return ([name], rest)

def key? (cs : List Char) : Option (Key × List Char) := do
  let (names, rest) ← names? (maxDepth - 1) cs
  match names.getLast? with
  | none => none
  | some last => return (⟨names.dropLast, last⟩, rest)

/-! ## Values -/

mutual
/-- A value, with at most `room` levels of nesting below this point. Every level of the
    reader reads a character or ends. -/
def value? : Nat → Nat → List Char → Option (Toml × List Char)
  | 0, _, _ => none
  | n + 1, room, cs =>
    match cs with
    | '[' :: rest =>
      if room = 0 then none
      else (items? n (room - 1) (skipGap rest)).map fun (items, rest) => (.array items, rest)
    | '\x7b' :: rest =>
      if room = 0 then none
      else do
        let (pairs, rest) ← match skipBlanks rest with
          | '\x7d' :: rest => some ([], rest)
          | rest => pairs? n (room - 1) rest
        let entries ← ofPairs pairs
        return (.table .inline entries, rest)
    | _ =>
      match cs.head? with
      | some '\x22' | some '\x27' =>
        (string? cs).map fun (s, rest) => (.string (String.ofList s), rest)
      | _ => scalar? cs
/-- The values of an array, up to its closing bracket; a comma may stand before it. -/
def items? : Nat → Nat → List Char → Option (List Toml × List Char)
  | 0, _, _ => none
  | n + 1, room, cs =>
    match cs with
    | ']' :: rest => some ([], rest)
    | _ => do
      let (v, rest) ← value? n room cs
      match skipGap rest with
      | ',' :: rest =>
        let (vs, rest) ← items? n room (skipGap rest)
        return (v :: vs, rest)
      | ']' :: rest => return ([v], rest)
      | _ => none
/-- The entries of an inline table, up to its closing brace. -/
def pairs? : Nat → Nat → List Char → Option (List (Key × Toml) × List Char)
  | 0, _, _ => none
  | n + 1, room, cs => do
    let (key, rest) ← key? cs
    let rest ← after? '=' rest
    let (v, rest) ← value? n room (skipBlanks rest)
    match skipBlanks rest with
    | ',' :: rest =>
      let (ps, rest) ← pairs? n room rest
      return ((key, v) :: ps, rest)
    | '\x7d' :: rest => return ([(key, v)], rest)
    | _ => none
end

/-! ## Lines -/

/-- The line that a text starts with, up to its end. -/
def line? (cs : List Char) : Option (Line × List Char) :=
  match cs with
  | '[' :: '[' :: rest => do
    let (key, rest) ← key? rest
    let rest ← lineEnd? (← after? ']' (← after? ']' rest))
    return (.nextHeader key, rest)
  | '[' :: rest => do
    let (key, rest) ← key? rest
    let rest ← lineEnd? (← after? ']' rest)
    return (.header key, rest)
  | _ => do
    let (key, rest) ← key? cs
    let rest ← after? '=' rest
    let (v, rest) ← value? (2 * cs.length + 2) (maxDepth - 1) (skipBlanks rest)
    return (.entry key v, ← lineEnd? rest)

/-- The lines of a text that hold something. Every line has a character. -/
def lines? : Nat → List Char → Option (List Line)
  | 0, cs => if cs.isEmpty then some [] else none
  | n + 1, cs =>
    match skipBlanks cs with
    | [] => some []
    | rest =>
      match lineEnd? rest with
      | some rest => lines? n rest
      | none => do
        let (line, rest) ← line? rest
        let lines ← lines? n rest
        return line :: lines

/-- The root table of a text. A byte order mark in front is skipped. -/
def ofText? (text : String) : Option Entries := do
  let cs := match text.toList with
    | '\ufeff' :: rest => rest
    | cs => cs
  ofLines (← lines? cs.length cs)

end ComponentScript.Toml
