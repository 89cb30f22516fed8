/-
  ComponentScript.Json.Grammar — JSON text, read to a value.

  The grammar is RFC 8259: no comments, no trailing commas, no raw controls in strings.
  Reading never fails as a whole: where the text goes wrong the value has a `cut`, and a
  literal without a value is `loose`. How deep a text may nest is for the reader of the
  value to say.
-/

import ComponentScript.Json.Reading
import ComponentScript.Text.Decimal

namespace ComponentScript.Json

open Text

def isSpace (c : Char) : Bool := c = ' ' || c = '\n' || c = '\t' || c = '\r'

def skipSpace (cs : List Char) : List Char := cs.dropWhile isSpace

/-- What follows `word` if the text starts with it. -/
def afterWord : List Char → List Char → Option (List Char)
  | [], cs => some cs
  | w :: ws, c :: cs => if w = c then afterWord ws cs else none
  | _ :: _, [] => none

/-! ## Strings -/

def hexDigit? (c : Char) : Option Nat :=
  if c.isDigit then some (c.toNat - 48)
  else if 'a' ≤ c && c ≤ 'f' then some (c.toNat - 87)
  else if 'A' ≤ c && c ≤ 'F' then some (c.toNat - 55)
  else none

/-- Four hexadecimal digits and what follows them. -/
def hex4? : List Char → Option (Nat × List Char)
  | a :: b :: c :: d :: rest => do
    let a ← hexDigit? a
    let b ← hexDigit? b
    let c ← hexDigit? c
    let d ← hexDigit? d
    return (((a * 16 + b) * 16 + c) * 16 + d, rest)
  | _ => none

def isHighSurrogate (n : Nat) : Bool := 0xD800 ≤ n && n ≤ 0xDBFF

def isLowSurrogate (n : Nat) : Bool := 0xDC00 ≤ n && n ≤ 0xDFFF

/-- The code of an escape, given what follows its backslash. A `u` escape may name a
    surrogate. -/
def escape? : List Char → Option (Nat × List Char)
  | '\x22' :: rest => some (0x22, rest)
  | '\x5c' :: rest => some (0x5C, rest)
  | '/' :: rest => some (0x2F, rest)
  | 'b' :: rest => some (0x08, rest)
  | 'f' :: rest => some (0x0C, rest)
  | 'n' :: rest => some (0x0A, rest)
  | 'r' :: rest => some (0x0D, rest)
  | 't' :: rest => some (0x09, rest)
  | 'u' :: rest => hex4? rest
  | _ => none

/-- The codes of a string after its opening quote, and what follows its closing one. Every
    step reads a character, so the length of the text is fuel enough. -/
def stringCodes : Nat → List Char → Option (List Nat × List Char)
  | _, [] => none
  | 0, _ => none
  | n + 1, c :: cs =>
    if c = '\x22' then some ([], cs)
    else if c = '\x5c' then do
      let (code, rest) ← escape? cs
      let (codes, rest) ← stringCodes n rest
      return (code :: codes, rest)
    else if c.toNat < 0x20 then none
    else do
      let (codes, rest) ← stringCodes n cs
      return (c.toNat :: codes, rest)

/-- The characters of some codes: a high and a low surrogate in a row make one, and no
    surrogate stands alone. -/
def paired? : List Nat → Option (List Char)
  | [] => some []
  | n :: rest =>
    if isHighSurrogate n then
      match rest with
      | m :: rest =>
        if isLowSurrogate m then
          (paired? rest).map (Char.ofNat (0x10000 + (n - 0xD800) * 0x400 + (m - 0xDC00)) :: ·)
        else none
      | [] => none
    else if isLowSurrogate n then none
    else (paired? rest).map (Char.ofNat n :: ·)

/-- A string after its opening quote, if it can be read, and what follows it. -/
def string? (cs : List Char) : Option (Option String × List Char) := do
  let (codes, rest) ← stringCodes cs.length cs
  return ((paired? codes).map String.ofList, rest)

/-! ## Numbers -/

/-- Some digits and what follows them. -/
def digits? (cs : List Char) : Option (List Char × List Char) :=
  match cs.takeWhile Char.isDigit with
  | [] => none
  | ds => some (ds, cs.dropWhile Char.isDigit)

/-- The whole part of a number: it has no zero in front. -/
def wholePart? : List Char → Option (List Char × List Char)
  | '0' :: rest => if (rest.head?.any Char.isDigit) then none else some (['0'], rest)
  | cs => digits? cs

def fraction? : List Char → Option (List Char × List Char)
  | '.' :: rest => digits? rest
  | cs => some ([], cs)

/-- The exponent, with a missing one as no digits. -/
def exponent? : List Char → Option (Bool × List Char × List Char)
  | c :: rest =>
    if c = 'e' || c = 'E' then
      match rest with
      | '+' :: rest => (digits? rest).map fun (ds, r) => (false, ds, r)
      | '-' :: rest => (digits? rest).map fun (ds, r) => (true, ds, r)
      | _ => (digits? rest).map fun (ds, r) => (false, ds, r)
    else some (false, [], c :: rest)
  | [] => some (false, [], [])

/-- A number and what follows it. -/
def number? (cs : List Char) : Option (Json × List Char) := do
  let (negative, body) := match cs with
    | '-' :: rest => (true, rest)
    | _ => (false, cs)
  let (ds, rest) ← wholePart? body
  let (fs, rest) ← fraction? rest
  let (down, es, rest) ← exponent? rest
  let literal := String.ofList (cs.take (cs.length - rest.length))
  let n := digitsValue ds
  if fs.isEmpty && es.isEmpty && !negative && n < 18446744073709551616 then return (.int n, rest)
  else if fs.isEmpty && es.isEmpty && negative && 0 < n && n ≤ 9223372036854775808 then
    return (.int (-n), rest)
  else
    let power : Int := digitsValue es
    let scale : Int := (if down then -power else power) - fs.length
    if exceedsDouble (digitsValue (ds ++ fs)) scale then return (.loose, rest)
    else return (.real literal, rest)

/-! ## Values -/

/-- What is left after a value, unless the text went wrong inside it. -/
abbrev Rest := Option (List Char)

/-- A literal word whose first letter has been read. -/
def word (j : Json) (letters rest : List Char) : Json × Rest :=
  match afterWord letters rest with
  | some rest => (j, some rest)
  | none => (.cut, none)

/-- A number or a literal word. -/
def bare : List Char → Json × Rest
  | 'n' :: rest => word .null ['u', 'l', 'l'] rest
  | 't' :: rest => word (.bool true) ['r', 'u', 'e'] rest
  | 'f' :: rest => word (.bool false) ['a', 'l', 's', 'e'] rest
  | cs =>
    match number? cs with
    | some (j, rest) => (j, some rest)
    | none => (.cut, none)

/-- The start of a field, up to its colon. -/
inductive FieldStart where
  /-- A name, unless it cannot be read, and what follows the colon. -/
  | named (key? : Option String) (rest : List Char)
  /-- The field that the text goes wrong in. -/
  | broken (key : String) (j : Json)

/-- The field of a text with no string where a name should stand. -/
def nameless : List Char → FieldStart
  | '[' :: _ | '\x7b' :: _ => .broken "" .unnamed
  | cs =>
    match bare cs with
    | (.cut, _) | (.loose, _) => .broken "" (.misnamed .cut)
    | _ => .broken "" .unnamed

def fieldStart (cs : List Char) : FieldStart :=
  match skipSpace cs with
  | '\x22' :: rest =>
    match string? rest with
    | none => .broken "" (.misnamed .cut)
    | some (key?, rest) =>
      match skipSpace rest, key? with
      | ':' :: rest, key? => .named key? rest
      | _, some key => .broken key .cut
      | _, none => .broken "" (.misnamed .cut)
  | cs => nameless cs

/-- A field with its value; a name that cannot be read is left empty. -/
def fieldOf : Option String → Json → String × Json
  | some key, j => (key, j)
  | none, j => ("", .misnamed j)

mutual
def value : Nat → List Char → Json × Rest
  | 0, _ => (.cut, none)
  | n + 1, cs =>
    match skipSpace cs with
    | '\x22' :: rest =>
      match string? rest with
      | some (some s, rest) => (.str s, some rest)
      | some (none, rest) => (.loose, some rest)
      | none => (.cut, none)
    | '[' :: rest =>
      match skipSpace rest with
      | ']' :: rest => (.arr [], some rest)
      | rest => let (items, r) := items n rest; (.arr items, r)
    | '\x7b' :: rest =>
      match skipSpace rest with
      | '\x7d' :: rest => (.obj [], some rest)
      | rest => let (fields, r) := fields n rest; (.obj fields, r)
    | cs => bare cs
/-- The items of an array, up to its closing bracket. -/
def items : Nat → List Char → List Json × Rest
  | 0, _ => ([.cut], none)
  | n + 1, cs =>
    match value n cs with
    | (j, none) => ([j], none)
    | (j, some rest) =>
      match skipSpace rest with
      | ',' :: rest => let (js, r) := items n rest; (j :: js, r)
      | ']' :: rest => ([j], some rest)
      | _ => ([j, .cut], none)
/-- The fields of an object, up to its closing brace. -/
def fields : Nat → List Char → List (String × Json) × Rest
  | 0, _ => ([("", .misnamed .cut)], none)
  | n + 1, cs =>
    match fieldStart cs with
    | .broken key j => ([(key, j)], none)
    | .named key? rest =>
      match value n rest with
      | (j, none) => ([fieldOf key? j], none)
      | (j, some rest) =>
        match skipSpace rest with
        | ',' :: rest => let (fs, r) := fields n rest; (fieldOf key? j :: fs, r)
        | '\x7d' :: rest => ([fieldOf key? j], some rest)
        | _ => ([fieldOf key? j, ("", .misnamed .cut)], none)
end

/-- The value of a text, and whether nothing but white space follows it. Every second level
    of the reader reads a character or ends, so twice the length of the text is fuel
    enough. -/
def readText (text : String) : Json × Bool :=
  let cs := text.toList
  match value (2 * cs.length + 2) cs with
  | (j, some rest) => (j, (skipSpace rest).isEmpty)
  | (j, none) => (j, true)

/-- The deepest nesting of objects and arrays that a text may have where it is read. -/
def maxDepth : Nat := 127

/-- Reads a text as a whole: a fault of the value counts before one behind it. -/
def readWhole {α : Type} (read : Reader α) (text : String) : Reading α := do
  let (j, ended) := readText text
  let a ← read (.text maxDepth) j
  if ended then return a else .error .malformed

end ComponentScript.Json
