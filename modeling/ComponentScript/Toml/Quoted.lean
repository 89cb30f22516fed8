/-
  ComponentScript.Toml.Quoted — strings of TOML: basic ones with escapes, literal ones
  without, and both over several lines.

  A line break right behind the opening quotes of a string over several lines is dropped,
  and every line break in it reads as a line feed. Up to two quotes may stand before its
  closing ones.
-/

import ComponentScript.Toml.Scalar

namespace ComponentScript.Toml

/-- The characters that may stand in a comment or a string: no controls but the tab. -/
def isPlainChar (c : Char) : Bool := c = '\t' || (0x20 ≤ c.toNat && c.toNat ≠ 0x7F)

def isBlank (c : Char) : Bool := c = ' ' || c = '\t'

def skipBlanks (cs : List Char) : List Char := cs.dropWhile isBlank

/-- What follows a line break. -/
def newline? : List Char → Option (List Char)
  | '\n' :: rest => some rest
  | '\r' :: '\n' :: rest => some rest
  | _ => none

/-- The text without a line break in front. -/
def dropNewline (cs : List Char) : List Char := (newline? cs).getD cs

/-- Blanks and line breaks. -/
def skipLines : List Char → List Char
  | ' ' :: rest => skipLines rest
  | '\t' :: rest => skipLines rest
  | '\n' :: rest => skipLines rest
  | '\r' :: '\n' :: rest => skipLines rest
  | cs => cs

/-- The character of a code point with exactly `n` hexadecimal digits. -/
def codePoint? (n : Nat) (cs : List Char) : Option (Char × List Char) :=
  let ds := cs.take n
  let value := ds.foldl (fun v d => v * 16 + digitValue d) 0
  if ds.length = n && ds.all isHexDigit && value.isValidChar then
    some (Char.ofNat value, cs.drop n)
  else none

/-- The character of an escape, given what follows its backslash. -/
def escape? : List Char → Option (Char × List Char)
  | 'b' :: rest => some ('\x08', rest)
  | 't' :: rest => some ('\t', rest)
  | 'n' :: rest => some ('\n', rest)
  | 'f' :: rest => some ('\x0c', rest)
  | 'r' :: rest => some ('\r', rest)
  | '\x22' :: rest => some ('\x22', rest)
  | '\x5c' :: rest => some ('\x5c', rest)
  | 'u' :: rest => codePoint? 4 rest
  | 'U' :: rest => codePoint? 8 rest
  | _ => none

/-! ## One line -/

/-- The rest of a basic string behind its opening quote. Every step reads a character, so
    the length of the text is fuel enough. -/
def basic? : Nat → List Char → Option (List Char × List Char)
  | 0, _ => none
  | _ + 1, [] => none
  | n + 1, c :: cs =>
    if c = '\x22' then some ([], cs)
    else if c = '\x5c' then do
      let (c, rest) ← escape? cs
      let (s, rest) ← basic? n rest
      return (c :: s, rest)
    else if isPlainChar c then do
      let (s, rest) ← basic? n cs
      return (c :: s, rest)
    else none

/-- The rest of a literal string behind its opening quote. -/
def literal? : List Char → Option (List Char × List Char)
  | [] => none
  | c :: cs =>
    if c = '\x27' then some ([], cs)
    else if isPlainChar c then (literal? cs).map fun (s, rest) => (c :: s, rest)
    else none

/-! ## Several lines -/

/-- The quotes that still belong to a string whose three closing quotes have been read: the
    quotes behind those, two at most. -/
def extraQuotes (q : Char) : List Char → List Char × List Char
  | c :: d :: rest =>
    if c = q then (if d = q then ([q, q], rest) else ([q], d :: rest)) else ([], c :: d :: rest)
  | [c] => if c = q then ([q], []) else ([], [c])
  | [] => ([], [])

/-- What follows a backslash at the end of a line: the break and the blanks around it are
    skipped. -/
def lineContinuation? (cs : List Char) : Option (List Char) :=
  (newline? (skipBlanks cs)).map skipLines

/-- The rest of a string over several lines behind its opening quotes `q`; basic ones have
    escapes. -/
def multiline? (q : Char) (escapes : Bool) : Nat → List Char → Option (List Char × List Char)
  | 0, _ => none
  | n + 1, cs =>
    match cs with
    | [] => none
    | c :: rest =>
      if c = q && rest.take 2 = [q, q] then some (extraQuotes q (rest.drop 2))
      else if escapes && c = '\x5c' then
        match lineContinuation? rest with
        | some rest => multiline? q escapes n rest
        | none => do
          let (c, rest) ← escape? rest
          let (s, rest) ← multiline? q escapes n rest
          return (c :: s, rest)
      else
        match newline? cs with
        | some rest => (multiline? q escapes n rest).map fun (s, rest) => ('\n' :: s, rest)
        | none =>
          if isPlainChar c then (multiline? q escapes n rest).map fun (s, rest) => (c :: s, rest)
          else none

/-! ## Any string -/

/-- A string on one line. -/
def shortString? : List Char → Option (List Char × List Char)
  | '\x22' :: rest => basic? rest.length rest
  | '\x27' :: rest => literal? rest
  | _ => none

def string? : List Char → Option (List Char × List Char)
  | '\x22' :: '\x22' :: '\x22' :: rest => multiline? '\x22' true (rest.length + 1) (dropNewline rest)
  | '\x27' :: '\x27' :: '\x27' :: rest => multiline? '\x27' false (rest.length + 1) (dropNewline rest)
  | cs => shortString? cs

end ComponentScript.Toml
