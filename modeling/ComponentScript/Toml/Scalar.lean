/-
  ComponentScript.Toml.Scalar — numbers, booleans and dates of TOML.

  A word is cut off first and classified as a whole.
-/

import ComponentScript.Text.Decimal
import ComponentScript.Toml.Basic

namespace ComponentScript.Toml

open Text

/-- The digits of a number, without the single underscores between them. -/
def ungroup (isDigit : Char → Bool) : List Char → Option (List Char)
  | [] => none
  | [c] => if isDigit c then some [c] else none
  | c :: '_' :: rest => if isDigit c then (ungroup isDigit rest).map (c :: ·) else none
  | c :: rest => if isDigit c then (ungroup isDigit rest).map (c :: ·) else none

/-- A sign in front of a number, and the number. -/
def splitSign : List Char → Bool × List Char
  | '+' :: rest => (false, rest)
  | '-' :: rest => (true, rest)
  | cs => (false, cs)

/-- Decimal digits without a zero in front. -/
def decimal? (cs : List Char) : Option (List Char) :=
  match ungroup Char.isDigit cs with
  | some ('0' :: _ :: _) => none
  | ds => ds

/-! ## Integers -/

def isHexDigit (c : Char) : Bool :=
  c.isDigit || ('a' ≤ c && c ≤ 'f') || ('A' ≤ c && c ≤ 'F')

def digitValue (c : Char) : Nat :=
  if c.isDigit then c.toNat - 48
  else if 'a' ≤ c then c.toNat - 87
  else c.toNat - 55

/-- A signed 64-bit integer. -/
def int64? (n : Int) : Option Toml :=
  if -9223372036854775808 ≤ n && n < 9223372036854775808 then some (.integer n) else none

def radix? (base : Nat) (isDigit : Char → Bool) (cs : List Char) : Option Toml := do
  let ds ← ungroup isDigit cs
  int64? (ds.foldl (fun n d => n * base + digitValue d) 0 : Nat)

def integer? (cs : List Char) : Option Toml :=
  match cs with
  | '0' :: 'x' :: rest => radix? 16 isHexDigit rest
  | '0' :: 'o' :: rest => radix? 8 (fun c => '0' ≤ c && c ≤ '7') rest
  | '0' :: 'b' :: rest => radix? 2 (fun c => c = '0' || c = '1') rest
  | _ => do
    let (negative, body) := splitSign cs
    let ds ← decimal? body
    let n : Int := digitsValue ds
    int64? (if negative then -n else n)

/-! ## Floats -/

def isExponentMark (c : Char) : Bool := c = 'e' || c = 'E'

/-- An exponent behind its mark. -/
def exponentOf? (cs : List Char) : Option Int := do
  let (negative, body) := splitSign cs
  let ds ← ungroup Char.isDigit body
  let n : Int := digitsValue ds
  return if negative then -n else n

/-- The fraction and the exponent of a float; one of them must be there. -/
def fractionExponent? (cs : List Char) : Option (List Char × Int) :=
  match cs with
  | '.' :: rest => do
    let fraction ← ungroup Char.isDigit (rest.takeWhile (!isExponentMark ·))
    match rest.dropWhile (!isExponentMark ·) with
    | [] => return (fraction, 0)
    | _ :: e => return (fraction, ← exponentOf? e)
  | c :: e => if isExponentMark c then (exponentOf? e).map fun n => ([], n) else none
  | [] => none

/-- A float; a positive one may not be too large for a double. -/
def float? (cs : List Char) : Option Toml := do
  let (negative, body) := splitSign cs
  let literal := Toml.float (String.ofList cs)
  if body = "inf".toList || body = "nan".toList then return literal
  else
    let isWhole (c : Char) : Bool := c ≠ '.' && !isExponentMark c
    let ds ← decimal? (body.takeWhile isWhole)
    let (fraction, e) ← fractionExponent? (body.dropWhile isWhole)
    if !negative && exceedsDouble (digitsValue (ds ++ fraction)) (e - fraction.length) then none
    else return literal

/-! ## Dates and times -/

/-- A number of exactly `n` digits between two bounds, and what follows it. -/
def fixed? (n low high : Nat) (cs : List Char) : Option (Nat × List Char) :=
  let ds := cs.take n
  let value := digitsValue ds
  if ds.length = n && ds.all Char.isDigit && low ≤ value && value ≤ high then
    some (value, cs.drop n)
  else none

def after? (c : Char) : List Char → Option (List Char)
  | d :: rest => if c = d then some rest else none
  | [] => none

def isLeapYear (year : Nat) : Bool := year % 4 = 0 && (year % 100 ≠ 0 || year % 400 = 0)

def daysIn (year month : Nat) : Nat :=
  if month = 2 then (if isLeapYear year then 29 else 28)
  else if month = 4 || month = 6 || month = 9 || month = 11 then 30
  else 31

/-- What follows a date. -/
def date? (cs : List Char) : Option (List Char) := do
  let (year, rest) ← fixed? 4 0 9999 cs
  let (month, rest) ← fixed? 2 1 12 (← after? '-' rest)
  let (_, rest) ← fixed? 2 1 (daysIn year month) (← after? '-' rest)
  return rest

/-- What follows a time; a minute may have a leap second. -/
def time? (cs : List Char) : Option (List Char) := do
  let (_, rest) ← fixed? 2 0 23 cs
  let (_, rest) ← fixed? 2 0 59 (← after? ':' rest)
  let (_, rest) ← fixed? 2 0 60 (← after? ':' rest)
  match rest with
  | '.' :: fraction =>
    if (fraction.takeWhile Char.isDigit).isEmpty then none
    else return fraction.dropWhile Char.isDigit
  | _ => return rest

/-- Whether a text is an offset from universal time, or nothing. -/
def isOffset : List Char → Bool
  | [] | ['Z'] | ['z'] => true
  | c :: rest =>
    (c = '+' || c = '-') &&
      (do
        let (_, rest) ← fixed? 2 0 23 rest
        let (_, rest) ← fixed? 2 0 59 (← after? ':' rest)
        return rest.isEmpty : Option Bool).getD false

/-- Whether a word is a time with an optional offset. -/
def isTimeOffset (cs : List Char) : Bool := (time? cs).any isOffset

/-- Whether a word is a date, a date with a time, or a time. -/
def isDatetime (cs : List Char) : Bool :=
  (time? cs).any List.isEmpty ||
    match date? cs with
    | none => false
    | some [] => true
    | some (c :: rest) => (c = 'T' || c = 't') && isTimeOffset rest

/-! ## Words -/

def isWordChar (c : Char) : Bool :=
  c.isAlphanum || c = '+' || c = '-' || c = '_' || c = '.' || c = ':'

/-- The value of a word. -/
def word? (cs : List Char) : Option Toml :=
  if cs = "true".toList then some (.boolean true)
  else if cs = "false".toList then some (.boolean false)
  else if isDatetime cs then some (.datetime (String.ofList cs))
  else float? cs <|> integer? cs

/-- A word and what follows it. A blank may stand between a date and its time. -/
def scalar? (cs : List Char) : Option (Toml × List Char) :=
  let word := cs.takeWhile isWordChar
  let rest := cs.dropWhile isWordChar
  match date? word, rest with
  | some [], ' ' :: rest' =>
    let time := rest'.takeWhile isWordChar
    if isTimeOffset time then
      some (.datetime (String.ofList (word ++ ' ' :: time)), rest'.dropWhile isWordChar)
    else some (.datetime (String.ofList word), rest)
  | _, _ => (word? word).map fun v => (v, rest)

end ComponentScript.Toml
