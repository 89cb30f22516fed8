/-
  ComponentScript.Script.Name — member names and object keys.

  Members are written in camel case: the capitals that start a name become small, except
  the last one of an acronym, which starts the next word (`HTMLParser` is `htmlParser`, `ID`
  is `id`). Leading underscores stay.
-/

import ComponentScript.Text.Case
import ComponentScript.Text.Numeric
import ComponentScript.Script.Quoted

namespace ComponentScript.Script

open Text

def startsIdentifier (c : Char) : Bool := isAlphabetic c || c = '_' || c = '$'

def continuesIdentifier (c : Char) : Bool := isAlphanumeric c || c = '_' || c = '$'

def isIdentifier (s : String) : Bool :=
  match s.toList with
  | [] => false
  | c :: rest => startsIdentifier c && rest.all continuesIdentifier

/-- A key of an object literal: bare when it is an identifier, quoted otherwise. -/
def objectKey (key : String) : String := if isIdentifier key then key else quote key

/-- How many of `n` characters become small when the first `run` of them are capitals. -/
def smallCount (run n : Nat) : Nat := if run = n then run else max (run - 1) 1

def camelChars (cs : List Char) : List Char :=
  let rest := cs.dropWhile (· = '_')
  let run := (rest.takeWhile isUppercase).length
  if run = 0 then cs
  else
    let n := smallCount run rest.length
    cs.takeWhile (· = '_') ++ (rest.take n).flatMap toLowercase ++ rest.drop n

def camelCase (name : String) : String := String.ofList (camelChars name.toList)

end ComponentScript.Script
