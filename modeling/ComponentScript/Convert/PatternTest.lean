/-
  ComponentScript.Convert.PatternTest — patterns as boolean expressions over a subject.

  The subject may occur several times in a test. A test of an operand that could have side
  effects and would be mentioned twice binds it once, through an arrow function.
-/

import ComponentScript.Convert.Call
import ComponentScript.Convert.Converter
import ComponentScript.Script.Name

namespace ComponentScript

open Text

/-- Whether a value is of a type: primitive types have a name in the script, anything but
    null is an object, and the rest are instances. -/
def typeTest (subject : String) (type : TypeRef) : String :=
  let name := type.simpleName
  match Category.ofName name with
  | .string => s!"typeof {subject} === \"string\""
  | .number => s!"typeof {subject} === \"number\""
  | .bool => s!"typeof {subject} === \"boolean\""
  | _ =>
    if name = "object" || name = "Object" then s!"{subject} != null"
    else s!"{subject} instanceof {name}"

/-- A member of the subject, by a dotted path of member names. -/
def memberPath (subject path : String) : String :=
  let names := (splitOn '.' path.toList).map fun part => Script.camelCase (String.ofList part)
  subject ++ "." ++ ".".intercalate names

def Pattern.isNull : Pattern → Bool
  | .constant value => value.isNull
  | _ => false

namespace Converter

variable (k : Converter)

mutual
/-- A boolean expression that tests `subject` against a pattern. -/
def patternTest (subject : String) : Pattern → Emit String
  | .discard => return "true"
  | .constant value =>
    if value.isNull then return s!"{subject} == null"
    else do
      let text ← k.expr value
      return s!"{subject} === {text}"
  | .relational op value => do
    let text ← k.expr value
    return s!"{subject} {op.symbol} {text}"
  | .type type => return typeTest subject type
  | .property type? subpatterns => do
    let members ← memberTests subject subpatterns
    let tests := (type?.map (typeTest subject)).toList ++ members.filter (· ≠ "true")
    return if tests.isEmpty then s!"{subject} != null" else " && ".intercalate tests
  | .not pattern =>
    if pattern.isNull then return s!"{subject} != null"
    else do
      let test ← patternTest subject pattern
      return s!"!({test})"
  | .and left right => do
    let l ← patternTest subject left
    let r ← patternTest subject right
    return s!"{l} && {r}"
  | .or left right => do
    let l ← patternTest subject left
    let r ← patternTest subject right
    return s!"({l} || {r})"
def memberTest (subject : String) : Subpattern → Emit String
  | ⟨name, pattern⟩ => patternTest (memberPath subject name) pattern
/-- The tests of the members of `subject`, in order. -/
def memberTests (subject : String) : List Subpattern → Emit (List String)
  | [] => return []
  | p :: ps => do
    let test ← memberTest subject p
    return test :: (← memberTests subject ps)
end

end Converter

mutual
/-- How often a test of the pattern can mention its subject. -/
def Pattern.subjectUses : Pattern → Nat
  | .discard => 0
  | .constant _ | .relational .. | .type _ => 1
  | .property type? subpatterns =>
    max ((if type?.isSome then 1 else 0) + subjectUsesList subpatterns) 1
  | .not pattern => pattern.subjectUses
  | .and left right => left.subjectUses + right.subjectUses
  | .or left right => left.subjectUses + right.subjectUses
def Subpattern.subjectUses : Subpattern → Nat
  | ⟨_, pattern⟩ => pattern.subjectUses
def subjectUsesList : List Subpattern → Nat
  | [] => 0
  | p :: ps => p.subjectUses + subjectUsesList ps
end

namespace Converter

variable (k : Converter)

/-- `operand is pattern` -/
def isTest (operand : Expr) (pattern : Pattern) : Emit String :=
  if operand.isPlain || pattern.subjectUses ≤ 1 then do
    let subject ← k.operand operand
    k.patternTest subject pattern
  else do
    let value ← k.expr operand
    let subject ← Emit.freshName "is"
    let test ← k.patternTest subject pattern
    return s!"(({subject}) => {test})({value})"

/-- A pattern test together with its guard. -/
def guarded (test : String) (guard? : Option String) : String :=
  match guard? with
  | none => test
  | some guard => if test = "true" then guard else s!"{test} && {Script.operand guard}"

end Converter

end ComponentScript
