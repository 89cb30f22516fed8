/-
  ComponentScript.Syntax.TypeRef — types as they are written: `Map<string, int>`, `int[]`,
  `Shape?`.
-/

import ComponentScript.Text.Dotted
import ComponentScript.Text.Lines

namespace ComponentScript

open Text

/-- Drops every array rank from a reversed name. -/
def dropRanks : List Char → List Char
  | ']' :: '[' :: rest => dropRanks rest
  | cs => cs

/-- A type name without qualification, generic arity and array ranks. -/
def simpleTypeName (name : String) : String :=
  String.ofList (beforeFirst '\x60' (afterLast '.' (dropRanks name.toList.reverse).reverse))

structure TypeRef where
  name : String
  args : List TypeRef := []
  nullable : Bool := false

namespace TypeRef

def simpleName (t : TypeRef) : String := simpleTypeName t.name

def isArray (t : TypeRef) : Bool := t.name.endsWith "[]"

mutual
/-- The type as it is written. -/
def text : TypeRef → String
  | ⟨name, args, nullable⟩ =>
    name ++ (if args.isEmpty then "" else "<" ++ commaList (textList args) ++ ">")
      ++ (if nullable then "?" else "")
def textList : List TypeRef → List String
  | [] => []
  | t :: ts => text t :: textList ts
end

end TypeRef

end ComponentScript
