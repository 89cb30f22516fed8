/-
  ComponentScript.Model.Symbol — what the front end knows about a node: the symbol it
  resolves to and its type.
-/

import ComponentScript.Model.Category
import ComponentScript.Syntax.Decode
import ComponentScript.Syntax.Encode

namespace ComponentScript

open Json

inductive SymbolKind where
  | local_
  | parameter
  | field
  | property
  | method
  | event
  | type
  | namespace_
  deriving DecidableEq

namespace SymbolKind

def all : List SymbolKind :=
  [.local_, .parameter, .field, .property, .method, .event, .type, .namespace_]

def word : SymbolKind → String
  | .local_ => "local" | .parameter => "parameter" | .field => "field" | .property => "property"
  | .method => "method" | .event => "event" | .type => "type" | .namespace_ => "namespace"

/-- Whether such a symbol is reached through the component instance. -/
def isInstanceMember (k : SymbolKind) : Bool :=
  k = .field || k = .property || k = .method || k = .event

/-- Whether such a symbol is a type or a namespace, not a value. -/
def isStatic (k : SymbolKind) : Bool := k = .type || k = .namespace_

def read : Reader SymbolKind := readWord all word

end SymbolKind

/-- A resolved type, with the qualified names of what it implements. -/
structure TypeInfo where
  name : String
  args : List TypeInfo := []
  implements : List String := []

namespace TypeInfo

def named (name : String) : TypeInfo := ⟨name, [], []⟩

def simpleName (t : TypeInfo) : String := simpleTypeName t.name

/-- The family of the type, else the first family among the types it implements. -/
def category (t : TypeInfo) : Category :=
  ((t.name :: t.implements).map fun n => Category.ofName (simpleTypeName n)).find? (· ≠ .other)
    |>.getD .other

mutual
def toJson : TypeInfo → Json
  | ⟨name, args, implements⟩ =>
    .obj (("name", .str name) :: (fieldIf (!args.isEmpty) "args" (.arr (toJsonList args))
      ++ fieldIf (!implements.isEmpty) "implements" (.arr (implements.map .str))))
def toJsonList : List TypeInfo → List Json
  | [] => []
  | t :: ts => t.toJson :: toJsonList ts
end

end TypeInfo

def readTypeInfo : Nat → Reader TypeInfo
  | 0 => fun _ _ => .error .shape
  | n + 1 => readRecord (
      TypeInfo.mk <$> required "name" readString
        <*> defaulted "args" [] (readList (readTypeInfo n))
        <*> defaulted "implements" [] (readList readString))

def TypeInfo.read : Reader TypeInfo := fun o j => readTypeInfo j.depth o j

structure SymbolInfo where
  name : String
  kind : SymbolKind
  /-- The qualified name of the type that declares a member. -/
  containingType? : Option String := none
  /-- The type of a variable, the result type of a method. -/
  type? : Option TypeInfo := none

namespace SymbolInfo

def toJson (s : SymbolInfo) : Json :=
  .obj [("name", .str s.name), ("kind", .str s.kind.word),
    ("containing_type", optionJson Json.str s.containingType?),
    ("ty", optionJson TypeInfo.toJson s.type?)]

def read : Reader SymbolInfo :=
  readRecord (
    SymbolInfo.mk <$> required "name" readString
      <*> required "kind" SymbolKind.read
      <*> nullable "containing_type" readString
      <*> nullable "ty" TypeInfo.read)

end SymbolInfo

end ComponentScript
