/-
  ComponentScript.Model.Category — the families of types that conversion rules look at.

  A family is known by the simple names of its types. No name is in two families.
-/

namespace ComponentScript

inductive Category where
  | map
  | set
  | list
  /-- Lazy or abstract sequences. -/
  | sequence
  | console
  | task
  | math
  | string
  | number
  | bool
  | other
  deriving DecidableEq

namespace Category

/-- The type names of each family. -/
def families : List (Category × List String) :=
  [(.map, ["Dictionary", "IDictionary", "IReadOnlyDictionary", "ConcurrentDictionary",
      "SortedDictionary", "ImmutableDictionary", "Hashtable", "Map"]),
   (.set, ["HashSet", "ISet", "SortedSet", "IReadOnlySet", "ImmutableHashSet"]),
   (.list, ["List", "IList", "IReadOnlyList", "ICollection", "IReadOnlyCollection", "Collection",
      "ObservableCollection", "ImmutableList", "ImmutableArray", "Array"]),
   (.sequence, ["IEnumerable", "IQueryable", "IOrderedEnumerable", "IOrderedQueryable",
      "IAsyncEnumerable", "Enumerable", "Queryable"]),
   (.console, ["Console", "Debug", "Trace"]),
   (.task, ["Task", "ValueTask"]),
   (.math, ["Math", "MathF"]),
   (.string, ["String", "string"]),
   (.number, ["int", "long", "short", "byte", "sbyte", "uint", "ulong", "ushort", "float", "double",
      "decimal", "Int16", "Int32", "Int64", "UInt16", "UInt32", "UInt64", "Byte", "SByte", "Single",
      "Double", "Decimal"]),
   (.bool, ["bool", "Boolean"])]

/-- The family of a simple type name. -/
def ofName (name : String) : Category :=
  match families.find? fun f => f.2.contains name with
  | some f => f.1
  | none => .other

/-- Lists, sets and abstract sequences take sequence operators. -/
def isSequenceLike (c : Category) : Bool := c = .list || c = .set || c = .sequence

def all : List Category :=
  [.map, .set, .list, .sequence, .console, .task, .math, .string, .number, .bool, .other]

def word : Category → String
  | .map => "map" | .set => "set" | .list => "list" | .sequence => "sequence"
  | .console => "console" | .task => "task" | .math => "math" | .string => "string"
  | .number => "number" | .bool => "bool" | .other => "other"

end Category

end ComponentScript
