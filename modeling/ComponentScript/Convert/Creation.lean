/-
  ComponentScript.Convert.Creation — new objects, collections and literals of objects.

  Lists become array literals, maps become object literals and sets are built from arrays.
  A single constructor argument that is no capacity supplies the contents. Any other type
  is constructed, and then filled from its initializer.
-/

import ComponentScript.Convert.Call
import ComponentScript.Convert.Converter
import ComponentScript.Script.Name

namespace ComponentScript

open Text

/-- The value of an uninitialized variable of the type. -/
def defaultValue (type? : Option TypeRef) : String :=
  match type? with
  | none => "null"
  | some type =>
    if type.nullable || type.isArray then "null"
    else
      match Category.ofName type.simpleName with
      | .number => "0"
      | .bool => "false"
      | _ => "null"

def Expr.isNumber (e : Expr) : Bool :=
  match e.kind with
  | .literal (.number _) => true
  | _ => false

/-- Whether a single constructor argument is the size of a collection, not its contents. -/
def Env.isCapacity (env : Env) (e : Expr) : Bool :=
  e.isNumber || env.model.category e = some .number

/-- Entries between braces. -/
def objectText (entries : List String) : String :=
  if entries.isEmpty then "\x7b\x7d" else "\x7b " ++ commaList entries ++ " \x7d"

namespace Converter

variable (k : Converter)

/-- A member of an object literal under the name it gets. -/
def memberEntry (rename : String → String) (m : MemberInit) : Emit String := do
  let value ← k.expr m.value
  return s!"{Script.objectKey (rename m.name)}: {value}"

def objectLiteral (members : List MemberInit) : Emit String := do
  return objectText (← members.mapM (k.memberEntry Script.camelCase))

/-- An entry of a map; a key that is not a string literal is computed. -/
def dictEntry (d : DictEntry) : Emit String := do
  let key ← match d.key.stringLiteral? with
    | some s => pure (Script.objectKey s)
    | none => do
      let text ← k.expr d.key
      pure s!"[{text}]"
  let value ← k.expr d.value
  return s!"{key}: {value}"

/-- An assignment to an entry, without its target. -/
def entryAssignment (d : DictEntry) : Emit String := do
  let key ← k.expr d.key
  let value ← k.expr d.value
  return s!"[{key}] = {value}"

/-- An object that is created, filled by one line for each part, and returned. -/
def populated (created : String) (lines : String → List String) : Emit String := do
  let target ← Emit.freshName "obj"
  let body := s!"const {target} = {created};" :: lines target ++ [s!"return {target};"]
  return s!"(() => {Script.block body k.indent})()"

/-- The elements of a collection initializer; any other has none. -/
def elements : Option Initializer → Emit (List String)
  | some (.collection es) => k.exprs es
  | _ => return []

/-- The entries of a map initializer. -/
def entries : Option Initializer → Emit (List String)
  | some (.dictionary ds) => ds.mapM k.dictEntry
  | some (.object members) => members.mapM (k.memberEntry id)
  | _ => return []

/-- The contents copied from a constructor argument. -/
def copied : List Argument → Emit (Option String)
  | [arg] => if k.isCapacity arg.expr then return none else return some (← k.expr arg.expr)
  | _ => return none

def spreadOf (source? : Option String) : List String := (source?.map ("..." ++ ·)).toList

def newSet (source? : Option String) (elements : List String) : String :=
  match source?, elements with
  | none, [] => "new Set()"
  | some source, [] => s!"new Set({source})"
  | _, _ => s!"new Set([{commaList (spreadOf source? ++ elements)}])"

/-- An instance of a type that is no collection. -/
def newInstance (name : String) (args : List Argument) (initializer? : Option Initializer) :
    Emit String := do
  let args ← k.arguments args
  let created := s!"new {name}({commaList args})"
  match initializer? with
  | none => return created
  | some (.object members) =>
    if members.isEmpty then return created
    else
      let fields ← k.objectLiteral members
      return s!"Object.assign({created}, {fields})"
  | some (.collection es) => do
    let values ← k.exprs es
    k.populated created fun target => values.map fun value => s!"{target}.add({value});"
  | some (.dictionary ds) => do
    let assignments ← ds.mapM k.entryAssignment
    k.populated created fun target => assignments.map fun text => s!"{target}{text};"

/-- The family a new object belongs to: of its resolved type, else by the name of the type. -/
def creationCategory (e : Expr) (type : TypeRef) : Category :=
  match k.model.category e with
  | none | some .other => Category.ofName type.simpleName
  | some c => c

/-- `new T(args) { initializer }`, with the type that is written or expected. -/
def creation (e : Expr) (type? : Option TypeRef) (args : List Argument)
    (initializer? : Option Initializer) : Emit String :=
  match type? with
  | none => do
    Emit.report (.lossy "object_creation" e.span
      "target type of `new()` is unknown; emitted a plain object")
    match initializer? with
    | some (.object members) => k.objectLiteral members
    | _ => return objectText []
  | some type => do
    let source? ← k.copied args
    match k.creationCategory e type with
    | .list | .sequence =>
      let elements ← k.elements initializer?
      return s!"[{commaList (spreadOf source? ++ elements)}]"
    | .set => return newSet source? (← k.elements initializer?)
    | .map => return objectText (spreadOf source? ++ (← k.entries initializer?))
    | _ => k.newInstance type.simpleName args initializer?

/-- `new T[size]` is filled with the default of its elements. -/
def newArray (elementType? : Option TypeRef) (size? : Option Expr) (elements : List Expr) :
    Emit String :=
  match size?, elements with
  | some size, [] => do
    let size ← k.expr size
    return s!"new Array({size}).fill({defaultValue elementType?})"
  | _, _ => do
    let items ← k.exprs elements
    return s!"[{commaList items}]"

end Converter

end ComponentScript
