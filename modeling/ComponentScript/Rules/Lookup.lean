/-
  ComponentScript.Rules.Lookup — maps, as plain objects.
-/

import ComponentScript.Convert.Call
import ComponentScript.Convert.Converter
import ComponentScript.Script.Name

namespace ComponentScript.Rules

open Text

/-- Whether a call is of a method of maps. An unresolved receiver counts, except for
    `Remove`, which too many types have. -/
def isMapCall (env : Env) (s : Session) (call : Call) (e : Expr) : Bool :=
  match call.receiver? with
  | none => false
  | some receiver =>
    let category? := env.receiverCategory call e
    !env.isStaticReceiver s receiver &&
      match call.name, call.arity with
      | "ContainsKey", 1 | "ContainsValue", 1 | "GetValueOrDefault", 1 | "TryGetValue", 2
      | "GetValueOrDefault", 2 | "Add", 2 => category?.all (· = .map)
      | "Remove", 1 => category? = some .map
      | _, _ => false

/-- A method of a map on the object that stands for it. -/
def mapOperation (map name : String) (args : List String) : String :=
  match name, args with
  | "ContainsKey", [key] => s!"({key} in {map})"
  | "ContainsValue", [value] => s!"Object.values({map}).includes({value})"
  | "TryGetValue", [key, out] => s!"(({out} = {map}[{key}]) !== undefined)"
  | "GetValueOrDefault", [key] => s!"{map}[{key}]"
  | "GetValueOrDefault", [key, fallback] => s!"({map}[{key}] ?? {fallback})"
  | "Add", [key, value] => s!"{map}[{key}] = {value}"
  | "Remove", [key] => s!"delete {map}[{key}]"
  | name, args => s!"{map}.{Script.camelCase name}({commaList args})"

def mapLookup : Rule Expr where
  name := "map-lookup"
  priority := Rule.idiom
  applies env s e := e.call?.any fun call => isMapCall env s call e
  convert k e :=
    match e.call?.bind fun call => call.receiver?.map fun receiver => (receiver, call) with
    | none => return ""
    | some (receiver, call) => do
      let map ← k.operand receiver
      let args ← k.arguments call.args
      return mapOperation map call.name args

end ComponentScript.Rules
