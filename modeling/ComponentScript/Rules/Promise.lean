/-
  ComponentScript.Rules.Promise — tasks, as promises.
-/

import ComponentScript.Convert.Call
import ComponentScript.Convert.Converter

namespace ComponentScript.Rules

open Text

def taskTypes : List String := ["Task", "ValueTask"]

/-- The static methods of tasks that have a counterpart, by their number of arguments. -/
def isTaskMethod (name : String) (arity : Nat) : Bool :=
  match name with
  | "Delay" | "Run" => arity = 1 || arity = 2
  | "WhenAll" | "WhenAny" => 1 ≤ arity
  | "FromResult" => arity = 1
  | "Yield" => arity = 0
  | _ => false

def isTaskCall (env : Env) (s : Session) (call : Call) (e : Expr) : Bool :=
  match call.receiver? with
  | none => false
  | some receiver =>
    (call.name = "ConfigureAwait" && call.arity = 1) ||
      (env.isMemberOf s .task taskTypes receiver e && isTaskMethod call.name call.arity)

/-- Whether a single argument already is a collection of tasks. -/
def isTaskCollection (env : Env) (e : Expr) : Bool :=
  match e.kind with
  | .arrayCreation .. => true
  | _ => env.model.category e ≠ some .task

/-- The tasks that are waited for, as one array. -/
def taskArray (k : Converter) : List Argument → Emit String
  | [arg] => do
    let text ← k.expr arg.expr
    return if isTaskCollection k.toEnv arg.expr then text else s!"[{text}]"
  | args => do
    let items ← k.arguments args
    return s!"[{commaList items}]"

/-- A call of a method of tasks. Promises have neither a continuation context nor
    cancellation. -/
def taskCall (k : Converter) (receiver : Expr) (call : Call) : Emit String :=
  match call.name with
  | "ConfigureAwait" => k.expr receiver
  | "Delay" => do
    let time ← k.argument call 0
    return s!"new Promise((resolve) => setTimeout(resolve, {time}))"
  | "Run" => do
    let work ← k.argument call 0
    return s!"Promise.resolve().then({work})"
  | "WhenAll" => do
    let tasks ← taskArray k call.args
    return s!"Promise.all({tasks})"
  | "WhenAny" => do
    let tasks ← taskArray k call.args
    return s!"Promise.race({tasks})"
  | "FromResult" => do
    let value ← k.argument call 0
    return s!"Promise.resolve({value})"
  | _ => return "Promise.resolve()"

def taskHelpers : Rule Expr where
  name := "task-helpers"
  priority := Rule.idiom
  applies env s e :=
    match e.call?, e.memberAccess? with
    | some call, _ => isTaskCall env s call e
    | none, some (receiver, name) =>
      name = "CompletedTask" && env.isMemberOf s .task taskTypes receiver e
    | none, none => false
  convert k e :=
    match e.call? with
    | none => return "Promise.resolve()"
    | some call =>
      match call.receiver? with
      | none => return ""
      | some receiver => taskCall k receiver call

end ComponentScript.Rules
