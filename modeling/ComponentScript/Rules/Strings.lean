/-
  ComponentScript.Rules.Strings — operations on strings, and values as strings.
-/

import ComponentScript.Convert.CompositeFormat
import ComponentScript.Convert.Sharing

namespace ComponentScript.Rules

open Text

def stringTypes : List String := ["string", "String"]

/-- The methods of strings that have another name in the script, with their number of
    arguments. -/
def renamedMethods : List (String × Nat × String) :=
  [("ToUpper", 0, "toUpperCase"),
   ("ToUpperInvariant", 0, "toUpperCase"),
   ("ToLower", 0, "toLowerCase"),
   ("ToLowerInvariant", 0, "toLowerCase"),
   ("Replace", 2, "replaceAll"),
   ("Contains", 1, "includes"),
   ("Substring", 1, "substring")]

/-- The name of a method in the script; an unknown one keeps its name. -/
def stringMethod (name : String) : String :=
  ((renamedMethods.find? (·.1 = name)).map (·.2.2)).getD name

/-- The static methods of strings, by their number of arguments. -/
def isStringFunction (name : String) (arity : Nat) : Bool :=
  match name with
  | "IsNullOrEmpty" | "IsNullOrWhiteSpace" => arity = 1
  | "Join" => 2 ≤ arity
  | "Concat" | "Format" => 1 ≤ arity
  | _ => false

def isStaticStringCall (env : Env) (s : Session) (call : Call) : Bool :=
  call.receiver?.any (env.isTypeName s stringTypes) && isStringFunction call.name call.arity

def isStringMethod (name : String) (arity : Nat) : Bool :=
  renamedMethods.any (fun m => m.1 = name && m.2.1 = arity) ||
    (name = "Substring" && arity = 2)

/-- Whether a call is of a method of a string. An unresolved receiver counts, except for
    `Contains`, which sequences have too. -/
def isStringCall (env : Env) (s : Session) (call : Call) : Bool :=
  match call.receiver? with
  | none => false
  | some receiver =>
    isStringMethod call.name call.arity && !env.isTypeName s stringTypes receiver &&
      match env.model.category receiver with
      | some c => c = .string
      | none => call.name ≠ "Contains"

def hasLiteralTemplate (call : Call) : Bool := ((call.arg? 0).bind Expr.stringLiteral?).isSome

/-- A value as a string. The value's own method is not called: there may be no value. -/
def stringify (k : Converter) (e : Expr) (call : Call) : Emit String := do
  let value ← match call.receiver? with
    | some receiver => k.expr receiver
    | none => pure k.settings.instanceReceiver
  if 0 < call.arity then
    Emit.report (.lossy "invocation" e.span "`ToString` format argument dropped")
  return s!"String({value})"

/-- A part of a string by its start and its length. A start that is computed is computed
    once. -/
def substring (k : Converter) (receiver start length : Expr) : Emit String :=
  if start.isPlain then do
    let target ← k.operand receiver
    let start ← k.expr start
    let length ← k.operand length
    return s!"{target}.substring({start}, {Script.operand start} + {length})"
  else do
    let (target, sh) ← k.shared {} receiver
    let (start, sh) ← k.shared sh start
    let (length, sh) ← k.shared sh length
    return sh.wrap s!"{target}.substring({start}, {start} + {length})"

/-- A separator, and the items to put it between: one array, or the items themselves. -/
def joined : List String → String
  | [] => "\"\""
  | [separator, items] => s!"{Script.operand items}.join({separator})"
  | separator :: items => s!"[{commaList items}].join({separator})"

/-- A call of a static method of strings. -/
def stringFunction (k : Converter) (call : Call) : Emit String :=
  match call.name, call.args with
  | "IsNullOrEmpty", _ => do return "!" ++ (← k.argumentOperand call 0)
  | "IsNullOrWhiteSpace", [] => return "true"
  | "IsNullOrWhiteSpace", arg :: _ => do
    let (value, sh) ← k.shared {} arg.expr
    return sh.wrap s!"(!{value} || !{value}.trim())"
  | "Join", args => do return joined (← k.arguments args)
  | "Concat", args => do
    let items ← k.arguments args
    return s!"[{commaList items}].join(\"\")"
  | _, [] => return "\"\""
  | _, template :: args => do
    match ← k.compositeFormat? template.expr args with
    | some text => return text
    | none => k.expr template.expr

/-- A call of a method of a string. -/
def stringCall (k : Converter) (call : Call) : Emit String :=
  match call.receiver?, call.name, call.args with
  | none, _, _ => return ""
  | some receiver, "Substring", [start, length] => substring k receiver start.expr length.expr
  | some receiver, name, args => do
    let target ← k.operand receiver
    let args ← k.arguments args
    return s!"{target}.{stringMethod name}({commaList args})"

def stringHelpers : Rule Expr where
  name := "string-helpers"
  priority := Rule.idiom
  applies env s e :=
    match e.memberAccess?, e.call? with
    | some (receiver, name), _ => name = "Empty" && env.isTypeName s stringTypes receiver
    | none, none => false
    | none, some call =>
      call.name = "ToString" ||
        if isStaticStringCall env s call then call.name ≠ "Format" || hasLiteralTemplate call
        else isStringCall env s call
  convert k e :=
    match e.memberAccess?, e.call? with
    | some _, _ => return "\"\""
    | none, none => return ""
    | none, some call => do
      if call.name = "ToString" then stringify k e call
      else if isStaticStringCall k.toEnv (← get) call then stringFunction k call
      else stringCall k call

end ComponentScript.Rules
