/-
  ComponentScript.Rules.Arithmetic — mathematical functions and constants, and numbers read
  from text.
-/

import ComponentScript.Convert.Sharing
import ComponentScript.Script.Name

namespace ComponentScript.Rules

open Text

def mathTypes : List String := ["Math", "MathF"]

/-- How a number is read from text. -/
inductive NumberReader where
  | integer
  | real
  deriving DecidableEq

namespace NumberReader

/-- The types that read numbers this way. -/
def types : NumberReader → List String
  | .integer => ["int", "long", "short", "byte", "Int32", "Int64", "Int16"]
  | .real => ["float", "double", "decimal", "Single", "Double", "Decimal"]

def read (text : String) : NumberReader → String
  | .integer => s!"parseInt({text}, 10)"
  | .real => s!"parseFloat({text})"

/-- The reader that a receiver stands for. -/
def ofReceiver? (env : Env) (s : Session) (receiver : Expr) : Option NumberReader :=
  [.integer, .real].find? fun r => env.isTypeName s r.types receiver

end NumberReader

def isMath (env : Env) (s : Session) (receiver e : Expr) : Bool :=
  env.isMemberOf s .math mathTypes receiver e

/-- A call of `clamp` without a receiver: declared by the mathematics type, or unresolved
    and bound by no enclosing function. -/
def isBareClamp (env : Env) (s : Session) (call : Call) (e : Expr) : Bool :=
  call.arity = 3 && (call.name = "Clamp" || call.name = "clamp") &&
    (env.model.declaredIn e .math).getD
      ((env.model.symbolOf e).isNone && !s.isBound call.name)

def isNumericCall (env : Env) (s : Session) (call : Call) (e : Expr) : Bool :=
  match call.receiver? with
  | none => isBareClamp env s call e
  | some receiver =>
    isMath env s receiver e ||
      (((call.name = "Parse" && call.arity = 1) || (call.name = "TryParse" && call.arity = 2)) &&
        (NumberReader.ofReceiver? env s receiver).isSome)

/-- The name of a mathematical function in the script. -/
def mathFunction (name : String) : String :=
  match name with
  | "Ceiling" => "ceil"
  | "Truncate" => "trunc"
  | other => Script.camelCase other

/-- A constant of the mathematics type. -/
def mathConstant (name : String) : String :=
  match name with
  | "PI" => "Math.PI"
  | "E" => "Math.E"
  | "Tau" => "(2 * Math.PI)"
  | other => "Math." ++ Script.camelCase other

/-- A value kept between two bounds. -/
def clamp (k : Converter) (value low high : Expr) : Emit String := do
  let value ← k.expr value
  let low ← k.expr low
  let high ← k.expr high
  return s!"Math.min(Math.max({value}, {low}), {high})"

def rounded (value digits : String) : String :=
  s!"(Math.round({value} * 10 ** {digits}) / 10 ** {digits})"

/-- Rounding to a number of digits, which is computed once. -/
def roundTo (k : Converter) (value digits : Expr) : Emit String :=
  if digits.isPlain then do
    let value ← k.operand value
    let digits ← k.operand digits
    return rounded value digits
  else do
    let (value, sh) ← k.shared {} value
    let (digits, sh) ← k.shared sh digits
    return sh.wrap (rounded value digits)

/-- Reads a number; with a variable to hold it, tests whether there was one. -/
def numberFrom (reader : NumberReader) (args : List String) : String :=
  match args with
  | [text, out] => s!"!Number.isNaN({out} = {reader.read text})"
  | _ => reader.read (commaList args)

def numericCall (k : Converter) (receiver e : Expr) (call : Call) : Emit String :=
  match call.name, call.args with
  | "Round", [value, digits] => roundTo k value.expr digits.expr
  | "Clamp", [value, low, high] => clamp k value.expr low.expr high.expr
  | name, args => do
    let args ← k.arguments args
    let s ← get
    match NumberReader.ofReceiver? k.toEnv s receiver, isMath k.toEnv s receiver e with
    | some reader, false => return numberFrom reader args
    | _, _ => return s!"Math.{mathFunction name}({commaList args})"

def numericHelpers : Rule Expr where
  name := "numeric-helpers"
  priority := Rule.idiom
  applies env s e :=
    match e.call?, e.memberAccess? with
    | some call, _ => isNumericCall env s call e
    | none, some (receiver, _) => isMath env s receiver e
    | none, none => false
  convert k e :=
    match e.memberAccess?, e.call? with
    | some (_, name), _ => return mathConstant name
    | none, none => return ""
    | none, some call =>
      match call.receiver?, call.args with
      | some receiver, _ => numericCall k receiver e call
      | none, [value, low, high] => clamp k value.expr low.expr high.expr
      | none, _ => return ""

end ComponentScript.Rules
