/-
  ComponentScript.Convert.Expression — how each kind of expression is converted when no
  rule applies.
-/

import ComponentScript.Convert.Creation
import ComponentScript.Convert.SwitchExpr
import ComponentScript.Script.Numeral
import ComponentScript.Script.Template

namespace ComponentScript

open Text

def Literal.script : Literal → String
  | .null => "null"
  | .bool b => if b then "true" else "false"
  | .number text => Script.numeral text
  | .string s => Script.quote s
  | .char c => Script.quote (String.ofList [c])

namespace Env

/-- A bare name. A bound name stays as it is. A resolved one is a member of the instance or
    stays. Of the rest, a name with an underscore or a capital in front is a member, unless
    it is a well-known type. -/
def identifier (env : Env) (s : Session) (e : Expr) (name : String) : String :=
  let receiver := env.settings.instanceReceiver
  let camel := receiver ++ "." ++ Script.camelCase name
  if s.isBound name then name
  else
    match env.model.symbolOf e with
    | some symbol => if symbol.kind.isInstanceMember then camel else name
    | none =>
      if env.settings.isWellKnownType name then name
      else
        match name.toList.head? with
        | some c =>
          if c = '_' then receiver ++ "." ++ name
          else if isUppercase c then camel
          else name
        | none => name

end Env

namespace Converter

variable (k : Converter)

/-- A part of an interpolated string; a format specifier is dropped. -/
def interpolationPart (span : Span) : InterpolationPart → Emit String
  | .text text => return Script.escapeTemplate text
  | .expr e format? => do
    match format? with
    | some format =>
      Emit.report (.lossy "interpolated_string" span s!"format specifier `{format}` dropped")
    | none => pure ()
    return Script.substitution (← k.expr e)

def interpolatedString (span : Span) (parts : List InterpolationPart) : Emit String := do
  let texts ← parts.mapM (k.interpolationPart span)
  return "`" ++ String.join texts ++ "`"

/-- Whether an operand needs parentheses because `??` does not mix with `&&` and `||`. -/
def mixesCoalesce (parent : BinaryOp) (operand : Expr) : Bool :=
  match operand.kind with
  | .binary op _ _ =>
    (parent = .coalesce && op.isLogical) || (parent.isLogical && op = .coalesce)
  | _ => false

def binaryOperand (parent : BinaryOp) (operand : Expr) : Emit String := do
  let text ← k.expr operand
  return if mixesCoalesce parent operand then s!"({text})" else text

/-- The body of a lambda; an object literal would read as a block. -/
def lambdaBody : LambdaBody → Emit String
  | .expr e => do
    let text ← k.expr e
    return if text.toList.head? = some '\x7b' then s!"({text})" else text
  | .block s => k.block s

def lambda (params : List Param) (body : LambdaBody) (isAsync : Bool) : Emit String := do
  let (params, body) ← Emit.withScope (params.map (·.name)) do
    let params ← k.params params
    let body ← k.lambdaBody body
    return (params, body)
  let async := if isAsync then "async " else ""
  return s!"{async}({params}) => {body}"

/-- The conversion of an expression by its kind. -/
def defaultExpr (expected? : Option TypeRef) (e : Expr) : Emit String :=
  match e.kind with
  | .identifier name => do return k.identifier (← get) e name
  | .this => return k.settings.instanceReceiver
  | .base => return "super"
  | .literal value => return value.script
  | .interpolated parts => k.interpolatedString e.span parts
  | .binary op left right => do
    let l ← k.binaryOperand op left
    let r ← k.binaryOperand op right
    return s!"{l} {op.symbol} {r}"
  | .unary op operand => do return op.apply (← k.operand operand)
  | .assignment op target value => do
    let target ← k.expr target
    let value ← k.expr value
    return s!"{target} {op.symbol} {value}"
  | .member receiver name => do
    let receiver ← k.operand receiver
    return s!"{receiver}.{Script.camelCase name}"
  | .conditionalMember receiver name => do
    let receiver ← k.operand receiver
    return s!"{receiver}?.{Script.camelCase name}"
  | .elementAccess receiver index => do
    let receiver ← k.operand receiver
    let index ← k.expr index
    return s!"{receiver}[{index}]"
  | .invocation callee _ args => do
    let callee ← k.operand callee
    let args ← k.arguments args
    return s!"{callee}({commaList args})"
  | .objectCreation type? args initializer? => k.creation e (type? <|> expected?) args initializer?
  | .anonymousObject members => k.objectLiteral members
  | .arrayCreation elementType? size? elements => k.newArray elementType? size? elements
  | .conditional condition whenTrue whenFalse => do
    let condition ← k.expr condition
    let whenTrue ← k.expr whenTrue
    let whenFalse ← k.expr whenFalse
    return s!"{condition} ? {whenTrue} : {whenFalse}"
  | .lambda params body isAsync => k.lambda params body isAsync
  | .await operand => do return "await " ++ (← k.operand operand)
  | .cast _ operand => k.expr operand
  | .patternTest operand pattern => k.isTest operand pattern
  | .nameOf name => return Script.quote (String.ofList (afterLast '.' name.toList))
  | .defaultOf type? => return defaultValue (type? <|> expected?)
  | .parenthesized inner => do return "(" ++ (← k.expr inner) ++ ")"
  | .switchExpr scrutinee arms => k.switchExpr scrutinee arms
  | .other nodeKind text => Emit.verbatim nodeKind e.span text

end Converter

end ComponentScript
