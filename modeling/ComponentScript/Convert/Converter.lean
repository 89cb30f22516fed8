/-
  ComponentScript.Convert.Converter — converting the parts of a node: operands, argument
  lists, statement lists and blocks.

  A resource declaration without a body owns the statements after it in its list: they
  become the body of the block that releases the resource. The functions declared in a list
  are visible in all of it.
-/

import ComponentScript.Convert.Rule
import ComponentScript.Script.Layout
import ComponentScript.Script.Operand

namespace ComponentScript

open Text

namespace Converter

variable (k : Converter)

def indent : String := k.settings.indent

/-! ## Expressions -/

def expr (e : Expr) : Emit String := k.exprAs none e

/-- The expression as an operand or a receiver, in parentheses where it needs them. -/
def operand (e : Expr) : Emit String := do
  return Script.operand (← k.expr e)

def exprs (es : List Expr) : Emit (List String) := es.mapM k.expr

def arguments (args : List Argument) : Emit (List String) := args.mapM fun a => k.expr a.expr

/-- One parameter: its name, with its default value or as the rest of the arguments. -/
def param (p : Param) : Emit String :=
  if p.isRest then return "..." ++ p.name
  else
    match p.default? with
    | some e => do
      let value ← k.exprAs p.type? e
      return s!"{p.name} = {value}"
    | none => return p.name

def params (ps : List Param) : Emit String := do
  return commaList (← ps.mapM k.param)

/-- One variable with its initial value. -/
def declarator (type? : Option TypeRef) (d : Declarator) : Emit String :=
  match d.init? with
  | some e => do
    let value ← k.exprAs type? e
    return s!"{d.name} = {value}"
  | none => return d.name

def declarators (type? : Option TypeRef) (ds : List Declarator) : Emit String := do
  return commaList (← ds.mapM (k.declarator type?))

/-! ## Resources -/

/-- Releases a resource if there is one and it can be released. -/
def releaseLine (name : String) (isAwait : Bool) : String :=
  let method := if isAwait then k.settings.asyncReleaseMethod else k.settings.releaseMethod
  let await := if isAwait then "await " else ""
  s!"if ({name} && typeof {name}.{method} === \"function\") {await}{name}.{method}();"

/-- The lines, with a resource acquired in front of them and released behind. -/
def guardLines (isAwait : Bool) (binding : String × String) (lines : List String) : List String :=
  let body := Script.block lines k.indent
  let release := Script.block [k.releaseLine binding.1 isAwait] k.indent
  [s!"const {binding.1} = {binding.2};", s!"try {body} finally {release}"]

/-- The declared resources with their values; each is in scope for those after it. -/
def acquire : List Declarator → Emit (List (String × String))
  | [] => return []
  | d :: ds => do
    let value ← match d.init? with
      | some e => k.expr e
      | none => pure "undefined"
    Emit.bindName d.name
    return (d.name, value) :: (← acquire ds)

/-- A resource that is not declared gets a name of its own. -/
def acquireUnnamed : Option Expr → Emit (List (String × String))
  | none => return []
  | some e => do
    let value ← k.expr e
    return [(← Emit.freshName "res", value)]

/-- The lines of a resource scope: the resources are released in the opposite order. -/
def resourceScope (ds : List Declarator) (resource? : Option Expr) (isAwait : Bool)
    (body : Emit (List String)) : Emit (List String) := do
  let (bindings, lines) ← Emit.withScope [] do
    let declared ← k.acquire ds
    let unnamed ← k.acquireUnnamed resource?
    let lines ← body
    return (declared ++ unnamed, lines)
  return bindings.foldr (k.guardLines isAwait) lines

/-! ## Statements -/

/-- The names of the functions that a statement list declares. -/
def localFunctions (ss : List Stmt) : List String :=
  ss.filterMap fun s =>
    match s.kind with
    | .localFunction name _ _ _ => some name
    | _ => none

/-- Runs a step with the functions of a statement list in scope. -/
def withFunctions {α : Type} (ss : List Stmt) (step : Emit α) : Emit α :=
  if (localFunctions ss).isEmpty then step else Emit.withScope (localFunctions ss) step

/-- The statements of a list, one text for each that is emitted. -/
def sequence : List Stmt → Emit (List String)
  | [] => return []
  | s :: rest =>
    match s.kind with
    | .resource ds resource? none isAwait => do
      let lines ← k.resourceScope ds resource? isAwait (withFunctions rest (sequence rest))
      return [joinLines lines]
    | _ => do
      let text ← k.stmt s
      return text :: (← sequence rest)

/-- A statement list with its functions in scope. -/
def statements (ss : List Stmt) : Emit (List String) := withFunctions ss (k.sequence ss)

/-- A statement as a braced block; a block gives its statements, any other itself. -/
def block (s : Stmt) : Emit String := do
  return Script.block (← k.statements s.statements) k.indent

end Converter

end ComponentScript
