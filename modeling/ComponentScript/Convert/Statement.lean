/-
  ComponentScript.Convert.Statement — how each kind of statement is converted when no rule
  applies.

  Variables that the arguments of a statement declare are declared in front of it.
-/

import ComponentScript.Convert.Catching
import ComponentScript.Convert.Iteration
import ComponentScript.Convert.SwitchStmt
import ComponentScript.Syntax.Walk
import ComponentScript.Text.Blank

namespace ComponentScript

open Text

namespace Argument

/-- The variable that an argument declares. -/
def declared? (a : Argument) : Option String :=
  match a.declares, a.expr.kind with
  | true, .identifier name => some name
  | _, _ => none

end Argument

/-- The variables that the arguments of a call declare. -/
def Expr.declaredHere (e : Expr) : List String :=
  match e.kind with
  | .invocation _ _ args => args.filterMap Argument.declared?
  | _ => []

namespace Stmt

/-- The expressions of a statement in front of which a declaration can stand. -/
def hoistRoots (s : Stmt) : List Expr :=
  match s.kind with
  | .expression e => [e]
  | .declaration _ ds _ => ds.filterMap (·.init?)
  | .returns value? => value?.toList
  | .branch condition _ _ => [condition]
  | .whileLoop condition _ => [condition]
  | _ => []

/-- The variables declared by arguments inside a statement's own expressions, each once. -/
def hoisted (s : Stmt) : List String :=
  let names := s.hoistRoots.flatMap fun e => e.walkShallow.flatMap Expr.declaredHere
  names.foldl (fun seen name => if seen.contains name then seen else seen ++ [name]) []

def isBranch (s : Stmt) : Bool :=
  match s.kind with
  | .branch .. => true
  | _ => false

end Stmt

namespace Converter

variable (k : Converter)

/-- The other branch of a conditional; a chain of conditions stays flat unless a later one
    needs declarations in front of it. -/
def elseBranch (s : Stmt) : Emit String :=
  if s.isBranch && s.hoisted.isEmpty then k.stmt s else k.block s

/-- What a loop does first. -/
def forInit : Option ForInit → Emit String
  | none => return ""
  | some (.declaration type? ds) => do return "let " ++ (← k.declarators type? ds)
  | some (.expressions es) => do return commaList (← k.exprs es)

def forLoop (init? : Option ForInit) (condition? : Option Expr) (updates : List Expr)
    (body : Stmt) : Emit String := do
  let init ← k.forInit init?
  let condition ← condition?.mapM k.expr
  let updates ← k.exprs updates
  let body ← k.block body
  let header := "; ".intercalate [init, condition.getD "", commaList updates]
  return s!"for ({String.ofList (trimEnd header.toList)}) {body}"

def localFunction (name : String) (params : List Param) (body : Stmt) (isAsync : Bool) :
    Emit String := do
  let (params, body) ← Emit.withScope (params.map (·.name)) do
    let params ← k.params params
    let body ← k.block body
    return (params, body)
  let async := if isAsync then "async " else ""
  return s!"{async}function {name}({params}) {body}"

def tryCatch (body : Stmt) (catches : List CatchClause) (finally? : Option Stmt) :
    Emit String := do
  let body ← k.block body
  let handler ← if catches.isEmpty then pure "" else do
    pure (" catch " ++ (← k.catchClauses catches))
  let final ← match finally? with
    | none => pure ""
    | some s => do pure (" finally " ++ (← k.block s))
  return s!"try {body}{handler}{final}"

/-- A resource scope with a body is braced, so that its names stay local. Without one it
    stands over nothing. -/
def resource (ds : List Declarator) (resource? : Option Expr) (body? : Option Stmt)
    (isAwait : Bool) : Emit String := do
  match body? with
  | some body =>
    let lines ← k.resourceScope ds resource? isAwait (k.statements body.statements)
    return Script.block lines k.indent
  | none => return joinLines (← k.resourceScope ds resource? isAwait (k.statements []))

/-- A resource declaration that owns the statements after it. The enclosing block already
    limits its names, so there are no braces. -/
def resourceOver (s : Stmt) (rest : List Stmt) : Emit String :=
  match s.kind with
  | .resource ds resource? _ isAwait => do
    return joinLines (← k.resourceScope ds resource? isAwait (k.statements rest))
  | _ => return ""

/-- The conversion of a statement by its kind. -/
def stmtByKind (s : Stmt) : Emit String :=
  match s.kind with
  | .block _ => k.block s
  | .declaration type? ds isConst => do
    let keyword := if isConst then "const" else "let"
    let bindings ← k.declarators type? ds
    return s!"{keyword} {bindings};"
  | .expression e => do return (← k.expr e) ++ ";"
  | .branch condition thenBranch elseBranch? => do
    let condition ← k.expr condition
    let body ← k.block thenBranch
    match elseBranch? with
    | none => return s!"if ({condition}) {body}"
    | some other =>
      let other ← k.elseBranch other
      return s!"if ({condition}) {body} else {other}"
  | .whileLoop condition body => do
    let condition ← k.expr condition
    let body ← k.block body
    return s!"while ({condition}) {body}"
  | .doLoop body condition => do
    let body ← k.block body
    let condition ← k.expr condition
    return s!"do {body} while ({condition});"
  | .forLoop init? condition? updates body => k.forLoop init? condition? updates body
  | .forEach target iterable body isAwait => k.forEach target iterable body isAwait
  | .returns none => return "return;"
  | .returns (some value) => do return "return " ++ (← k.expr value) ++ ";"
  | .breaks => return "break;"
  | .continues => return "continue;"
  | .throws (some value) => do return "throw " ++ (← k.expr value) ++ ";"
  | .throws none => do
    match ← Emit.caught with
    | some binding => return s!"throw {binding};"
    | none => Emit.verbatim "rethrow" s.span "throw;"
  | .tryCatch body catches finally? => k.tryCatch body catches finally?
  | .resource ds resource? body? isAwait => k.resource ds resource? body? isAwait
  | .switchStmt scrutinee sections => k.switchStmt scrutinee sections
  | .lock _ body => k.block body
  | .localFunction name params body isAsync => k.localFunction name params body isAsync
  | .yields (some value) => do return "yield " ++ (← k.expr value) ++ ";"
  | .yields none => return "return;"
  | .empty => return ";"
  | .other nodeKind text => Emit.verbatim nodeKind s.span text

/-- A statement behind the declarations it needs. -/
def defaultStmt (s : Stmt) : Emit String := do
  let text ← k.stmtByKind s
  return joinLines (s.hoisted.map (fun name => s!"let {name};") ++ [text])

end Converter

end ComponentScript
