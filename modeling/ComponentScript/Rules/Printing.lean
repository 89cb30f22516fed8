/-
  ComponentScript.Rules.Printing — printing for diagnosis, on the script's console.
-/

import ComponentScript.Convert.CompositeFormat

namespace ComponentScript.Rules

open Text

/-- The types whose static methods print. -/
def printers : List String := ["Console", "Debug", "Trace"]

/-- The console method for a method of a printer. -/
def consoleMethodOf? : String → Option String
  | "WriteLine" | "Write" | "Print" | "Log" | "TraceInformation" => some "log"
  | "Error" | "LogError" | "TraceError" | "Fail" => some "error"
  | "LogWarning" | "TraceWarning" => some "warn"
  | _ => none

/-- Whether an expression is the error stream of the console. -/
def isErrorStream (env : Env) (s : Session) (e : Expr) : Bool :=
  match e.memberAccess? with
  | some (receiver, name) => name = "Error" && env.isTypeName s ["Console"] receiver
  | none => false

/-- The console method that a call becomes. A bare `print` counts unless it is bound or
    resolves to a method. -/
def consoleMethod? (env : Env) (s : Session) (call : Call) (e : Expr) : Option String :=
  match call.receiver? with
  | none =>
    let isMethod := (env.model.symbolOf e).any (·.kind = .method)
    if call.name = "print" && !isMethod && !s.isBound "print" then some "log" else none
  | some receiver =>
    if isErrorStream env s receiver && (call.name = "WriteLine" || call.name = "Write") then
      some "error"
    else if env.isMemberOf s .console printers receiver e then consoleMethodOf? call.name
    else none

/-- What is printed: a format string with its arguments as one text. -/
def printed (k : Converter) : List Argument → Emit (List String)
  | [] => return []
  | [arg] => k.arguments [arg]
  | template :: args => do
    match ← k.compositeFormat? template.expr args with
    | some text => return [text]
    | none => k.arguments (template :: args)

def consolePrint : Rule Expr where
  name := "console-print"
  priority := Rule.idiom
  applies env s e := e.call?.any fun call => (consoleMethod? env s call e).isSome
  convert k e :=
    match e.call? with
    | none => return ""
    | some call => do
      let method := (consoleMethod? k.toEnv (← get) call e).getD "log"
      let args ← printed k call.args
      return s!"console.{method}({commaList args})"

end ComponentScript.Rules
