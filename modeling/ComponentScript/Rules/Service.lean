/-
  ComponentScript.Rules.Service — services, looked up by the name of their type.

  The lookup gives nothing for a missing service. For a service that is required, where the
  source would fail, this is reported.
-/

import ComponentScript.Convert.Call
import ComponentScript.Convert.Converter
import ComponentScript.Script.Quoted

namespace ComponentScript.Rules

def isServiceCall (call : Call) : Bool :=
  (call.name = "GetService" || call.name = "GetRequiredService") &&
    call.typeArgs.length = 1 && call.arity = 0

def serviceLookup : Rule Expr where
  name := "service-lookup"
  priority := Rule.idiom
  applies _ _ e := e.call?.any isServiceCall
  convert k e :=
    match e.call? with
    | none => return ""
    | some call => do
      let key := (k.typeKey? e call.typeArgs.head?).getD ""
      let provider ← match call.receiver? with
        | some receiver => k.operand receiver
        | none => pure k.settings.instanceReceiver
      if call.name = "GetRequiredService" then
        Emit.report (.behaviorGap "invocation" e.span
          s!"missing `{key}` service yields undefined instead of throwing")
      return s!"{provider}.{k.settings.serviceLookupMethod}({Script.quote key})"

end ComponentScript.Rules
