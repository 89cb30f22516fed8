/-
  ComponentScript.Convert.SwitchExpr — a choice of values by patterns, as a function that is
  called at once.

  The function binds the scrutinee, returns the value of the first arm whose test holds,
  and always ends in an unconditional return: of the first arm that has neither test nor
  guard, else of `undefined`. It is asynchronous when something in it awaits.
-/

import ComponentScript.Convert.PatternTest
import ComponentScript.Syntax.Walk

namespace ComponentScript

def SwitchArm.containsAwait (a : SwitchArm) : Bool := a.exprs.any Expr.containsAwait

namespace Converter

variable (k : Converter)

/-- The returns of the arms, up to the first unconditional one. -/
def armLines (subject : String) : List SwitchArm → Emit (List String)
  | [] => return ["return undefined;"]
  | arm :: arms => do
    let test ← k.patternTest subject arm.pattern
    let guard? ← arm.guard?.mapM k.expr
    let value ← k.expr arm.value
    if test = "true" && guard?.isNone then return [s!"return {value};"]
    else
      let condition := guarded test guard?
      return s!"if ({condition}) return {value};" :: (← armLines subject arms)

def switchExpr (scrutinee : Expr) (arms : List SwitchArm) : Emit String := do
  let subject ← Emit.freshName "match"
  let value ← k.expr scrutinee
  let lines ← k.armLines subject arms
  let body := Script.block (s!"const {subject} = {value};" :: lines) k.indent
  return if scrutinee.containsAwait || arms.any SwitchArm.containsAwait
    then s!"await (async () => {body})()"
    else s!"(() => {body})()"

end Converter

end ComponentScript
