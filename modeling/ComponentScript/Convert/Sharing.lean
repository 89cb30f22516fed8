/-
  ComponentScript.Convert.Sharing — operands that an output mentions more than once.

  A plain operand is used in place. Any other becomes a parameter of an arrow function that
  is called with the values in source order, so each is evaluated once.
-/

import ComponentScript.Convert.Call
import ComponentScript.Convert.Converter

namespace ComponentScript

open Text

/-- The parameters bound so far, each with its value. -/
structure Sharing where
  bindings : List (String × String) := []

namespace Sharing

def isEmpty (sh : Sharing) : Bool := sh.bindings.isEmpty

/-- The text that stands for an expression, already converted to `text`. -/
def share (sh : Sharing) (e : Expr) (text : String) : Emit (String × Sharing) :=
  if e.isPlain then return (Script.operand text, sh)
  else do
    let name ← Emit.freshName "v"
    return (name, ⟨sh.bindings ++ [(name, text)]⟩)

/-- The body, in a call of an arrow function when something is bound. -/
def wrap (sh : Sharing) (body : String) : String :=
  if sh.isEmpty then body
  else
    let params := commaList (sh.bindings.map (·.1))
    let values := commaList (sh.bindings.map (·.2))
    s!"(({params}) => {body})({values})"

end Sharing

namespace Converter

variable (k : Converter)

/-- Converts an expression and shares it. -/
def shared (sh : Sharing) (e : Expr) : Emit (String × Sharing) := do
  sh.share e (← k.expr e)

/-- Shares expressions in order. -/
def sharedAll (sh : Sharing) : List Expr → Emit (List String × Sharing)
  | [] => return ([], sh)
  | e :: es => do
    let (text, sh) ← k.shared sh e
    let (texts, sh) ← sharedAll sh es
    return (text :: texts, sh)

end Converter

end ComponentScript
