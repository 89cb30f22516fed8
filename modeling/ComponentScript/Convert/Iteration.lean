/-
  ComponentScript.Convert.Iteration — loops over the elements of a collection.

  A map is a plain object in the script, so a loop over one goes through its entries: as
  pairs where the loop takes a pair apart, else as objects with a key and a value.
-/

import ComponentScript.Convert.Converter

namespace ComponentScript

open Text

/-- The variables of a loop as they are bound. -/
def LoopTarget.binding : LoopTarget → String
  | .name n => n
  | .tuple ns => "[" ++ commaList ns ++ "]"

/-- What a loop over a map iterates. -/
def LoopTarget.entriesOf (map : String) : LoopTarget → String
  | .name _ => s!"Object.entries({map}).map(([key, value]) => (\x7b key, value \x7d))"
  | .tuple _ => s!"Object.entries({map})"

namespace Converter

variable (k : Converter)

def forEach (target : LoopTarget) (iterable : Expr) (body : Stmt) (isAwait : Bool) :
    Emit String := do
  let text ← k.expr iterable
  let source := if k.model.category iterable = some .map then target.entriesOf text else text
  let body ← Emit.withScope target.names (k.block body)
  let keyword := if isAwait then "for await" else "for"
  return s!"{keyword} (const {target.binding} of {source}) {body}"

end Converter

end ComponentScript
