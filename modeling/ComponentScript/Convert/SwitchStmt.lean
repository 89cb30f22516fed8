/-
  ComponentScript.Convert.SwitchStmt — statements that choose by labels.

  Labels that are constants stay labels. If one is a real pattern, the scrutinee is bound
  once and the statement switches over `true`, with a test for each label, so leaving a
  section and falling through empty ones keep their meaning.
-/

import ComponentScript.Convert.PatternTest

namespace ComponentScript

/-- Whether a label can stay a label: a constant or no condition at all. -/
def SwitchLabel.isDirect : SwitchLabel → Bool
  | .constant _ | .otherwise => true
  | .pattern (.constant _) none | .pattern .discard none => true
  | .pattern .. => false

/-- A label line for a condition, or for none. -/
def labelLine : Option String → String
  | some value => s!"case {value}:"
  | none => "default:"

namespace Converter

variable (k : Converter)

/-- The constant of a label. -/
def directLabel : SwitchLabel → Emit (Option String)
  | .constant value => some <$> k.expr value
  | .pattern (.constant value) _ => some <$> k.expr value
  | _ => return none

/-- The test that a label stands for. -/
def testLabel (subject : String) : SwitchLabel → Emit (Option String)
  | .constant value => do
    let text ← k.expr value
    return some s!"{subject} === {text}"
  | .pattern pattern guard? => do
    let test ← k.patternTest subject pattern
    let guard? ← guard?.mapM k.expr
    return some (guarded test guard?)
  | .otherwise => return none

/-- The lines of a section: its labels, then its statements one level deeper. -/
def sectionLines (label : SwitchLabel → Emit (Option String)) (s : SwitchSection) :
    Emit (List String) := do
  let labels ← s.labels.mapM label
  let statements ← k.statements s.statements
  let body := (statements.filter (· ≠ "")).map fun text => Script.indentLines text k.indent
  return labels.map labelLine ++ body

def sectionsBlock (label : SwitchLabel → Emit (Option String)) (sections : List SwitchSection) :
    Emit String := do
  let lines ← sections.mapM (k.sectionLines label)
  return Script.block lines.flatten k.indent

def switchStmt (scrutinee : Expr) (sections : List SwitchSection) : Emit String :=
  if (sections.flatMap (·.labels)).all SwitchLabel.isDirect then do
    let subject ← k.expr scrutinee
    let body ← k.sectionsBlock k.directLabel sections
    return s!"switch ({subject}) {body}"
  else do
    let subject ← Emit.freshName "sw"
    let value ← k.expr scrutinee
    let body ← k.sectionsBlock (k.testLabel subject) sections
    return Script.block [s!"const {subject} = {value};", s!"switch (true) {body}"] k.indent

end Converter

end ComponentScript
