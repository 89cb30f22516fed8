/-
  ComponentScript.Convert.Engine — rules, settings and a model put together.

  A node goes to the first rule that applies to it, and to the conversion for its kind if
  none does. Either only goes on to inner nodes, so as many rounds as a tree is deep are
  enough for all of it.
-/

import ComponentScript.Rules.Builtin
import ComponentScript.Syntax.Depth

namespace ComponentScript

open Text

/-- The text that a conversion gives, with what it could not keep. -/
structure Conversion where
  text : String
  diagnostics : List Diagnostic

namespace Conversion

def isClean (c : Conversion) : Bool := c.diagnostics.isEmpty

/-- Runs a step in a new session. -/
def ofEmit (step : Emit String) : Conversion :=
  let (text, session) := step.run {}
  ⟨text, session.diagnostics⟩

def toJson (c : Conversion) : Json :=
  .obj [("text", .str c.text), ("diagnostics", .arr (c.diagnostics.map Diagnostic.toJson))]

end Conversion

structure Engine where
  exprRules : RuleSet Expr := RuleSet.ofList Rules.builtinExprs
  stmtRules : RuleSet Stmt := RuleSet.ofList Rules.builtinStmts
  settings : Settings := {}

namespace Engine

variable (g : Engine) (m : Model)

def env : Env := ⟨g.settings, m⟩

/-- One round: nodes are converted with `k` for the nodes inside them. -/
def step (k : Converter) : Converter where
  toEnv := k.toEnv
  exprAs expected? e := do
    match g.exprRules.find? k.toEnv (← get) e with
    | some rule => rule.convert k e
    | none => k.defaultExpr expected? e
  stmt s := do
    match g.stmtRules.find? k.toEnv (← get) s with
    | some rule => rule.convert k s
    | none => k.defaultStmt s

/-- The converter for nodes of at most the given depth. -/
def ofDepth : Nat → Converter
  | 0 => { toEnv := g.env m, exprAs := fun _ _ => return "", stmt := fun _ => return "" }
  | n + 1 => g.step (ofDepth n)

/-- The converter for all nodes. -/
def converter : Converter where
  toEnv := g.env m
  exprAs expected? e := (g.ofDepth m e.depth).exprAs expected? e
  stmt s := (g.ofDepth m s.depth).stmt s

/-! ## Whole trees -/

def convertExpr (expected? : Option TypeRef) (e : Expr) : Conversion :=
  .ofEmit ((g.converter m).exprAs expected? e)

def convertStmt (s : Stmt) : Conversion := .ofEmit ((g.converter m).stmt s)

/-- A statement list in one session, a line each. -/
def convertBody (ss : List Stmt) : Conversion :=
  .ofEmit do return joinLines (← (g.converter m).statements ss)

end Engine

end ComponentScript
