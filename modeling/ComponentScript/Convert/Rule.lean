/-
  ComponentScript.Convert.Rule — conversion rules and the order they are tried in.

  A rule says to which nodes it applies and how it converts them. What it needs for the
  parts of a node it gets from a `Converter`. A rule set holds rules by falling priority,
  and among equals in the order they were given: the first that applies is taken.
-/

import ComponentScript.Convert.Session
import ComponentScript.Model.Basic
import ComponentScript.Settings

namespace ComponentScript

/-- What stays the same during a conversion. -/
structure Env where
  settings : Settings := {}
  model : Model := Model.empty

/-- How the parts of a node are converted: expressions, with the type the context expects
    of them, and statements. -/
structure Converter extends Env where
  exprAs : Option TypeRef → Expr → Emit String
  stmt : Stmt → Emit String

structure Rule (ν : Type) where
  name : String
  priority : Int
  applies : Env → Session → ν → Bool
  convert : Converter → ν → Emit String

namespace Rule

/-- The priority of rules for one idiom of the source. -/
def idiom : Int := 100

/-- The priority of rules for a kind of node as a whole. -/
def structural : Int := 0

/-- A rule with a fixed output, for the given kinds of nodes or for all, that may end in a
    fresh name. -/
def fixed {ν : Type} (kindName : ν → String) (name : String) (priority : Int)
    (kinds? : Option (List String)) (output : String) (stem? : Option String) : Rule ν where
  name := name
  priority := priority
  applies _ _ node := kinds?.all (·.contains (kindName node))
  convert _ _ :=
    match stem? with
    | none => pure output
    | some stem => do return output ++ (← Emit.freshName stem)

end Rule

/-- Rules in the order of their resolution. -/
structure RuleSet (ν : Type) where
  rules : List (Rule ν)

namespace RuleSet

variable {ν : Type}

/-- The rules by falling priority; equal ones keep their order. -/
def ofList (rules : List (Rule ν)) : RuleSet ν :=
  ⟨rules.mergeSort fun a b => decide (b.priority ≤ a.priority)⟩

/-- The first rule that applies. -/
def find? (rs : RuleSet ν) (env : Env) (s : Session) (node : ν) : Option (Rule ν) :=
  rs.rules.find? fun r => r.applies env s node

def names (rs : RuleSet ν) : List String := rs.rules.map (·.name)

end RuleSet

end ComponentScript
