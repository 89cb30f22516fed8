/-
  ComponentScript.Convert.Catching — catch clauses.

  The script catches all errors in one clause. A first clause that accepts every error is
  that clause. Otherwise the clauses share one binding and are tried in turn, and an error
  that none accepts is thrown again.
-/

import ComponentScript.Convert.Converter

namespace ComponentScript

namespace CatchClause

/-- The type the clause asks of an error; the root of all errors asks nothing. -/
def errorType? (c : CatchClause) : Option String :=
  (c.type?.map (·.simpleName)).filter (· ≠ "Exception")

/-- Whether the clause accepts every error. -/
def isCatchAll (c : CatchClause) : Bool := c.filter?.isNone && c.errorType?.isNone

end CatchClause

namespace Converter

variable (k : Converter)

/-- The filter of a clause, with the error under the name that the clause gives it. -/
def catchFilter (error : String) (name? : Option String) (filter : Expr) : Emit String :=
  match name? with
  | some name => do
    let condition ← Emit.withScope [name] (k.expr filter)
    return s!"(({name}) => {condition})({error})"
  | none => k.operand filter

/-- What an error must satisfy for the clause to take it. -/
def catchTests (error : String) (c : CatchClause) : Emit (List String) := do
  let filter? ← c.filter?.mapM (k.catchFilter error c.name?)
  let type? := c.errorType?.map fun name => s!"{error} instanceof {name}"
  return type?.toList ++ filter?.toList

/-- The body of a clause that shares its binding with others. -/
def catchBody (error : String) (c : CatchClause) : Emit String := do
  let lines ← Emit.withCatch error (k.statements c.body.statements)
  let binding := c.name?.map fun name => s!"const {name} = {error};"
  return Script.block (binding.toList ++ lines) k.indent

/-- The clauses as branches, up to the first without a condition. -/
def catchChain (error : String) : List CatchClause → Emit String
  | [] => return Script.block [s!"throw {error};"] k.indent
  | c :: rest => do
    let tests ← k.catchTests error c
    let body ← k.catchBody error c
    if tests.isEmpty then return body
    else
      let condition := " && ".intercalate tests
      let otherwise ← catchChain error rest
      return s!"if ({condition}) {body} else {otherwise}"

/-- What follows the word `catch`. -/
def catchClauses (clauses : List CatchClause) : Emit String :=
  match clauses.head?.filter CatchClause.isCatchAll with
  | some c => do
    let binding ← match c.name? with
      | some name => pure name
      | none => Emit.freshName "err"
    let body ← Emit.withCatch binding (k.block c.body)
    return s!"({binding}) {body}"
  | none => do
    let error ← Emit.freshName "err"
    let chain ← k.catchChain error clauses
    return s!"({error}) {Script.block [chain] k.indent}"

end Converter

end ComponentScript
