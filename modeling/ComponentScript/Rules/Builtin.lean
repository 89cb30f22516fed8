/-
  ComponentScript.Rules.Builtin — the built-in rules, in the order they are tried among
  equals.
-/

import ComponentScript.Rules.Arithmetic
import ComponentScript.Rules.Collection
import ComponentScript.Rules.Lookup
import ComponentScript.Rules.Printing
import ComponentScript.Rules.Promise
import ComponentScript.Rules.Query
import ComponentScript.Rules.Service
import ComponentScript.Rules.Strings
import ComponentScript.Rules.Structure

namespace ComponentScript.Rules

def builtinExprs : List (Rule Expr) :=
  [consolePrint, taskHelpers, serviceLookup, numericHelpers, stringHelpers, mapLookup,
   collectionProperties, collectionMethods, materialize, sequenceQuery, switchExpression]

def builtinStmts : List (Rule Stmt) := [forEach, resourceScope, switchStatement]

end ComponentScript.Rules
