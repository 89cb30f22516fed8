/-
  ComponentScript.Rules.Structure — rules for the kinds of nodes that change their shape.
-/

import ComponentScript.Convert.Statement
import ComponentScript.Convert.SwitchExpr

namespace ComponentScript.Rules

def switchExpression : Rule Expr where
  name := "switch-expression"
  priority := Rule.structural
  applies _ _ e :=
    match e.kind with
    | .switchExpr .. => true
    | _ => false
  convert k e :=
    match e.kind with
    | .switchExpr scrutinee arms => k.switchExpr scrutinee arms
    | _ => return ""

def forEach : Rule Stmt where
  name := "for-each"
  priority := Rule.structural
  applies _ _ s :=
    match s.kind with
    | .forEach .. => true
    | _ => false
  convert k s :=
    match s.kind with
    | .forEach target iterable body isAwait => k.forEach target iterable body isAwait
    | _ => return ""

def resourceScope : Rule Stmt where
  name := "resource-scope"
  priority := Rule.structural
  applies _ _ s :=
    match s.kind with
    | .resource .. => true
    | _ => false
  convert k s :=
    match s.kind with
    | .resource ds resource? body? isAwait => k.resource ds resource? body? isAwait
    | _ => return ""

def switchStatement : Rule Stmt where
  name := "switch-statement"
  priority := Rule.structural
  applies _ _ s :=
    match s.kind with
    | .switchStmt .. => true
    | _ => false
  convert k s :=
    match s.kind with
    | .switchStmt scrutinee sections => k.switchStmt scrutinee sections
    | _ => return ""

end ComponentScript.Rules
