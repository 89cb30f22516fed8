/-
  ComponentScript.Syntax.Depth — how deep a tree is.

  Every node is deeper than the nodes inside it, so a conversion that only goes to inner
  nodes ends within as many steps as its tree is deep.
-/

import ComponentScript.Syntax.Tree

namespace ComponentScript

mutual
def Expr.depth : Expr → Nat
  | ⟨_, kind⟩ => kind.depth + 1
def ExprKind.depth : ExprKind → Nat
  | .identifier _ | .this | .base | .literal _ | .nameOf _ | .defaultOf _ | .other .. => 0
  | .interpolated parts => depthParts parts
  | .binary _ left right => max left.depth right.depth
  | .unary _ operand => operand.depth
  | .assignment _ target value => max target.depth value.depth
  | .member receiver _ => receiver.depth
  | .conditionalMember receiver _ => receiver.depth
  | .elementAccess receiver index => max receiver.depth index.depth
  | .invocation callee _ args => max callee.depth (depthArguments args)
  | .objectCreation _ args initializer? =>
    max (depthArguments args) (depthInitializer? initializer?)
  | .anonymousObject members => depthMembers members
  | .arrayCreation _ size? elements => max (depthExpr? size?) (depthExprs elements)
  | .conditional condition whenTrue whenFalse =>
    max condition.depth (max whenTrue.depth whenFalse.depth)
  | .lambda params body _ => max (depthParams params) body.depth
  | .await operand => operand.depth
  | .cast _ operand => operand.depth
  | .patternTest operand pattern => max operand.depth pattern.depth
  | .parenthesized inner => inner.depth
  | .switchExpr scrutinee arms => max scrutinee.depth (depthArms arms)
def InterpolationPart.depth : InterpolationPart → Nat
  | .text _ => 0
  | .expr expr _ => expr.depth
def depthParts : List InterpolationPart → Nat
  | [] => 0
  | p :: ps => max p.depth (depthParts ps)
def Argument.depth : Argument → Nat
  | ⟨expr, _, _, _⟩ => expr.depth
def depthArguments : List Argument → Nat
  | [] => 0
  | a :: as => max a.depth (depthArguments as)
def Initializer.depth : Initializer → Nat
  | .object members => depthMembers members
  | .collection elements => depthExprs elements
  | .dictionary entries => depthEntries entries
def depthInitializer? : Option Initializer → Nat
  | none => 0
  | some i => i.depth
def MemberInit.depth : MemberInit → Nat
  | ⟨_, value⟩ => value.depth
def depthMembers : List MemberInit → Nat
  | [] => 0
  | m :: ms => max m.depth (depthMembers ms)
def DictEntry.depth : DictEntry → Nat
  | ⟨key, value⟩ => max key.depth value.depth
def depthEntries : List DictEntry → Nat
  | [] => 0
  | e :: es => max e.depth (depthEntries es)
def Param.depth : Param → Nat
  | ⟨_, _, default?, _⟩ => depthExpr? default?
def depthParams : List Param → Nat
  | [] => 0
  | p :: ps => max p.depth (depthParams ps)
def LambdaBody.depth : LambdaBody → Nat
  | .expr expr => expr.depth
  | .block block => block.depth
def SwitchArm.depth : SwitchArm → Nat
  | ⟨pattern, guard?, value⟩ => max pattern.depth (max (depthExpr? guard?) value.depth)
def depthArms : List SwitchArm → Nat
  | [] => 0
  | a :: as => max a.depth (depthArms as)
def Pattern.depth : Pattern → Nat
  | .discard => 0
  | .constant value => value.depth
  | .relational _ value => value.depth
  | .property _ subpatterns => depthSubpatterns subpatterns
  | .type _ => 0
  | .not pattern => pattern.depth
  | .and left right => max left.depth right.depth
  | .or left right => max left.depth right.depth
def Subpattern.depth : Subpattern → Nat
  | ⟨_, pattern⟩ => pattern.depth
def depthSubpatterns : List Subpattern → Nat
  | [] => 0
  | s :: ss => max s.depth (depthSubpatterns ss)
def depthExprs : List Expr → Nat
  | [] => 0
  | e :: es => max e.depth (depthExprs es)
def depthExpr? : Option Expr → Nat
  | none => 0
  | some e => e.depth
def Stmt.depth : Stmt → Nat
  | ⟨_, kind⟩ => kind.depth + 1
def StmtKind.depth : StmtKind → Nat
  | .breaks | .continues | .empty | .other .. => 0
  | .block statements => depthStmts statements
  | .declaration _ declarators _ => depthDeclarators declarators
  | .expression expr => expr.depth
  | .branch condition thenBranch elseBranch? =>
    max condition.depth (max thenBranch.depth (depthStmt? elseBranch?))
  | .whileLoop condition body => max condition.depth body.depth
  | .doLoop body condition => max body.depth condition.depth
  | .forLoop init? condition? updates body =>
    max (max (depthForInit? init?) (depthExpr? condition?)) (max (depthExprs updates) body.depth)
  | .forEach _ iterable body _ => max iterable.depth body.depth
  | .returns value? => depthExpr? value?
  | .throws value? => depthExpr? value?
  | .tryCatch body catches finally? =>
    max body.depth (max (depthClauses catches) (depthStmt? finally?))
  | .resource declarators resource? body? _ =>
    max (depthDeclarators declarators) (max (depthExpr? resource?) (depthStmt? body?))
  | .switchStmt scrutinee sections => max scrutinee.depth (depthSections sections)
  | .lock target body => max target.depth body.depth
  | .localFunction _ params body _ => max (depthParams params) body.depth
  | .yields value? => depthExpr? value?
def Declarator.depth : Declarator → Nat
  | ⟨_, init?⟩ => depthExpr? init?
def depthDeclarators : List Declarator → Nat
  | [] => 0
  | d :: ds => max d.depth (depthDeclarators ds)
def ForInit.depth : ForInit → Nat
  | .declaration _ declarators => depthDeclarators declarators
  | .expressions exprs => depthExprs exprs
def depthForInit? : Option ForInit → Nat
  | none => 0
  | some i => i.depth
def CatchClause.depth : CatchClause → Nat
  | ⟨_, _, filter?, body⟩ => max (depthExpr? filter?) body.depth
def depthClauses : List CatchClause → Nat
  | [] => 0
  | c :: cs => max c.depth (depthClauses cs)
def SwitchSection.depth : SwitchSection → Nat
  | ⟨labels, statements⟩ => max (depthLabels labels) (depthStmts statements)
def depthSections : List SwitchSection → Nat
  | [] => 0
  | s :: ss => max s.depth (depthSections ss)
def SwitchLabel.depth : SwitchLabel → Nat
  | .constant value => value.depth
  | .pattern pattern guard? => max pattern.depth (depthExpr? guard?)
  | .otherwise => 0
def depthLabels : List SwitchLabel → Nat
  | [] => 0
  | l :: ls => max l.depth (depthLabels ls)
def depthStmts : List Stmt → Nat
  | [] => 0
  | s :: ss => max s.depth (depthStmts ss)
def depthStmt? : Option Stmt → Nat
  | none => 0
  | some s => s.depth
end

end ComponentScript
