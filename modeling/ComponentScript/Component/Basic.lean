/-
  ComponentScript.Component.Basic — components: named fields and methods.
-/

import ComponentScript.Syntax.Tree

namespace ComponentScript

structure FieldDecl where
  name : String
  type? : Option TypeRef := none
  init? : Option Expr := none

inductive MethodBody where
  | block (statements : List Stmt)
  | expression (expr : Expr)

structure MethodDecl where
  name : String
  span : Span := Span.dummy
  params : List Param := []
  returnType? : Option TypeRef := none
  isAsync : Bool := false
  /-- A declaration without an implementation has no body. -/
  body? : Option MethodBody := none

structure ComponentDecl where
  name : String
  fields : List FieldDecl := []
  methods : List MethodDecl := []

/-- Whether the method's result is no value, so that an expression body is a statement. -/
def MethodDecl.returnsNothing (m : MethodDecl) : Bool :=
  m.returnType?.any fun type =>
    let name := type.simpleName
    name = "void" || (type.args.isEmpty && (name = "Task" || name = "ValueTask"))

end ComponentScript
