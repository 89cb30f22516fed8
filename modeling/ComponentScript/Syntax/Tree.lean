/-
  ComponentScript.Syntax.Tree — expressions, statements and patterns of component logic.

  A node is a span and a kind. Parts that only occur inside a node (arguments, arms,
  declarators, ...) are records without a span of their own. A construct that has no
  structured kind is `other`: its source text and the name of its kind.
-/

import ComponentScript.Syntax.Operator
import ComponentScript.Syntax.Span
import ComponentScript.Syntax.TypeRef

namespace ComponentScript

/-- A literal. A number is kept as it is written, suffixes included. -/
inductive Literal where
  | null
  | bool (b : Bool)
  | number (text : String)
  | string (s : String)
  | char (c : Char)
  deriving DecidableEq

/-- What a loop over elements binds: one name, or a name for each component of a tuple. -/
inductive LoopTarget where
  | name (name : String)
  | tuple (names : List String)

def LoopTarget.names : LoopTarget → List String
  | .name n => [n]
  | .tuple ns => ns

mutual

structure Expr where
  span : Span := {}
  kind : ExprKind

inductive ExprKind where
  | identifier (name : String)
  | this
  | base
  | literal (value : Literal)
  | interpolated (parts : List InterpolationPart)
  | binary (op : BinaryOp) (left right : Expr)
  | unary (op : UnaryOp) (operand : Expr)
  | assignment (op : AssignOp) (target value : Expr)
  | member (receiver : Expr) (name : String)
  /-- `receiver?.name` -/
  | conditionalMember (receiver : Expr) (name : String)
  | elementAccess (receiver index : Expr)
  | invocation (callee : Expr) (typeArgs : List TypeRef) (args : List Argument)
  /-- `new T(args) { initializer }`; the type is absent when it is left to the context. -/
  | objectCreation (type? : Option TypeRef) (args : List Argument) (initializer? : Option Initializer)
  | anonymousObject (members : List MemberInit)
  /-- `new T[size]`, or an array of given elements. -/
  | arrayCreation (elementType? : Option TypeRef) (size? : Option Expr) (elements : List Expr)
  | conditional (condition whenTrue whenFalse : Expr)
  | lambda (params : List Param) (body : LambdaBody) (isAsync : Bool)
  | await (operand : Expr)
  | cast (type : TypeRef) (operand : Expr)
  /-- `operand is pattern` -/
  | patternTest (operand : Expr) (pattern : Pattern)
  | nameOf (name : String)
  | defaultOf (type? : Option TypeRef)
  | parenthesized (inner : Expr)
  /-- `scrutinee switch { pattern => value, ... }` -/
  | switchExpr (scrutinee : Expr) (arms : List SwitchArm)
  | other (nodeKind text : String)

inductive InterpolationPart where
  | text (text : String)
  | expr (expr : Expr) (format? : Option String)

structure Argument where
  expr : Expr
  modifier? : Option ArgModifier := none
  /-- The argument also declares the variable it names. -/
  declares : Bool := false
  name? : Option String := none

inductive Initializer where
  /-- `{ Name = value, ... }` -/
  | object (members : List MemberInit)
  /-- `{ a, b, ... }` -/
  | collection (elements : List Expr)
  /-- `{ [key] = value, ... }` -/
  | dictionary (entries : List DictEntry)

structure MemberInit where
  name : String
  value : Expr

structure DictEntry where
  key : Expr
  value : Expr

structure Param where
  name : String
  type? : Option TypeRef := none
  default? : Option Expr := none
  /-- Takes all further arguments. -/
  isRest : Bool := false

inductive LambdaBody where
  | expr (expr : Expr)
  | block (block : Stmt)

structure SwitchArm where
  pattern : Pattern
  guard? : Option Expr := none
  value : Expr

inductive Pattern where
  /-- `_` -/
  | discard
  | constant (value : Expr)
  /-- `> 5`, `<= limit` -/
  | relational (op : BinaryOp) (value : Expr)
  /-- `T { Name: "x", Age: > 18 }` -/
  | property (type? : Option TypeRef) (subpatterns : List Subpattern)
  | type (type : TypeRef)
  | not (pattern : Pattern)
  | and (left right : Pattern)
  | or (left right : Pattern)

structure Subpattern where
  name : String
  pattern : Pattern

structure Stmt where
  span : Span := {}
  kind : StmtKind

inductive StmtKind where
  | block (statements : List Stmt)
  | declaration (type? : Option TypeRef) (declarators : List Declarator) (isConst : Bool)
  | expression (expr : Expr)
  | branch (condition : Expr) (thenBranch : Stmt) (elseBranch? : Option Stmt)
  | whileLoop (condition : Expr) (body : Stmt)
  | doLoop (body : Stmt) (condition : Expr)
  | forLoop (init? : Option ForInit) (condition? : Option Expr) (updates : List Expr) (body : Stmt)
  | forEach (target : LoopTarget) (iterable : Expr) (body : Stmt) (isAwait : Bool)
  | returns (value? : Option Expr)
  | breaks
  | continues
  /-- Without a value, the error caught by the enclosing clause is thrown again. -/
  | throws (value? : Option Expr)
  | tryCatch (body : Stmt) (catches : List CatchClause) (finally? : Option Stmt)
  /-- A resource scope: over its body, or without one over the statements that follow. -/
  | resource (declarators : List Declarator) (resource? : Option Expr) (body? : Option Stmt)
      (isAwait : Bool)
  | switchStmt (scrutinee : Expr) (sections : List SwitchSection)
  | lock (target : Expr) (body : Stmt)
  | localFunction (name : String) (params : List Param) (body : Stmt) (isAsync : Bool)
  /-- Without a value, the sequence ends. -/
  | yields (value? : Option Expr)
  | empty
  | other (nodeKind text : String)

structure Declarator where
  name : String
  init? : Option Expr := none

inductive ForInit where
  | declaration (type? : Option TypeRef) (declarators : List Declarator)
  | expressions (exprs : List Expr)

structure CatchClause where
  type? : Option TypeRef := none
  name? : Option String := none
  filter? : Option Expr := none
  body : Stmt

structure SwitchSection where
  labels : List SwitchLabel
  statements : List Stmt

inductive SwitchLabel where
  | constant (value : Expr)
  | pattern (pattern : Pattern) (guard? : Option Expr)
  | otherwise

end

/-! ## Names of kinds -/

/-- The name of a node's kind, as diagnostics give it. -/
def Expr.kindName (e : Expr) : String :=
  match e.kind with
  | .identifier _ => "identifier"
  | .this => "this"
  | .base => "base"
  | .literal _ => "literal"
  | .interpolated _ => "interpolated_string"
  | .binary .. => "binary"
  | .unary .. => "unary"
  | .assignment .. => "assignment"
  | .member .. => "member"
  | .conditionalMember .. => "conditional_member"
  | .elementAccess .. => "element_access"
  | .invocation .. => "invocation"
  | .objectCreation .. => "object_creation"
  | .anonymousObject _ => "anonymous_object"
  | .arrayCreation .. => "array_creation"
  | .conditional .. => "conditional"
  | .lambda .. => "lambda"
  | .await _ => "await"
  | .cast .. => "cast"
  | .patternTest .. => "is"
  | .nameOf _ => "nameof"
  | .defaultOf _ => "default"
  | .parenthesized _ => "parenthesized"
  | .switchExpr .. => "switch_expr"
  | .other nodeKind _ => nodeKind

@[inherit_doc Expr.kindName]
def Stmt.kindName (s : Stmt) : String :=
  match s.kind with
  | .block _ => "block"
  | .declaration .. => "local_decl"
  | .expression _ => "expression"
  | .branch .. => "if"
  | .whileLoop .. => "while"
  | .doLoop .. => "do_while"
  | .forLoop .. => "for"
  | .forEach .. => "for_each"
  | .returns _ => "return"
  | .breaks => "break"
  | .continues => "continue"
  | .throws _ => "throw"
  | .tryCatch .. => "try"
  | .resource .. => "using"
  | .switchStmt .. => "switch"
  | .lock .. => "lock"
  | .localFunction .. => "local_function"
  | .yields _ => "yield"
  | .empty => "empty"
  | .other nodeKind _ => nodeKind

/-- The statements of a block, or the statement itself. -/
def Stmt.statements (s : Stmt) : List Stmt :=
  match s.kind with
  | .block statements => statements
  | _ => [s]

end ComponentScript
