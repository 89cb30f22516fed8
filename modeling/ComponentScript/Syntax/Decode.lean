/-
  ComponentScript.Syntax.Decode — trees from JSON values.

  A node is read from its object by the field `kind`. The kinds stand in a table, and their
  order counts: a kind may be given by its number. Every reader of a part is a plain
  function of the readers for whole nodes; those are tied together by the depth of the
  value, since inner nodes lie in inner values.
-/

import ComponentScript.Json.Fields
import ComponentScript.Syntax.Tree

namespace ComponentScript

open Json

/-! ## Leaves -/

def Span.read : Reader Span :=
  readRecord (Span.mk <$> required "start" readUInt32 <*> required "end" readUInt32)

def readTypeRef : Nat → Reader TypeRef
  | 0 => fun _ _ => .error .shape
  | n + 1 => readRecord (
      TypeRef.mk <$> required "name" readString
        <*> defaulted "args" [] (readList (readTypeRef n))
        <*> defaulted "nullable" false readBool)

def TypeRef.read : Reader TypeRef := fun o j => readTypeRef j.depth o j

/-- The literal of a type word; all but null have a value. -/
def literalOf (o : Origin) : String → Option Json → Reading Literal
  | "null", none | "null", some .null => .ok .null
  | "bool", some j => .bool <$> readBool o j
  | "number", some j => .number <$> readString o j
  | "string", some j => .string <$> readString o j
  | "char", some j => .char <$> readChar o j
  | _, _ => .error .shape

/-- A literal: its type word and its value. As an array it has both. -/
def readLiteral : Reader Literal
  | _, .arr [_] => .error .shape
  | o, j => do
    let (type, value?) ← readRecord (
      Prod.mk <$> required "type" (readWord ["null", "bool", "number", "string", "char"] id)
        <*> defaulted "value" none (fun _ j => .ok (some j))) o j
    literalOf o type value?

def readLoopTarget : Reader LoopTarget :=
  readTagged "target" [
    ("name", .name <$> required "name" readString),
    ("tuple", .tuple <$> required "names" (readList readString))]

/-! ## Parts of nodes -/

/-- The readers of whole nodes that a part may hold. -/
structure NodeReaders where
  expr : Reader Expr
  stmt : Reader Stmt
  pattern : Reader Pattern

namespace NodeReaders

variable (n : NodeReaders)

def part : Reader InterpolationPart :=
  readTagged "part" [
    ("text", .text <$> required "text" readString),
    ("expr", .expr <$> required "expr" n.expr <*> nullable "format" readString)]

def argument : Reader Argument :=
  readRecord (
    Argument.mk <$> required "expr" n.expr
      <*> nullable "modifier" (readWord ArgModifier.all ArgModifier.word)
      <*> defaulted "declares" false readBool
      <*> nullable "name" readString)

def memberInit : Reader MemberInit :=
  readRecord (MemberInit.mk <$> required "name" readString <*> required "value" n.expr)

def dictEntry : Reader DictEntry :=
  readRecord (DictEntry.mk <$> required "key" n.expr <*> required "value" n.expr)

def initializer : Reader Initializer :=
  readTagged "initializer" [
    ("object", .object <$> required "members" (readList n.memberInit)),
    ("collection", .collection <$> required "elements" (readList n.expr)),
    ("dictionary", .dictionary <$> required "entries" (readList n.dictEntry))]

def param : Reader Param :=
  readRecord (
    Param.mk <$> required "name" readString
      <*> nullable "ty" TypeRef.read
      <*> nullable "default" n.expr
      <*> defaulted "is_params" false readBool)

/-- The body of a lambda: an object with one field, which names the form. -/
def lambdaBody : Reader LambdaBody :=
  readForm [
    ("expr", fun o j => .expr <$> n.expr o j),
    ("block", fun o j => .block <$> n.stmt o j)]

def switchArm : Reader SwitchArm :=
  readRecord (
    SwitchArm.mk <$> required "pattern" n.pattern
      <*> nullable "guard" n.expr
      <*> required "value" n.expr)

def subpattern : Reader Subpattern :=
  readRecord (Subpattern.mk <$> required "name" readString <*> required "pattern" n.pattern)

def declarator : Reader Declarator :=
  readRecord (Declarator.mk <$> required "name" readString <*> nullable "init" n.expr)

def forInit : Reader ForInit :=
  readTagged "init" [
    ("declaration",
      .declaration <$> nullable "ty" TypeRef.read
        <*> required "declarators" (readList n.declarator)),
    ("expressions", .expressions <$> required "exprs" (readList n.expr))]

def catchClause : Reader CatchClause :=
  readRecord (
    CatchClause.mk <$> nullable "ty" TypeRef.read
      <*> nullable "name" readString
      <*> nullable "filter" n.expr
      <*> required "body" n.stmt)

def switchLabel : Reader SwitchLabel :=
  readTagged "label" [
    ("case", .constant <$> required "value" n.expr),
    ("pattern",
      .pattern <$> required "pattern" n.pattern <*> nullable "guard" n.expr),
    ("default", pure .otherwise)]

def switchSection : Reader SwitchSection :=
  readRecord (SwitchSection.mk <$> required "labels" (readList n.switchLabel)
      <*> required "statements" (readList n.stmt))

/-! ## Nodes, given the readers of inner ones -/

def patternOf : Reader Pattern :=
  readTagged "kind" [
    ("discard", pure .discard),
    ("constant", .constant <$> required "value" n.expr),
    ("relational",
      .relational <$> required "op" (readWord BinaryOp.all BinaryOp.word)
        <*> required "value" n.expr),
    ("property",
      .property <$> nullable "ty" TypeRef.read
        <*> required "subpatterns" (readList n.subpattern)),
    ("type", .type <$> required "ty" TypeRef.read),
    ("not", .not <$> required "pattern" n.pattern),
    ("and", .and <$> required "left" n.pattern <*> required "right" n.pattern),
    ("or", .or <$> required "left" n.pattern <*> required "right" n.pattern)]

def exprKinds : Variants ExprKind := [
  ("identifier", .identifier <$> required "name" readString),
  ("this", pure .this),
  ("base", pure .base),
  ("literal", .literal <$> required "value" readLiteral),
  ("interpolated_string", .interpolated <$> required "parts" (readList n.part)),
  ("binary",
    .binary <$> required "op" (readWord BinaryOp.all BinaryOp.word)
      <*> required "left" n.expr <*> required "right" n.expr),
  ("unary",
    .unary <$> required "op" (readWord UnaryOp.all UnaryOp.word) <*> required "operand" n.expr),
  ("assignment",
    .assignment <$> required "op" (readWord AssignOp.all AssignOp.word)
      <*> required "target" n.expr <*> required "value" n.expr),
  ("member", .member <$> required "receiver" n.expr <*> required "name" readString),
  ("conditional_member",
    .conditionalMember <$> required "receiver" n.expr <*> required "name" readString),
  ("element_access",
    .elementAccess <$> required "receiver" n.expr <*> required "index" n.expr),
  ("invocation",
    .invocation <$> required "callee" n.expr
      <*> defaulted "type_args" [] (readList TypeRef.read)
      <*> defaulted "args" [] (readList n.argument)),
  ("object_creation",
    .objectCreation <$> nullable "ty" TypeRef.read
      <*> defaulted "args" [] (readList n.argument)
      <*> nullable "initializer" n.initializer),
  ("anonymous_object", .anonymousObject <$> required "members" (readList n.memberInit)),
  ("array_creation",
    .arrayCreation <$> nullable "element_type" TypeRef.read
      <*> nullable "size" n.expr
      <*> defaulted "elements" [] (readList n.expr)),
  ("conditional",
    .conditional <$> required "condition" n.expr <*> required "when_true" n.expr
      <*> required "when_false" n.expr),
  ("lambda",
    .lambda <$> required "params" (readList n.param) <*> required "body" n.lambdaBody
      <*> defaulted "is_async" false readBool),
  ("await", .await <$> required "operand" n.expr),
  ("cast", .cast <$> required "ty" TypeRef.read <*> required "operand" n.expr),
  ("is", .patternTest <$> required "operand" n.expr <*> required "pattern" n.pattern),
  ("name_of", .nameOf <$> required "name" readString),
  ("default", .defaultOf <$> nullable "ty" TypeRef.read),
  ("parenthesized", .parenthesized <$> required "inner" n.expr),
  ("switch_expr",
    .switchExpr <$> required "scrutinee" n.expr <*> required "arms" (readList n.switchArm)),
  ("other", .other <$> required "node_kind" readString <*> required "text" readString)]

/-- The span of a node, which need not be given. -/
def spanField : Fields Span := defaulted "span" Span.dummy Span.read

def exprOf : Reader Expr := readNode spanField "kind" n.exprKinds Expr.mk

def stmtKinds : Variants StmtKind := [
  ("block", .block <$> required "statements" (readList n.stmt)),
  ("local_decl",
    .declaration <$> nullable "ty" TypeRef.read
      <*> required "declarators" (readList n.declarator)
      <*> defaulted "is_const" false readBool),
  ("expression", .expression <$> required "expr" n.expr),
  ("if",
    .branch <$> required "condition" n.expr <*> required "then_branch" n.stmt
      <*> nullable "else_branch" n.stmt),
  ("while", .whileLoop <$> required "condition" n.expr <*> required "body" n.stmt),
  ("do_while", .doLoop <$> required "body" n.stmt <*> required "condition" n.expr),
  ("for",
    .forLoop <$> nullable "init" n.forInit <*> nullable "condition" n.expr
      <*> defaulted "updates" [] (readList n.expr) <*> required "body" n.stmt),
  ("for_each",
    .forEach <$> required "target" readLoopTarget <*> required "iterable" n.expr
      <*> required "body" n.stmt <*> defaulted "is_await" false readBool),
  ("return", .returns <$> nullable "value" n.expr),
  ("break", pure .breaks),
  ("continue", pure .continues),
  ("throw", .throws <$> nullable "value" n.expr),
  ("try",
    .tryCatch <$> required "body" n.stmt <*> defaulted "catches" [] (readList n.catchClause)
      <*> nullable "finally" n.stmt),
  ("using",
    .resource <$> defaulted "declarators" [] (readList n.declarator)
      <*> nullable "resource" n.expr <*> nullable "body" n.stmt
      <*> defaulted "is_await" false readBool),
  ("switch",
    .switchStmt <$> required "scrutinee" n.expr
      <*> required "sections" (readList n.switchSection)),
  ("lock", .lock <$> required "target" n.expr <*> required "body" n.stmt),
  ("local_function",
    .localFunction <$> required "name" readString <*> required "params" (readList n.param)
      <*> required "body" n.stmt <*> defaulted "is_async" false readBool),
  ("yield", .yields <$> nullable "value" n.expr),
  ("empty", pure .empty),
  ("other", .other <$> required "node_kind" readString <*> required "text" readString)]

def stmtOf : Reader Stmt := readNode spanField "kind" n.stmtKinds Stmt.mk

end NodeReaders

/-! ## Nodes -/

/-- The readers of nodes in values at most `depth` deep. -/
def nodeReaders : Nat → NodeReaders
  | 0 => ⟨fun _ _ => .error .shape, fun _ _ => .error .shape, fun _ _ => .error .shape⟩
  | depth + 1 =>
    let inner := nodeReaders depth
    ⟨inner.exprOf, inner.stmtOf, inner.patternOf⟩

def Expr.read : Reader Expr := fun o j => (nodeReaders j.depth).expr o j

def Stmt.read : Reader Stmt := fun o j => (nodeReaders j.depth).stmt o j

def Pattern.read : Reader Pattern := fun o j => (nodeReaders j.depth).pattern o j

def Argument.read : Reader Argument := fun o j => (nodeReaders j.depth).argument o j

def Param.read : Reader Param := fun o j => (nodeReaders j.depth).param o j

end ComponentScript
