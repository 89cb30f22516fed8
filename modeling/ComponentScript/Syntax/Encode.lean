/-
  ComponentScript.Syntax.Encode — trees as JSON values.

  A node is an object with its span and the field `kind` beside the fields of that kind.
  The dummy span, an empty list of type arguments and flags that are off are left out; a
  missing part is null.
-/

import ComponentScript.Json.Basic
import ComponentScript.Syntax.Tree

namespace ComponentScript

/-! ## Leaves -/

def Span.toJson (s : Span) : Json :=
  .obj [("start", .int s.start.toNat), ("end", .int s.stop.toNat)]

/-- A field that is written only when `present`. -/
def fieldIf (present : Bool) (key : String) (value : Json) : List (String × Json) :=
  if present then [(key, value)] else []

/-- The field of a span; the dummy span is left out. -/
def Span.field (s : Span) : List (String × Json) := fieldIf (!s.isDummy) "span" s.toJson

def optionJson {α : Type} (encode : α → Json) : Option α → Json
  | none => .null
  | some a => encode a

mutual
def TypeRef.toJson : TypeRef → Json
  | ⟨name, args, nullable⟩ =>
    .obj (("name", .str name) :: fieldIf (!args.isEmpty) "args" (.arr (typeRefsJson args))
      ++ fieldIf nullable "nullable" (.bool nullable))
def typeRefsJson : List TypeRef → List Json
  | [] => []
  | t :: ts => t.toJson :: typeRefsJson ts
end

def Literal.toJson : Literal → Json
  | .null => .obj [("type", .str "null")]
  | .bool b => .obj [("type", .str "bool"), ("value", .bool b)]
  | .number text => .obj [("type", .str "number"), ("value", .str text)]
  | .string s => .obj [("type", .str "string"), ("value", .str s)]
  | .char c => .obj [("type", .str "char"), ("value", .str (String.ofList [c]))]

def LoopTarget.toJson : LoopTarget → Json
  | .name n => .obj [("target", .str "name"), ("name", .str n)]
  | .tuple ns => .obj [("target", .str "tuple"), ("names", .arr (ns.map .str))]

/-! ## Nodes -/

mutual
def Expr.toJson : Expr → Json
  | ⟨span, kind⟩ => .obj (span.field ++ kind.fields)
def ExprKind.fields : ExprKind → List (String × Json)
  | .identifier name => [("kind", .str "identifier"), ("name", .str name)]
  | .this => [("kind", .str "this")]
  | .base => [("kind", .str "base")]
  | .literal value => [("kind", .str "literal"), ("value", value.toJson)]
  | .interpolated parts => [("kind", .str "interpolated_string"), ("parts", .arr (partsJson parts))]
  | .binary op left right =>
    [("kind", .str "binary"), ("op", .str op.word), ("left", left.toJson), ("right", right.toJson)]
  | .unary op operand => [("kind", .str "unary"), ("op", .str op.word), ("operand", operand.toJson)]
  | .assignment op target value =>
    [("kind", .str "assignment"), ("op", .str op.word), ("target", target.toJson),
     ("value", value.toJson)]
  | .member receiver name =>
    [("kind", .str "member"), ("receiver", receiver.toJson), ("name", .str name)]
  | .conditionalMember receiver name =>
    [("kind", .str "conditional_member"), ("receiver", receiver.toJson), ("name", .str name)]
  | .elementAccess receiver index =>
    [("kind", .str "element_access"), ("receiver", receiver.toJson), ("index", index.toJson)]
  | .invocation callee typeArgs args =>
    ("kind", .str "invocation") :: ("callee", callee.toJson)
      :: (fieldIf (!typeArgs.isEmpty) "type_args" (.arr (typeRefsJson typeArgs))
        ++ [("args", .arr (argumentsJson args))])
  | .objectCreation type? args initializer? =>
    [("kind", .str "object_creation"), ("ty", optionJson TypeRef.toJson type?),
     ("args", .arr (argumentsJson args)), ("initializer", initializerJson? initializer?)]
  | .anonymousObject members =>
    [("kind", .str "anonymous_object"), ("members", .arr (membersJson members))]
  | .arrayCreation elementType? size? elements =>
    [("kind", .str "array_creation"), ("element_type", optionJson TypeRef.toJson elementType?),
     ("size", exprJson? size?), ("elements", .arr (exprsJson elements))]
  | .conditional condition whenTrue whenFalse =>
    [("kind", .str "conditional"), ("condition", condition.toJson), ("when_true", whenTrue.toJson),
     ("when_false", whenFalse.toJson)]
  | .lambda params body isAsync =>
    [("kind", .str "lambda"), ("params", .arr (paramsJson params)), ("body", body.toJson),
     ("is_async", .bool isAsync)]
  | .await operand => [("kind", .str "await"), ("operand", operand.toJson)]
  | .cast type operand =>
    [("kind", .str "cast"), ("ty", type.toJson), ("operand", operand.toJson)]
  | .patternTest operand pattern =>
    [("kind", .str "is"), ("operand", operand.toJson), ("pattern", pattern.toJson)]
  | .nameOf name => [("kind", .str "name_of"), ("name", .str name)]
  | .defaultOf type? => [("kind", .str "default"), ("ty", optionJson TypeRef.toJson type?)]
  | .parenthesized inner => [("kind", .str "parenthesized"), ("inner", inner.toJson)]
  | .switchExpr scrutinee arms =>
    [("kind", .str "switch_expr"), ("scrutinee", scrutinee.toJson), ("arms", .arr (armsJson arms))]
  | .other nodeKind text =>
    [("kind", .str "other"), ("node_kind", .str nodeKind), ("text", .str text)]
def InterpolationPart.toJson : InterpolationPart → Json
  | .text text => .obj [("part", .str "text"), ("text", .str text)]
  | .expr expr format? =>
    .obj [("part", .str "expr"), ("expr", expr.toJson), ("format", optionJson Json.str format?)]
def partsJson : List InterpolationPart → List Json
  | [] => []
  | p :: ps => p.toJson :: partsJson ps
def Argument.toJson : Argument → Json
  | ⟨expr, modifier?, declares, name?⟩ =>
    .obj (("expr", expr.toJson) :: ("modifier", optionJson (fun m => Json.str m.word) modifier?)
      :: (fieldIf declares "declares" (.bool declares) ++ [("name", optionJson Json.str name?)]))
def argumentsJson : List Argument → List Json
  | [] => []
  | a :: as => a.toJson :: argumentsJson as
def Initializer.toJson : Initializer → Json
  | .object members =>
    .obj [("initializer", .str "object"), ("members", .arr (membersJson members))]
  | .collection elements =>
    .obj [("initializer", .str "collection"), ("elements", .arr (exprsJson elements))]
  | .dictionary entries =>
    .obj [("initializer", .str "dictionary"), ("entries", .arr (entriesJson entries))]
def initializerJson? : Option Initializer → Json
  | none => .null
  | some i => i.toJson
def MemberInit.toJson : MemberInit → Json
  | ⟨name, value⟩ => .obj [("name", .str name), ("value", value.toJson)]
def membersJson : List MemberInit → List Json
  | [] => []
  | m :: ms => m.toJson :: membersJson ms
def DictEntry.toJson : DictEntry → Json
  | ⟨key, value⟩ => .obj [("key", key.toJson), ("value", value.toJson)]
def entriesJson : List DictEntry → List Json
  | [] => []
  | e :: es => e.toJson :: entriesJson es
def Param.toJson : Param → Json
  | ⟨name, type?, default?, isRest⟩ =>
    .obj (("name", .str name) :: ("ty", optionJson TypeRef.toJson type?)
      :: ("default", exprJson? default?) :: fieldIf isRest "is_params" (.bool isRest))
def paramsJson : List Param → List Json
  | [] => []
  | p :: ps => p.toJson :: paramsJson ps
def LambdaBody.toJson : LambdaBody → Json
  | .expr expr => .obj [("expr", expr.toJson)]
  | .block block => .obj [("block", block.toJson)]
def SwitchArm.toJson : SwitchArm → Json
  | ⟨pattern, guard?, value⟩ =>
    .obj [("pattern", pattern.toJson), ("guard", exprJson? guard?), ("value", value.toJson)]
def armsJson : List SwitchArm → List Json
  | [] => []
  | a :: as => a.toJson :: armsJson as
def Pattern.toJson : Pattern → Json
  | .discard => .obj [("kind", .str "discard")]
  | .constant value => .obj [("kind", .str "constant"), ("value", value.toJson)]
  | .relational op value =>
    .obj [("kind", .str "relational"), ("op", .str op.word), ("value", value.toJson)]
  | .property type? subpatterns =>
    .obj [("kind", .str "property"), ("ty", optionJson TypeRef.toJson type?),
      ("subpatterns", .arr (subpatternsJson subpatterns))]
  | .type type => .obj [("kind", .str "type"), ("ty", type.toJson)]
  | .not pattern => .obj [("kind", .str "not"), ("pattern", pattern.toJson)]
  | .and left right => .obj [("kind", .str "and"), ("left", left.toJson), ("right", right.toJson)]
  | .or left right => .obj [("kind", .str "or"), ("left", left.toJson), ("right", right.toJson)]
def Subpattern.toJson : Subpattern → Json
  | ⟨name, pattern⟩ => .obj [("name", .str name), ("pattern", pattern.toJson)]
def subpatternsJson : List Subpattern → List Json
  | [] => []
  | s :: ss => s.toJson :: subpatternsJson ss
def exprsJson : List Expr → List Json
  | [] => []
  | e :: es => e.toJson :: exprsJson es
def exprJson? : Option Expr → Json
  | none => .null
  | some e => e.toJson
def Stmt.toJson : Stmt → Json
  | ⟨span, kind⟩ => .obj (span.field ++ kind.fields)
def StmtKind.fields : StmtKind → List (String × Json)
  | .block statements => [("kind", .str "block"), ("statements", .arr (stmtsJson statements))]
  | .declaration type? declarators isConst =>
    [("kind", .str "local_decl"), ("ty", optionJson TypeRef.toJson type?),
     ("declarators", .arr (declaratorsJson declarators)), ("is_const", .bool isConst)]
  | .expression expr => [("kind", .str "expression"), ("expr", expr.toJson)]
  | .branch condition thenBranch elseBranch? =>
    [("kind", .str "if"), ("condition", condition.toJson), ("then_branch", thenBranch.toJson),
     ("else_branch", stmtJson? elseBranch?)]
  | .whileLoop condition body =>
    [("kind", .str "while"), ("condition", condition.toJson), ("body", body.toJson)]
  | .doLoop body condition =>
    [("kind", .str "do_while"), ("body", body.toJson), ("condition", condition.toJson)]
  | .forLoop init? condition? updates body =>
    [("kind", .str "for"), ("init", forInitJson? init?), ("condition", exprJson? condition?),
     ("updates", .arr (exprsJson updates)), ("body", body.toJson)]
  | .forEach target iterable body isAwait =>
    [("kind", .str "for_each"), ("target", target.toJson), ("iterable", iterable.toJson),
     ("body", body.toJson), ("is_await", .bool isAwait)]
  | .returns value? => [("kind", .str "return"), ("value", exprJson? value?)]
  | .breaks => [("kind", .str "break")]
  | .continues => [("kind", .str "continue")]
  | .throws value? => [("kind", .str "throw"), ("value", exprJson? value?)]
  | .tryCatch body catches finally? =>
    [("kind", .str "try"), ("body", body.toJson), ("catches", .arr (clausesJson catches)),
     ("finally", stmtJson? finally?)]
  | .resource declarators resource? body? isAwait =>
    [("kind", .str "using"), ("declarators", .arr (declaratorsJson declarators)),
     ("resource", exprJson? resource?), ("body", stmtJson? body?), ("is_await", .bool isAwait)]
  | .switchStmt scrutinee sections =>
    [("kind", .str "switch"), ("scrutinee", scrutinee.toJson),
     ("sections", .arr (sectionsJson sections))]
  | .lock target body => [("kind", .str "lock"), ("target", target.toJson), ("body", body.toJson)]
  | .localFunction name params body isAsync =>
    [("kind", .str "local_function"), ("name", .str name), ("params", .arr (paramsJson params)),
     ("body", body.toJson), ("is_async", .bool isAsync)]
  | .yields value? => [("kind", .str "yield"), ("value", exprJson? value?)]
  | .empty => [("kind", .str "empty")]
  | .other nodeKind text =>
    [("kind", .str "other"), ("node_kind", .str nodeKind), ("text", .str text)]
def Declarator.toJson : Declarator → Json
  | ⟨name, init?⟩ => .obj [("name", .str name), ("init", exprJson? init?)]
def declaratorsJson : List Declarator → List Json
  | [] => []
  | d :: ds => d.toJson :: declaratorsJson ds
def ForInit.toJson : ForInit → Json
  | .declaration type? declarators =>
    .obj [("init", .str "declaration"), ("ty", optionJson TypeRef.toJson type?),
      ("declarators", .arr (declaratorsJson declarators))]
  | .expressions exprs => .obj [("init", .str "expressions"), ("exprs", .arr (exprsJson exprs))]
def forInitJson? : Option ForInit → Json
  | none => .null
  | some i => i.toJson
def CatchClause.toJson : CatchClause → Json
  | ⟨type?, name?, filter?, body⟩ =>
    .obj [("ty", optionJson TypeRef.toJson type?), ("name", optionJson Json.str name?),
      ("filter", exprJson? filter?), ("body", body.toJson)]
def clausesJson : List CatchClause → List Json
  | [] => []
  | c :: cs => c.toJson :: clausesJson cs
def SwitchSection.toJson : SwitchSection → Json
  | ⟨labels, statements⟩ =>
    .obj [("labels", .arr (labelsJson labels)), ("statements", .arr (stmtsJson statements))]
def sectionsJson : List SwitchSection → List Json
  | [] => []
  | s :: ss => s.toJson :: sectionsJson ss
def SwitchLabel.toJson : SwitchLabel → Json
  | .constant value => .obj [("label", .str "case"), ("value", value.toJson)]
  | .pattern pattern guard? =>
    .obj [("label", .str "pattern"), ("pattern", pattern.toJson), ("guard", exprJson? guard?)]
  | .otherwise => .obj [("label", .str "default")]
def labelsJson : List SwitchLabel → List Json
  | [] => []
  | l :: ls => l.toJson :: labelsJson ls
def stmtsJson : List Stmt → List Json
  | [] => []
  | s :: ss => s.toJson :: stmtsJson ss
def stmtJson? : Option Stmt → Json
  | none => .null
  | some s => s.toJson
end

end ComponentScript
