/-
  ComponentScript.Component.Json — component declarations as JSON, and read from it.
-/

import ComponentScript.Component.Basic
import ComponentScript.Json.Grammar
import ComponentScript.Syntax.Decode
import ComponentScript.Syntax.Encode

namespace ComponentScript

open Json

namespace FieldDecl

def toJson (f : FieldDecl) : Json :=
  .obj [("name", .str f.name), ("ty", optionJson TypeRef.toJson f.type?),
    ("init", optionJson Expr.toJson f.init?)]

def read : Reader FieldDecl :=
  readRecord (
    FieldDecl.mk <$> required "name" readString
      <*> nullable "ty" TypeRef.read
      <*> nullable "init" Expr.read)

end FieldDecl

namespace MethodBody

def toJson : MethodBody → Json
  | .block statements => .obj [("form", .str "block"), ("statements", .arr (stmtsJson statements))]
  | .expression e => .obj [("form", .str "expression"), ("expr", e.toJson)]

def read : Reader MethodBody :=
  readTagged "form" [
    ("block", .block <$> required "statements" (readList Stmt.read)),
    ("expression", .expression <$> required "expr" Expr.read)]

end MethodBody

namespace MethodDecl

def toJson (m : MethodDecl) : Json :=
  .obj (("name", .str m.name) :: m.span.field ++
    [("params", .arr (paramsJson m.params)),
     ("return_type", optionJson TypeRef.toJson m.returnType?),
     ("is_async", .bool m.isAsync),
     ("body", optionJson MethodBody.toJson m.body?)])

def read : Reader MethodDecl :=
  readRecord (
    MethodDecl.mk <$> required "name" readString
      <*> defaulted "span" Span.dummy Span.read
      <*> defaulted "params" [] (readList Param.read)
      <*> nullable "return_type" TypeRef.read
      <*> defaulted "is_async" false readBool
      <*> nullable "body" MethodBody.read)

end MethodDecl

namespace ComponentDecl

def toJson (c : ComponentDecl) : Json :=
  .obj [("name", .str c.name), ("fields", .arr (c.fields.map FieldDecl.toJson)),
    ("methods", .arr (c.methods.map MethodDecl.toJson))]

def read : Reader ComponentDecl :=
  readRecord (
    ComponentDecl.mk <$> required "name" readString
      <*> defaulted "fields" [] (readList FieldDecl.read)
      <*> defaulted "methods" [] (readList MethodDecl.read))

/-- The component of a declaration text. -/
def ofText (text : String) : Reading ComponentDecl := readWhole read text

end ComponentDecl

end ComponentScript
