/-
  ComponentScript.Component.Convert — components as records of script text.

  Every field and every method is converted in a session of its own. A component needs a
  name, and every method of it a body.
-/

import ComponentScript.Component.Basic
import ComponentScript.Convert.Engine

namespace ComponentScript

open Text

inductive ConvertError where
  | missingName
  | missingBody (method : String)
  deriving DecidableEq

def ConvertError.message : ConvertError → String
  | .missingName => "component declaration has no name"
  | .missingBody method => s!"method `{method}` has no body to convert"

structure ConvertedField where
  name : String
  init? : Option String
  diagnostics : List Diagnostic

structure ConvertedMethod where
  name : String
  params : List String
  isAsync : Bool
  /-- The body with its braces. -/
  body : String
  diagnostics : List Diagnostic

structure ConvertedComponent where
  name : String
  fields : List ConvertedField
  methods : List ConvertedMethod

/-- All diagnostics, those of the fields first. -/
def ConvertedComponent.diagnostics (c : ConvertedComponent) : List Diagnostic :=
  c.fields.flatMap (·.diagnostics) ++ c.methods.flatMap (·.diagnostics)

/-! ## Output as JSON -/

def ConvertedField.toJson (f : ConvertedField) : Json :=
  .obj [("name", .str f.name), ("init", optionJson Json.str f.init?),
    ("diagnostics", .arr (f.diagnostics.map Diagnostic.toJson))]

def ConvertedMethod.toJson (m : ConvertedMethod) : Json :=
  .obj [("name", .str m.name), ("params", .arr (m.params.map Json.str)),
    ("is_async", .bool m.isAsync), ("body", .str m.body),
    ("diagnostics", .arr (m.diagnostics.map Diagnostic.toJson))]

def ConvertedComponent.toJson (c : ConvertedComponent) : Json :=
  .obj [("name", .str c.name), ("fields", .arr (c.fields.map ConvertedField.toJson)),
    ("methods", .arr (c.methods.map ConvertedMethod.toJson))]

/-! ## Conversion -/

/-- The statements of a method body. An expression is returned unless the method returns
    nothing. -/
def Converter.methodLines (k : Converter) (m : MethodDecl) : MethodBody → Emit (List String)
  | .block statements => k.statements statements
  | .expression e => do
    if m.returnsNothing then return [(← k.expr e) ++ ";"]
    else return ["return " ++ (← k.exprAs m.returnType? e) ++ ";"]

/-- The parameters of a method and its braced body; the parameters are in scope in all of
    it. -/
def Converter.method (k : Converter) (m : MethodDecl) (body : MethodBody) :
    Emit (List String × String) :=
  Emit.withScope (m.params.map (·.name)) do
    let params ← m.params.mapM k.param
    let lines ← k.methodLines m body
    return (params, Script.block lines k.indent)

namespace Engine

variable (g : Engine) (model : Model)

def convertField (f : FieldDecl) : ConvertedField :=
  let step : Emit (Option String) := f.init?.mapM ((g.converter model).exprAs f.type?)
  let (init?, session) := step.run {}
  ⟨Script.camelCase f.name, init?, session.diagnostics⟩

/-- A method with the given body. -/
def convertBodyOf (m : MethodDecl) (body : MethodBody) : ConvertedMethod :=
  let ((params, text), session) := ((g.converter model).method m body).run {}
  ⟨Script.camelCase m.name, params, m.isAsync, text, session.diagnostics⟩

def convertMethod (m : MethodDecl) : Except ConvertError ConvertedMethod :=
  match m.body? with
  | none => .error (.missingBody m.name)
  | some body => .ok (g.convertBodyOf model m body)

/-- A whole component. Of several methods without a body, the first is named. -/
def convertComponent (c : ComponentDecl) : Except ConvertError ConvertedComponent := do
  if (trim c.name.toList).isEmpty then throw .missingName
  let methods ← c.methods.mapM (g.convertMethod model)
  return ⟨c.name, c.fields.map (g.convertField model), methods⟩

end Engine

end ComponentScript
