/-
  ComponentScript.Model.Basic — the semantic model: what nodes resolve to.

  A model answers by span and may know nothing about any node, so every question about a
  node has an optional answer.
-/

import ComponentScript.Model.Symbol

namespace ComponentScript

structure Model where
  symbol : Span → Option SymbolInfo
  type : Span → Option TypeInfo

namespace Model

/-- The model that resolves nothing. -/
def empty : Model := ⟨fun _ => none, fun _ => none⟩

variable (m : Model)

def symbolOf (e : Expr) : Option SymbolInfo := m.symbol e.span

/-- The type the model has for a node, else the type of the symbol it resolves to. -/
def typeOf (e : Expr) : Option TypeInfo :=
  m.type e.span <|> (m.symbolOf e).bind (·.type?)

def category (e : Expr) : Option Category := (m.typeOf e).map (·.category)

/-- The type that declares the member a node resolves to: by the node itself, else, for a
    call, by its callee. -/
def declaringType (e : Expr) : Option String :=
  let own := (m.symbolOf e).bind (·.containingType?)
  match e.kind with
  | .invocation callee _ _ => own <|> (m.symbolOf callee).bind (·.containingType?)
  | _ => own

/-- The family of the declaring type. -/
def declaringCategory (e : Expr) : Option Category :=
  (m.declaringType e).map fun name => Category.ofName (simpleTypeName name)

/-- Whether the declaring type is of a family, if it is known. -/
def declaredIn (e : Expr) (c : Category) : Option Bool := (m.declaringCategory e).map (· = c)

end Model

end ComponentScript
