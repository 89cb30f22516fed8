/-
  ComponentScript.Convert.Call — calls and members, and what their receivers are.

  Rules know a call by the name of its method and by its receiver. The model decides what a
  receiver is where it resolves it; otherwise the text does.
-/

import ComponentScript.Convert.Converter

namespace ComponentScript

/-- An invocation as `receiver.name<typeArgs>(args)`; a bare call has no receiver. -/
structure Call where
  receiver? : Option Expr
  name : String
  typeArgs : List TypeRef
  args : List Argument

namespace Call

def arity (c : Call) : Nat := c.args.length

def arg? (c : Call) (i : Nat) : Option Expr := c.args[i]?.map (·.expr)

end Call

namespace Expr

/-- The call an expression is, if its callee is a name or a member. -/
def call? (e : Expr) : Option Call :=
  match e.kind with
  | .invocation callee typeArgs args =>
    match callee.kind with
    | .member receiver name => some ⟨some receiver, name, typeArgs, args⟩
    | .identifier name => some ⟨none, name, typeArgs, args⟩
    | _ => none
  | _ => none

/-- The receiver and the name of a member access. -/
def memberAccess? (e : Expr) : Option (Expr × String) :=
  match e.kind with
  | .member receiver name => some (receiver, name)
  | _ => none

def isNull (e : Expr) : Bool :=
  match e.kind with
  | .literal .null => true
  | _ => false

/-- The text of a string literal. -/
def stringLiteral? (e : Expr) : Option String :=
  match e.kind with
  | .literal (.string s) => some s
  | _ => none

/-- A variable, `this`, a literal, or a member path over them: it can be read twice without
    a side effect. -/
def isPlain : Expr → Bool
  | ⟨_, .identifier _⟩ => true
  | ⟨_, .this⟩ => true
  | ⟨_, .literal _⟩ => true
  | ⟨_, .member receiver _⟩ => isPlain receiver
  | ⟨_, .parenthesized inner⟩ => isPlain inner
  | _ => false

end Expr

namespace Env

variable (env : Env) (s : Session)

/-- Whether an expression names one of `types`. A resolved one must be a type; an
    unresolved bare name must not be bound. -/
def isTypeName (types : List String) (e : Expr) : Bool :=
  let names (name : String) (unresolved : Bool) : Bool :=
    types.contains name &&
      match env.model.symbolOf e with
      | some symbol => symbol.kind = .type
      | none => unresolved
  match e.kind with
  | .identifier name => names name (!s.isBound name)
  | .member _ name => names name true
  | _ => false

/-- Whether a member belongs to a type: by its declaring type where the model knows it, else
    by the name of its receiver. -/
def isMemberOf (c : Category) (types : List String) (receiver e : Expr) : Bool :=
  (env.model.declaredIn e c).getD (env.isTypeName s types receiver)

/-- The keywords that name types and take static calls. -/
def keywordTypes : List String :=
  ["int", "long", "short", "byte", "float", "double", "decimal", "string", "bool", "char", "object",
   "uint", "ulong"]

/-- Whether an expression is a type and not a value. -/
def isStaticReceiver (e : Expr) : Bool :=
  match env.model.symbolOf e with
  | some symbol => symbol.kind.isStatic
  | none =>
    match e.kind with
    | .identifier name =>
      !s.isBound name && (env.settings.isWellKnownType name || keywordTypes.contains name)
    | _ => false

/-- The family of the receiver of a call, else of the type that declares its method. -/
def receiverCategory (call : Call) (e : Expr) : Option Category :=
  call.receiver?.bind env.model.category <|> env.model.declaringCategory e

/-- The name a type is looked up by: of the resolved type, else of the type argument. -/
def typeKey? (e : Expr) (typeArg? : Option TypeRef) : Option String :=
  (env.model.typeOf e).map (·.simpleName) <|> typeArg?.map (·.simpleName)

end Env

namespace Converter

variable (k : Converter)

/-- An argument of a call; nothing if there is none. -/
def argument (call : Call) (i : Nat) : Emit String :=
  match call.arg? i with
  | some e => k.expr e
  | none => return ""

def argumentOperand (call : Call) (i : Nat) : Emit String :=
  match call.arg? i with
  | some e => k.operand e
  | none => return ""

end Converter

end ComponentScript
