/-
  ComponentScript.Syntax.Build — nodes made in code, all at the dummy span.
-/

import ComponentScript.Syntax.Tree

namespace ComponentScript

namespace TypeRef

def named (name : String) : TypeRef := ⟨name, [], false⟩

def generic (name : String) (args : List TypeRef) : TypeRef := ⟨name, args, false⟩

end TypeRef

namespace Param

def named (name : String) : Param := ⟨name, none, none, false⟩

end Param

namespace Expr

def of (kind : ExprKind) : Expr := ⟨Span.dummy, kind⟩

def withSpan (e : Expr) (start stop : UInt32) : Expr := ⟨⟨start, stop⟩, e.kind⟩

def ident (name : String) : Expr := of (.identifier name)

def this : Expr := of .this

def lit (value : Literal) : Expr := of (.literal value)

def null : Expr := lit .null

def bool (b : Bool) : Expr := lit (.bool b)

def int (n : Int) : Expr := lit (.number (toString n))

def number (text : String) : Expr := lit (.number text)

def string (s : String) : Expr := lit (.string s)

def binary (left : Expr) (op : BinaryOp) (right : Expr) : Expr := of (.binary op left right)

def unary (op : UnaryOp) (operand : Expr) : Expr := of (.unary op operand)

def assign (target value : Expr) : Expr := of (.assignment .assign target value)

def member (receiver : Expr) (name : String) : Expr := of (.member receiver name)

def index (receiver index : Expr) : Expr := of (.elementAccess receiver index)

end Expr

namespace Argument

def positional (e : Expr) : Argument := ⟨e, none, false, none⟩

/-- An argument that declares the variable it is passed to. -/
def outVar (name : String) : Argument := ⟨Expr.ident name, some .out, true, none⟩

end Argument

namespace Expr

def call (callee : Expr) (args : List Expr) : Expr :=
  of (.invocation callee [] (args.map Argument.positional))

def methodCall (receiver : Expr) (name : String) (args : List Expr) : Expr :=
  call (member receiver name) args

/-- A call with type arguments, of a method or of a bare name. -/
def genericCall (receiver? : Option Expr) (name : String) (typeArgs : List TypeRef)
    (args : List Argument) : Expr :=
  let callee := match receiver? with
    | some receiver => member receiver name
    | none => ident name
  of (.invocation callee typeArgs args)

def newObject (type : TypeRef) (args : List Expr) : Expr :=
  of (.objectCreation (some type) (args.map Argument.positional) none)

def lambdaOf (params : List String) (body : Expr) : Expr :=
  of (.lambda (params.map Param.named) (.expr body) false)

def lambda (param : String) (body : Expr) : Expr := lambdaOf [param] body

def conditional (condition whenTrue whenFalse : Expr) : Expr :=
  of (.conditional condition whenTrue whenFalse)

def await (operand : Expr) : Expr := of (.await operand)

def paren (inner : Expr) : Expr := of (.parenthesized inner)

def other (nodeKind text : String) : Expr := of (.other nodeKind text)

end Expr

namespace Stmt

def of (kind : StmtKind) : Stmt := ⟨Span.dummy, kind⟩

def withSpan (s : Stmt) (start stop : UInt32) : Stmt := ⟨⟨start, stop⟩, s.kind⟩

def expr (e : Expr) : Stmt := of (.expression e)

def block (statements : List Stmt) : Stmt := of (.block statements)

/-- One variable with its initial value. -/
def declare (name : String) (init : Expr) : Stmt := of (.declaration none [⟨name, some init⟩] false)

def declareTyped (type : TypeRef) (name : String) (init? : Option Expr) : Stmt :=
  of (.declaration (some type) [⟨name, init?⟩] false)

def ret (value? : Option Expr) : Stmt := of (.returns value?)

def branch (condition : Expr) (thenBranch : Stmt) (elseBranch? : Option Stmt) : Stmt :=
  of (.branch condition thenBranch elseBranch?)

def whileLoop (condition : Expr) (body : Stmt) : Stmt := of (.whileLoop condition body)

def forEach (name : String) (iterable : Expr) (body : Stmt) : Stmt :=
  of (.forEach (.name name) iterable body false)

def resource (declarators : List Declarator) (body? : Option Stmt) : Stmt :=
  of (.resource declarators none body? false)

def other (nodeKind text : String) : Stmt := of (.other nodeKind text)

end Stmt

end ComponentScript
