/-
  ComponentScript.Syntax.Operator — operators of the source and how the script spells them.

  Equality is strict in the script. The words are the names operators have in a tree that
  is written as JSON.
-/

namespace ComponentScript

inductive BinaryOp where
  | add | sub | mul | div | mod
  | eq | ne | lt | le | gt | ge
  | and | or | bitAnd | bitOr | bitXor | shl | shr
  | coalesce
  deriving DecidableEq

namespace BinaryOp

def all : List BinaryOp :=
  [.add, .sub, .mul, .div, .mod, .eq, .ne, .lt, .le, .gt, .ge, .and, .or, .bitAnd, .bitOr, .bitXor,
   .shl, .shr, .coalesce]

def word : BinaryOp → String
  | .add => "add" | .sub => "sub" | .mul => "mul" | .div => "div" | .mod => "mod"
  | .eq => "eq" | .ne => "ne" | .lt => "lt" | .le => "le" | .gt => "gt" | .ge => "ge"
  | .and => "and" | .or => "or" | .bitAnd => "bit_and" | .bitOr => "bit_or"
  | .bitXor => "bit_xor" | .shl => "shl" | .shr => "shr" | .coalesce => "coalesce"

/-- The operator in script text. -/
def symbol : BinaryOp → String
  | .add => "+" | .sub => "-" | .mul => "*" | .div => "/" | .mod => "%"
  | .eq => "===" | .ne => "!==" | .lt => "<" | .le => "<=" | .gt => ">" | .ge => ">="
  | .and => "&&" | .or => "||" | .bitAnd => "&" | .bitOr => "|"
  | .bitXor => "^" | .shl => "<<" | .shr => ">>" | .coalesce => "??"

def isLogical (op : BinaryOp) : Bool := op = .and || op = .or

end BinaryOp

inductive UnaryOp where
  | not | neg | plus | bitNot
  | preIncrement | preDecrement | postIncrement | postDecrement
  deriving DecidableEq

namespace UnaryOp

def all : List UnaryOp :=
  [.not, .neg, .plus, .bitNot, .preIncrement, .preDecrement, .postIncrement, .postDecrement]

def word : UnaryOp → String
  | .not => "not" | .neg => "neg" | .plus => "plus" | .bitNot => "bit_not"
  | .preIncrement => "pre_increment" | .preDecrement => "pre_decrement"
  | .postIncrement => "post_increment" | .postDecrement => "post_decrement"

/-- The operator around its operand. -/
def apply (op : UnaryOp) (operand : String) : String :=
  match op with
  | .not => "!" ++ operand
  | .neg => "-" ++ operand
  | .plus => "+" ++ operand
  | .bitNot => "~" ++ operand
  | .preIncrement => "++" ++ operand
  | .preDecrement => "--" ++ operand
  | .postIncrement => operand ++ "++"
  | .postDecrement => operand ++ "--"

end UnaryOp

inductive AssignOp where
  | assign | add | sub | mul | div | mod | and | or | xor | coalesce
  deriving DecidableEq

namespace AssignOp

def all : List AssignOp :=
  [.assign, .add, .sub, .mul, .div, .mod, .and, .or, .xor, .coalesce]

def word : AssignOp → String
  | .assign => "assign" | .add => "add" | .sub => "sub" | .mul => "mul" | .div => "div"
  | .mod => "mod" | .and => "and" | .or => "or" | .xor => "xor" | .coalesce => "coalesce"

def symbol : AssignOp → String
  | .assign => "=" | .add => "+=" | .sub => "-=" | .mul => "*=" | .div => "/="
  | .mod => "%=" | .and => "&=" | .or => "|=" | .xor => "^=" | .coalesce => "??="

end AssignOp

/-- How an argument is passed. -/
inductive ArgModifier where
  | out | ref | in_
  deriving DecidableEq

namespace ArgModifier

def all : List ArgModifier := [.out, .ref, .in_]

def word : ArgModifier → String
  | .out => "out" | .ref => "ref" | .in_ => "in"

end ArgModifier

end ComponentScript
