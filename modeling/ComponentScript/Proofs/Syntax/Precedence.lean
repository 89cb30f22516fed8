/-
  ComponentScript.Proofs.Syntax.Precedence — how tightly expressions hold together.

  Every expression has a level, and so has every place for an operand. `Node.Wrapped`: an
  operand of a lower level than its place is in parentheses, as it is in a tree that was read
  from source text.
-/

import ComponentScript.Proofs.Syntax.Everywhere

namespace ComponentScript

/-- How tightly an expression holds together, the loosest first. -/
inductive Level where
  | assignment | conditional | coalesce | or | and | bitOr | bitXor | bitAnd
  | equality | relational | shift | additive | multiplicative | switch | unary | primary
  deriving DecidableEq

namespace Level

instance : LE Level := ⟨fun l l' => l.ctorIdx ≤ l'.ctorIdx⟩

instance (l l' : Level) : Decidable (l ≤ l') := inferInstanceAs (Decidable (l.ctorIdx ≤ l'.ctorIdx))

theorem le_trans {l l' l'' : Level} (h : l ≤ l') (h' : l' ≤ l'') : l ≤ l'' := Nat.le_trans h h'

theorem le_primary (l : Level) : l ≤ primary := by cases l <;> decide

end Level

def BinaryOp.level : BinaryOp → Level
  | .mul | .div | .mod => .multiplicative
  | .add | .sub => .additive
  | .shl | .shr => .shift
  | .lt | .le | .gt | .ge => .relational
  | .eq | .ne => .equality
  | .bitAnd => .bitAnd
  | .bitXor => .bitXor
  | .bitOr => .bitOr
  | .and => .and
  | .or => .or
  | .coalesce => .coalesce

def UnaryOp.level : UnaryOp → Level
  | .postIncrement | .postDecrement => .primary
  | _ => .unary

namespace Expr

def level (e : Expr) : Level :=
  match e.kind with
  | .binary op _ _ => op.level
  | .unary op _ => op.level
  | .await _ | .cast .. => .unary
  | .switchExpr .. => .switch
  | .patternTest .. => .relational
  | .conditional .. => .conditional
  | .assignment .. | .lambda .. => .assignment
  | _ => .primary

/-- The operands of an expression, with the levels of their places. What stands in brackets or
    behind a comma has no neighbours to be taken apart by. -/
def operands (e : Expr) : List (Level × Expr) :=
  match e.kind with
  | .binary op left right => [(op.level, left), (op.level, right)]
  | .unary op operand => [(op.level, operand)]
  | .await operand | .cast _ operand | .switchExpr operand _ => [(.unary, operand)]
  | .assignment _ target _ => [(.unary, target)]
  | .member receiver _ | .conditionalMember receiver _ | .elementAccess receiver _ => [(.primary, receiver)]
  | .invocation callee _ _ => [(.primary, callee)]
  | .patternTest operand _ => [(.relational, operand)]
  | .conditional condition _ _ => [(.coalesce, condition)]
  | _ => []

end Expr

@[inherit_doc Expr.operands]
def Pattern.operands : Pattern → List (Level × Expr)
  | .constant value | .relational _ value => [(.shift, value)]
  | _ => []

def Node.operands : Node → List (Level × Expr)
  | .expr e => e.operands
  | .pattern p => p.operands
  | .stmt _ => []

/-- Operands stand directly inside their node. -/
theorem Node.mem_parts_of_operand {x : Node} {p : Level × Expr} (h : p ∈ x.operands) : ([], .expr p.2) ∈ x.parts := by
  cases x with
  | expr e =>
    obtain ⟨span, kind⟩ := e
    cases kind with
    | binary op left right =>
      rcases List.mem_cons.mp h with rfl | h
      · exact List.mem_cons_self ..
      · obtain rfl := List.mem_singleton.mp h
        exact List.mem_cons_of_mem _ (List.mem_cons_self ..)
    | unary | await | cast | switchExpr | assignment | member | conditionalMember | elementAccess | invocation
    | patternTest | conditional =>
      obtain rfl := List.mem_singleton.mp h
      exact List.mem_cons_self ..
    | _ => cases h
  | pattern p =>
    cases p with
    | constant | relational =>
      obtain rfl := List.mem_singleton.mp h
      exact List.mem_cons_self ..
    | _ => cases h
  | stmt s => cases h

theorem Node.Everywhere.operand {P : Node → Prop} {x : Node} (h : x.Everywhere P) {p : Level × Expr}
    (hp : p ∈ x.operands) :
    (Node.expr p.2).Everywhere P :=
  h.parts _ (Node.mem_parts_of_operand hp)

/-- No operand of the node is of a lower level than its place, and the sign of a relational
    pattern is one of a comparison. -/
structure Node.Wrapped (x : Node) : Prop where
  operands : ∀ p ∈ x.operands, p.1 ≤ p.2.level
  signs : ∀ op value, x = .pattern (.relational op value) → op.level = .relational

theorem Node.Wrapped.of_expr {e : Expr} (h : ∀ p ∈ e.operands, p.1 ≤ p.2.level) : (Node.expr e).Wrapped :=
  ⟨h, by rintro _ _ ⟨⟩⟩

end ComponentScript
