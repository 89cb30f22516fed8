/-
  ComponentScript.Proofs.Syntax.Nodes — the nodes of a tree, in the order of the source.

  `Node.inner` lists the direct inner nodes of a node, `Node.nodes` the node and all nodes
  inside it. What lies inside an expression or a statement is less deep, what lies inside a
  pattern is no deeper, so statements about trees go by induction on the depth
  (`Node.induction_depth`).
-/

import ComponentScript.Proofs.Syntax.Parts

namespace ComponentScript

/-! ## Inner nodes -/

/-- The direct inner nodes. -/
def Node.inner (x : Node) : List Node := x.parts.map (·.2)

theorem Node.depth_le_of_inner {x y : Node} (hy : y ∈ x.inner) : y.depth ≤ x.depth := by
  obtain ⟨p, hp, rfl⟩ := List.mem_map.mp hy
  exact Node.atMost_parts x p hp

theorem Node.depth_lt_inner {n : Nat} (x : Node) (hx : x.depth < n) (y : Node) (hy : y ∈ x.inner) : y.depth < n :=
  Nat.lt_of_le_of_lt (depth_le_of_inner hy) hx

theorem Expr.depth_lt_of_inner {e : Expr} {y : Node} (hy : y ∈ (Node.expr e).inner) : y.depth < e.depth := by
  obtain ⟨p, hp, rfl⟩ := List.mem_map.mp hy
  exact Expr.within_depth_lt (.here hp)

theorem Stmt.depth_lt_of_inner {x : Stmt} {y : Node} (hy : y ∈ (Node.stmt x).inner) : y.depth < x.depth := by
  obtain ⟨p, hp, rfl⟩ := List.mem_map.mp hy
  exact Stmt.within_depth_lt (.here hp)

/-- Induction on the depth: an expression or a statement comes after all nodes less deep. -/
theorem Node.induction_depth {motive : Node → Prop}
    (expr : ∀ e : Expr, (∀ y : Node, y.depth < e.depth → motive y) → motive (.expr e))
    (stmt : ∀ x : Stmt, (∀ y : Node, y.depth < x.depth → motive y) → motive (.stmt x))
    (pattern : ∀ p, motive (.pattern p)) (x : Node) : motive x := by
  induction hn : x.depth using Nat.strongRecOn generalizing x with
  | ind n ih =>
    subst hn
    cases x with
    | expr e => exact expr e fun y hy => ih y.depth hy y rfl
    | stmt s => exact stmt s fun y hy => ih y.depth hy y rfl
    | pattern p => exact pattern p

/-! ## All nodes -/

namespace Node

/-- Patterns are no deeper than what they hold; a pattern inside a pattern is smaller. -/
noncomputable def rank : Node → Nat
  | .expr _ | .stmt _ => 0
  | .pattern p => sizeOf p

theorem rank_lt_of_inner {p : Pattern} {y : Node} (hy : y ∈ (Node.pattern p).inner) :
    y.rank < (Node.pattern p).rank := by
  cases p with
  | discard | type => cases hy
  | constant | relational | not =>
    obtain rfl := List.mem_singleton.mp hy
    simp only [rank, Parts.expr, Pattern.constant.sizeOf_spec, Pattern.relational.sizeOf_spec, Pattern.not.sizeOf_spec]
    omega
  | property type? subpatterns =>
    simp only [Node.inner, Node.parts, Pattern.parts, List.map_map, List.mem_map, Function.comp] at hy
    obtain ⟨⟨name, p⟩, hsub, rfl⟩ := hy
    have hlt := List.sizeOf_lt_of_mem hsub
    simp only [Subpattern.mk.sizeOf_spec] at hlt
    simp only [rank, Pattern.property.sizeOf_spec]
    omega
  | and left right | or left right =>
    simp only [Node.inner, Node.parts, Pattern.parts, List.map_cons, List.map_nil, List.mem_cons, List.not_mem_nil,
      or_false] at hy
    rcases hy with rfl | rfl <;> simp only [rank, Pattern.and.sizeOf_spec, Pattern.or.sizeOf_spec] <;> omega

theorem measure_lt_of_inner {x y : Node} (hy : y ∈ x.inner) :
    Prod.Lex (· < ·) (· < ·) (y.depth, y.rank) (x.depth, x.rank) := by
  cases x with
  | expr e => exact .left _ _ (Expr.depth_lt_of_inner hy)
  | stmt s => exact .left _ _ (Stmt.depth_lt_of_inner hy)
  | pattern p =>
    rcases Nat.lt_or_eq_of_le (Node.depth_le_of_inner hy) with hlt | heq
    · exact .left _ _ hlt
    · rw [heq]
      exact .right _ (rank_lt_of_inner hy)

/-- The node and all nodes inside it, in the order of the source. -/
def nodes (x : Node) : List Node := x :: x.inner.attach.flatMap fun y => y.1.nodes
termination_by (x.depth, x.rank)
decreasing_by exact measure_lt_of_inner y.2

theorem nodes_eq (x : Node) : x.nodes = x :: x.inner.flatMap nodes := by
  rw [nodes, List.flatMap_subtype fun y _ => rfl, List.unattach_attach]

theorem mem_nodes_self (x : Node) : x ∈ x.nodes := by
  rw [nodes_eq]
  exact List.mem_cons_self ..

theorem nodes_subset_of_inner {x y : Node} (hy : y ∈ x.inner) : ∀ z ∈ y.nodes, z ∈ x.nodes := by
  intro z hz
  rw [nodes_eq]
  exact List.mem_cons_of_mem _ (List.mem_flatMap.mpr ⟨y, hy, hz⟩)

theorem mem_nodes_of_inner {x y : Node} (hy : y ∈ x.inner) :
    y ∈ x.nodes := nodes_subset_of_inner hy y (mem_nodes_self y)

theorem nodes_subset {x y : Node} (hy : y ∈ x.nodes) : ∀ z ∈ y.nodes, z ∈ x.nodes := by
  induction x using Node.nodes.induct with
  | case1 x ih =>
    rw [nodes_eq] at hy
    rcases List.mem_cons.mp hy with rfl | hy
    · exact fun z hz => hz
    · obtain ⟨c, hc, hyc⟩ := List.mem_flatMap.mp hy
      exact fun z hz => nodes_subset_of_inner hc z (ih ⟨c, hc⟩ hyc z hz)

end Node

/-! ## Nodes of lists of parts -/

namespace Parts

@[simp] theorem exprs_nodes (b : Scopes) (es : List Expr) : (exprs b es).map (·.2) = es.map .expr := by
  simp [exprs, expr]

@[simp] theorem statements_nodes (b : Scopes) (ss : List Stmt) : (statements b ss).map (·.2) = ss.map .stmt := by
  unfold statements
  generalize functionScope ss ++ b = c
  induction ss generalizing c with
  | nil => rfl
  | cons s rest ih =>
    rw [sequence]
    split <;> simp [ih]

@[simp] theorem arguments_nodes (args : List Argument) :
    (arguments args).map (·.2) = (args.map (·.expr)).map .expr := exprs_nodes _ _

@[simp] theorem initializer_nodes (i? : Option Initializer) :
    (initializer i?).map (·.2) = (i?.toList.flatMap Initializer.exprs).map .expr := exprs_nodes _ _

end Parts

end ComponentScript
