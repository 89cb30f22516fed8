/-
  ComponentScript.Syntax.Walk — the expressions that are evaluated together with a node.

  A lambda is a separate function: the walk visits it but does not enter it. The pattern of
  a test is not entered either.
-/

import ComponentScript.Syntax.Depth

namespace ComponentScript

/-! ## Members of a list are no deeper than the list -/

theorem Expr.depth_le_depthExprs {e : Expr} {es : List Expr} (h : e ∈ es) :
    e.depth ≤ depthExprs es := by
  induction es with
  | nil => cases h
  | cons x xs ih =>
    rw [depthExprs]
    rcases List.mem_cons.1 h with rfl | h
    · exact Nat.le_max_left ..
    · exact Nat.le_trans (ih h) (Nat.le_max_right ..)

theorem Argument.depth_expr_le {a : Argument} {as : List Argument} (h : a ∈ as) :
    a.expr.depth ≤ depthArguments as := by
  induction as with
  | nil => cases h
  | cons x xs ih =>
    rw [depthArguments]
    rcases List.mem_cons.1 h with rfl | h
    · cases a; exact Nat.le_max_left ..
    · exact Nat.le_trans (ih h) (Nat.le_max_right ..)

theorem MemberInit.depth_value_le {m : MemberInit} {ms : List MemberInit} (h : m ∈ ms) :
    m.value.depth ≤ depthMembers ms := by
  induction ms with
  | nil => cases h
  | cons x xs ih =>
    rw [depthMembers]
    rcases List.mem_cons.1 h with rfl | h
    · cases m; exact Nat.le_max_left ..
    · exact Nat.le_trans (ih h) (Nat.le_max_right ..)

theorem DictEntry.depth_le_depthEntries {d : DictEntry} {ds : List DictEntry} (h : d ∈ ds) :
    d.depth ≤ depthEntries ds := by
  induction ds with
  | nil => cases h
  | cons x xs ih =>
    rw [depthEntries]
    rcases List.mem_cons.1 h with rfl | h
    · exact Nat.le_max_left ..
    · exact Nat.le_trans (ih h) (Nat.le_max_right ..)

theorem InterpolationPart.depth_le_depthParts {p : InterpolationPart} {ps : List InterpolationPart}
    (h : p ∈ ps) : p.depth ≤ depthParts ps := by
  induction ps with
  | nil => cases h
  | cons x xs ih =>
    rw [depthParts]
    rcases List.mem_cons.1 h with rfl | h
    · exact Nat.le_max_left ..
    · exact Nat.le_trans (ih h) (Nat.le_max_right ..)

theorem SwitchArm.depth_le_depthArms {a : SwitchArm} {as : List SwitchArm} (h : a ∈ as) :
    a.depth ≤ depthArms as := by
  induction as with
  | nil => cases h
  | cons x xs ih =>
    rw [depthArms]
    rcases List.mem_cons.1 h with rfl | h
    · exact Nat.le_max_left ..
    · exact Nat.le_trans (ih h) (Nat.le_max_right ..)

/-! ## The walk -/

/-- The expression a part of an interpolated string holds. -/
def InterpolationPart.expr? : InterpolationPart → Option Expr
  | .text _ => none
  | .expr e _ => some e

/-- The expressions of an initializer, in order. -/
def Initializer.exprs : Initializer → List Expr
  | .object members => members.map (·.value)
  | .collection elements => elements
  | .dictionary entries => entries.flatMap fun d => [d.key, d.value]

/-- The guard, if there is one, and the value. -/
def SwitchArm.exprs (a : SwitchArm) : List Expr := a.guard?.toList ++ [a.value]

/-- The inner expressions of a node that are evaluated with it, in order. -/
def Expr.shallowChildren (e : Expr) : List Expr :=
  match e.kind with
  | .binary _ left right => [left, right]
  | .assignment _ target value => [target, value]
  | .unary _ operand | .await operand | .cast _ operand | .patternTest operand _ => [operand]
  | .parenthesized inner => [inner]
  | .member receiver _ | .conditionalMember receiver _ => [receiver]
  | .elementAccess receiver index => [receiver, index]
  | .invocation callee _ args => callee :: args.map (·.expr)
  | .objectCreation _ args initializer? =>
    args.map (·.expr) ++ initializer?.toList.flatMap Initializer.exprs
  | .conditional condition whenTrue whenFalse => [condition, whenTrue, whenFalse]
  | .interpolated parts => parts.filterMap InterpolationPart.expr?
  | .anonymousObject members => members.map (·.value)
  | .arrayCreation _ size? elements => size?.toList ++ elements
  | .switchExpr scrutinee arms => scrutinee :: arms.flatMap SwitchArm.exprs
  | _ => []

theorem Initializer.depth_le_of_mem_exprs {i : Initializer} {e : Expr} (h : e ∈ i.exprs) :
    e.depth ≤ i.depth := by
  cases i with
  | object members =>
    obtain ⟨m, hm, rfl⟩ := List.mem_map.1 h
    exact MemberInit.depth_value_le hm
  | collection elements => exact Expr.depth_le_depthExprs h
  | dictionary entries =>
    obtain ⟨d, hd, he⟩ := List.mem_flatMap.1 h
    refine Nat.le_trans ?_ (DictEntry.depth_le_depthEntries hd)
    cases d
    simp only [List.mem_cons, List.not_mem_nil, or_false] at he
    rcases he with rfl | rfl
    · exact Nat.le_max_left ..
    · exact Nat.le_max_right ..

theorem SwitchArm.depth_le_of_mem_exprs {a : SwitchArm} {e : Expr} (h : e ∈ a.exprs) :
    e.depth ≤ a.depth := by
  obtain ⟨pattern, guard?, value⟩ := a
  rw [SwitchArm.depth]
  rcases List.mem_append.1 h with h | h
  · cases guard? with
    | none => cases h
    | some g =>
      obtain rfl := List.mem_singleton.1 h
      rw [depthExpr?]
      omega
  · obtain rfl := List.mem_singleton.1 h
    omega

/-- Inner expressions are less deep. -/
theorem Expr.depth_lt_of_mem_shallowChildren {e c : Expr} (h : c ∈ e.shallowChildren) :
    c.depth < e.depth := by
  obtain ⟨span, kind⟩ := e
  rw [Expr.depth]
  apply Nat.lt_succ_of_le
  cases kind <;> simp only [shallowChildren, List.mem_cons, List.not_mem_nil, or_false] at h <;>
    rw [ExprKind.depth]
  case interpolated parts =>
    obtain ⟨p, hp, hc⟩ := List.mem_filterMap.1 h
    refine Nat.le_trans ?_ (InterpolationPart.depth_le_depthParts hp)
    cases p with
    | text => cases hc
    | expr => cases hc; exact Nat.le_refl _
  case invocation callee typeArgs args =>
    rcases h with rfl | h
    · exact Nat.le_max_left ..
    · obtain ⟨a, ha, rfl⟩ := List.mem_map.1 h
      exact Nat.le_trans (Argument.depth_expr_le ha) (Nat.le_max_right ..)
  case objectCreation args initializer? =>
    rcases List.mem_append.1 h with h | h
    · obtain ⟨a, ha, rfl⟩ := List.mem_map.1 h
      exact Nat.le_trans (Argument.depth_expr_le ha) (Nat.le_max_left ..)
    · obtain ⟨i, hi, hc⟩ := List.mem_flatMap.1 h
      cases initializer? with
      | none => cases hi
      | some j =>
        obtain rfl := List.mem_singleton.1 hi
        exact Nat.le_trans (Initializer.depth_le_of_mem_exprs hc) (Nat.le_max_right ..)
  case anonymousObject members =>
    obtain ⟨m, hm, rfl⟩ := List.mem_map.1 h
    exact MemberInit.depth_value_le hm
  case arrayCreation size? elements =>
    rcases List.mem_append.1 h with h | h
    · cases size? with
      | none => cases h
      | some s =>
        obtain rfl := List.mem_singleton.1 h
        exact Nat.le_max_left ..
    · exact Nat.le_trans (Expr.depth_le_depthExprs h) (Nat.le_max_right ..)
  case switchExpr scrutinee arms =>
    rcases h with rfl | h
    · exact Nat.le_max_left ..
    · obtain ⟨a, ha, hc⟩ := List.mem_flatMap.1 h
      exact Nat.le_trans (Nat.le_trans (SwitchArm.depth_le_of_mem_exprs hc)
        (SwitchArm.depth_le_depthArms ha)) (Nat.le_max_right ..)
  case binary | assignment | elementAccess => rcases h with rfl | rfl <;> omega
  case conditional => rcases h with rfl | rfl | rfl <;> omega
  case patternTest => subst h; omega
  all_goals exact h ▸ Nat.le_refl _

/-- The node and the expressions evaluated with it, from the outside in and from left to
    right. -/
def Expr.walkShallow (e : Expr) : List Expr :=
  e :: e.shallowChildren.attach.flatMap fun c => walkShallow c.1
termination_by e.depth
decreasing_by exact Expr.depth_lt_of_mem_shallowChildren c.2

def Expr.isAwait (e : Expr) : Bool :=
  match e.kind with
  | .await _ => true
  | _ => false

/-- Whether an `await` occurs outside of every inner lambda. -/
def Expr.containsAwait (e : Expr) : Bool := e.walkShallow.any Expr.isAwait

end ComponentScript
