/-
  ComponentScript.Proofs.Syntax.Everywhere — properties of a node and of all nodes inside it.

  `Node.Everywhere P x`: the node `x` has the property `P`, and so has every node inside it.
  It passes on to the parts of a node (`Node.Everywhere.parts`), to the statements of a body,
  to the expressions that the walk for declarations visits, and to the variables that are
  declared in front of a statement.
-/

import ComponentScript.Convert.Statement
import ComponentScript.Proofs.Syntax.Parts

namespace ComponentScript

/-- The node has the property, and all nodes inside it have. -/
def Node.Everywhere (P : Node → Prop) (x : Node) : Prop := P x ∧ ∀ b y, Within x.parts b y → P y

/-- All nodes among and inside the parts have the property. -/
def Parts.Everywhere (P : Node → Prop) (ps : Parts) : Prop := ∀ p ∈ ps, p.2.Everywhere P

variable {P : Node → Prop}

theorem Node.Everywhere.parts {x : Node} (h : x.Everywhere P) : x.parts.Everywhere P :=
  fun _ hp => ⟨h.2 _ _ (.here hp), fun _ _ hy => h.2 _ _ (.deeper hp hy)⟩

theorem Node.everywhere_of_parts {x : Node} (h : P x) (hp : x.parts.Everywhere P) : x.Everywhere P := by
  refine ⟨h, fun b y hy => ?_⟩
  cases hy with
  | here hm => exact (hp _ hm).1
  | deeper hm hd => exact (hp _ hm).2 _ _ hd

theorem Node.Everywhere.within {x y : Node} {b : Scopes} (h : x.Everywhere P) (hy : Within x.parts b y) :
    y.Everywhere P :=
  ⟨h.2 b y hy, fun _ _ hz => h.2 _ _ (hy.trans hz)⟩

theorem Node.Everywhere.inside {x y : Node} {b : Scopes} (h : x.Everywhere P) (hy : Within [([], x)] b y) :
    y.Everywhere P := by
  rcases hy.of_singleton with ⟨-, rfl⟩ | hy
  · exact h
  · exact h.within hy

theorem Node.Everywhere.mono {Q : Node → Prop} {x : Node} (h : x.Everywhere P) (hPQ : ∀ y, P y → Q y) :
    x.Everywhere Q :=
  ⟨hPQ x h.1, fun b y hy => hPQ y (h.2 b y hy)⟩

/-- The node counts as inside itself. -/
theorem Node.everywhere_iff {x : Node} : x.Everywhere P ↔ ∀ b y, Within [([], x)] b y → P y := by
  refine ⟨fun h b y hy => ?_, fun h => ⟨h [] x (.self x), fun b y hy => h b y hy.inside⟩⟩
  rcases hy.of_singleton with ⟨-, rfl⟩ | hy
  · exact h.1
  · exact h.2 b y hy

namespace Parts

variable {ps qs : Parts}

theorem Everywhere.left (h : Everywhere P (ps ++ qs)) : Everywhere P ps := fun p hp => h p (List.mem_append_left _ hp)

theorem Everywhere.right (h : Everywhere P (ps ++ qs)) : Everywhere P qs := fun p hp => h p (List.mem_append_right _ hp)

theorem Everywhere.head {p : Scopes × Node} (h : Everywhere P (p :: ps)) : p.2.Everywhere P :=
  h p (List.mem_cons_self ..)

theorem Everywhere.tail {p : Scopes × Node} (h : Everywhere P (p :: ps)) : Everywhere P ps :=
  fun q hq => h q (List.mem_cons_of_mem _ hq)

theorem Everywhere.flatMap {α : Type} {f : α → Parts} {as : List α} (h : Everywhere P (as.flatMap f)) {a : α}
    (ha : a ∈ as) : Everywhere P (f a) :=
  fun p hp => h p (List.mem_flatMap.mpr ⟨a, ha, hp⟩)

theorem Everywhere.exprs {b : Scopes} {es : List Expr} (h : Everywhere P (exprs b es)) {e : Expr} (he : e ∈ es) :
    (Node.expr e).Everywhere P :=
  h _ (List.mem_map_of_mem he)

theorem Everywhere.sequence {ss : List Stmt} : ∀ {b : Scopes}, Everywhere P (sequence b ss) →
    ∀ s ∈ ss, (Node.stmt s).Everywhere P := by
  induction ss with
  | nil => exact fun _ => nofun
  | cons s rest ih =>
    intro b h
    rw [Parts.sequence] at h
    refine List.forall_mem_cons.mpr ⟨h.head, ?_⟩
    have htail := h.tail
    split at htail <;> exact ih htail

theorem Everywhere.acquired {ds : List Declarator} : ∀ {seen : List String}, Everywhere P (acquired seen ds) →
    ∀ d ∈ ds, ∀ e ∈ d.init?, (Node.expr e).Everywhere P := by
  induction ds with
  | nil => exact fun _ => nofun
  | cons d ds ih =>
    intro seen h
    rw [Parts.acquired] at h
    exact List.forall_mem_cons.mpr ⟨fun e he => h.left.exprs (Option.mem_toList.mpr he), ih h.right⟩

end Parts

theorem Node.Everywhere.body {b : Scopes} {s : Stmt} (h : (Parts.body b s).2.Everywhere P) :
    (Node.stmt s).Everywhere P := by
  unfold Parts.body at h
  split at h <;> exact h

/-- The statements of a block, and a statement that stands in its place. -/
theorem Node.Everywhere.statements {s : Stmt} (h : (Node.stmt s).Everywhere P) :
    ∀ x ∈ s.statements, (Node.stmt x).Everywhere P := by
  obtain ⟨span, kind⟩ := s
  cases kind with
  | block ss => exact Parts.Everywhere.sequence h.parts
  | _ => exact List.forall_mem_singleton.mpr h

/-- What is evaluated with an expression is among its parts. -/
theorem Expr.mem_parts_of_mem_shallowChildren {e c : Expr} (h : c ∈ e.shallowChildren) :
    Parts.expr [] c ∈ e.parts := by
  obtain ⟨span, kind⟩ := e
  have hmap : Parts.expr [] c ∈ Parts.exprs [] (Expr.shallowChildren ⟨span, kind⟩) := List.mem_map_of_mem h
  cases kind with
  | identifier | this | base | literal | lambda | nameOf | defaultOf | other => cases h
  | objectCreation type? args initializer? =>
    rcases List.mem_append.mp h with h | h
    · exact List.mem_append_left _ (List.mem_map_of_mem h)
    · exact List.mem_append_right _ (List.mem_map_of_mem h)
  | patternTest operand pattern =>
    rw [List.mem_singleton.mp h]
    exact List.mem_cons_self ..
  | switchExpr scrutinee arms =>
    rcases List.mem_cons.mp h with rfl | h
    · exact List.mem_cons_self ..
    · obtain ⟨arm, harm, hc⟩ := List.mem_flatMap.mp h
      refine List.mem_cons_of_mem _ (List.mem_flatMap.mpr ⟨arm, harm, ?_⟩)
      exact List.mem_cons_of_mem _ (List.mem_map_of_mem hc)
  | _ => exact hmap

theorem Node.Everywhere.walkShallow {e : Expr} (h : (Node.expr e).Everywhere P) :
    ∀ x ∈ e.walkShallow, (Node.expr x).Everywhere P := by
  fun_induction Expr.walkShallow e with
  | case1 e ih =>
    intro x hx
    rcases List.mem_cons.mp hx with rfl | hx
    · exact h
    · obtain ⟨⟨c, hc⟩, -, hx⟩ := List.mem_flatMap.mp hx
      exact ih ⟨c, hc⟩ (h.parts _ (Expr.mem_parts_of_mem_shallowChildren hc)) x hx

/-! ## Declarations in front of a statement -/

/-- Leaving out repetitions adds nothing. -/
theorem mem_of_mem_foldl_distinct {x : String} {names : List String} : ∀ {seen : List String},
    x ∈ names.foldl (fun seen name => if seen.contains name then seen else seen ++ [name]) seen →
    x ∈ seen ∨ x ∈ names := by
  induction names with
  | nil => exact fun h => .inl h
  | cons name names ih =>
    intro seen h
    rcases ih h with h | h
    · dsimp only at h
      split at h
      · exact .inl h
      · rcases List.mem_append.mp h with h | h
        · exact .inl h
        · exact .inr (List.mem_cons.mpr (.inl (List.mem_singleton.mp h)))
    · exact .inr (List.mem_cons_of_mem _ h)

theorem Node.Everywhere.hoistRoots {s : Stmt} (h : (Node.stmt s).Everywhere P) :
    ∀ x ∈ s.hoistRoots, (Node.expr x).Everywhere P := by
  obtain ⟨span, kind⟩ := s
  have hp := h.parts
  cases kind with
  | expression x => exact List.forall_mem_singleton.mpr hp.head
  | declaration type? ds isConst => exact fun _ hx => hp.exprs hx
  | returns value? => exact fun _ hx => hp.exprs hx
  | branch condition thenBranch elseBranch? => exact List.forall_mem_singleton.mpr hp.head
  | whileLoop condition body => exact List.forall_mem_singleton.mpr hp.head
  | _ => exact nofun

theorem Node.Everywhere.declaredHere {e : Expr} (h : (Node.expr e).Everywhere P) :
    ∀ name ∈ e.declaredHere, ∃ span, P (.expr ⟨span, .identifier name⟩) := by
  obtain ⟨span, kind⟩ := e
  cases kind with
  | invocation callee typeArgs args =>
    intro name hname
    obtain ⟨a, ha, hdeclared⟩ := List.mem_filterMap.mp hname
    have hidentifier := (h.parts.tail.exprs (List.mem_map_of_mem ha)).1
    obtain ⟨⟨argSpan, argKind⟩, modifier?, declares, name?⟩ := a
    unfold Argument.declared? at hdeclared
    split at hdeclared
    · next hkind =>
      cases hdeclared
      cases hkind
      exact ⟨argSpan, hidentifier⟩
    · cases hdeclared
  | _ => exact nofun

/-- The variables that arguments declare are names of the tree. -/
theorem Node.Everywhere.hoisted {s : Stmt} (h : (Node.stmt s).Everywhere P) :
    ∀ name ∈ s.hoisted, ∃ span, P (.expr ⟨span, .identifier name⟩) := by
  intro name hname
  rcases mem_of_mem_foldl_distinct hname with hseen | hname
  · cases hseen
  obtain ⟨root, hroot, hname⟩ := List.mem_flatMap.mp hname
  obtain ⟨x, hx, hname⟩ := List.mem_flatMap.mp hname
  exact ((h.hoistRoots root hroot).walkShallow x hx).declaredHere name hname

end ComponentScript
