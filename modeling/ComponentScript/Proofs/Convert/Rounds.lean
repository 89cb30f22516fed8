/-
  ComponentScript.Proofs.Convert.Rounds — one round of conversion, and as many rounds as a
  tree is deep.

  A round over rules that only look inside a node runs in lockstep for converters that treat
  everything inside the node alike (`step_exprAs_lockstep`, `step_stmt_lockstep`). What lies
  inside a node is less deep than the node, so a node of depth `n` is converted alike by all
  converters of at least `n` rounds (`ofDepth_inStep`). The converter for all nodes is
  therefore a fixed point of the round: `converter_exprAs`, `converter_stmt`.
-/

import ComponentScript.Convert.Engine
import ComponentScript.Proofs.Rules.Local

namespace ComponentScript

/-! ## Sessions that do not differ -/

namespace Ledger

/-- The two runs have counted and reported the same. -/
def same : Ledger where
  rel n ds n' ds' := n = n' ∧ ds = ds'
  counter_eq h := h.1
  draw h := ⟨congrArg (· + 1) h.1, h.2⟩
  report d h := ⟨h.1, congrArg (· ++ [d]) h.2⟩

end Ledger

namespace Places

/-- Both runs at one place. -/
def both (p : Place) : Places := ⟨p, p⟩

end Places

theorem Session.eq_of_place {s s' : Session} (hp : s.place = s'.place) (hc : s.counter = s'.counter)
    (hd : s.diagnostics = s'.diagnostics) : s = s' := by
  obtain ⟨scopes, catches, counter, diagnostics⟩ := s
  cases hp
  cases hc
  cases hd
  rfl

theorem Linked.eq {p : Place} {s s' : Session} (h : Linked Ledger.same (.both p) s s') : s = s' :=
  Session.eq_of_place (h.left.trans h.right.symm) h.ledger.1 h.ledger.2

theorem Linked.refl (s : Session) : Linked Ledger.same (.both s.place) s s := ⟨rfl, rfl, rfl, rfl⟩

/-- Steps that run in lockstep from the same session have the same outcome. -/
theorem Lockstep.out_eq {α : Type} {p q : Place} {m m' : Emit α}
    (h : Lockstep Ledger.same (.both p) (.both q) m m') {s : Session} (hs : s.place = p) : m.out s = m'.out s := by
  subst hs
  obtain ⟨ha, hl⟩ := h s s (Linked.refl s)
  exact Prod.ext ha hl.eq

/-! ## Rule sets -/

namespace RuleSet

variable {ν : Type} {aligned : Ledger → Places → Converter → Converter → ν → Prop}

theorem mem_ofList {rules : List (Rule ν)} {r : Rule ν} : r ∈ (ofList rules).rules ↔ r ∈ rules :=
  List.mem_mergeSort

theorem find_eq {rs : RuleSet ν} (hrs : ∀ r ∈ rs.rules, r.Local aligned) {L : Ledger} {π : Places}
    {k k' : Converter} {x : ν} (hx : aligned L π k k' x) {s s' : Session} (hl : Linked L π s s') :
    rs.find? k.toEnv s x = rs.find? k'.toEnv s' x := by
  obtain ⟨rules⟩ := rs
  unfold find?
  induction rules with
  | nil => rfl
  | cons r rules ih =>
    have hr := (hrs r (List.mem_cons_self ..)).applies hx hl
    have hrest := ih fun r' hm => hrs r' (List.mem_cons_of_mem _ hm)
    simp only [List.find?_cons, hr]
    rw [hrest]

end RuleSet

/-! ## One round -/

namespace Engine

/-- All rules of the engine only look inside a node. -/
structure Local (g : Engine) : Prop where
  exprRules : ∀ r ∈ g.exprRules.rules, r.Local Aligned
  stmtRules : ∀ r ∈ g.stmtRules.rules, r.Local StmtAligned

/-- The built-in rules are listed by falling priority. -/
theorem builtin_eq (settings : Settings) :
    ({ settings := settings } : Engine) = ⟨⟨Rules.builtinExprs⟩, ⟨Rules.builtinStmts⟩, settings⟩ := by
  have hexprs : RuleSet.ofList Rules.builtinExprs = ⟨Rules.builtinExprs⟩ :=
    congrArg RuleSet.mk (List.mergeSort_of_pairwise (by decide))
  have hstmts : RuleSet.ofList Rules.builtinStmts = ⟨Rules.builtinStmts⟩ :=
    congrArg RuleSet.mk (List.mergeSort_of_pairwise (by decide))
  rw [hexprs, hstmts]

/-- The engine with the built-in rules. -/
theorem builtin_local (settings : Settings) : Local { settings := settings } where
  exprRules r hr := Rules.builtinExprs_local r (RuleSet.mem_ofList.mp hr)
  stmtRules r hr := Rules.builtinStmts_local r (RuleSet.mem_ofList.mp hr)

/-- In a round, a statement goes to the first rule that applies, else to the conversion for its
    kind. -/
theorem step_stmt_out (g : Engine) (k : Converter) (x : Stmt) (s : Session) :
    ((g.step k).stmt x).out s =
      match g.stmtRules.find? k.toEnv s x with
      | some rule => (rule.convert k x).out s
      | none => (k.defaultStmt x).out s := by
  show (match g.stmtRules.find? k.toEnv s x with
    | some rule => rule.convert k x
    | none => k.defaultStmt x : Emit String).out s = _
  cases g.stmtRules.find? k.toEnv s x <;> rfl

/-- The same for an expression. -/
theorem step_exprAs_out (g : Engine) (k : Converter) (expected? : Option TypeRef) (e : Expr) (s : Session) :
    ((g.step k).exprAs expected? e).out s =
      match g.exprRules.find? k.toEnv s e with
      | some rule => (rule.convert k e).out s
      | none => (k.defaultExpr expected? e).out s := by
  show (match g.exprRules.find? k.toEnv s e with
    | some rule => rule.convert k e
    | none => k.defaultExpr expected? e : Emit String).out s = _
  cases g.exprRules.find? k.toEnv s e <;> rfl

variable {g : Engine} {m : Model} {L : Ledger} {π : Places} {k k' : Converter}

theorem step_exprAs_lockstep (hg : g.Local) (expected? : Option TypeRef) {e : Expr} (h : Aligned L π k k' e) :
    Lockstep L π π ((g.step k).exprAs expected? e) ((g.step k').exprAs expected? e) := by
  refine .get fun s s' hl => ?_
  rw [RuleSet.find_eq hg.exprRules h hl]
  cases hr : g.exprRules.find? k'.toEnv s' e with
  | none => exact h.default expected?
  | some r => exact (hg.exprRules r (List.mem_of_find?_eq_some hr)).convert h

theorem step_stmt_lockstep (hg : g.Local) {x : Stmt} (h : StmtAligned L π k k' x) :
    Lockstep L π π ((g.step k).stmt x) ((g.step k').stmt x) := by
  refine .get fun s s' hl => ?_
  rw [RuleSet.find_eq hg.stmtRules h hl]
  cases hr : g.stmtRules.find? k'.toEnv s' x with
  | none => exact h.default
  | some r => exact (hg.stmtRules r (List.mem_of_find?_eq_some hr)).convert h

/-- The round itself treats a node alike. -/
theorem step_expr_inStep (hg : g.Local) (henv : k.toEnv = k'.toEnv) (hπ : π.Alike) {e : Expr}
    (h : Covered L π k k' e.parts) : ExprInStep L π (g.step k) (g.step k') e := by
  have ha : Aligned L π k k' e := ⟨by rw [henv], hπ, by rw [henv], by rw [henv], h⟩
  exact ⟨ha.symbol, ha.type, fun expected? => step_exprAs_lockstep hg expected? ha⟩

theorem step_stmt_inStep (hg : g.Local) (henv : k.toEnv = k'.toEnv) (hπ : π.Alike) {x : Stmt}
    (h : Covered L π k k' x.parts) : Lockstep L π π ((g.step k).stmt x) ((g.step k').stmt x) :=
  step_stmt_lockstep hg ⟨by rw [henv], hπ, h⟩

/-! ## All rounds -/

@[simp] theorem ofDepth_toEnv (n : Nat) : (g.ofDepth m n).toEnv = g.env m := by
  induction n with
  | zero => rfl
  | succ n ih => exact ih

theorem inStep_of_depth_zero {x : Node} (hx : x.depth ≤ 0) : x.InStep L π k k' := by
  cases x with
  | expr e => obtain ⟨span, kind⟩ := e; exact absurd hx (Nat.not_succ_le_zero _)
  | stmt s => obtain ⟨span, kind⟩ := s; exact absurd hx (Nat.not_succ_le_zero _)
  | pattern p => trivial

/-- Further rounds change nothing for a node that is not too deep. -/
theorem ofDepth_inStep (hg : g.Local) : ∀ {n n' : Nat} {x : Node}, x.depth ≤ n → x.depth ≤ n' →
    ∀ {π : Places}, π.Alike → x.InStep L π (g.ofDepth m n) (g.ofDepth m n') := by
  intro n
  induction n with
  | zero => intro n' x hn _ π _; exact inStep_of_depth_zero hn
  | succ n ih =>
    intro n' x hn hn' π hπ
    cases n' with
    | zero => exact inStep_of_depth_zero hn'
    | succ i =>
      have henv : (g.ofDepth m n).toEnv = (g.ofDepth m i).toEnv := by rw [ofDepth_toEnv, ofDepth_toEnv]
      -- what lies inside is less deep, so one round less does for it on both sides
      have hinside : ∀ {ps : Parts}, (∀ {b y}, Within ps b y → y.depth < x.depth) →
          Covered L π (g.ofDepth m n) (g.ofDepth m i) ps := by
        intro ps hless b y hy c
        have hlt := hless hy
        exact ih (by omega) (by omega) (hπ.enter b c)
      cases x with
      | pattern p => trivial
      | expr e => exact step_expr_inStep hg henv hπ (hinside Expr.within_depth_lt)
      | stmt s => exact step_stmt_inStep hg henv hπ (hinside Stmt.within_depth_lt)

/-- As many rounds as a node is deep do what the converter for all nodes does. -/
theorem converter_inStep (hg : g.Local) {n : Nat} {x : Node} (hn : x.depth ≤ n) (hπ : π.Alike) :
    x.InStep L π (g.ofDepth m n) (g.converter m) := by
  cases x with
  | pattern p => trivial
  | expr e =>
    have h : ExprInStep L π (g.ofDepth m n) (g.ofDepth m e.depth) e :=
      ofDepth_inStep hg (x := .expr e) hn (Nat.le_refl _) hπ
    have henv : (g.ofDepth m e.depth).toEnv = (g.converter m).toEnv := ofDepth_toEnv _
    exact ⟨by rw [h.symbol, henv], by rw [h.type, henv], h.exprAs⟩
  | stmt s => exact ofDepth_inStep hg (x := .stmt s) hn (Nat.le_refl _) hπ

/-- The converter for all nodes is a fixed point of the round. -/
theorem converter_exprAs (hg : g.Local) (m : Model) (expected? : Option TypeRef) (e : Expr) :
    (g.converter m).exprAs expected? e = (g.step (g.converter m)).exprAs expected? e := by
  obtain ⟨span, kind⟩ := e
  refine Emit.ext_out fun s => ?_
  have hround : ExprInStep Ledger.same (.both s.place) (g.step (g.ofDepth m kind.depth))
      (g.step (g.converter m)) ⟨span, kind⟩ := by
    refine step_expr_inStep hg (ofDepth_toEnv _) (.refl _) fun b y hy c => ?_
    exact converter_inStep hg (Nat.le_of_lt_succ (Expr.within_depth_lt hy)) ((Places.Alike.refl _).enter b c)
  exact (hround.exprAs expected?).out_eq rfl

/-- A rule that is found converts the expression. -/
theorem exprAs_out_of_find (hg : g.Local) (expected? : Option TypeRef) {e : Expr} {s : Session} {rule : Rule Expr}
    (h : g.exprRules.find? (g.converter m).toEnv s e = some rule) :
    ((g.converter m).exprAs expected? e).out s = (rule.convert (g.converter m) e).out s := by
  rw [converter_exprAs hg, step_exprAs_out, h]

/-- The defaults convert an expression for which there is no rule. -/
theorem exprAs_out_of_find_none (hg : g.Local) (expected? : Option TypeRef) {e : Expr} {s : Session}
    (h : g.exprRules.find? (g.converter m).toEnv s e = none) :
    ((g.converter m).exprAs expected? e).out s = ((g.converter m).defaultExpr expected? e).out s := by
  rw [converter_exprAs hg, step_exprAs_out, h]

theorem converter_stmt (hg : g.Local) (m : Model) (x : Stmt) :
    (g.converter m).stmt x = (g.step (g.converter m)).stmt x := by
  obtain ⟨span, kind⟩ := x
  refine Emit.ext_out fun s => ?_
  have hround : Lockstep Ledger.same (.both s.place) (.both s.place)
      ((g.step (g.ofDepth m kind.depth)).stmt ⟨span, kind⟩) ((g.step (g.converter m)).stmt ⟨span, kind⟩) := by
    refine step_stmt_inStep hg (ofDepth_toEnv _) (.refl _) fun b y hy c => ?_
    exact converter_inStep hg (Nat.le_of_lt_succ (Stmt.within_depth_lt hy)) ((Places.Alike.refl _).enter b c)
  exact hround.out_eq rfl

end Engine

end ComponentScript
