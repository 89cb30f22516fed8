/-
  ComponentScript.Proofs.Convert.Restores — conversions leave a session as they found it.

  Scopes are opened, extended in place and closed again around inner conversions, and so are
  the bindings of catch clauses. Whatever is converted, in whatever session: afterwards both
  stacks are what they were, name by name, the counter is not smaller, and the diagnostics so
  far are still the first ones (`Session.Continues`).

  One round keeps this up (`step_steady`), for the built-in rules and for rules that draw
  fresh names and do nothing else to the session; so do all rounds (`converter_steady`).
  `entryPoints_restore`: every function that converts a node or a part of one has the
  property.
-/

import Mathlib.Data.List.Forall2
import ComponentScript.Proofs.Convert.Rounds

namespace ComponentScript

/-! ## What a step leaves behind -/

/-- The session `t` stands where `s` stood, and has counted and reported further. -/
structure Session.Continues (s t : Session) : Prop where
  scopes : t.scopes = s.scopes
  catches : t.catches = s.catches
  counter : s.counter ≤ t.counter
  diagnostics : s.diagnostics <+: t.diagnostics

/-- Whatever the session, the step leaves one that continues it. -/
def Emit.Restores {α : Type} (m : Emit α) : Prop := ∀ s : Session, s.Continues (m.out s).2

/-- One run beside itself that has counted at least to `n` and whose first reports are
    `ds`. -/
def Ledger.since (n : Nat) (ds : List Diagnostic) : Ledger where
  rel i is j js := (i = j ∧ is = js) ∧ n ≤ i ∧ ds <+: is
  counter_eq h := h.1.1
  draw h := ⟨⟨congrArg (· + 1) h.1.1, h.1.2⟩, Nat.le_succ_of_le h.2.1, h.2.2⟩
  report d h := ⟨⟨h.1.1, congrArg (· ++ [d]) h.1.2⟩, h.2.1, h.2.2.trans (List.prefix_append _ _)⟩

variable {n : Nat} {ds : List Diagnostic} {p : Place}

theorem Linked.eq_since {s s' : Session} (h : Linked (.since n ds) (.both p) s s') : s = s' :=
  Session.eq_of_place (h.left.trans h.right.symm) h.ledger.1.1 h.ledger.1.2

theorem Emit.restores_of_lockstep {α : Type} {m m' : Emit α}
    (h : ∀ n ds p, Lockstep (.since n ds) (.both p) (.both p) m m') : m.Restores := by
  intro s
  obtain ⟨_, hl⟩ := h s.counter s.diagnostics s.place s s ⟨rfl, rfl, ⟨rfl, rfl⟩, Nat.le_refl _, List.prefix_rfl⟩
  exact ⟨congrArg Place.scopes hl.left, congrArg Place.catches hl.left, hl.ledger.2.1, hl.ledger.2.2⟩

theorem Session.Continues.refl (s : Session) : s.Continues s := ⟨rfl, rfl, Nat.le_refl _, List.prefix_rfl⟩

theorem Session.Continues.trans {s t u : Session} (h : s.Continues t) (h' : t.Continues u) : s.Continues u :=
  ⟨h'.scopes.trans h.scopes, h'.catches.trans h.catches, Nat.le_trans h.counter h'.counter,
    h.diagnostics.trans h'.diagnostics⟩

namespace Emit.Restores

variable {α β : Type}

theorem bind {m : Emit α} {f : α → Emit β} (hm : m.Restores) (hf : ∀ a, (f a).Restores) : (m >>= f).Restores :=
  fun s => (hm s).trans (hf _ _)

theorem pure (a : α) : (Pure.pure a : Emit α).Restores := Session.Continues.refl

theorem freshName (stem : String) : (Emit.freshName stem).Restores :=
  fun _ => ⟨rfl, rfl, Nat.le_succ _, List.prefix_rfl⟩

theorem withScope {m : Emit α} (names : List String) (hm : m.Restores) : (Emit.withScope names m).Restores := by
  intro s
  obtain ⟨hscopes, hcatches, hcounter, hdiagnostics⟩ := hm (s.openScope names)
  refine ⟨?_, hcatches, hcounter, hdiagnostics⟩
  rw [out_withScope]
  exact congrArg List.tail hscopes

theorem withCatch {m : Emit α} (binding : String) (hm : m.Restores) : (Emit.withCatch binding m).Restores := by
  intro s
  obtain ⟨hscopes, hcatches, hcounter, hdiagnostics⟩ := hm (s.openCatch binding)
  refine ⟨hscopes, ?_, hcounter, hdiagnostics⟩
  rw [out_withCatch]
  exact congrArg List.tail hcatches

theorem optionMapM {f : α → Emit β} {a? : Option α} (hf : ∀ a, (f a).Restores) : (a?.mapM f).Restores := by
  cases a? with
  | none => exact pure none
  | some a => exact (hf a).bind fun b => pure (some b)

/-- Along a list, each step starts in a session that continues the first. -/
theorem mapM_each {f : α → Emit β} (hf : ∀ a, (f a).Restores) (as : List α) (s : Session) :
    List.Forall₂ (fun a b => ∃ σ, s.Continues σ ∧ b = ((f a).out σ).1) as ((as.mapM f).out s).1 := by
  induction as generalizing s with
  | nil => exact .nil
  | cons a as ih =>
    rw [List.mapM_cons]
    refine .cons ⟨s, .refl s, rfl⟩ ((ih ((f a).out s).2).imp fun b c h => ?_)
    obtain ⟨σ, hσ, hc⟩ := h
    exact ⟨σ, (hf a s).trans hσ, hc⟩

theorem mapM {f : α → Emit β} (hf : ∀ a, (f a).Restores) (as : List α) : (as.mapM f).Restores := by
  induction as with
  | nil => exact pure []
  | cons a as ih =>
    rw [List.mapM_cons]
    exact (hf a).bind fun _ => ih.bind fun _ => pure _

end Emit.Restores

/-! ## Rules that only draw names -/

/-- A step that draws fresh names and looks at its session, and does nothing else to it. -/
inductive Emit.OnlyDraws {α : Type} : Emit α → Prop
  | pure (a : α) : OnlyDraws (Pure.pure a)
  | look (f : Session → Emit α) : (∀ s, OnlyDraws (f s)) → OnlyDraws (get >>= f)
  | draw (stem : String) (f : String → Emit α) : (∀ name, OnlyDraws (f name)) →
      OnlyDraws (Emit.freshName stem >>= f)

theorem Emit.OnlyDraws.lockstep {α : Type} {m : Emit α} (h : m.OnlyDraws) :
    Lockstep (.since n ds) (.both p) (.both p) m m := by
  induction h with
  | pure a => exact .pure a
  | look f _ ih =>
    refine .get fun s s' hl => ?_
    rw [hl.eq_since]
    exact ih s'
  | draw stem f _ ih => exact .bind (.freshName stem) ih

/-- Whatever it applies to, the rule only draws names. -/
def Rule.OnlyDraws {ν : Type} (r : Rule ν) : Prop := ∀ k x, (r.convert k x).OnlyDraws

theorem Rule.fixed_onlyDraws {ν : Type} (kindName : ν → String) (name : String) (priority : Int)
    (kinds? : Option (List String)) (output : String) (stem? : Option String) :
    (Rule.fixed kindName name priority kinds? output stem?).OnlyDraws := by
  intro k x
  cases stem? with
  | none => exact .pure _
  | some stem => exact .draw stem _ fun _ => .pure _

/-- Every rule is built in or only draws names. -/
structure Engine.Admissible (g : Engine) : Prop where
  exprRules : ∀ r ∈ g.exprRules.rules, r ∈ Rules.builtinExprs ∨ r.OnlyDraws
  stmtRules : ∀ r ∈ g.stmtRules.rules, r ∈ Rules.builtinStmts ∨ r.OnlyDraws

theorem Engine.builtin_admissible (settings : Settings) : Admissible { settings := settings } where
  exprRules _ hr := .inl (RuleSet.mem_ofList.mp hr)
  stmtRules _ hr := .inl (RuleSet.mem_ofList.mp hr)

/-! ## All rounds -/

/-- Beside itself, the converter runs in lockstep on every node, at every place. -/
def Converter.Steady (k : Converter) : Prop :=
  ∀ n ds p (x : Node), x.InStep (.since n ds) (.both p) k k

theorem Converter.Steady.covered {k : Converter} (h : k.Steady) (ps : Parts) :
    Covered (.since n ds) (.both p) k k ps :=
  fun _ x _ _ => h _ _ _ x

namespace Engine

variable {g : Engine} {k : Converter}

theorem step_steady (hg : g.Admissible) (hk : k.Steady) : (g.step k).Steady := by
  intro n ds p x
  cases x with
  | pattern q => trivial
  | expr e =>
    have ha : Aligned (.since n ds) (.both p) k k e := ⟨rfl, .refl p, rfl, rfl, hk.covered _⟩
    refine ⟨rfl, rfl, fun expected? => .get fun s s' hl => ?_⟩
    rw [hl.eq_since]
    cases hr : g.exprRules.find? k.toEnv s' e with
    | none => exact ha.default expected?
    | some r =>
      rcases hg.exprRules r (List.mem_of_find?_eq_some hr) with hb | hd
      · exact (Rules.builtinExprs_local r hb).convert ha
      · exact (hd k e).lockstep
  | stmt x =>
    have ha : StmtAligned (.since n ds) (.both p) k k x := ⟨rfl, .refl p, hk.covered _⟩
    refine Lockstep.get fun s s' hl => ?_
    rw [hl.eq_since]
    cases hr : g.stmtRules.find? k.toEnv s' x with
    | none => exact ha.default
    | some r =>
      rcases hg.stmtRules r (List.mem_of_find?_eq_some hr) with hb | hd
      · exact (Rules.builtinStmts_local r hb).convert ha
      · exact (hd k x).lockstep

theorem ofDepth_steady (hg : g.Admissible) (m : Model) (i : Nat) : (g.ofDepth m i).Steady := by
  induction i with
  | zero =>
    intro n ds p x
    cases x with
    | expr e => exact ⟨rfl, rfl, fun _ => .pure _⟩
    | stmt x => exact Lockstep.pure _
    | pattern q => trivial
  | succ i ih => exact step_steady hg ih

theorem converter_steady (hg : g.Admissible) (m : Model) : (g.converter m).Steady := by
  intro n ds p x
  cases x with
  | expr e => exact ⟨rfl, rfl, (ofDepth_steady hg m e.depth n ds p (.expr e)).exprAs⟩
  | stmt x => exact ofDepth_steady hg m x.depth n ds p (.stmt x)
  | pattern q => trivial

end Engine

/-! ## Entry points -/

/-- Each function that converts a node or a part of one restores its session. -/
structure Converter.EntryPointsRestore (k : Converter) : Prop where
  exprAs (expected? : Option TypeRef) (e : Expr) : (k.exprAs expected? e).Restores
  stmt (x : Stmt) : (k.stmt x).Restores
  block (x : Stmt) : (k.block x).Restores
  statements (xs : List Stmt) : (k.statements xs).Restores
  patternTest (subject : String) (pattern : Pattern) : (k.patternTest subject pattern).Restores
  isTest (operand : Expr) (pattern : Pattern) : (k.isTest operand pattern).Restores
  switchExpr (scrutinee : Expr) (arms : List SwitchArm) : (k.switchExpr scrutinee arms).Restores
  resource (ds : List Declarator) (resource? : Option Expr) (body? : Option Stmt) (isAwait : Bool) :
    (k.resource ds resource? body? isAwait).Restores
  resourceOver (x : Stmt) (rest : List Stmt) : (k.resourceOver x rest).Restores
  forEach (target : LoopTarget) (iterable : Expr) (body : Stmt) (isAwait : Bool) :
    (k.forEach target iterable body isAwait).Restores
  switchStmt (scrutinee : Expr) (sections : List SwitchSection) : (k.switchStmt scrutinee sections).Restores
  compositeFormat (template : Expr) (args : List Argument) : (k.compositeFormat? template args).Restores

namespace Converter

variable {k : Converter}

/-- Whatever goes to nodes only through the converter restores its session. -/
theorem Steady.restores (h : k.Steady) {α : Type} {ps : Parts} {m m' : Emit α}
    (hm : Calls (Runs.self k .same fun _ => True) ps m m') : m.Restores :=
  Emit.restores_of_lockstep fun _ _ p => hm.lockstep rfl (.refl p) ((h.covered ps).covers rfl)

theorem Steady.resourceOver (h : k.Steady) (x : Stmt) (rest : List Stmt) : (k.resourceOver x rest).Restores := by
  obtain ⟨span, kind⟩ := x
  cases kind with
  | resource ds e? body? isAwait =>
    exact h.restores ((resourceScope_calls ds e? isAwait (statements_calls rest)).thenPure _)
  | _ => exact h.restores (.pure _)

theorem Steady.entryPoints (h : k.Steady) : k.EntryPointsRestore where
  exprAs expected? e := h.restores (.expr expected? e)
  stmt x := h.restores (.stmt x)
  block x := h.restores (block_calls x)
  statements xs := h.restores (statements_calls xs)
  patternTest subject pattern := h.restores (patternTest_calls pattern subject)
  isTest operand pattern := h.restores (isTest_calls operand pattern)
  switchExpr scrutinee arms := h.restores (switchExpr_calls scrutinee arms)
  resource ds e? body? isAwait := h.restores (resource_calls ds e? body? isAwait)
  resourceOver := h.resourceOver
  forEach target _ body isAwait := h.restores (forEach_calls target (Runs.knows_self _ _ _) body isAwait)
  switchStmt scrutinee sections := h.restores (switchStmt_calls scrutinee sections)
  compositeFormat template args := by
    rw [← bind_pure (k.compositeFormat? template args)]
    exact h.restores (compositeFormat_calls template args (.refl _) (fun _ => .pure _) (.none _) (.pure _))

end Converter

/-- Over the built-in rules and any rules that only draw names, every entry point restores
    its session, for every model. -/
theorem Engine.entryPoints_restore (g : Engine) (hg : g.Admissible) (m : Model) :
    (g.converter m).EntryPointsRestore :=
  (converter_steady hg m).entryPoints

/-- With a rule of one's own in front that names each literal. -/
theorem Engine.entryPoints_restore_naming_literals :
    (({ exprRules := .ofList (.fixed Expr.kindName "named-literal" 200 (some ["literal"]) "held" (some "n") ::
        Rules.builtinExprs) } : Engine).converter Model.empty).EntryPointsRestore := by
  refine Engine.entryPoints_restore _ ⟨fun r hr => ?_, fun r hr => .inl (RuleSet.mem_ofList.mp hr)⟩ _
  rcases List.mem_cons.mp (RuleSet.mem_ofList.mp hr) with rfl | hr
  · exact .inr (Rule.fixed_onlyDraws _ _ _ _ _ _)
  · exact .inl hr

end ComponentScript
