/-
  ComponentScript.Proofs.Convert.Composition — properties that steps pass on to the steps made
  of them.

  A property of steps composes if a step has it whenever all steps it is made of do, whatever
  these give (`Emit.Composes`). A conversion is made of the conversions of the nodes inside and
  of steps on the session. So where all rules of an engine pass such a property on, all
  conversions have it (`Engine.converter_has`). The built-in rules pass on every property that
  composes (`Rule.Calling.passes`).
-/

import ComponentScript.Proofs.Convert.NodeCalls

namespace ComponentScript

/-- Steps have the property if the steps they are made of do. Of the names that are drawn it
    is only asked where their stems do not end in a digit. -/
structure Emit.Composes (P : {α : Type} → Emit α → Prop) : Prop where
  pure {α : Type} (a : α) : P (Pure.pure a : Emit α)
  bind {α β : Type} {m : Emit α} {f : α → Emit β} : P m → (∀ a, P (f a)) → P (m >>= f)
  look {α : Type} {f : Session → Emit α} : (∀ s, P (f s)) → P (MonadState.get >>= f)
  freshName {stem : String} : Script.endsInDigit stem = false → P (Emit.freshName stem)
  bindName (name : String) : P (Emit.bindName name)
  report (d : Diagnostic) : P (Emit.report d)
  withScope {α : Type} {m : Emit α} (names : List String) : P m → P (Emit.withScope names m)
  withCatch {α : Type} {m : Emit α} (binding : String) : P m → P (Emit.withCatch binding m)

/-- The conversions of all nodes have the property. -/
structure Converter.Has (P : {α : Type} → Emit α → Prop) (k : Converter) : Prop where
  exprAs (expected? : Option TypeRef) (e : Expr) : P (k.exprAs expected? e)
  stmt (x : Stmt) : P (k.stmt x)

/-- What the rule does with a node has the property, if the conversions of the nodes inside
    have it. -/
def Rule.Passes {ν : Type} (P : {α : Type} → Emit α → Prop) (r : Rule ν) : Prop :=
  ∀ k : Converter, k.Has P → ∀ x, P (r.convert k x)

/-- All rules of the engine pass the property on. -/
structure Engine.Passes (P : {α : Type} → Emit α → Prop) (g : Engine) : Prop where
  exprRules : ∀ r ∈ g.exprRules.rules, r.Passes P
  stmtRules : ∀ r ∈ g.stmtRules.rules, r.Passes P

variable {P : {α : Type} → Emit α → Prop}

theorem Emit.Composes.verbatim (hP : Composes P) (nodeKind : String) (span : Span) (text : String) :
    P (Emit.verbatim nodeKind span text) :=
  hP.bind (hP.report _) fun _ => hP.pure text

theorem CallsFrom.has (hP : Emit.Composes P) {Q : Runs} (hk : Q.k.Has P) {b c : Scopes} {ps : Parts} {α : Type}
    {m m' : Emit α} (h : CallsFrom Q b c ps m m') : P m := by
  induction h with
  | pure a => exact hP.pure a
  | bind _ _ ihm ihf => exact hP.bind ihm ihf
  | expr expected? e => exact hk.exprAs expected? e
  | stmt x => exact hk.stmt x
  | look _ ih => exact hP.look fun s => ih s s rfl
  | freshName h => exact hP.freshName h
  | bindName name => exact hP.bindName name
  | report d _ => exact hP.report d
  | withScope names _ ih => exact hP.withScope names ih
  | withCatch binding _ _ ih => exact hP.withCatch binding ih
  | draws _ _ ih => exact ih

theorem Rule.Calling.passes (hP : Emit.Composes P) {ν : Type} {node : ν → Node} {retext : Retexting → ν → ν}
    {r : Rule ν} (h : r.Calling node retext) : r.Passes P :=
  fun k hk x => (h.convert (x := x) (Runs.knows_self k .same fun _ => True)).has hP hk

namespace Converter

variable {k : Converter}

theorem defaultExpr_has (hP : Emit.Composes P) (hk : k.Has P) (expected? : Option TypeRef) (e : Expr) :
    P (k.defaultExpr expected? e) := by
  by_cases he : ∃ nodeKind text, e.kind = .other nodeKind text
  · obtain ⟨span, kind⟩ := e
    obtain ⟨nodeKind, text, rfl⟩ := he
    exact hP.verbatim nodeKind span text
  · have hcalls := defaultExpr_calls expected? (Runs.knows_self k .same fun _ => True)
      (fun nodeKind text heq => he ⟨nodeKind, text, heq⟩) fun _ _ _ _ _ _ => trivial
    exact hcalls.has hP hk

theorem defaultStmt_has (hP : Emit.Composes P) (hk : k.Has P) (x : Stmt) : P (k.defaultStmt x) := by
  by_cases hx : (∃ nodeKind text, x.kind = .other nodeKind text) ∨ x.kind = .throws none
  · obtain ⟨span, kind⟩ := x
    rcases hx with ⟨nodeKind, text, rfl⟩ | rfl
    · rw [defaultStmt_eq_stmtByKind rfl]
      exact hP.verbatim nodeKind span text
    · rw [defaultStmt_eq_stmtByKind rfl]
      refine hP.bind (hP.look fun s => hP.pure s.catches.head?) fun binding? => ?_
      cases binding? with
      | none => exact hP.verbatim _ _ _
      | some binding => exact hP.pure _
  · have hcalls := defaultStmt_calls (Runs.knows_self k .same fun _ => True)
      (fun nodeKind text heq => hx (.inl ⟨nodeKind, text, heq⟩)) (fun heq => hx (.inr heq)) fun _ _ _ _ => trivial
    exact hcalls.has hP hk

end Converter

namespace Engine

variable {g : Engine}

theorem step_has (hP : Emit.Composes P) (hg : g.Passes P) {k : Converter} (hk : k.Has P) : (g.step k).Has P where
  exprAs expected? e := by
    refine hP.look fun s => ?_
    cases hr : g.exprRules.find? k.toEnv s e with
    | none => exact Converter.defaultExpr_has hP hk expected? e
    | some r => exact hg.exprRules r (List.mem_of_find?_eq_some hr) k hk e
  stmt x := by
    refine hP.look fun s => ?_
    cases hr : g.stmtRules.find? k.toEnv s x with
    | none => exact Converter.defaultStmt_has hP hk x
    | some r => exact hg.stmtRules r (List.mem_of_find?_eq_some hr) k hk x

theorem ofDepth_has (hP : Emit.Composes P) (hg : g.Passes P) (m : Model) (n : Nat) : (g.ofDepth m n).Has P := by
  induction n with
  | zero => exact ⟨fun _ _ => hP.pure _, fun _ => hP.pure _⟩
  | succ n ih => exact step_has hP hg ih

theorem converter_has (hP : Emit.Composes P) (hg : g.Passes P) (m : Model) : (g.converter m).Has P :=
  ⟨fun expected? e => (ofDepth_has hP hg m e.depth).exprAs expected? e,
    fun x => (ofDepth_has hP hg m x.depth).stmt x⟩

end Engine

end ComponentScript
