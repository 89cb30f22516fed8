/-
  ComponentScript.Proofs.Rules.Local — the built-in rules only look at a node, at what lies
  inside it and at the place they stand at.

  `Rule.Local`: two converters that treat everything inside a node alike agree on whether
  the rule applies to it, and run in lockstep when it converts it. `builtinExprs_local` and
  `builtinStmts_local`: so does every built-in rule.
-/

import ComponentScript.Proofs.Convert.Covered
import ComponentScript.Proofs.Rules.Calls

namespace ComponentScript

open Text

/-- Two converters at the places `π` know the same about an expression, and treat
    everything inside it alike. -/
structure Aligned (L : Ledger) (π : Places) (k k' : Converter) (e : Expr) : Prop where
  settings : k.settings = k'.settings
  alike : π.Alike
  symbol : k.model.symbolOf e = k'.model.symbolOf e
  type : k.model.typeOf e = k'.model.typeOf e
  parts : Covered L π k k' e.parts

@[inherit_doc Aligned]
structure StmtAligned (L : Ledger) (π : Places) (k k' : Converter) (s : Stmt) : Prop where
  settings : k.settings = k'.settings
  alike : π.Alike
  parts : Covered L π k k' s.parts

/-- Where the converters are aligned on a node, the rule applies for both or for neither,
    and converts in lockstep. -/
structure Rule.Local {ν : Type} (aligned : Ledger → Places → Converter → Converter → ν → Prop) (r : Rule ν) :
    Prop where
  applies {L : Ledger} {π : Places} {k k' : Converter} {x : ν} : aligned L π k k' x →
    ∀ {s s' : Session}, Linked L π s s' → r.applies k.toEnv s x = r.applies k'.toEnv s' x
  convert {L : Ledger} {π : Places} {k k' : Converter} {x : ν} : aligned L π k k' x →
    Lockstep L π π (r.convert k x) (r.convert k' x)

variable {L : Ledger} {π : Places} {k k' : Converter} {e : Expr} {x : Stmt}

theorem Aligned.knows (h : Aligned L π k k' e) : (Runs.same h.settings True).Knows (.expr e) := by
  refine (h.parts.covers h.settings).knows fun e' heq => ?_
  cases heq
  exact ⟨h.symbol, h.type⟩

theorem StmtAligned.knows (h : StmtAligned L π k k' x) : (Runs.same h.settings True).Knows (.stmt x) :=
  (h.parts.covers h.settings).knows nofun

/-- A rule that goes to the parts of an expression is local. -/
theorem Rule.Calling.localExpr {r : Rule Expr} (hr : r.Calling Node.expr Expr.retext) : r.Local Aligned where
  applies {L π k k' e} h s s' hl := by
    have happ := hr.applies h.knows (funext (hl.isBound_eq h.alike))
    rw [Expr.retext_same] at happ
    exact happ.symm
  convert {L π k k' e} h := by
    have hcalls := hr.convert h.knows
    rw [Expr.retext_same] at hcalls
    exact hcalls.lockstep rfl h.alike (h.parts.covers h.settings)

theorem Rule.Calling.localStmt {r : Rule Stmt} (hr : r.Calling Node.stmt Stmt.retext) : r.Local StmtAligned where
  applies {L π k k' x} h s s' hl := by
    have happ := hr.applies h.knows (funext (hl.isBound_eq h.alike))
    rw [Stmt.retext_same] at happ
    exact happ.symm
  convert {L π k k' x} h := by
    have hcalls := hr.convert h.knows
    rw [Stmt.retext_same] at hcalls
    exact hcalls.lockstep rfl h.alike (h.parts.covers h.settings)

theorem Rules.builtinExprs_local : ∀ r ∈ builtinExprs, r.Local Aligned :=
  fun r hr => (builtinExprs_calling r hr).localExpr

theorem Rules.builtinStmts_local : ∀ r ∈ builtinStmts, r.Local StmtAligned :=
  fun r hr => (builtinStmts_calling r hr).localStmt

/-! ## Where no rule applies -/

namespace Converter

variable {hset : k.settings = k'.settings} {catching : Prop}

theorem defaultExpr_lockstep (expected? : Option TypeRef) (hπ : π.Alike)
    (hk : (Runs.same hset catching).Knows (.expr e))
    (h : (Runs.same hset catching).Covers L π e.parts) :
    Lockstep L π π (k.defaultExpr expected? e) (k'.defaultExpr expected? e) := by
  by_cases hother : ∃ nodeKind text, e.kind = .other nodeKind text
  · obtain ⟨nodeKind, text, hkind⟩ := hother
    obtain ⟨span, kind⟩ := e
    cases hkind
    exact .verbatim nodeKind span text
  · have hcalls := defaultExpr_calls expected? hk (fun nodeKind text heq => hother ⟨nodeKind, text, heq⟩)
      fun _ _ _ _ _ _ => trivial
    rw [Expr.retext_same] at hcalls
    exact hcalls.lockstep rfl hπ h

/-- Only a `try` has parts that are converted where something else is caught. -/
theorem stmtByKind_lockstep (hπ : π.Alike) (h : (Runs.same hset catching).Covers L π x.parts)
    (htry : ∀ body cs finally?, x.kind = .tryCatch body cs finally? → catching) :
    Lockstep L π π (k.stmtByKind x) (k'.stmtByKind x) := by
  have hcalls (hs : ∀ nodeKind text, x.kind ≠ .other nodeKind text) (hthrow : x.kind ≠ .throws none) :
      Lockstep L π π (k.stmtByKind x) (k'.stmtByKind x) := by
    have hcalls := stmtByKind_calls (h.knows nofun) hs hthrow htry
    rw [Stmt.retext_same] at hcalls
    exact hcalls.lockstep rfl hπ h
  obtain ⟨span, kind⟩ := x
  cases kind with
  | other nodeKind text => exact .verbatim nodeKind span text
  | throws value? =>
    cases value? with
    | some value => exact hcalls nofun nofun
    | none =>
      refine .bind (.caught hπ) fun caught? => ?_
      cases caught? with
      | none => exact .verbatim _ _ _
      | some binding => exact .pure _
  | _ => exact hcalls nofun nofun

end Converter

theorem Aligned.default (expected? : Option TypeRef) (h : Aligned L π k k' e) :
    Lockstep L π π (k.defaultExpr expected? e) (k'.defaultExpr expected? e) :=
  Converter.defaultExpr_lockstep expected? h.alike h.knows (h.parts.covers h.settings)

theorem StmtAligned.default (h : StmtAligned L π k k' x) :
    Lockstep L π π (k.defaultStmt x) (k'.defaultStmt x) :=
  .bind (Converter.stmtByKind_lockstep h.alike (h.parts.covers h.settings) fun _ _ _ _ => trivial) fun _ => .pure _

end ComponentScript
