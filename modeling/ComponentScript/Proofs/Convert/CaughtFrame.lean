/-
  ComponentScript.Proofs.Convert.CaughtFrame — only a catch clause catches.

  The session holds the bindings of the catch clauses around, and everything but the body of
  a catch clause is converted under the bindings that were there before. So two converters
  that treat all nodes alike under the caught errors `c` (`AlikeUnder`) also convert alike,
  under `c`, every expression, with each of the built-in rules, and every statement that is
  no `try` (`AlikeUnder.step_exprAs`, `AlikeUnder.step_stmt`). Of a `try`, they convert alike
  what it tries, what its clauses ask of an error and what it does in the end.

  `Uncaught`: the conversions in the course of converting a tree that are not for the
  body of a catch clause of the tree. They all happen under the caught errors that were there
  at the start (`Uncaught.catches_eq`), so a bare `throw` among them throws what the innermost
  clause around the tree has caught (`Uncaught.rethrows`).
-/

import ComponentScript.Proofs.Convert.LexicalScope
import ComponentScript.Proofs.Convert.NodeCalls

namespace ComponentScript

open Text

/-- Both runs under the scopes `b` and the caught errors `c`. -/
abbrev Places.under (b : Scopes) (c : List String) : Places := .both ⟨b, c⟩

/-- Wherever the caught errors are `c`, the converters treat every node alike. -/
structure AlikeUnder (c : List String) (k k' : Converter) : Prop where
  env : k.toEnv = k'.toEnv
  inStep (b : Scopes) (x : Node) : x.InStep .same (.under b c) k k'

namespace AlikeUnder

variable {c : List String} {k k' : Converter} (h : AlikeUnder c k k') (b : Scopes)
include h

theorem settings : k.settings = k'.settings := by rw [h.env]

theorem covers (ps : Parts) : (Runs.same h.settings False).Covers .same (.under b c) ps := by
  intro c' hc b' x _
  obtain rfl := hc.resolve_right id
  exact h.inStep (b' ++ b) x

theorem knows (x : Node) : (Runs.same h.settings False).Knows x :=
  (h.covers [] x.parts).knows fun _ _ => by rw [h.env]; exact ⟨rfl, rfl⟩

/-- Steps that catch nothing run in lockstep. -/
theorem lockstep {α : Type} {ps : Parts} {m m' : Emit α} (hm : Calls (Runs.same h.settings False) ps m m') :
    Lockstep .same (.under b c) (.under b c) m m' :=
  hm.lockstep rfl (.refl _) (h.covers b ps)

theorem step_exprAs (settings : Settings) (expected? : Option TypeRef) (e : Expr) :
    Lockstep .same (.under b c) (.under b c) ((({ settings := settings } : Engine).step k).exprAs expected? e)
      ((({ settings := settings } : Engine).step k').exprAs expected? e) := by
  have hrules : ∀ r ∈ (RuleSet.ofList Rules.builtinExprs).rules, r.Calling Node.expr Expr.retext :=
    fun r hr => Rules.builtinExprs_calling r (RuleSet.mem_ofList.mp hr)
  refine .get fun s s' hl => ?_
  have hfind := Engine.find_retext hrules (h.knows (.expr e)) (funext (hl.isBound_eq (.refl _)))
  rw [Expr.retext_same] at hfind
  rw [← hfind]
  cases hr : (RuleSet.ofList Rules.builtinExprs).find? k'.toEnv s' e with
  | none => exact Converter.defaultExpr_lockstep expected? (.refl _) (h.knows _) (h.covers b _)
  | some r =>
    have hcalls := (hrules r (List.mem_of_find?_eq_some hr)).convert (h.knows (.expr e))
    rw [Expr.retext_same] at hcalls
    exact h.lockstep b hcalls

theorem step_stmt (settings : Settings) (x : Stmt)
    (hx : ∀ body clauses finally?, x.kind ≠ .tryCatch body clauses finally?) :
    Lockstep .same (.under b c) (.under b c) ((({ settings := settings } : Engine).step k).stmt x)
      ((({ settings := settings } : Engine).step k').stmt x) := by
  rw [Engine.step_stmt_eq_defaultStmt, Engine.step_stmt_eq_defaultStmt]
  exact .bind (Converter.stmtByKind_lockstep (.refl _) (h.covers b _) hx) fun _ => .pure _

theorem block (x : Stmt) : Lockstep .same (.under b c) (.under b c) (k.block x) (k'.block x) := by
  have hcalls := Converter.block_calls (P := Runs.same h.settings False) (b := []) x
  rw [Stmt.retext_same] at hcalls
  exact h.lockstep b hcalls

theorem catchTests (error : String) (clause : CatchClause) :
    Lockstep .same (.under b c) (.under b c) (k.catchTests error clause) (k'.catchTests error clause) := by
  have hcalls := Converter.catchTests_calls (P := Runs.same h.settings False) error clause
  have hsame : clause.retext .same = clause := by
    obtain ⟨type?, name?, filter?, body⟩ := clause
    rw [CatchClause.retext, retextExpr?_same, Stmt.retext_same]
  rw [hsame] at hcalls
  exact h.lockstep b hcalls

end AlikeUnder

/-! ## Outside the bodies of catch clauses -/

/-- In the course of converting the tree from the session `s`, the node is converted in the
    session `s'`, and not for the body of a catch clause of the tree. -/
inductive Uncaught (g : Engine) (m : Model) (t : Tree) (s : Session) : Node → Session → Prop
  | tree {x : Node} {s' : Session} : Converts (g.converter m) t.convert s x s' → Uncaught g m t s x s'
  | expr {expected? : Option TypeRef} {e : Expr} {x : Node} {s' s'' : Session} :
      Uncaught g m t s (.expr e) s' →
      Converts (g.converter m) (fun k => (g.step k).exprAs expected? e) s' x s'' → Uncaught g m t s x s''
  | stmt {y : Stmt} {x : Node} {s' s'' : Session} :
      Uncaught g m t s (.stmt y) s' → (∀ body clauses finally?, y.kind ≠ .tryCatch body clauses finally?) →
      Converts (g.converter m) (fun k => (g.step k).stmt y) s' x s'' → Uncaught g m t s x s''
  | tried {span : Span} {body : Stmt} {clauses : List CatchClause} {finally? : Option Stmt} {x : Node}
      {s' s'' : Session} :
      Uncaught g m t s (.stmt ⟨span, .tryCatch body clauses finally?⟩) s' →
      Converts (g.converter m) (fun k => k.block body) s' x s'' → Uncaught g m t s x s''
  | asked {span : Span} {body : Stmt} {clauses : List CatchClause} {finally? : Option Stmt} {error : String}
      {c : CatchClause} {x : Node} {s' r s'' : Session} :
      Uncaught g m t s (.stmt ⟨span, .tryCatch body clauses finally?⟩) s' → c ∈ clauses → s'.Continues r →
      Converts (g.converter m) (fun k => k.catchTests error c) r x s'' → Uncaught g m t s x s''
  | final {span : Span} {body final : Stmt} {clauses : List CatchClause} {x : Node} {s' r s'' : Session} :
      Uncaught g m t s (.stmt ⟨span, .tryCatch body clauses (some final)⟩) s' → s'.Continues r →
      Converts (g.converter m) (fun k => k.block final) r x s'' → Uncaught g m t s x s''

/-- A step that converts alike with converters that are alike under the caught errors goes
    nowhere else. -/
theorem Converts.catches_eq {α : Type} {k : Converter} {f : Converter → Emit α} {s s' : Session} {x : Node}
    (h : Converts k f s x s') (hk : k.EntryPointsRestore)
    (hf : ∀ k', AlikeUnder s.catches k k' →
      Lockstep .same (.under s.scopes s.catches) (.under s.scopes s.catches) (f k) (f k')) :
    s'.catches = s.catches := by
  refine Classical.byContradiction fun hne => ?_
  obtain ⟨k', henv, hsame, hdiff⟩ := h
  have halike : AlikeUnder s.catches k k' := by
    refine ⟨henv, fun b y => Node.inStep_of_sameIn hk henv fun r hr => hsame y r ?_⟩
    rintro ⟨-, rfl⟩
    exact hne (congrArg Place.catches hr)
  exact hdiff ((hf k' halike).out_eq rfl)

namespace Uncaught

variable {settings : Settings} {m : Model} {t : Tree} {s s' : Session} {x : Node}

/-- Outside the bodies of catch clauses, the caught errors are those of the start. -/
theorem catches_eq (h : Uncaught { settings := settings } m t s x s') : s'.catches = s.catches := by
  have hk := (Engine.converter_steady (Engine.builtin_admissible settings) m).entryPoints
  induction h with
  | tree hc => exact hc.catches_eq hk fun k' halike => halike.lockstep _ (Tree.convert_calls _)
  | expr _ hc ih => exact (hc.catches_eq hk fun k' halike => halike.step_exprAs _ settings _ _).trans ih
  | stmt _ hy hc ih => exact (hc.catches_eq hk fun k' halike => halike.step_stmt _ settings _ hy).trans ih
  | tried _ hc ih => exact (hc.catches_eq hk fun k' halike => halike.block _ _).trans ih
  | asked _ _ hr hc ih =>
    exact (hc.catches_eq hk fun k' halike => halike.catchTests _ _ _).trans (hr.catches.trans ih)
  | final _ hr hc ih => exact (hc.catches_eq hk fun k' halike => halike.block _ _).trans (hr.catches.trans ih)

/-- A bare `throw` throws what the innermost clause around the tree has caught. -/
theorem rethrows {span : Span} {binding : String} {c : List String}
    (h : Uncaught { settings := settings } m t s (.stmt ⟨span, .throws none⟩) s') (hs : s.catches = binding :: c) :
    ((({ settings := settings } : Engine).converter m).stmt ⟨span, .throws none⟩).out s' =
      (s!"throw {binding};", s') := by
  have hcatches : s'.catches = binding :: c := h.catches_eq.trans hs
  rw [Engine.stmt_rethrow]
  simp only [Emit.caught, Emit.out_bind, Emit.out_get, Emit.out_pure, hcatches, List.head?_cons]

end Uncaught

open Classical in
/-- The converter that draws one more name when it converts the statement in the session. -/
noncomputable def Converter.stmtMarkedAt (k : Converter) (x : Stmt) (s : Session) : Converter :=
  { k with stmt := fun x' s' =>
      let out := (k.stmt x').out s'
      if x' = x ∧ s' = s then (out.1, { out.2 with counter := out.2.counter + 1 }) else out }

/-- A step that counts as far as the conversion of the statement does converts it. -/
theorem converts_stmt_of_counter {α : Type} {k : Converter} {f : Converter → Emit α} {x : Stmt} {s s' : Session}
    (hend : ∀ k : Converter, ((f k).out s).2.counter = ((k.stmt x).out s').2.counter) :
    Converts k f s (.stmt x) s' := by
  refine ⟨k.stmtMarkedAt x s', rfl, fun y r hy => ?_, fun heq => ?_⟩
  · cases y with
    | expr e => intro expected?; rfl
    | stmt x' =>
      have hne : ¬ (x' = x ∧ r = s') := fun heq => hy ⟨congrArg Node.stmt heq.1, heq.2⟩
      exact (if_neg hne).symm
    | pattern q => trivial
  · have hmark : ((k.stmtMarkedAt x s').stmt x).out s' = _ := if_pos ⟨rfl, rfl⟩
    have hcount : ((f k).out s).2.counter = ((f (k.stmtMarkedAt x s')).out s).2.counter := by rw [heq]
    rw [hend, hend, hmark] at hcount
    exact Nat.succ_ne_self _ hcount.symm

end ComponentScript
