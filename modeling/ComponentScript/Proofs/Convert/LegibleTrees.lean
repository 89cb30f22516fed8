/-
  ComponentScript.Proofs.Convert.LegibleTrees — whole trees become legible text.

  A node is suited under the scopes around it (`Node.Suited`) if it and all nodes inside fit,
  and whatever they substitute in templates can be substituted. The text of a suited node
  can be read (`Engine.suited_reads`): of an expression as `Expr.outer` says, of a statement
  to the end of its chain. What a round does with a node depends on the nodes inside it under
  the scopes there, so for these a converter will do that is restricted to suited nodes
  (`Converter.restricted`), and that one is legible.
-/

import ComponentScript.Proofs.Convert.LexicalScope
import ComponentScript.Proofs.Rules.Legible

namespace ComponentScript

open Script Text

/-! ## Suited nodes -/

/-- Whatever the expression, converted in the session, substitutes in a template of its own. -/
structure Expr.HolesFit (w : Watch) (hole : Expr → Prop) (env : Env) (s : Session) (e : Expr) : Prop where
  template : TemplateFit w hole env s e
  interpolated : ∀ parts, e.kind = .interpolated parts → ∀ x ∈ parts.filterMap InterpolationPart.expr?, hole x

/-- The node and all nodes inside it fit, where the given scopes are open around it. -/
structure Node.Suited (w : Watch) (hole : Expr → Prop) (env : Env) (scopes : Scopes) (x : Node) : Prop where
  fit : x.Fit env.model w
  holes : ∀ b e, Within [([], x)] b (.expr e) → ∀ s : Session, s.scopes = b ++ scopes → e.HolesFit w hole env s

variable {w : Watch} {hole : Expr → Prop} {env : Env} {scopes : Scopes}

theorem Node.Suited.within {x y : Node} {b : Scopes} (h : x.Suited w hole env scopes) (hy : Within x.parts b y) :
    y.Suited w hole env (b ++ scopes) where
  fit := h.fit.within hy
  holes c e he s hs := h.holes (c ++ b) e (hy.enter he) s (by rw [hs, List.append_assoc])

theorem Node.Suited.holesFit {e : Expr} {s : Session} (h : (Node.expr e).Suited w hole env s.scopes) :
    e.HolesFit w hole env s :=
  h.holes [] e (.self _) s rfl

/-! ## Restricted converters -/

section

variable {k : Converter} {p : Scopes → Node → Prop} [∀ scopes x, Decidable (p scopes x)]

variable (k p) in
/-- The converter for some of the nodes; the others are left out. -/
def Converter.restricted : Converter where
  toEnv := k.toEnv
  exprAs expected? e := do
    let s ← get
    if p s.scopes (.expr e) then k.exprAs expected? e else return ""
  stmt x := do
    let s ← get
    if p s.scopes (.stmt x) then k.stmt x else return ""

theorem Converter.restricted_sameIn {s : Session} {y : Node} (h : p s.scopes y) : y.SameIn k (k.restricted p) s := by
  cases y with
  | expr e =>
    intro expected?
    show _ = (if p s.scopes (.expr e) then k.exprAs expected? e else _).out s
    rw [if_pos h]
  | stmt x =>
    show _ = (if p s.scopes (.stmt x) then k.stmt x else _).out s
    rw [if_pos h]
  | pattern q => trivial

/-- What the text of a node has to be, when it is converted in the session. -/
def Node.Reads (w : Watch) (k : Converter) (s : Session) : Node → Prop
  | .expr e => ∀ expected?, TypeInert expected? → EmitsAt s (w.Shaped (e.outer k.model)) (k.exprAs expected? e)
  | .stmt x => EmitsAt s w.Stated (k.stmt x)
  | .pattern _ => True

/-- Without the nodes that cannot be read, a converter is legible. -/
theorem Converter.restricted_legible (hset : k.settings = {})
    (hhole : ∀ e, hole e → Emits w.unticked.Whole (k.expr e))
    (hp : ∀ y (s : Session), s.Tidy → p s.scopes y → y.Reads w k s) : (k.restricted p).Legible w hole where
  settings := hset
  exprAs {expected?} e hx := by
    intro s hs
    show EmitsAt s _ (if p s.scopes (.expr e) then k.exprAs expected? e else return "")
    split
    · next h => exact hp _ s hs h expected? hx
    · exact ⟨Watch.neutral_empty.shaped _, hs⟩
  holes {e} he := .get fun s => .ite (fun _ => hhole e he) fun _ => .pure Watch.neutral_empty.whole
  stmt x := by
    intro s hs
    show EmitsAt s _ (if p s.scopes (.stmt x) then k.stmt x else return "")
    split
    · next h => exact hp _ s hs h
    · exact ⟨Watch.neutral_empty.stated, hs⟩

/-- A round takes no notice of a restriction that allows the nodes inside. -/
theorem Engine.step_restricted {g : Engine} (hg : g.Local) (hk : k.EntryPointsRestore) {s : Session} {x : Node}
    (h : ∀ b y, Within x.parts b y → p (b ++ s.scopes) y) : x.SameIn (g.step k) (g.step (k.restricted p)) s := by
  have henv : k.toEnv = (k.restricted p).toEnv := rfl
  have hcovered : Covered Ledger.same (.both s.place) k (k.restricted p) x.parts := by
    intro b y hy c
    refine Node.inStep_of_sameIn hk henv fun r hr => Converter.restricted_sameIn ?_
    rw [show r.scopes = b ++ s.scopes from congrArg Place.scopes hr]
    exact h b y hy
  cases x with
  | expr e => exact fun expected? => ((step_expr_inStep hg henv (.refl _) hcovered).exprAs expected?).out_eq rfl
  | stmt x => exact (step_stmt_inStep hg henv (.refl _) hcovered).out_eq rfl
  | pattern q => trivial

end

/-! ## Rounds -/

namespace Engine

/-- A round of the built-in rules gives for a node that fits a text that can be read. -/
theorem step_reads {k : Converter} (hk : k.Legible w hole) {s : Session} (hs : s.Tidy) {x : Node}
    (h : x.Suited w hole k.toEnv s.scopes) : x.Reads w (({} : Engine).step k) s := by
  cases x with
  | expr e =>
    intro expected? hx
    have hdefault : EmitsAt s (w.Shaped (e.outer k.model)) (k.defaultExpr expected? e) :=
      Converter.defaultExpr_legible hk hx h.fit h.holesFit.interpolated s hs
    cases hr : ({} : Engine).exprRules.find? k.toEnv s e with
    | none => exact .of_out_eq (by rw [step_exprAs_out, hr]) hdefault
    | some r =>
      have hmem := RuleSet.mem_ofList.mp (List.mem_of_find?_eq_some hr)
      have happlies : r.applies k.toEnv s e = true :=
        List.find?_some (p := fun r : Rule Expr => r.applies k.toEnv s e) hr
      have hrule := Rules.builtinExprs_legible r hmem hk h.fit h.holesFit.template happlies hs
      exact .of_out_eq (by rw [step_exprAs_out, hr]) hrule
  | stmt x =>
    have hdefault : EmitsAt s w.Stated (k.defaultStmt x) := Converter.defaultStmt_stated hk h.fit s hs
    cases hr : ({} : Engine).stmtRules.find? k.toEnv s x with
    | none => exact EmitsAt.of_out_eq (by rw [step_stmt_out, hr]) hdefault
    | some r =>
      have hmem := RuleSet.mem_ofList.mp (List.mem_of_find?_eq_some hr)
      exact EmitsAt.of_out_eq (by rw [step_stmt_out, hr]) (Rules.builtinStmts_stated hmem hk h.fit s hs)
  | pattern q => trivial

/-- With the built-in rules and the default settings, the text of a suited node can be read. -/
theorem suited_reads (m : Model) (hhole : ∀ e, hole e → Emits w.unticked.Whole ((({} : Engine).converter m).expr e))
    {s : Session} (hs : s.Tidy) {x : Node} (h : x.Suited w hole ⟨{}, m⟩ s.scopes) :
    x.Reads w (({} : Engine).converter m) s := by
  classical
  -- by depth: the nodes inside are suited where they are converted, and less deep
  induction hd : x.depth using Nat.strongRecOn generalizing x s with
  | ind d ih =>
    subst hd
    let p : Scopes → Node → Prop := fun scopes y => y.depth < x.depth ∧ y.Suited w hole ⟨{}, m⟩ scopes
    have hlegible : ((({} : Engine).converter m).restricted p).Legible w hole :=
      Converter.restricted_legible rfl hhole fun y r hr hy => ih y.depth hy.1 hr hy.2 rfl
    have hrestore := (converter_steady (builtin_admissible {}) m).entryPoints
    have hreads := step_reads (k := (({} : Engine).converter m).restricted p) hlegible hs h
    cases x with
    | expr e =>
      intro expected? hx
      have hsame : (Node.expr e).SameIn _ _ s := step_restricted (p := p) (builtin_local {}) hrestore
        fun b y hy => ⟨Expr.within_depth_lt hy, h.within hy⟩
      rw [converter_exprAs (builtin_local {})]
      exact .of_out_eq (hsame expected?) (hreads expected? hx)
    | stmt y =>
      have hsame : (Node.stmt y).SameIn _ _ s := step_restricted (p := p) (builtin_local {}) hrestore
        fun b y hy => ⟨Stmt.within_depth_lt hy, h.within hy⟩
      rw [Node.Reads, converter_stmt (builtin_local {})]
      exact EmitsAt.of_out_eq hsame hreads
    | pattern q => trivial

end Engine

end ComponentScript
