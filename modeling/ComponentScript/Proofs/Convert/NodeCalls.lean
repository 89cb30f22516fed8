/-
  ComponentScript.Proofs.Convert.NodeCalls — a node is converted through the nodes inside it,
  or emits text of its own and reports it.

  `Node.ownReport?` says which nodes do the latter: those without a structured kind, and a
  bare `throw`, which is a statement without a meaning where no error is caught. All others
  only go to their inner nodes, each at most once and in the order of the source, but for the
  argument of a constructor that is first taken for a collection to copy
  (`exprAs_calls`, `stmt_calls`).
-/

import ComponentScript.Proofs.Convert.OutVariables
import ComponentScript.Proofs.Rules.Calls

namespace ComponentScript

/-! ## Nodes that report -/

/-- The kind and the span that an expression reports when it is emitted as it stands. -/
def Expr.ownReport? (e : Expr) : Option (String × Span) :=
  match e.kind with
  | .other nodeKind _ => some (nodeKind, e.span)
  | _ => none

@[inherit_doc Expr.ownReport?]
def Stmt.ownReport? (s : Stmt) : Option (String × Span) :=
  match s.kind with
  | .other nodeKind _ => some (nodeKind, s.span)
  | .throws none => some ("rethrow", s.span)
  | _ => none

def Node.ownReport? : Node → Option (String × Span)
  | .expr e => e.ownReport?
  | .stmt s => s.ownReport?
  | .pattern _ => none

/-! ## Conversion of a node -/

/-- The kinds of expressions that some rule is for. -/
def Expr.isRuled (e : Expr) : Bool :=
  match e.kind with
  | .invocation .. | .member .. | .switchExpr .. => true
  | _ => false

namespace Rules

/-- Rules are for calls, members and switches. -/
theorem builtinExprs_applies {e : Expr} (he : e.isRuled = false) :
    ∀ r ∈ builtinExprs, ∀ env s, r.applies env s e = false := by
  obtain ⟨span, kind⟩ := e
  intro r hr
  simp only [builtinExprs, List.mem_cons, List.not_mem_nil, or_false] at hr
  rcases hr with rfl | rfl | rfl | rfl | rfl | rfl | rfl | rfl | rfl | rfl | rfl <;>
    cases kind <;> first | exact Bool.noConfusion he | exact fun _ _ => rfl

end Rules

namespace Engine

variable {R : Node → Prop} {φ : Retexting} (settings : Settings) (m : Model)

theorem find_retext {ν : Type} {node : ν → Node} {retext : Retexting → ν → ν} {rs : RuleSet ν}
    (h : ∀ r ∈ rs.rules, r.Calling node retext) {P : Runs} {x : ν} (hx : P.Knows (node x)) {s s' : Session}
    (hs : s.isBound = s'.isBound) : rs.find? P.k'.toEnv s' (retext P.φ x) = rs.find? P.k.toEnv s x := by
  obtain ⟨rules⟩ := rs
  unfold RuleSet.find?
  induction rules with
  | nil => rfl
  | cons r rules ih =>
    have hr := (h r (List.mem_cons_self ..)).applies hx hs
    have hrest := ih fun r' hm => h r' (List.mem_cons_of_mem _ hm)
    simp only [List.find?_cons, hr]
    rw [hrest]

/-- A structured expression is converted through its inner nodes. -/
theorem exprAs_calls (expected? : Option TypeRef) {e : Expr} (he : e.ownReport? = none)
    (hR : ∀ type? args i? arg, e.kind = .objectCreation type? args i? →
      (converter { settings := settings } m).CopiedInVain e (type? <|> expected?) args arg → R (.expr arg)) :
    Calls (Runs.self (converter { settings := settings } m) φ R) e.parts
      ((converter { settings := settings } m).exprAs expected? e)
      ((converter { settings := settings } m).exprAs expected? (e.retext φ)) := by
  have hknows := Runs.knows_self (converter { settings := settings } m) φ R (x := .expr e)
  have hrules : ∀ r ∈ (RuleSet.ofList Rules.builtinExprs).rules, r.Calling Node.expr Expr.retext :=
    fun r hr => Rules.builtinExprs_calling r (RuleSet.mem_ofList.mp hr)
  rw [converter_exprAs (builtin_local settings), converter_exprAs (builtin_local settings)]
  refine .look fun s s' hs => ?_
  rw [find_retext hrules hknows hs]
  cases hr : (RuleSet.ofList Rules.builtinExprs).find? (converter { settings := settings } m).toEnv s e with
  | none =>
    refine Converter.defaultExpr_calls expected? hknows (fun nodeKind text h => ?_) hR
    rw [Expr.ownReport?, h] at he
    cases he
  | some r => exact (hrules r (List.mem_of_find?_eq_some hr)).convert hknows

/-- Any other kind is converted by the defaults. -/
theorem exprAs_eq_defaultExpr {e : Expr} (he : e.isRuled = false) (expected? : Option TypeRef) :
    (converter { settings := settings } m).exprAs expected? e =
      (converter { settings := settings } m).defaultExpr expected? e := by
  refine Emit.ext_out fun s => exprAs_out_of_find_none (builtin_local settings) expected? ?_
  refine List.find?_eq_none.mpr fun r hr => ?_
  rw [Rules.builtinExprs_applies he r (RuleSet.mem_ofList.mp hr)]
  exact Bool.false_ne_true

/-- An unstructured expression is emitted as it stands, and reported. -/
theorem exprAs_other (expected? : Option TypeRef) (span : Span) (nodeKind text : String) :
    (converter { settings := settings } m).exprAs expected? ⟨span, .other nodeKind text⟩ =
      Emit.verbatim nodeKind span text :=
  exprAs_eq_defaultExpr settings m rfl expected?

/-- A constructor is called. -/
theorem exprAs_creation (expected? : Option TypeRef) (span : Span) (type? : Option TypeRef) (args : List Argument)
    (initializer? : Option Initializer) :
    (converter { settings := settings } m).exprAs expected? ⟨span, .objectCreation type? args initializer?⟩ =
      (converter { settings := settings } m).creation ⟨span, .objectCreation type? args initializer?⟩
        (type? <|> expected?) args initializer? :=
  exprAs_eq_defaultExpr settings m rfl expected?

/-- An operator stands between its operands, which are converted from left to right. -/
theorem exprAs_binary (expected? : Option TypeRef) (span : Span) (op : BinaryOp) (left right : Expr) (s : Session) :
    ((converter { settings := settings } m).exprAs expected? ⟨span, .binary op left right⟩).out s =
      let l := ((converter { settings := settings } m).binaryOperand op left).out s
      let r := ((converter { settings := settings } m).binaryOperand op right).out l.2
      (l.1 ++ (" " ++ op.symbol ++ " ") ++ r.1, r.2) := by
  rw [exprAs_eq_defaultExpr settings m rfl]
  dsimp only [Converter.defaultExpr]
  simp only [Emit.out_bind, Emit.out_pure, String.append_assoc]
  rfl

/-- A statement that does not emit its own text is converted through its inner nodes. -/
theorem stmt_calls {x : Stmt} (hx : x.ownReport? = none) :
    Calls (Runs.self (converter { settings := settings } m) φ R) x.parts
      ((converter { settings := settings } m).stmt x) ((converter { settings := settings } m).stmt (x.retext φ)) := by
  rw [stmt_eq_defaultStmt, stmt_eq_defaultStmt]
  refine Converter.defaultStmt_calls (Runs.knows_self _ φ R) (fun nodeKind text h => ?_) (fun h => ?_)
    fun _ _ _ _ => trivial
  · rw [Stmt.ownReport?, h] at hx
    cases hx
  · rw [Stmt.ownReport?, h] at hx
    cases hx

theorem stmt_other (span : Span) (nodeKind text : String) :
    (converter { settings := settings } m).stmt ⟨span, .other nodeKind text⟩ = Emit.verbatim nodeKind span text := by
  rw [stmt_eq_defaultStmt, Converter.defaultStmt_eq_stmtByKind rfl]
  rfl

/-- A bare `throw` throws the error that is caught again; else it is reported. -/
theorem stmt_rethrow (span : Span) :
    (converter { settings := settings } m).stmt ⟨span, .throws none⟩ = (do
      match ← Emit.caught with
      | some binding => return s!"throw {binding};"
      | none => Emit.verbatim "rethrow" span "throw;") := by
  rw [stmt_eq_defaultStmt, Converter.defaultStmt_eq_stmtByKind rfl]
  rfl

end Engine

end ComponentScript
