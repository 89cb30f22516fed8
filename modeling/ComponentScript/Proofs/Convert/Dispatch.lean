/-
  ComponentScript.Proofs.Convert.Dispatch — how the statements of a list are dispatched.

  `statements_dispatch`: with any rules, a statement by itself goes to the first rule that
  applies to it, and to the conversion for its kind if none does. In a list so does each
  statement up to the first resource declaration without a body. That declaration is never
  offered to the rules: it is converted as the owner of all statements after it, which form a
  list again.

  As built, a rule of one's own for such declarations is taken when one stands alone and is
  passed over when one stands in a list (`openResource_passedOver`).
-/

import ComponentScript.Proofs.Convert.Rounds
import ComponentScript.Syntax.Build

namespace ComponentScript

open Text

/-- Whether a statement is a resource declaration without a body, which owns the statements
    after it. -/
def Stmt.isOpenResource (s : Stmt) : Bool :=
  match s.kind with
  | .resource _ _ none _ => true
  | _ => false

namespace Converter

variable (k : Converter)

/-- An open resource ends its list: all statements after it are its body. -/
theorem sequence_openResource {s : Stmt} (hs : s.isOpenResource = true) (rest : List Stmt) :
    k.sequence (s :: rest) = do return [← k.resourceOver s rest] := by
  obtain ⟨span, kind⟩ := s
  cases kind with
  | resource ds resource? body? isAwait =>
    cases body? with
    | none => rw [sequence, resourceOver, bind_assoc]; rfl
    | some body => cases hs
  | _ => cases hs

/-- Any other statement stands for itself. -/
theorem sequence_cons {s : Stmt} (hs : s.isOpenResource = false) (rest : List Stmt) :
    k.sequence (s :: rest) = do return (← k.stmt s) :: (← k.sequence rest) := by
  obtain ⟨span, kind⟩ := s
  cases kind with
  | resource ds resource? body? isAwait =>
    cases body? with
    | none => cases hs
    | some body => rfl
  | _ => rfl

/-- The statements in front of the first open resource are converted one by one. -/
theorem sequence_eq (ss : List Stmt) :
    k.sequence ss = do
      let texts ← (ss.takeWhile fun s => !s.isOpenResource).mapM k.stmt
      match ss.dropWhile fun s => !s.isOpenResource with
      | [] => return texts
      | s :: rest => return texts ++ [← k.resourceOver s rest] := by
  induction ss with
  | nil => rfl
  | cons s ss ih =>
    cases hs : s.isOpenResource with
    | true => simp [sequence_openResource k hs, hs]
    | false =>
      rw [sequence_cons k hs, ih]
      simp only [hs, Bool.not_false, List.takeWhile_cons_of_pos, List.dropWhile_cons_of_pos, List.mapM_cons, bind_assoc,
        pure_bind]
      cases ss.dropWhile fun s => !s.isOpenResource <;> simp

end Converter

namespace Engine

/-- The conversions that a statement is handed for the nodes inside it. -/
def insideOf (g : Engine) (m : Model) (s : Stmt) : Converter := g.ofDepth m (s.depth - 1)

/-- A statement is converted by the round after those for the nodes inside it. -/
theorem converter_stmt_inside (g : Engine) (m : Model) (x : Stmt) :
    (g.converter m).stmt x = (g.step (g.insideOf m x)).stmt x := by
  obtain ⟨span, kind⟩ := x
  rfl

end Engine

/-- How statements are dispatched, for any rules and any model: by itself, each goes to the
    first rule that applies. With rules that only look inside a node, what is inside goes the
    same way. In a list this holds up to the first open resource, which no rule is asked for. -/
theorem statements_dispatch (g : Engine) (m : Model) :
    (∀ x s, ((g.converter m).stmt x).out s =
      match g.stmtRules.find? (g.env m) s x with
      | some rule => (rule.convert (g.insideOf m x) x).out s
      | none => ((g.insideOf m x).defaultStmt x).out s) ∧
    (g.Local → ∀ x s, ((g.converter m).stmt x).out s =
      match g.stmtRules.find? (g.env m) s x with
      | some rule => (rule.convert (g.converter m) x).out s
      | none => ((g.converter m).defaultStmt x).out s) ∧
    ∀ xs, (g.converter m).statements xs = Converter.withFunctions xs do
      let texts ← (xs.takeWhile fun x => !x.isOpenResource).mapM (g.converter m).stmt
      match xs.dropWhile fun x => !x.isOpenResource with
      | [] => return texts
      | x :: rest => return texts ++ [← (g.converter m).resourceOver x rest] := by
  refine ⟨fun x s => ?_, fun hg x s => ?_, fun xs => ?_⟩
  · have henv : (g.insideOf m x).toEnv = g.env m := Engine.ofDepth_toEnv _
    rw [g.converter_stmt_inside, ← henv]
    exact g.step_stmt_out (g.insideOf m x) x s
  · rw [Engine.converter_stmt hg]
    exact g.step_stmt_out (g.converter m) x s
  · exact congrArg (Converter.withFunctions xs) ((g.converter m).sequence_eq xs)

/-- An engine with one rule, for resources. -/
def resourceEngine : Engine where
  exprRules := ⟨[]⟩
  stmtRules := ⟨[.fixed Stmt.kindName "project-resource" 200 (some ["using"]) "acquire();" none]⟩

/-- `using var conn = open();` -/
def openConnection : Stmt := .resource [⟨"conn", some (.call (.ident "open") [])⟩] none

/-- The rule applies to the declaration. It converts the declaration when that stands alone,
    and does not when it stands in a list. -/
theorem openResource_passedOver :
    (resourceEngine.stmtRules.find? (resourceEngine.env .empty) {} openConnection).map (·.name) =
      some "project-resource" ∧
    (((resourceEngine.converter .empty).stmt openConnection).out {}).1 = "acquire();" ∧
    (((resourceEngine.converter .empty).statements [openConnection]).out {}).1 =
      ["const conn = open();\ntry \x7b\x7d finally \x7b\n  " ++
        "if (conn && typeof conn.dispose === \"function\") conn.dispose();\n\x7d"] := by
  obtain ⟨hstmt, -, hlist⟩ := statements_dispatch resourceEngine .empty
  refine ⟨by decide +kernel, ?_, ?_⟩
  · rw [hstmt]
    rfl
  · rw [hlist]
    decide +kernel

end ComponentScript
