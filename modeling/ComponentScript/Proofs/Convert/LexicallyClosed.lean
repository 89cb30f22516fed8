/-
  ComponentScript.Proofs.Convert.LexicallyClosed — the script text of a tree is lexically
  closed.

  One round of conversion gives closed text for well-named nodes if the converter for the
  nodes inside does (`step_closing`), and no round at all gives no text, so any number of
  rounds does (`ofDepth_closing`), whatever the model says. `texts_lexicallyClosed`: the
  text of a well-named expression, statement or statement list ends every string and every
  template it starts, closes every bracket by its partner in the order of nesting, and has
  its line breaks in code only; and in blocks of any depth its literals are what they are by
  themselves.
-/

import ComponentScript.Proofs.Convert.Rounds
import ComponentScript.Proofs.Rules.ClosedText
import ComponentScript.Syntax.Build

namespace ComponentScript

open Script Text

/-! ## Rounds -/

namespace Engine

/-- The default settings, and rules that give closed text for well-named nodes. -/
structure Closing (g : Engine) : Prop where
  settings : g.settings = {}
  exprRules : ∀ r ∈ g.exprRules.rules, r.Closing Node.expr
  stmtRules : ∀ r ∈ g.stmtRules.rules, r.Closing Node.stmt

theorem builtin_closing : Closing {} where
  settings := rfl
  exprRules r hr := Rules.builtinExprs_closing r (RuleSet.mem_ofList.mp hr)
  stmtRules r hr := Rules.builtinStmts_closing r (RuleSet.mem_ofList.mp hr)

variable {g : Engine}

theorem step_closing (hg : g.Closing) {k : Converter} (hk : k.Closing) : (g.step k).Closing where
  settings := hk.settings
  exprAs {expected? e} hx he := by
    refine .get fun s => ?_
    cases hr : g.exprRules.find? k.toEnv s e with
    | none => exact Converter.defaultExpr_closed hk hx he
    | some r => exact hg.exprRules r (List.mem_of_find?_eq_some hr) hk he
  stmt {x} hx := by
    refine .get fun s => ?_
    cases hr : g.stmtRules.find? k.toEnv s x with
    | none => exact Converter.defaultStmt_closed hk hx
    | some r => exact hg.stmtRules r (List.mem_of_find?_eq_some hr) hk hx

theorem ofDepth_closing (hg : g.Closing) (m : Model) (n : Nat) : (g.ofDepth m n).Closing := by
  induction n with
  | zero => exact ⟨hg.settings, fun _ _ => .pure (by decide), fun _ => .pure (by decide)⟩
  | succ n ih => exact step_closing hg ih

theorem converter_closing (hg : g.Closing) (m : Model) : (g.converter m).Closing where
  settings := hg.settings
  exprAs {_ e} := (ofDepth_closing hg m e.depth).exprAs
  stmt {x} := (ofDepth_closing hg m x.depth).stmt

end Engine

/-- A step that gives closed text does so in a new session. -/
theorem Provides.ofEmit {step : Emit String} (h : Writes Closed step) : Closed (Conversion.ofEmit step).text :=
  (h {} nofun).1

/-! ## Whole trees -/

/-- The text inside `n` blocks. -/
def nested (indent : String) (n : Nat) (t : String) : String := Nat.repeat (fun u => Script.block [u] indent) n t

/-- The scan of the text ends in code with nothing open, and blocks around it change none of
    its literals. -/
structure LexicallyClosed (t : String) : Prop where
  closed : Closed t
  literals_nested (indent : String) : Markless indent → ∀ n, literals (nested indent n t) = literals t

theorem Script.Closed.lexicallyClosed {t : String} (h : Closed t) : LexicallyClosed t := by
  refine ⟨h, fun indent hi n => ?_⟩
  have hnested : ∀ n, Closed (nested indent n t) ∧ literals (nested indent n t) = literals t := by
    intro n
    induction n with
    | zero => exact ⟨h, rfl⟩
    | succ n ih =>
      obtain ⟨hclosed, hliterals⟩ := ih
      exact ⟨closed_block hi (List.forall_mem_singleton.mpr hclosed), (literals_block hi hclosed).trans hliterals⟩
  exact (hnested n).2

/-- With the built-in rules and the default settings, whatever the model: the texts of
    well-named trees are lexically closed. -/
theorem texts_lexicallyClosed (m : Model) :
    (∀ expected? e, TypeNamed expected? → (Node.expr e).WellNamed →
      LexicallyClosed (({} : Engine).convertExpr m expected? e).text) ∧
    (∀ x, (Node.stmt x).WellNamed → LexicallyClosed (({} : Engine).convertStmt m x).text) ∧
    (∀ xs : List Stmt, (∀ x ∈ xs, (Node.stmt x).WellNamed) →
      LexicallyClosed (({} : Engine).convertBody m xs).text) := by
  have hk := Engine.converter_closing Engine.builtin_closing m
  refine ⟨fun expected? e hx he => ?_, fun x h => ?_, fun xs h => ?_⟩
  · exact (hk.exprAs hx he).ofEmit.lexicallyClosed
  · exact (hk.stmt h).ofEmit.lexicallyClosed
  · have htexts := (Converter.statements_closed hk h).bind fun _ hts =>
      Provides.pure (P := Closed) (closed_joinLines hts)
    exact htexts.ofEmit.lexicallyClosed

/-- Text that ends in a dollar sign in front of a substitution, a literal of all marks in the
    substitution, and text that begins with a brace behind it, in the block of a loop. -/
def trickyTemplate : Stmt :=
  .forEach "line" (.ident "Lines") (.block [.expr (.of (.interpolated
    [.text "`$", .expr (.string "\"\n`$\x7b)") none, .text "\x7b\n\\"]))])

theorem trickyTemplate_wellNamed : (Node.stmt trickyTemplate).WellNamed := by
  refine Node.wellNamed_of_parts (List.forall_mem_singleton.mpr (by decide)) (List.forall_mem_cons.mpr ⟨?_, ?_⟩)
  · exact Node.wellNamed_of_parts (show Markless "Lines" by decide) nofun
  -- the block, its statement, the template and the literal in it
  refine List.forall_mem_singleton.mpr (Node.wellNamed_of_parts trivial (List.forall_mem_singleton.mpr ?_))
  refine Node.wellNamed_of_parts trivial (List.forall_mem_singleton.mpr ?_)
  refine Node.wellNamed_of_parts ?_ (List.forall_mem_singleton.mpr (Node.wellNamed_of_parts trivial nofun))
  exact ⟨fun _ p hp => Option.some.inj hp ▸ rfl, nofun, nofun, trivial⟩

theorem texts_lexicallyClosed_template :
    (∀ x ∈ [trickyTemplate], (Node.stmt x).WellNamed) ∧
      LexicallyClosed (({} : Engine).convertBody .empty [trickyTemplate]).text := by
  have h : ∀ x ∈ [trickyTemplate], (Node.stmt x).WellNamed := List.forall_mem_singleton.mpr trickyTemplate_wellNamed
  exact ⟨h, (texts_lexicallyClosed .empty).2.2 _ h⟩

end ComponentScript
