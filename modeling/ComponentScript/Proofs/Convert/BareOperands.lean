/-
  ComponentScript.Proofs.Convert.BareOperands — which expressions stand without parentheses.

  `operands_bind_tightly`: an expression with flat templates is an operand as it is exactly if
  its text is tight. The other two parts say where more is left bare: integers, and what
  follows a template with a backtick in a string in a substitution.
-/

import ComponentScript.Proofs.Convert.FlatTemplates
import ComponentScript.Proofs.Convert.HiddenOperators
import ComponentScript.Proofs.Script.SimpleOperands

namespace ComponentScript

open Script Text

namespace Engine

variable (m : Model) (s : Session)

theorem integer_text {digits : String} (h : IsInteger digits) (span : Span) :
    IsInteger (((({} : Engine).converter m).expr ⟨span, .literal (.number digits)⟩).out s).1 := by
  rw [Converter.expr, exprAs_eq_defaultExpr {} m rfl]
  exact h.numeral

/-- A sum with that template on the left. -/
theorem tickString_sum (span : Span) (e : Expr) :
    (((({} : Engine).converter m).expr ⟨span, .binary .add (.tickString span) e⟩).out s).1 =
      tickTemplate ++ (" + " ++ (((({} : Engine).converter m).expr e).out s).1) := by
  have hmixes : ∀ x, Converter.mixesCoalesce .add x = false := by
    intro x
    unfold Converter.mixesCoalesce
    split <;> rfl
  rw [Converter.expr, exprAs_binary, binaryOperand_out {} m s (hmixes _), tickString_out]
  dsimp only
  rw [binaryOperand_out {} m s (hmixes _), String.append_assoc, String.append_assoc]
  rfl

end Engine

/-- Which texts stand as operands without parentheses. With the built-in rules and the default
    settings, whatever the model:
    - an expression with plain names and flat templates stands so exactly if its text is
      tight, so that a name behind a dot is a member of its value;
    - an integer stands so, and a dot behind it belongs to the number;
    - a sum stands so whose left side is a template with a backtick in a substituted string,
      up to a quote on its right side. -/
theorem operands_bind_tightly (m : Model) (s : Session) :
    let text (expected? : Option TypeRef) (e : Expr) := (((({} : Engine).converter m).exprAs expected? e).out s).1
    (s.Tidy → ∀ expected? e, TypeInert expected? → e.Flat m false →
      (operand (text expected? e) = text expected? e ↔ text expected? e ≠ "" ∧ Tight (text expected? e))) ∧
    (∀ span digits, IsInteger digits →
      let t := text none ⟨span, .literal (.number digits)⟩
      IsInteger t ∧ operand t = t) ∧
    ∀ span e, (∀ c ∈ (text none e).toList, c ≠ '\x22') →
      let t := text none ⟨span, .binary .add (.tickString span) e⟩
      operand t = t ∧ ¬ Tight t := by
  intro text
  refine ⟨fun hs expected? e hx he => ?_, fun span digits h => ?_, fun span e h => ?_⟩
  · exact (Engine.flat_reads he hs hx).1.whole.operand_eq_iff
  · have hinteger := Engine.integer_text m s h span
    exact ⟨hinteger, operand_integer hinteger⟩
  · have hsum : text none ⟨span, .binary .add (.tickString span) e⟩ = tickTemplate ++ (" + " ++ text none e) :=
      Engine.tickString_sum m s span e
    have hhidden := operand_hidden h
    rwa [← hsum] at hhidden

/-- The greeting stands without parentheses for it is one template; the number does, too. -/
theorem operands_bind_tightly_greeting :
    let greeting : Expr := ⟨{}, .interpolated [.text "hello, ", .expr ⟨{}, .identifier "name"⟩ none]⟩
    let text (e : Expr) := (((({} : Engine).converter .empty).exprAs none e).out {}).1
    greeting.Flat .empty false ∧ text greeting = "`hello, $\x7bname\x7d`" ∧ Tight (text greeting) ∧
      IsInteger "5" ∧ operand (text ⟨{}, .literal (.number "5")⟩) = text ⟨{}, .literal (.number "5")⟩ := by
  intro greeting text
  have hflat : greeting.Flat .empty false := by
    have hname : (Node.expr ⟨{}, .identifier "name"⟩).Tickless .empty :=
      ⟨by rintro _ ⟨⟩, by rintro _ _ ⟨⟩, List.forall_mem_nil _⟩
    have hflatName : (Node.expr ⟨{}, .identifier "name"⟩).FlatTemplate .empty := .of_plain rfl hname.1
    refine ⟨?_, ?_, by rintro ⟨⟩⟩
    · have hidentifier : isIdentifier "name" = true := by decide +kernel
      exact Node.everywhere_of_parts trivial
        (List.forall_mem_singleton.mpr (Node.everywhere_of_parts hidentifier (List.forall_mem_nil _)))
    · refine Node.everywhere_of_parts ⟨?_, ?_⟩
        (List.forall_mem_singleton.mpr (Node.everywhere_of_parts hflatName (List.forall_mem_nil _)))
      · rintro parts ⟨⟩
        exact InterpolationPart.not_straddles_of_separated ⟨by rintro - _ ⟨⟩; rfl, by rintro ⟨⟩, trivial⟩
      · intro x hx
        cases hx with
        | part hkind hmem =>
          cases hkind
          obtain rfl := List.mem_singleton.mp hmem
          exact Node.everywhere_of_parts hname (List.forall_mem_nil _)
        | argument hc => cases hc
  have htext : text greeting = "`hello, $\x7bname\x7d`" := by
    have hname : ((({} : Engine).converter .empty).expr ⟨{}, .identifier "name"⟩).out {} = ("name", {}) := by
      rw [Converter.expr, Engine.exprAs_eq_defaultExpr {} .empty rfl]
      exact congrArg (·, _) (by decide +kernel)
    have hdefault : text greeting = (((({} : Engine).converter .empty).defaultExpr none greeting).out {}).1 :=
      congrArg (fun e => (Emit.out e {}).1) (Engine.exprAs_eq_defaultExpr {} .empty rfl none)
    rw [hdefault]
    dsimp only [greeting, Converter.defaultExpr, Converter.interpolatedString]
    simp only [List.mapM_cons, Emit.out_bind, Emit.out_pure, Converter.interpolationPart, hname, List.mapM_nil]
    decide
  have hfive : IsInteger "5" := ⟨by decide, List.all_eq_true.mp (by decide)⟩
  obtain ⟨hgreeting, hinteger, -⟩ := operands_bind_tightly .empty {}
  have hbare : operand (text greeting) = text greeting := by
    rw [htext]
    decide +kernel
  have htight := (hgreeting (List.forall_mem_nil _) none greeting (by rintro _ ⟨⟩) hflat).mp hbare
  exact ⟨hflat, htext, htight.2, hfive, (hinteger {} "5" hfive).2⟩

end ComponentScript
