/-
  ComponentScript.Proofs.Convert.HiddenOperators — operators that the operand scan misses.

  Behind a template with a backtick in a string in a substitution, the operand scan takes code
  for a string. An expression that begins so is left without parentheses, whatever operators
  follow: an alternative (`Expr.tickedOr`), or a value for what is missing
  (`Expr.tickedLookup`).
-/

import ComponentScript.Proofs.Convert.LexicalScope
import ComponentScript.Proofs.Convert.NodeCalls
import ComponentScript.Proofs.Script.IfChain

namespace ComponentScript

open Script Text

namespace Expr

variable (span : Span)

/-- An interpolated string with a backtick in a string in its only substitution. -/
def tickString : Expr := ⟨span, .interpolated [.expr ⟨span, .literal (.string "`")⟩ none]⟩

/-- That string compared with a name, or another name. -/
def tickedOr (name other : String) : Expr :=
  ⟨span, .binary .or ⟨span, .binary .eq (tickString span) ⟨span, .identifier name⟩⟩ ⟨span, .identifier other⟩⟩

/-- What a table has for that string, or else another name. -/
def tickedLookup (table other : String) : Expr :=
  ⟨span, .binary .coalesce ⟨span, .elementAccess ⟨span, .identifier table⟩ (tickString span)⟩ ⟨span, .identifier other⟩⟩

end Expr

namespace Engine

variable (settings : Settings) (m : Model) (s : Session) (span : Span)

theorem tickString_out :
    ((({ settings := settings } : Engine).converter m).expr (.tickString span)).out s = (tickTemplate, s) := by
  have hstring : ((({ settings := settings } : Engine).converter m).expr ⟨span, .literal (.string "`")⟩).out s =
      (quote "`", s) := by
    rw [Converter.expr, exprAs_eq_defaultExpr settings m rfl]
    rfl
  have htext : "`" ++ String.join [substitution (quote "`")] ++ "`" = tickTemplate := by decide
  rw [Converter.expr, exprAs_eq_defaultExpr settings m rfl, ← htext]
  dsimp only [Converter.defaultExpr, Expr.tickString, Converter.interpolatedString]
  rw [List.mapM_cons]
  simp only [Emit.out_bind, Emit.out_pure, Converter.interpolationPart, hstring, List.mapM_nil]

/-- An operand that does not mix `??` with another operator. -/
theorem binaryOperand_out {op : BinaryOp} {e : Expr} (h : Converter.mixesCoalesce op e = false) :
    ((({ settings := settings } : Engine).converter m).binaryOperand op e).out s =
      ((({ settings := settings } : Engine).converter m).expr e).out s := by
  simp [Converter.binaryOperand, h]

variable {s}

/-- A name that is bound is written as it is. -/
theorem bound_out {name : String} (h : s.isBound name) :
    ((({ settings := settings } : Engine).converter m).expr ⟨span, .identifier name⟩).out s = (name, s) := by
  rw [Converter.expr, converter_identifier, Env.identifier_bound _ _ h]

variable {name other : String}

theorem tickedOr_out (hn : s.isBound name) (ho : s.isBound other) :
    ((({ settings := settings } : Engine).converter m).expr (.tickedOr span name other)).out s =
      (tickTemplate ++ " === " ++ name ++ " || " ++ other, s) := by
  have hequal : ((({ settings := settings } : Engine).converter m).expr
      ⟨span, .binary .eq (.tickString span) ⟨span, .identifier name⟩⟩).out s =
        (tickTemplate ++ " === " ++ name, s) := by
    rw [Converter.expr, exprAs_binary, binaryOperand_out settings m s rfl, tickString_out]
    dsimp only
    rw [binaryOperand_out settings m s rfl, bound_out settings m span hn]
    rfl
  rw [Converter.expr, Expr.tickedOr, exprAs_binary, binaryOperand_out settings m s rfl, hequal]
  dsimp only
  rw [binaryOperand_out settings m s rfl, bound_out settings m span ho]
  rfl

theorem tickedLookup_out (hn : s.isBound name) (hname : operand name = name) (ho : s.isBound other) :
    ((({ settings := settings } : Engine).converter m).expr (.tickedLookup span name other)).out s =
      (name ++ "[" ++ tickTemplate ++ "]" ++ " ?? " ++ other, s) := by
  have hlookup : ((({ settings := settings } : Engine).converter m).expr
      ⟨span, .elementAccess ⟨span, .identifier name⟩ (.tickString span)⟩).out s =
        (name ++ "[" ++ tickTemplate ++ "]", s) := by
    rw [Converter.expr, exprAs_eq_defaultExpr settings m rfl]
    dsimp only [Converter.defaultExpr]
    simp only [Emit.out_bind, Emit.out_pure, Converter.operand, bound_out settings m span hn, hname, tickString_out]
    rfl
  rw [Converter.expr, Expr.tickedLookup, exprAs_binary, binaryOperand_out settings m s rfl, hlookup]
  dsimp only
  rw [binaryOperand_out settings m s rfl, bound_out settings m span ho]
  rfl

end Engine

/-! ## What the scan misses -/

namespace Script

theorem quote_notMem_of_isIdentifier {name : String} (h : isIdentifier name = true) : '\x22' ∉ name.toList :=
  fun hc => absurd (continuesIdentifier_of_isIdentifier h _ hc) (by decide +kernel)

theorem place_of_isIdentifier {name : String} (h : isIdentifier name = true) :
    name.toList.foldlM Place.next (.code 0) = some (.code 0) := by
  have hchars := fun c hc => (isOperandChar_of_continuesIdentifier (continuesIdentifier_of_isIdentifier h c hc)).1
  generalize name.toList = cs at hchars
  induction cs with
  | nil => rfl
  | cons c cs ih =>
    obtain ⟨hc, hcs⟩ := List.forall_mem_cons.mp hchars
    have hmark : isMark c = false := isMark_eq_false (by decide +kernel) hc
    have hquote : c ≠ '\x27' := by
      rintro rfl
      exact absurd hc (by decide +kernel)
    simp only [isMark, Bool.or_eq_false_iff, decide_eq_false_iff_not] at hmark
    have hnext : (Place.code 0).next c = some (.code 0) := by simp [Place.next, isQuoteMark, hmark, hquote, hc]
    rw [List.foldlM_cons, hnext]
    exact ih hcs

/-- The name behind `||` is an alternative of its own. -/
theorem read_tickedOr {name other : String} (hn : IsTerm name) (ho : IsTerm other) :
    Condition.read (tickTemplate ++ " === " ++ name ++ " || " ++ other) =
      some [[tickTemplate ++ " === " ++ name], [other]] := by
  have htick : IsTerm tickTemplate := by decide +kernel
  have hmember : "===" ∈ tightOperators := by decide
  exact Condition.read_or (Condition.read_binary htick hn hmember rfl) (Condition.read_term ho)

/-- What a table has for the template. -/
theorem isTerm_lookup {table : String} (h : IsTerm table) : IsTerm (table ++ "[" ++ tickTemplate ++ "]") := by
  have hkey : Closed ("[" ++ tickTemplate ++ "]") ∧ outerChars ("[" ++ tickTemplate ++ "]") = [] := by decide +kernel
  have htext : table ++ "[" ++ tickTemplate ++ "]" = table ++ ("[" ++ tickTemplate ++ "]") := by
    simp only [String.append_assoc]
  have hbracket : '[' ∈ (table ++ ("[" ++ tickTemplate ++ "]")).toList := by simp
  rw [htext]
  exact ⟨fun hempty => h.nonempty (String.append_eq_empty_iff.mp hempty).1, h.tight.append hkey.1 hkey.2,
    notMem_keywords hbracket (by decide)⟩

variable {name other : String} (hn : isIdentifier name = true) (ho : isIdentifier other = true)
include hn

theorem operand_name : operand name = name := by
  rw [operand_eq_self_iff, isSimpleOperand_iff, place_of_isIdentifier hn]
  exact ⟨ne_of_isIdentifier hn, rfl⟩

include ho

theorem operand_tickedOr : operand (tickTemplate ++ " === " ++ name ++ " || " ++ other) =
    tickTemplate ++ " === " ++ name ++ " || " ++ other := by
  have hfront : "".toList.foldlM Place.next (.code 0) = some (.code 0) := rfl
  have hrest : '\x22' ∉ (" === " ++ name ++ " || " ++ other).toList := by
    simp only [String.toList_append, List.mem_append, not_or]
    exact ⟨⟨⟨by decide, quote_notMem_of_isIdentifier hn⟩, by decide⟩, quote_notMem_of_isIdentifier ho⟩
  have hbare := operand_behind_tick hfront fun c hc => ne_of_mem_of_not_mem hc hrest
  simpa only [String.empty_append, ← String.append_assoc] using hbare

theorem operand_tickedLookup : operand (name ++ "[" ++ tickTemplate ++ "]" ++ " ?? " ++ other) =
    name ++ "[" ++ tickTemplate ++ "]" ++ " ?? " ++ other := by
  have hfront : (name ++ "[").toList.foldlM Place.next (.code 0) = some (.code 1) := by
    rw [String.toList_append, List.foldlM_append, place_of_isIdentifier hn]
    rfl
  have hrest : '\x22' ∉ ("]" ++ " ?? " ++ other).toList := by
    simp only [String.toList_append, List.mem_append, not_or]
    exact ⟨⟨by decide, by decide⟩, quote_notMem_of_isIdentifier ho⟩
  have hbare := operand_behind_tick hfront fun c hc => ne_of_mem_of_not_mem hc hrest
  simpa only [← String.append_assoc] using hbare

end Script

end ComponentScript
