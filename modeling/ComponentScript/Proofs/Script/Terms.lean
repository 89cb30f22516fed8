/-
  ComponentScript.Proofs.Script.Terms — texts that are one value wherever they are put.

  A term is a tight text that is no keyword: a name, a path, a literal, a call, or whatever is
  in parentheses. Between operators it is one word, and parentheses behind it are a call.

  - `IsTerm.parenthesized`, `IsTerm.operand`: parentheses make a term of every closed text,
    so an operand is one unless it was left as it is and is none by itself.
  - `isTerm_of_isIdentifier`: names are terms.
-/

import ComponentScript.Proofs.Script.ArrowCall
import ComponentScript.Proofs.Script.SimpleOperands

namespace ComponentScript.Script

open Text

/-! ## Tight texts -/

namespace Scan

/-- Each question mark outside of brackets and literals is followed by a dot. -/
def dotted (s : Scan) : List Char → Bool
  | [] => true
  | c :: cs => (!(s = code [] ∧ c = '?') || cs.head? = some '.') && (s.next c).all (·.dotted cs)

theorem dotted_iff {s : Scan} {cs : List Char} : s.dotted cs = true ↔ ∀ before after,
    cs = before ++ '?' :: after → s.run before = some (code []) → after.head? = some '.' := by
  induction cs generalizing s with
  | nil => simp [dotted]
  | cons c cs ih =>
    rw [dotted, Bool.and_eq_true, Option.all_eq_true]
    constructor
    · rintro ⟨hfirst, hrest⟩ before after hsplit hrun
      cases before with
      | nil =>
        obtain ⟨rfl, rfl⟩ := List.cons.inj hsplit
        cases hrun
        simpa using hfirst
      | cons d before =>
        obtain ⟨rfl, rfl⟩ := List.cons.inj hsplit
        rw [run_cons] at hrun
        obtain ⟨t, hn, hrun⟩ := Option.bind_eq_some_iff.mp hrun
        exact ih.mp (hrest t hn) before after rfl hrun
    · intro h
      constructor
      · by_cases hquestion : s = code [] ∧ c = '?'
        · have hdot := h [] cs (by rw [hquestion.2]; rfl) (by rw [hquestion.1]; rfl)
          simp [hdot]
        · simp [hquestion]
      · intro t hn
        refine ih.mpr fun before after hsplit hrun => h (c :: before) after (by rw [hsplit]; rfl) ?_
        rw [run_cons, hn, Option.bind_some, hrun]

/-- What the scan passes outside of brackets and literals is there. -/
theorem mem_outer {s : Scan} {c : Char} (hc : (code []).next c = some (code [])) {before after : List Char}
    (h : s.run before = some (code [])) : c ∈ s.outer (before ++ c :: after) := by
  rw [outer_append_of h, outer, hc]
  exact List.mem_append_right _ (List.mem_cons_self ..)

end Scan

instance : DecidablePred Tight := fun t =>
  decidable_of_iff (Closed t ∧ (outerChars t).all isOperandChar = true ∧ (Scan.code []).dotted t.toList = true)
    ⟨fun h => ⟨h.1, List.all_eq_true.mp h.2.1, Scan.dotted_iff.mp h.2.2⟩,
      fun h => ⟨h.closed, List.all_eq_true.mpr h.outside, Scan.dotted_iff.mpr h.question⟩⟩

/-- Without question marks there is nothing to look for behind them. -/
theorem tight_of_outer {t : String} (hc : Closed t) (h : ∀ c ∈ outerChars t, isOperandChar c = true ∧ c ≠ '?') :
    Tight t where
  closed := hc
  outside c hm := (h c hm).1
  question before after hsplit hrun := by
    have hm : '?' ∈ outerChars t := by
      rw [outerChars, hsplit]
      exact Scan.mem_outer rfl hrun
    exact absurd rfl (h '?' hm).2

/-- Brackets behind a tight text. -/
theorem Tight.append {t u : String} (ht : Tight t) (hu : Closed u) (houter : outerChars u = []) : Tight (t ++ u) where
  closed := ht.closed.append hu
  outside c hc := by
    rw [outerChars_append ht.closed, houter, List.append_nil] at hc
    exact ht.outside c hc
  question before after hsplit hrun := by
    -- the brackets have no question mark outside of them
    have hinside : ∀ inner, u.toList = inner ++ '?' :: after → (Scan.code []).run inner ≠ some (.code []) := by
      intro inner hinner hrun
      have hm : '?' ∈ outerChars u := by
        rw [outerChars, hinner]
        exact Scan.mem_outer rfl hrun
      rw [houter] at hm
      cases hm
    rw [String.toList_append] at hsplit
    rcases List.append_eq_append_iff.mp hsplit with ⟨inner, hbefore, hinner⟩ | ⟨rest, hfront, hrest⟩
    · rw [hbefore, Scan.run_append, ht.closed] at hrun
      exact absurd hrun (hinside inner hinner)
    · cases rest with
      | nil => exact absurd rfl (hinside [] hrest.symm)
      | cons c rest =>
        obtain ⟨rfl, hafter⟩ := List.cons.inj hrest
        have hdot := ht.question before rest hfront hrun
        rw [hafter, List.append_eq, List.head?_append, hdot]
        rfl

/-! ## Terms -/

/-- The words of the language that are no values. -/
def keywords : List String :=
  ["await", "break", "case", "catch", "class", "const", "continue", "debugger", "default", "delete", "do", "else",
    "enum", "export", "extends", "finally", "for", "function", "if", "import", "in", "instanceof", "let", "new",
    "return", "static", "super", "switch", "throw", "try", "typeof", "var", "void", "while", "with", "yield"]

/-- A text that is one value wherever it is put, also in front of parentheses. -/
structure IsTerm (t : String) : Prop where
  nonempty : t ≠ ""
  tight : Tight t
  keyword : t ∉ keywords

instance : DecidablePred IsTerm := fun t =>
  decidable_of_iff (t ≠ "" ∧ Tight t ∧ t ∉ keywords) ⟨fun h => ⟨h.1, h.2.1, h.2.2⟩,
    fun h => ⟨h.nonempty, h.tight, h.keyword⟩⟩

/-- The keywords are words of small letters. -/
theorem notMem_keywords {t : String} {c : Char} (hc : c ∈ t.toList) (h : c.isLower = false) : t ∉ keywords := by
  have hlower : keywords.all (·.toList.all Char.isLower) = true := by decide
  intro hm
  have := List.all_eq_true.mp (List.all_eq_true.mp hlower t hm) c hc
  rw [h] at this
  cases this

namespace IsTerm

variable {t u : String}

theorem closed (h : IsTerm t) : Closed t := h.tight.closed

/-- A character that no operand has outside of its brackets and literals. -/
theorem notMem_outer (h : IsTerm t) {c : Char} (hc : isOperandChar c = false) : c ∉ outerChars t := by
  intro hm
  have := h.tight.outside c hm
  rw [hc] at this
  cases this

theorem words (h : IsTerm t) : words t = some [t] :=
  words_single h.closed (h.notMem_outer (by decide +kernel))

/-- A term is none of the signs of operators. -/
theorem ne (h : IsTerm t) (hu : ¬ IsTerm u) : t ≠ u := fun heq => hu (heq ▸ h)

theorem isItem (h : IsTerm t) : IsItem t := ⟨h.nonempty, h.closed, h.notMem_outer (by decide +kernel)⟩

theorem parenthesized (h : Closed t) : IsTerm ("(" ++ t ++ ")") where
  nonempty := fun hempty => absurd (String.append_eq_empty_iff.mp hempty).2 (by decide)
  tight := tight_of_outer (IsOperand.parenthesized h).closed
    (by rw [outerChars_parenthesized h]; exact List.forall_mem_nil _)
  keyword := by
    have hparen : '(' ∈ ("(" ++ t ++ ")").toList := by simp
    exact notMem_keywords hparen (by decide)

/-- A term is called. -/
theorem call (h : IsTerm t) (hu : Closed u) : IsTerm (t ++ ("(" ++ u ++ ")")) where
  nonempty := fun hempty => h.nonempty (String.append_eq_empty_iff.mp hempty).1
  tight := h.tight.append (IsOperand.parenthesized hu).closed (outerChars_parenthesized hu)
  keyword := by
    have hparen : '(' ∈ (t ++ ("(" ++ u ++ ")")).toList := by simp
    exact notMem_keywords hparen (by decide)

theorem operand (h : Closed t) (ht : Script.operand t = t → IsTerm t) : IsTerm (Script.operand t) := by
  by_cases hbare : Script.operand t = t
  · rw [hbare]
    exact ht hbare
  · have hsimple : isSimpleOperand t = false := Bool.eq_false_iff.mpr (mt operand_eq_self_iff.mpr hbare)
    rw [Script.operand, hsimple]
    exact parenthesized h

end IsTerm

/-! ## Names -/

/-- A text of names and dots. -/
theorem tight_of_chars {t : String} (h : ∀ c ∈ t.toList, isOperandChar c = true ∧ c ≠ '?') : Tight t := by
  have hmark : ∀ c ∈ t.toList, isMark c = false := by
    intro c hc
    exact isMark_eq_false (by decide +kernel) (h c hc).1
  exact tight_of_outer (Markless.closed hmark) fun c hc => h c (Scan.mem_of_mem_outer hc)

theorem isOperandChar_of_continuesIdentifier {c : Char} (h : continuesIdentifier c = true) :
    isOperandChar c = true ∧ c ≠ '?' := by
  constructor
  · simp only [continuesIdentifier, Bool.or_eq_true] at h
    rcases h with (h | h) | h <;> simp [isOperandChar, h]
  · rintro rfl
    exact absurd h (by decide +kernel)

theorem isTerm_of_isIdentifier {name : String} (h : isIdentifier name = true) (hk : name ∉ keywords) : IsTerm name where
  nonempty := ne_of_isIdentifier h
  tight := tight_of_chars fun c hc => isOperandChar_of_continuesIdentifier (continuesIdentifier_of_isIdentifier h c hc)
  keyword := hk

end ComponentScript.Script
