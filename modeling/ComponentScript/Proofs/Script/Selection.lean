/-
  ComponentScript.Proofs.Script.Selection — which section of a `switch` a value goes to.

  The labels are asked in the order of the text. The first that takes the value decides,
  wherever a default stands, and a default counts only if no label takes the value
  (`chosen`).

  What a label asks is either equality with its own expression, or, in a `switch` over `true`,
  whatever test is written there. `CaseTest.read` reads such a test by the precedence of its
  operators: in `x === a | b` the comparison is done first, and the whole is a number, which
  is never `true`.

  `chosen_moved` compares two readings of the same labels, where a default of one always takes
  the value in the other.
-/

import Mathlib.Data.List.Forall2
import ComponentScript.Convert.SwitchStmt
import ComponentScript.Proofs.Script.Formula

namespace ComponentScript.Script

open Text

/-! ## Sections -/

/-- The number of the section that is run, by the labels of all sections. -/
def chosen {α : Type} (takes isDefault : α → Bool) (sections : List (List α)) : Option Nat :=
  (sections.findIdx? (·.any takes)).or (sections.findIdx? (·.any isDefault))

structure Selection where
  subject : String
  /-- Labels, where a default has no text, and lines. -/
  sections : List (List (Option String) × List String)

namespace Selection

def text (x : Selection) (indent : String) : String :=
  s!"switch ({x.subject}) {Script.block (x.sections.flatMap fun y => y.1.map labelLine ++ y.2) indent}"

def chosen (takes : String → Bool) (x : Selection) : Option Nat :=
  Script.chosen (·.any takes) Option.isNone (x.sections.map (·.1))

end Selection

section

variable {α β : Type} {t d : α → Bool}

theorem any_congr {t' : β → Bool} {as : List α} {bs : List β} (h : List.Forall₂ (fun a b => t a = t' b) as bs) :
    as.any t = bs.any t' := by
  induction h with
  | nil => rfl
  | cons hab _ ih => rw [List.any_cons, List.any_cons, hab, ih]

theorem findIdx?_congr {t' : β → Bool} {as : List α} {bs : List β} (h : List.Forall₂ (fun a b => t a = t' b) as bs) :
    as.findIdx? t = bs.findIdx? t' := by
  induction h with
  | nil => rfl
  | cons hab _ ih => rw [List.findIdx?_cons, List.findIdx?_cons, hab, ih]

/-- Labels that correspond choose the same section. -/
theorem chosen_congr {t' d' : β → Bool} {as : List (List α)} {bs : List (List β)}
    (h : List.Forall₂ (List.Forall₂ fun a b => t a = t' b ∧ d a = d' b) as bs) : chosen t d as = chosen t' d' bs := by
  have htakes : as.findIdx? (·.any t) = bs.findIdx? (·.any t') :=
    findIdx?_congr (h.imp fun _ _ hls => any_congr (hls.imp fun _ _ hl => hl.1))
  have hdefault : as.findIdx? (·.any d) = bs.findIdx? (·.any d') :=
    findIdx?_congr (h.imp fun _ _ hls => any_congr (hls.imp fun _ _ hl => hl.2))
  rw [chosen, chosen, htakes, hdefault]

/-- A last section that does not take the value might as well not be there. -/
theorem chosen_append {as : List (List α)} {ls : List α} (ht : ls.any t = false) (hd : ls.any d = false) :
    chosen t d (as ++ [ls]) = chosen t d as := by
  simp [chosen, List.findIdx?_append, ht, hd]

theorem chosen_cons_of_takes {ls : List α} {as : List (List α)} (h : ls.any t = true) :
    chosen t d (ls :: as) = some 0 := by
  rw [chosen, List.findIdx?_cons, if_pos h, Option.some_or]

theorem chosen_cons_of_default {ls : List α} {as : List (List α)} (ht : ls.any t = false) (hd : ls.any d = true) :
    chosen t d (ls :: as) = ((as.findIdx? (·.any t)).map (· + 1)).or (some 0) := by
  simp [chosen, List.findIdx?_cons, ht, hd]

theorem chosen_cons_of_neither {ls : List α} {as : List (List α)} (ht : ls.any t = false) (hd : ls.any d = false) :
    chosen t d (ls :: as) = (chosen t d as).map (· + 1) := by
  simp [chosen, List.findIdx?_cons, ht, hd, Option.map_or]

/-- Some defaults are made labels that take every value. The choice is the same, if no label
    behind them would take the value and no other default stands in front of them. -/
theorem chosen_moved (moved : α → Bool) {t' d' : α → Bool} (hmoved : ∀ l, moved l = true → d l = true ∧ t' l = true)
    {sections : List (List α)} (hother : ∀ ls ∈ sections, ∀ l ∈ ls, moved l = false → t' l = t l ∧ d' l = d l)
    (hbehind : sections.Pairwise fun ls ls' => ls.any moved = true → ls'.any t = false)
    (hfront : sections.Pairwise fun ls ls' => ls.any d = true → ls'.any moved = false) :
    chosen t d sections = chosen t' d' sections := by
  -- where nothing is moved the two readings of a section are one
  have hany : ∀ ls ∈ sections, ls.any moved = false → ls.any t' = ls.any t ∧ ls.any d' = ls.any d := by
    intro ls hls hnone
    have hsame : ∀ l ∈ ls, t' l = t l ∧ d' l = d l := fun l hl =>
      hother ls hls l hl (by simpa using List.any_eq_false.mp hnone l hl)
    exact ⟨any_congr (List.forall₂_same.mpr fun l hl => (hsame l hl).1),
      any_congr (List.forall₂_same.mpr fun l hl => (hsame l hl).2)⟩
  clear hother
  induction sections with
  | nil => rfl
  | cons ls sections ih =>
    obtain ⟨hbehind, hbehind'⟩ := List.pairwise_cons.mp hbehind
    obtain ⟨hfront, hfront'⟩ := List.pairwise_cons.mp hfront
    obtain ⟨hls, hrest⟩ := List.forall_mem_cons.mp hany
    cases hm : ls.any moved with
    | true =>
      obtain ⟨l, hl, hlm⟩ := List.any_eq_true.mp hm
      obtain ⟨hdl, htl⟩ := hmoved l hlm
      rw [chosen_cons_of_takes (t := t') (List.any_eq_true.mpr ⟨l, hl, htl⟩)]
      cases ht : ls.any t with
      | true => exact chosen_cons_of_takes ht
      | false =>
        have hnone : sections.findIdx? (·.any t) = none :=
          List.findIdx?_eq_none_iff.mpr fun ls' hls' => hbehind ls' hls' hm
        rw [chosen_cons_of_default ht (List.any_eq_true.mpr ⟨l, hl, hdl⟩), hnone]
        rfl
    | false =>
      obtain ⟨hls, hls'⟩ := hls hm
      cases ht : ls.any t with
      | true => rw [chosen_cons_of_takes ht, chosen_cons_of_takes (hls.trans ht)]
      | false =>
        cases hd : ls.any d with
        | true =>
          have hsame : sections.findIdx? (·.any t) = sections.findIdx? (·.any t') :=
            findIdx?_congr (List.forall₂_same.mpr fun ls' hl' => ((hrest ls' hl') (hfront ls' hl' hd)).1.symm)
          rw [chosen_cons_of_default ht hd, chosen_cons_of_default (hls.trans ht) (hls'.trans hd), hsame]
        | false =>
          rw [chosen_cons_of_neither ht hd, chosen_cons_of_neither (hls.trans ht) (hls'.trans hd),
            ih hbehind' hfront' hrest]

end

/-! ## Values -/

/-- The values of a script, with what `===` says about them. -/
structure Values where
  Value : Type
  undefined : Value
  null : Value
  strictEq : Value → Value → Bool
  strictEq_undefined (v : Value) : strictEq v undefined = true ↔ v = undefined

/-! ## Tests behind `case` -/

/-- How a text holds together to the right of `===`. -/
inductive Binding where
  /-- All its operators bind tighter. -/
  | tight
  /-- The comparison comes first, and then `&`, `^` or `|`. -/
  | bitwise
  | loose
  deriving DecidableEq

/-- The words that are operators on the bits of numbers. -/
def bitOperators : List String := ["&", "^", "|"]

/-- A word without a mark that begins or is an operator as loose as `===` or looser; orders
    have one but are tight. -/
def isTight (word : String) : Bool :=
  word = "<=" || word = ">=" || (outerChars word).all fun c => !"=&^|?:,;".toList.contains c

def binding (t : String) : Binding :=
  match words t with
  | none => .loose
  | some ws =>
    if ws.all isTight then .tight
    else if ws.all fun w => isTight w || bitOperators.contains w then .bitwise
    else .loose

/-- A test of a subject. -/
inductive CaseTest where
  | truth
  | isNull
  | equals (right : String)
  /-- Not a truth value. -/
  | number
  deriving DecidableEq

namespace CaseTest

/-- What `subject === right` is. -/
def ofRight (right : String) : Option CaseTest :=
  match binding right with
  | .tight => some (.equals right)
  | .bitwise => some .number
  | .loose => none

def ofWords (subject : String) (ws : List String) : Option CaseTest :=
  if ws = ["true"] then some .truth
  else if ws = [subject, "==", "null"] then some .isNull
  else if ws.take 2 = [subject, "==="] then ofRight (" ".intercalate (ws.drop 2))
  else none

/-- The test of a text, unless it is of another form. -/
def read (subject t : String) : Option CaseTest := (words t).bind (ofWords subject)

example : read "x" "x === 1 + 2" = some (.equals "1 + 2") ∧ read "x" "x === 1 | 2" = some .number ∧
    read "x" "x === (1 | 2)" = some (.equals "(1 | 2)") ∧ read "x" "x instanceof Circle" = none := by
  decide +kernel

variable {subject : String} (hs : IsOperand subject)

theorem read_true (subject : String) : read subject "true" = some .truth := by
  have hwords : words "true" = some ["true"] := by decide
  rw [read, hwords, Option.bind_some, ofWords, if_pos rfl]

include hs

theorem read_isNull : read subject (subject ++ " == null") = some .isNull := by
  have hright : words "== null" = some ["==", "null"] := by decide
  have hwords : words (subject ++ " == null") = some [subject, "==", "null"] := by
    have happend := words_append hs.words hright
    rwa [String.append_assoc] at happend
  rw [read, hwords, Option.bind_some, ofWords, if_neg (by simp), if_pos rfl]

theorem read_equals {right : String} (h : binding right ≠ .loose) :
    read subject (subject ++ " === " ++ right) = ofRight right := by
  have hclosed : ∃ ws, words right = some ws := by
    cases hws : words right with
    | none => exact absurd (by rw [binding, hws]) h
    | some ws => exact ⟨ws, rfl⟩
  obtain ⟨ws, hws⟩ := hclosed
  have hwords : words (subject ++ " === " ++ right) = some (subject :: "===" :: ws) := by
    have hequals : words "===" = some ["==="] := by decide
    have happend := words_append (words_append hs.words hequals) hws
    have htext : subject ++ " === " ++ right = subject ++ " " ++ "===" ++ " " ++ right := by
      simp only [String.append_assoc]
      rfl
    rw [htext, happend]
    rfl
  rw [read, hwords, Option.bind_some, ofWords, if_neg (by simp), if_neg (by simp), if_pos (by simp)]
  rw [List.drop_succ_cons, List.drop_succ_cons, List.drop_zero, intercalate_words hws]

end CaseTest

/-- Whether the test holds when the subject has the value `v`, by the values of the texts that
    it is compared with; `other` tells of tests that are not read. -/
def Values.holds (D : Values) (value : String → D.Value) (other : String → Bool) (subject : String) (v : D.Value)
    (t : String) : Bool :=
  match CaseTest.read subject t with
  | some .truth => true
  | some .isNull => D.strictEq v D.null || D.strictEq v D.undefined
  | some (.equals right) => D.strictEq v (value right)
  | some .number => false
  | none => other t

end ComponentScript.Script
