/-
  ComponentScript.Proofs.Script.IfChain — conditions and the branches behind them, read back.

  A condition is cut into words at the blanks outside of its brackets and literals. Between
  words `||` binds least, then `&&`; what is left between these is a test, which is terms with
  tighter operators between them. What a test asks is not looked at. So a condition is a list
  of alternatives, each of which is a list of tests.

  - `Condition.read`: the alternatives of a text, or nothing if it is of another form.
  - `Condition.read_and`: behind a text of one alternative and `&&`, only the first alternative
    of a text is joined to it. `Condition.value?_all`: of texts with one alternative each, the
    conjunction holds if they all do.
  - `IfChain.read?`: the branches of a statement. `IfChain.read_text` reads its text back.
  - `IfChain.run`: the block that runs, by the outcomes of the tests.
-/

import Mathlib.Data.List.Forall2
import ComponentScript.Proofs.Script.Terms

namespace ComponentScript.Script

open Text

/-! ## Conditions -/

/-- The operators between two terms that bind tighter than `&&`. -/
def tightOperators : List String :=
  ["|", "^", "&", "==", "!=", "===", "!==", "<", "<=", ">", ">=", "instanceof", "in", "<<", ">>", ">>>", "+", "-",
    "*", "/", "%", "**"]

/-- Terms with tight operators between them. -/
def isTest : List String → Bool
  | [] => false
  | [t] => decide (IsTerm t)
  | t :: operator :: rest => decide (IsTerm t) && tightOperators.contains operator && isTest rest

def readTest (ws : List String) : Option String := if isTest ws then some (" ".intercalate ws) else none

/-- Alternatives, and the tests that each of them asks for. -/
abbrev Condition := List (List String)

namespace Condition

def readAlternative (ws : List String) : Option (List String) := (ws.splitOn "&&").mapM readTest

/-- The condition of a text. -/
def read (t : String) : Option Condition := do
  let ws ← words t
  (ws.splitOn "||").mapM readAlternative

/-- Whether the condition holds, by the outcomes of tests. -/
def holds (v : String → Bool) (c : Condition) : Bool := c.any (·.all v)

/-- Whether the condition of a text holds. -/
def value? (v : String → Bool) (t : String) : Option Bool := (read t).map (holds v)

example : read "e instanceof A && a === s || n > 5" = some [["e instanceof A", "a === s"], ["n > 5"]] ∧
    read "e instanceof A && (a === s || n > 5)" = some [["e instanceof A", "(a === s || n > 5)"]] ∧
    read "e instanceof A && a ?? b" = none := by
  decide +kernel

variable {t u : String}

/-- The words of a test are the test. -/
theorem read_test {ws : List String} (hwords : words t = some ws) (htest : isTest ws = true) (hor : "||" ∉ ws)
    (hand : "&&" ∉ ws) : read t = some [[t]] := by
  have hunit : readTest ws = some t := by rw [readTest, if_pos htest, intercalate_words hwords]
  rw [read, hwords, Option.bind_eq_bind, Option.bind_some, List.splitOn_eq_singleton hor, List.mapM_cons,
    readAlternative, List.splitOn_eq_singleton hand, List.mapM_cons, hunit]
  rfl

theorem read_term (h : IsTerm t) : read t = some [[t]] := by
  have hterm : isTest [t] = true := decide_eq_true h
  refine read_test h.words hterm ?_ ?_
  · simpa using (h.ne (by decide +kernel)).symm
  · simpa using (h.ne (by decide +kernel)).symm

/-- Two terms with an operator between them; `middle` is the operator with its blanks. -/
theorem read_binary (ht : IsTerm t) (hu : IsTerm u) {operator middle : String} (ho : operator ∈ tightOperators)
    (hm : middle = " " ++ operator ++ " ") : read (t ++ middle ++ u) = some [[t ++ middle ++ u]] := by
  have hoperators : ∀ w ∈ tightOperators, words w = some [w] ∧ w ≠ "||" ∧ w ≠ "&&" := by decide +kernel
  obtain ⟨hone, hor, hand⟩ := hoperators operator ho
  have hwords : words (t ++ middle ++ u) = some [t, operator, u] := by
    have happend := words_append (words_append ht.words hone) hu.words
    rw [hm]
    simpa [String.append_assoc] using happend
  have htest : isTest [t, operator, u] = true := by
    simp only [isTest, Bool.and_eq_true, decide_eq_true_eq, List.contains_iff_mem]
    exact ⟨⟨ht, ho⟩, hu⟩
  have hmem : ∀ w, ¬ IsTerm w → operator ≠ w → w ∉ [t, operator, u] := by
    intro w hw hne
    simp only [List.mem_cons, List.not_mem_nil, or_false, not_or]
    exact ⟨(ht.ne hw).symm, hne.symm, (hu.ne hw).symm⟩
  exact read_test hwords htest (hmem _ (by decide +kernel) hor) (hmem _ (by decide +kernel) hand)

/-! ## Conjunctions -/

theorem notMem_of_splitOn {w : String} {ws us : List String} (h : ws.splitOn w = [us]) : w ∉ ws := by
  intro hm
  obtain ⟨before, after, rfl⟩ := List.append_of_mem hm
  have hlength := congrArg List.length h
  have hbefore := List.length_pos_iff.mpr (List.splitOn_ne_nil w before)
  have hafter := List.length_pos_iff.mpr (List.splitOn_ne_nil w after)
  rw [List.splitOn_append_cons_self, List.length_append, List.length_singleton] at hlength
  omega

/-- Words that are not cut go with the first piece of what follows them. -/
theorem splitOn_append {w : String} {ws : List String} (h : w ∉ ws) (vs : List String) :
    (ws ++ vs).splitOn w = (vs.splitOn w).modifyHead (ws ++ ·) := by
  induction ws with
  | nil =>
    rw [List.nil_append]
    cases vs.splitOn w <;> rfl
  | cons x ws ih =>
    rw [List.mem_cons, not_or] at h
    rw [List.cons_append, List.splitOn_cons_eq_if_modifyHead, if_neg (by simpa using Ne.symm h.1), ih h.2]
    cases vs.splitOn w <;> rfl

/-- A text of one alternative is words without `||`. -/
theorem read_single {a : List String} (h : read t = some [a]) :
    ∃ ws, words t = some ws ∧ "||" ∉ ws ∧ readAlternative ws = some a := by
  obtain ⟨ws, hwords, hread⟩ := Option.bind_eq_some_iff.mp h
  cases hpieces : ws.splitOn "||" with
  | nil => exact absurd hpieces (List.splitOn_ne_nil _ _)
  | cons us rest =>
    rw [hpieces, List.mapM_cons] at hread
    obtain ⟨b, hb, hread⟩ := Option.bind_eq_some_iff.mp hread
    obtain ⟨bs, hbs, hread⟩ := Option.bind_eq_some_iff.mp hread
    cases hread
    cases rest with
    | cons us' rest =>
      rw [List.mapM_cons] at hbs
      obtain ⟨_, -, hbs⟩ := Option.bind_eq_some_iff.mp hbs
      obtain ⟨_, -, hbs⟩ := Option.bind_eq_some_iff.mp hbs
      cases hbs
    | nil =>
      have hor := notMem_of_splitOn hpieces
      rw [List.splitOn_eq_singleton hor] at hpieces
      cases hpieces
      exact ⟨ws, hwords, hor, hb⟩

theorem read_and {a b : List String} {bs : Condition} (ht : read t = some [a]) (hu : read u = some (b :: bs)) :
    read (t ++ " && " ++ u) = some ((a ++ b) :: bs) := by
  obtain ⟨ws, hws, hor, ha⟩ := read_single ht
  obtain ⟨vs, hvs, hread⟩ := Option.bind_eq_some_iff.mp hu
  have hwords : words (t ++ " && " ++ u) = some (ws ++ "&&" :: vs) := by
    have hand : words "&&" = some ["&&"] := by decide
    simpa [String.append_assoc] using words_append (words_append hws hand) hvs
  -- the first alternative of `u` comes behind `&&`, the others stay as they are
  cases hpieces : vs.splitOn "||" with
  | nil => exact absurd hpieces (List.splitOn_ne_nil _ _)
  | cons us rest =>
    rw [hpieces, List.mapM_cons] at hread
    obtain ⟨b', hb, hread⟩ := Option.bind_eq_some_iff.mp hread
    obtain ⟨bs', hbs, hread⟩ := Option.bind_eq_some_iff.mp hread
    cases hread
    have hcut : (ws ++ "&&" :: vs).splitOn "||" = (ws ++ "&&" :: us) :: rest := by
      have hfront : "||" ∉ ws ++ ["&&"] := by simp [hor]
      have hsplit := splitOn_append hfront vs
      rw [hpieces] at hsplit
      simpa using hsplit
    have hfirst : readAlternative (ws ++ "&&" :: us) = some (a ++ b) := by
      unfold readAlternative at ha hb ⊢
      rw [List.splitOn_append_cons_self, List.mapM_append, ha, hb]
      rfl
    rw [read, hwords, Option.bind_eq_bind, Option.bind_some, hcut, List.mapM_cons, hfirst, hbs]
    rfl

theorem read_or {c d : Condition} (ht : read t = some c) (hu : read u = some d) :
    read (t ++ " || " ++ u) = some (c ++ d) := by
  obtain ⟨ws, hws, hc⟩ := Option.bind_eq_some_iff.mp ht
  obtain ⟨vs, hvs, hd⟩ := Option.bind_eq_some_iff.mp hu
  have hwords : words (t ++ " || " ++ u) = some (ws ++ "||" :: vs) := by
    have hor : words "||" = some ["||"] := by decide
    simpa [String.append_assoc] using words_append (words_append hws hor) hvs
  rw [read, hwords, Option.bind_eq_bind, Option.bind_some, List.splitOn_append_cons_self, List.mapM_append, hc, hd]
  rfl

/-- Texts of one alternative each, with `&&` between them. -/
theorem read_all {ts : List String} (hne : ts ≠ []) (h : ∀ t ∈ ts, ∃ a, read t = some [a]) :
    ∃ as, List.Forall₂ (fun t a => read t = some [a]) ts as ∧ read (" && ".intercalate ts) = some [as.flatten] := by
  induction ts with
  | nil => exact absurd rfl hne
  | cons t ts ih =>
    obtain ⟨⟨a, ha⟩, hts⟩ := List.forall_mem_cons.mp h
    cases ts with
    | nil => exact ⟨[a], .cons ha .nil, by simpa using ha⟩
    | cons u us =>
      obtain ⟨as, has, hread⟩ := ih (List.cons_ne_nil _ _) hts
      refine ⟨a :: as, .cons ha has, ?_⟩
      rw [String.intercalate_cons_cons, List.flatten_cons]
      exact read_and ha hread

/-- Their conjunction holds if they all do. -/
theorem value?_all {v : String → Bool} {ts : List String} (hne : ts ≠ []) (h : ∀ t ∈ ts, ∃ a, read t = some [a])
    {outcome : String → Bool} (hv : ∀ t ∈ ts, value? v t = some (outcome t)) :
    value? v (" && ".intercalate ts) = some (ts.all outcome) := by
  obtain ⟨as, has, hread⟩ := read_all hne h
  have hall : as.flatten.all v = ts.all outcome := by
    clear hread hne h
    induction has with
    | nil => rfl
    | @cons t a ts as ha _ ih =>
      obtain ⟨ht, hts⟩ := List.forall_mem_cons.mp hv
      rw [value?, ha] at ht
      have hone : a.all v = outcome t := by simpa [holds] using ht
      rw [List.flatten_cons, List.all_append, List.all_cons, hone, ih hts]
  rw [value?, hread, Option.map_some, holds, List.any_cons, List.any_nil, Bool.or_false, hall]

end Condition

/-! ## Branches -/

/-- A statement that runs one of several blocks. -/
inductive IfChain where
  | always (block : String)
  | branch (condition block : String) (otherwise : IfChain)
  deriving DecidableEq

/-- A text in braces. -/
def IsBraced (t : String) : Prop := ∃ inner, Closed inner ∧ t = "\x7b" ++ inner ++ "\x7d"

theorem isBraced_block {ts : List String} {indent : String} (hi : Markless indent) (h : ∀ t ∈ ts, Closed t) :
    IsBraced (block ts indent) := by
  unfold block
  dsimp only
  split
  · exact ⟨"", by decide, by decide⟩
  · have hbody : Closed (joinLines (ts.filter (· ≠ ""))) :=
      closed_joinLines fun t ht => h t (List.mem_filter.mp ht).1
    refine ⟨"\n" ++ indentLines (joinLines (ts.filter (· ≠ ""))) indent ++ "\n", ?_, ?_⟩
    · exact (Leads.start rfl).hole (closed_indentLines hi hbody) |>.lit rfl
    · have hopen : "\x7b\n" = "\x7b" ++ "\n" := rfl
      have hclose : "\n\x7d" = "\n" ++ "\x7d" := rfl
      rw [hopen, hclose]
      simp only [String.append_assoc]

namespace IfChain

def text : IfChain → String
  | always block => block
  | branch condition block otherwise =>
    let other := otherwise.text
    s!"if ({condition}) {block} else {other}"

/-- The braces that the characters begin with, and what is behind them. -/
def readBlock (cs : List Char) : Option (String × List Char) := do
  let cs ← behind "\x7b" cs
  let (inner, cs) ← (Scan.code []).enclosed '\x7d' cs
  return ("\x7b" ++ String.ofList inner ++ "\x7d", cs)

/-- The branches of fewer than `n` characters. -/
def readWithin : Nat → List Char → Option IfChain
  | 0, _ => none
  | n + 1, cs =>
    match behind "if (" cs with
    | none => do
      let (block, cs) ← readBlock cs
      if cs = [] then some (.always block) else none
    | some cs => do
      let (condition, cs) ← (Scan.code []).enclosed ')' cs
      let cs ← behind " " cs
      let (block, cs) ← readBlock cs
      let cs ← behind " else " cs
      return .branch (String.ofList condition) block (← readWithin n cs)

def read? (t : String) : Option IfChain := readWithin (t.length + 1) t.toList

/-- Conditions and blocks end what they start. -/
def WellFormed : IfChain → Prop
  | always block => IsBraced block
  | branch condition block otherwise => Closed condition ∧ IsBraced block ∧ otherwise.WellFormed

theorem readBlock_append {block : String} (h : IsBraced block) (rest : List Char) :
    readBlock (block.toList ++ rest) = some (block, rest) := by
  obtain ⟨inner, hinner, rfl⟩ := h
  have hclosing : (Scan.code []).next '\x7d' = none := rfl
  have hlist : ("\x7b" ++ inner ++ "\x7d").toList ++ rest = "\x7b".toList ++ (inner.toList ++ '\x7d' :: rest) := by simp
  rw [readBlock, hlist, behind_append]
  simp only [Option.bind_eq_bind, Option.bind_some, Scan.enclosed_append hclosing hinner, String.ofList_toList]
  rfl

theorem behind_block {block : String} (h : IsBraced block) (rest : List Char) :
    behind "if (" (block.toList ++ rest) = none := by
  obtain ⟨inner, -, rfl⟩ := h
  simp [behind]

theorem readWithin_text {x : IfChain} (h : x.WellFormed) {n : Nat} (hn : x.text.length < n) :
    readWithin n x.text.toList = some x := by
  induction x generalizing n with
  | always block =>
    obtain ⟨n, rfl⟩ := Nat.exists_eq_succ_of_ne_zero (Nat.ne_zero_of_lt hn)
    have hblock := readBlock_append h []
    have hbehind := behind_block h []
    rw [List.append_nil] at hblock hbehind
    simp only [readWithin, text, hbehind, hblock, Option.bind_eq_bind, Option.bind_some, if_true]
  | branch condition block otherwise ih =>
    obtain ⟨n, rfl⟩ := Nat.exists_eq_succ_of_ne_zero (Nat.ne_zero_of_lt hn)
    obtain ⟨hcondition, hblock, hother⟩ := h
    have hclosing : (Scan.code []).next ')' = none := rfl
    have htext : (branch condition block otherwise).text =
        "if (" ++ condition ++ ") " ++ block ++ " else " ++ otherwise.text := rfl
    have hlist : (branch condition block otherwise).text.toList = "if (".toList ++ (condition.toList ++
        ')' :: (" ".toList ++ (block.toList ++ (" else ".toList ++ otherwise.text.toList)))) := by
      rw [htext]
      simp
    have hlength : otherwise.text.length < n := by
      rw [htext] at hn
      simp only [String.length_append] at hn
      have hword : " else ".length = 6 := rfl
      omega
    rw [hlist, readWithin, behind_append]
    simp only [Option.bind_eq_bind, Option.bind_some, Scan.enclosed_append hclosing hcondition, behind_append,
      readBlock_append hblock, ih hother hlength, String.ofList_toList]
    rfl

theorem read_text {x : IfChain} (h : x.WellFormed) : read? x.text = some x := readWithin_text h (Nat.lt_succ_self _)

/-- The block that runs, by the outcomes of the tests in the branch at `i`. There is none if a
    condition that matters cannot be read. -/
def run (v : Nat → String → Bool) : IfChain → Nat → Option String
  | always block, _ => some block
  | branch condition block otherwise, i => do
    if ← Condition.value? (v i) condition then some block else otherwise.run v (i + 1)

theorem run_branch {v : Nat → String → Bool} {condition : String} {i : Nat} {b : Bool}
    (h : Condition.value? (v i) condition = some b) (block : String) (otherwise : IfChain) :
    (branch condition block otherwise).run v i = if b then some block else otherwise.run v (i + 1) := by
  rw [run, h]
  rfl

end IfChain

end ComponentScript.Script
