/-
  ComponentScript.Proofs.Script.Formula — boolean script text, read by the precedence of its
  operators.

  A text is cut into words at the blanks outside of its brackets and literals. Between words
  `||` binds least, then `&&`. A piece without either is a comparison of two operands, the
  word `true`, a text in parentheses, or the negation of one. What stands in brackets inside
  an operand is not looked at.

  - `Formula.read`: the formula of a text, or nothing if the text is not of this form.
  - `Chain t value`: the text `t` is read, at the level of `&&` and so wherever it is put
    between connectives, as a formula with the given value. `Chain.read` reads it alone;
    `Chain.comparison`, `Chain.not`, `Chain.and`, `Chain.or` follow the forms of texts.
-/

import ComponentScript.Proofs.Script.Names

namespace ComponentScript.Script

open Text

/-! ## Formulas -/

structure Comparison where
  left : String
  operator : String
  right : String
  deriving DecidableEq

inductive Formula where
  | truth
  | comparison (c : Comparison)
  | not (f : Formula)
  | and (f g : Formula)
  | or (f g : Formula)
  deriving DecidableEq

/-- What is known of all comparisons. -/
abbrev Valuation := Comparison → Bool

namespace Formula

def eval (v : Valuation) : Formula → Bool
  | truth => true
  | comparison c => v c
  | not f => !f.eval v
  | and f g => f.eval v && g.eval v
  | or f g => f.eval v || g.eval v

/-- The formulas with a connective between them, grouped to the left. -/
def joined (connective : Formula → Formula → Formula) : List Formula → Option Formula
  | [] => none
  | f :: fs => some (fs.foldl connective f)

theorem eval_foldl_and (v : Valuation) (f : Formula) (fs : List Formula) :
    (fs.foldl and f).eval v = (f.eval v && fs.all (eval v)) := by
  induction fs generalizing f with
  | nil => simp
  | cons g fs ih => rw [List.foldl_cons, ih, eval, List.all_cons, Bool.and_assoc]

end Formula

/-! ## Words -/

namespace Scan

/-- Cuts a text at the blanks outside of brackets and literals. -/
def cut (s : Scan) : List Char → Option (List (List Char))
  | [] => if s = code [] then some [[]] else none
  | c :: cs =>
    if s = code [] ∧ c = ' ' then (s.cut cs).map ([] :: ·)
    else (s.next c).bind fun t => (t.cut cs).map (consLine c)

/-- The characters outside of brackets and literals, without the marks themselves. -/
def outer (s : Scan) : List Char → List Char
  | [] => []
  | c :: cs =>
    match s.next c with
    | none => []
    | some t => if s = code [] ∧ t = code [] then c :: t.outer cs else t.outer cs

theorem cut_ne_nil {s : Scan} {cs : List Char} {ws : List (List Char)} (h : s.cut cs = some ws) : ws ≠ [] := by
  cases cs with
  | nil =>
    rw [cut] at h
    split at h
    · cases h; exact List.cons_ne_nil _ _
    · cases h
  | cons c cs =>
    rw [cut] at h
    split at h
    · obtain ⟨vs, -, rfl⟩ := Option.map_eq_some_iff.mp h
      exact List.cons_ne_nil _ _
    · obtain ⟨t, -, hcut⟩ := Option.bind_eq_some_iff.mp h
      obtain ⟨vs, -, rfl⟩ := Option.map_eq_some_iff.mp hcut
      cases vs <;> exact List.cons_ne_nil _ _

/-- A text that can be cut ends with nothing open. -/
theorem run_of_cut {s : Scan} {cs : List Char} {ws : List (List Char)} (h : s.cut cs = some ws) :
    s.run cs = some (code []) := by
  induction cs generalizing s ws with
  | nil =>
    rw [cut] at h
    split at h
    · next hs => rw [run_nil, hs]
    · cases h
  | cons c cs ih =>
    rw [cut] at h
    split at h
    · next hs =>
      obtain ⟨rfl, rfl⟩ := hs
      obtain ⟨vs, hcut, -⟩ := Option.map_eq_some_iff.mp h
      exact ih hcut
    · obtain ⟨t, hn, hcut⟩ := Option.bind_eq_some_iff.mp h
      obtain ⟨vs, hvs, -⟩ := Option.map_eq_some_iff.mp hcut
      rw [run_cons, hn, Option.bind_some, ih hvs]

/-- Texts that can be cut can be put together with a blank. -/
theorem cut_append {s : Scan} {cs ds : List Char} {ws vs : List (List Char)} (h : s.cut cs = some ws)
    (h' : (code []).cut ds = some vs) : s.cut (cs ++ ' ' :: ds) = some (ws ++ vs) := by
  induction cs generalizing s ws with
  | nil =>
    rw [cut] at h
    split at h
    · next hs =>
      cases h
      subst hs
      rw [List.nil_append, cut, if_pos ⟨rfl, rfl⟩, h']
      rfl
    · cases h
  | cons c cs ih =>
    rw [cut] at h
    rw [List.cons_append, cut]
    split at h
    · next hs =>
      obtain ⟨us, hcut, rfl⟩ := Option.map_eq_some_iff.mp h
      rw [if_pos hs, ih hcut]
      rfl
    · next hs =>
      obtain ⟨t, hn, hcut⟩ := Option.bind_eq_some_iff.mp h
      obtain ⟨us, hus, rfl⟩ := Option.map_eq_some_iff.mp hcut
      rw [if_neg hs, hn, Option.bind_some, ih hus, Option.map_some]
      cases us with
      | nil => exact absurd rfl (cut_ne_nil hus)
      | cons u us => rfl

theorem intercalate_cut {s : Scan} {cs : List Char} {ws : List (List Char)} (h : s.cut cs = some ws) :
    [' '].intercalate ws = cs := by
  induction cs generalizing s ws with
  | nil =>
    rw [cut] at h
    split at h
    · cases h; rfl
    · cases h
  | cons c cs ih =>
    rw [cut] at h
    split at h
    · next hs =>
      obtain ⟨vs, hcut, rfl⟩ := Option.map_eq_some_iff.mp h
      obtain ⟨v, vs, rfl⟩ := List.exists_cons_of_ne_nil (cut_ne_nil hcut)
      rw [List.intercalate_cons_cons, ih hcut, hs.2]
      rfl
    · obtain ⟨t, -, hcut⟩ := Option.bind_eq_some_iff.mp h
      obtain ⟨vs, hvs, rfl⟩ := Option.map_eq_some_iff.mp hcut
      obtain ⟨v, vs, rfl⟩ := List.exists_cons_of_ne_nil (cut_ne_nil hvs)
      have hcs := ih hvs
      rw [consLine]
      cases vs with
      | nil =>
        rw [List.intercalate_singleton] at hcs ⊢
        rw [hcs]
      | cons u vs =>
        rw [List.intercalate_cons_cons] at hcs ⊢
        rw [List.cons_append, List.cons_append, hcs]

/-- A character that is no mark and is not outside of brackets and literals: it is not the first
    one there, and not outside in the rest. -/
theorem not_mem_outer_cons {s t : Scan} {c d : Char} {cs : List Char} (hd : (code []).next d = some (code []))
    (hn : s.next c = some t) (h : d ∉ s.outer (c :: cs)) : ¬ (s = code [] ∧ c = d) ∧ d ∉ t.outer cs := by
  simp only [outer, hn] at h
  constructor
  · rintro ⟨rfl, rfl⟩
    rw [hd] at hn
    cases hn
    exact h (by rw [if_pos ⟨rfl, rfl⟩]; exact List.mem_cons_self ..)
  · split at h
    · exact fun hm => h (List.mem_cons_of_mem _ hm)
    · exact h

/-- Without a blank outside of brackets and literals, there is one word. -/
theorem cut_single {s : Scan} {cs : List Char} (h : s.run cs = some (code [])) (hblank : ' ' ∉ s.outer cs) :
    s.cut cs = some [cs] := by
  induction cs generalizing s with
  | nil =>
    cases h
    rfl
  | cons c cs ih =>
    rw [run_cons] at h
    obtain ⟨t, hn, hrun⟩ := Option.bind_eq_some_iff.mp h
    obtain ⟨hs, hrest⟩ := not_mem_outer_cons rfl hn hblank
    rw [cut, if_neg hs, hn, Option.bind_some, ih hrun hrest]
    rfl

theorem outer_append_of {s t : Scan} {cs : List Char} (h : s.run cs = some t) (ds : List Char) :
    s.outer (cs ++ ds) = s.outer cs ++ t.outer ds := by
  induction cs generalizing s with
  | nil => cases h; rfl
  | cons c cs ih =>
    rw [run_cons] at h
    obtain ⟨u, hn, hrun⟩ := Option.bind_eq_some_iff.mp h
    simp only [List.cons_append, outer, hn, ih hrun]
    split <;> rfl

/-- Inside a bracket that stays open nothing is outside of all brackets. -/
theorem outer_inside {s t : Scan} {cs : List Char} (h : s.run cs = some t) (f : Frame) (base : List Frame) :
    (s.inside (f :: base)).outer cs = [] := by
  induction cs generalizing s with
  | nil => rfl
  | cons c cs ih =>
    rw [run_cons] at h
    obtain ⟨u, hn, hrun⟩ := Option.bind_eq_some_iff.mp h
    have hs : s.inside (f :: base) ≠ code [] := by
      intro heq
      have hframes : s.frames ++ f :: base = [] := congrArg Scan.frames heq
      simp at hframes
    simp only [outer, next_inside hn, hs, false_and, if_false, ih hrun]

end Scan

/-- The characters of a text outside of its brackets and literals. -/
def outerChars (t : String) : List Char := (Scan.code []).outer t.toList

/-- The words of a text, if nothing is left open in it. -/
def words (t : String) : Option (List String) := ((Scan.code []).cut t.toList).map (·.map String.ofList)

theorem closed_of_words {t : String} {ws : List String} (h : words t = some ws) : Closed t := by
  obtain ⟨vs, hcut, -⟩ := Option.map_eq_some_iff.mp h
  exact Scan.run_of_cut hcut

theorem words_append {t u : String} {ws vs : List String} (h : words t = some ws) (h' : words u = some vs) :
    words (t ++ " " ++ u) = some (ws ++ vs) := by
  obtain ⟨xs, hxs, rfl⟩ := Option.map_eq_some_iff.mp h
  obtain ⟨ys, hys, rfl⟩ := Option.map_eq_some_iff.mp h'
  have hlist : (t ++ " " ++ u).toList = t.toList ++ ' ' :: u.toList := by simp
  rw [words, hlist, Scan.cut_append hxs hys, Option.map_some, List.map_append]

/-- Words are put together with blanks. -/
theorem intercalate_words {t : String} {ws : List String} (h : words t = some ws) : " ".intercalate ws = t := by
  obtain ⟨vs, hcut, rfl⟩ := Option.map_eq_some_iff.mp h
  have hlists : (vs.map String.ofList).map String.toList = vs := by simp [Function.comp_def]
  rw [← String.toList_inj, String.toList_intercalate, hlists]
  exact Scan.intercalate_cut hcut

theorem words_single {t : String} (h : Closed t) (hblank : ' ' ∉ outerChars t) : words t = some [t] := by
  rw [words, Scan.cut_single h hblank, Option.map_some, List.map_singleton, String.ofList_toList]

theorem outerChars_append {t : String} (h : Closed t) (u : String) :
    outerChars (t ++ u) = outerChars t ++ outerChars u := by
  rw [outerChars, String.toList_append, Scan.outer_append_of h]
  rfl

theorem outerChars_parenthesized {t : String} (h : Closed t) : outerChars ("(" ++ t ++ ")") = [] := by
  have hopen : (Scan.code []).run "(".toList = some (.code [.paren]) := rfl
  have hinner : (Scan.code [.paren]).outer t.toList = [] := Scan.outer_inside h .paren []
  rw [outerChars, String.toList_append, String.toList_append, List.append_assoc, Scan.outer_append_of hopen,
    Scan.outer_append_of (h.anywhere [.paren]), hinner]
  rfl

/-! ## Operands -/

/-- A character of names, paths and numbers. Beyond the first 128 characters the script
    language knows no operators. -/
def isOperandPart (c : Char) : Bool :=
  if c.toNat < 128 then c.isAlphanum || "_$.+-".toList.contains c else !isBlank c

/-- A text without operators and blanks outside of its brackets and literals. -/
structure IsOperand (t : String) : Prop where
  nonempty : t ≠ ""
  closed : Closed t
  parts : ∀ c ∈ outerChars t, isOperandPart c = true

instance : DecidablePred IsOperand := fun t =>
  decidable_of_iff (t ≠ "" ∧ Closed t ∧ (outerChars t).all isOperandPart = true)
    ⟨fun h => ⟨h.1, h.2.1, List.all_eq_true.mp h.2.2⟩, fun h => ⟨h.nonempty, h.closed, List.all_eq_true.mpr h.parts⟩⟩

namespace IsOperand

variable {t u : String}

/-- An operand is none of the connectives. -/
theorem ne (h : IsOperand t) (hu : ¬ IsOperand u) : u ≠ t := fun heq => hu (heq ▸ h)

theorem words (h : IsOperand t) : words t = some [t] :=
  words_single h.closed fun hm => absurd (h.parts _ hm) (by decide)

theorem append (h : IsOperand t) (hc : Closed u) (hu : ∀ c ∈ outerChars u, isOperandPart c = true) :
    IsOperand (t ++ u) where
  nonempty heq := h.nonempty (String.append_eq_empty_iff.mp heq).1
  closed := h.closed.append hc
  parts := by
    rw [outerChars_append h.closed]
    exact List.forall_mem_append.mpr ⟨h.parts, hu⟩

theorem parenthesized (h : Closed t) : IsOperand ("(" ++ t ++ ")") where
  nonempty heq := absurd (String.append_eq_empty_iff.mp (String.append_eq_empty_iff.mp heq).1).1 (by decide)
  closed := (Leads.start rfl).hole h |>.lit rfl
  parts := by
    rw [outerChars_parenthesized h]
    exact List.forall_mem_nil _

end IsOperand

/-! ## Reading -/

namespace Formula

def comparisonOperators : List String := ["===", "==", "!=", "<", "<=", ">", ">=", "instanceof"]

/-- A comparison; `left` is its left operand as it is written. -/
def readComparison (left l operator r : String) : Option Formula :=
  if IsOperand l ∧ operator ∈ comparisonOperators ∧ IsOperand r then some (.comparison ⟨left, operator, r⟩) else none

/-- The text in the parentheses around the characters, if these belong together. -/
def unwrap (cs : List Char) : Option String :=
  let inner := String.ofList cs.tail.dropLast
  if cs = '(' :: inner.toList ++ [')'] ∧ Closed inner then some inner else none

/-- Words without a connective between them, with a reader for the text in parentheses. -/
def readUnit (inner : String → Option Formula) : List String → Option Formula
  | [word] =>
    if word = "true" then some .truth
    else if word.toList.head? = some '!' then ((unwrap word.toList.tail).bind inner).map .not
    else (unwrap word.toList).bind inner
  | [l, operator, r] => readComparison l l operator r
  | [word, l, operator, r] => if word = "typeof" then readComparison s!"typeof {l}" l operator r else none
  | _ => none

def readUnits (inner : String → Option Formula) (ws : List String) : Option (List Formula) :=
  (ws.splitOn "&&").mapM (readUnit inner)

def readConjunction (inner : String → Option Formula) (ws : List String) : Option Formula :=
  (readUnits inner ws).bind (joined .and)

/-- The formula of a text with fewer than `n` characters. -/
def readWithin : Nat → String → Option Formula
  | 0, _ => none
  | n + 1, t => do
    let ws ← words t
    joined .or (← (ws.splitOn "||").mapM (readConjunction (readWithin n)))

def read (t : String) : Option Formula := readWithin (t.length + 1) t

example : read "a > 1 || !(b == null || c == \"||\") && true" =
    some (.or (.comparison ⟨"a", ">", "1"⟩)
      (.and (.not (.or (.comparison ⟨"b", "==", "null"⟩) (.comparison ⟨"c", "==", "\"||\""⟩))) .truth)) := by
  decide +kernel

theorem unwrap_parenthesized {t : String} (h : Closed t) : unwrap ("(" ++ t ++ ")").toList = some t := by
  have hlist : ("(" ++ t ++ ")").toList = '(' :: t.toList ++ [')'] := by simp
  have hinner : String.ofList ('(' :: t.toList ++ [')']).tail.dropLast = t := by simp
  unfold unwrap
  rw [hlist, hinner]
  exact if_pos ⟨rfl, h⟩

end Formula

/-! ## Texts between connectives -/

/-- The text is read as units with `&&` between them, which all hold if and only if `value`
    does. -/
def Chain (t : String) (value : Valuation → Bool) : Prop :=
  ∃ ws fs, words t = some ws ∧ "||" ∉ ws ∧
    (∀ n, t.length ≤ n → Formula.readUnits (Formula.readWithin n) ws = some fs) ∧ fs ≠ [] ∧
    ∀ v, fs.all (·.eval v) = value v

namespace Chain

open Formula

variable {t u : String} {b c : Valuation → Bool}

theorem closed (h : Chain t b) : Closed t := by
  obtain ⟨ws, -, hwords, -⟩ := h
  exact closed_of_words hwords

/-- The units of a text are one formula. -/
theorem conjunction (h : Chain t b) : ∃ ws f, words t = some ws ∧ "||" ∉ ws ∧
    (∀ n, t.length ≤ n → readConjunction (readWithin n) ws = some f) ∧ ∀ v, f.eval v = b v := by
  obtain ⟨ws, fs, hwords, hor, hread, hne, hvalue⟩ := h
  cases fs with
  | nil => exact absurd rfl hne
  | cons f fs =>
    refine ⟨ws, fs.foldl .and f, hwords, hor, fun n hn => ?_, fun v => ?_⟩
    · rw [readConjunction, hread n hn]
      rfl
    · rw [eval_foldl_and, ← hvalue, List.all_cons]

theorem readWithin (h : Chain t b) : ∃ f, (∀ n, t.length < n → readWithin n t = some f) ∧ ∀ v, f.eval v = b v := by
  obtain ⟨ws, f, hwords, hor, hread, hvalue⟩ := h.conjunction
  refine ⟨f, fun n hn => ?_, hvalue⟩
  obtain ⟨n, rfl⟩ := Nat.exists_eq_succ_of_ne_zero (Nat.ne_zero_of_lt hn)
  rw [Formula.readWithin, hwords]
  simp [List.splitOn_eq_singleton hor, hread n (Nat.le_of_lt_succ hn), joined]

theorem read (h : Chain t b) : ∃ f, read t = some f ∧ ∀ v, f.eval v = b v := by
  obtain ⟨f, hread, hvalue⟩ := h.readWithin
  exact ⟨f, hread _ (Nat.lt_succ_self _), hvalue⟩

/-- One unit. -/
theorem unit {ws : List String} {f : Formula} (hwords : words t = some ws) (hor : "||" ∉ ws) (hand : "&&" ∉ ws)
    (hread : ∀ n, t.length ≤ n → readUnit (Formula.readWithin n) ws = some f) : Chain t fun v => f.eval v := by
  refine ⟨ws, [f], hwords, hor, fun n hn => ?_, List.cons_ne_nil _ _, fun v => by simp⟩
  rw [readUnits, List.splitOn_eq_singleton hand, List.mapM_cons, hread n hn]
  rfl

theorem truth : Chain "true" fun _ => true :=
  unit (f := .truth) (words_single (by decide) (by decide)) (by decide) (by decide) fun _ _ => rfl

section

variable {l operator r behind : String} (hl : IsOperand l) (hop : operator ∈ comparisonOperators) (hr : IsOperand r)
  (hb : behind = " " ++ operator ++ " " ++ r)

include hl hop hr hb

/-- The words of a comparison; `behind` is what follows its left operand. -/
theorem comparison_words : words (l ++ behind) = some [l, operator, r] ∧
    ∀ w, ¬ IsOperand w → w ∉ comparisonOperators → w ∉ [l, operator, r] := by
  have hoperators : ∀ w ∈ comparisonOperators, words w = some [w] := by decide
  constructor
  · rw [hb, ← String.append_assoc, ← String.append_assoc, ← String.append_assoc]
    exact words_append (words_append hl.words (hoperators _ hop)) hr.words
  · intro w hw hw' hm
    simp only [List.mem_cons, List.not_mem_nil, or_false] at hm
    rcases hm with hm | hm | hm
    · exact hl.ne hw hm
    · exact hw' (hm ▸ hop)
    · exact hr.ne hw hm

theorem comparison : Chain (l ++ behind) fun v => v ⟨l, operator, r⟩ := by
  obtain ⟨hwords, hmem⟩ := comparison_words hl hop hr hb
  exact unit (f := .comparison ⟨l, operator, r⟩) hwords (hmem _ (by decide) (by decide))
    (hmem _ (by decide) (by decide)) fun _ _ => if_pos ⟨hl, hop, hr⟩

/-- The type of an operand, compared. -/
theorem typeComparison : Chain ("typeof " ++ l ++ behind) fun v => v ⟨"typeof " ++ l, operator, r⟩ := by
  obtain ⟨hwords, hmem⟩ := comparison_words hl hop hr hb
  have htypeof : words ("typeof " ++ l ++ behind) = some ["typeof", l, operator, r] := by
    have hfirst : words "typeof" = some ["typeof"] := by decide
    have hblank : "typeof " = "typeof" ++ " " := rfl
    rw [String.append_assoc, hblank]
    exact words_append hfirst hwords
  have hmem' : ∀ w, w ≠ "typeof" → w ∉ [l, operator, r] → w ∉ ["typeof", l, operator, r] :=
    fun w hne hw => List.not_mem_cons_of_ne_of_not_mem hne hw
  refine unit (f := .comparison ⟨"typeof " ++ l, operator, r⟩) htypeof
    (hmem' _ (by decide) (hmem _ (by decide) (by decide))) (hmem' _ (by decide) (hmem _ (by decide) (by decide)))
    fun n _ => ?_
  rw [readUnit, if_pos rfl]
  exact if_pos ⟨hl, hop, hr⟩

end

theorem and (h : Chain t b) (h' : Chain u c) : Chain (t ++ " && " ++ u) fun v => b v && c v := by
  obtain ⟨ws, fs, hwords, hor, hread, hne, hvalue⟩ := h
  obtain ⟨vs, gs, hwords', hor', hread', -, hvalue'⟩ := h'
  have hlength : t.length ≤ (t ++ " && " ++ u).length ∧ u.length ≤ (t ++ " && " ++ u).length := by
    simp only [String.length_append]
    omega
  refine ⟨ws ++ "&&" :: vs, fs ++ gs, ?_, ?_, fun n hn => ?_, ?_, fun v => ?_⟩
  · have hand : words "&&" = some ["&&"] := by decide
    simpa [String.append_assoc] using words_append (words_append hwords hand) hwords'
  · simp [hor, hor']
  · have ht := hread n (by omega)
    have hu := hread' n (by omega)
    unfold readUnits at ht hu ⊢
    rw [List.splitOn_append_cons_self, List.mapM_append, ht, hu]
    rfl
  · simp [hne]
  · rw [List.all_append, hvalue, hvalue']

/-- A single word that begins like neither a connective nor a name. -/
theorem word {w : String} {f : Formula} (hwords : words w = some [w]) {first : Char}
    (hfirst : w.toList.head? = some first) (hmark : first ∉ ['|', '&', 't'])
    (hread : ∀ n, w.length ≤ n → w ≠ "true" → readUnit (Formula.readWithin n) [w] = some f) :
    Chain w fun v => f.eval v := by
  have hne : ∀ x : String, (∃ d ∈ ['|', '&', 't'], x.toList.head? = some d) → x ≠ w := by
    rintro x ⟨d, hd, hx⟩ rfl
    rw [hfirst] at hx
    exact hmark (Option.some.inj hx ▸ hd)
  refine unit hwords ?_ ?_ fun n hn => hread n hn (hne "true" ⟨'t', by decide, rfl⟩).symm
  · simpa using hne "||" ⟨'|', by decide, rfl⟩
  · simpa using hne "&&" ⟨'&', by decide, rfl⟩

/-- A text in parentheses is read by itself. -/
theorem parenthesized (h : Closed t) {f : Formula} (hread : ∀ n, t.length < n → Formula.readWithin n t = some f) :
    Chain ("(" ++ t ++ ")") fun v => f.eval v := by
  have hhead : ("(" ++ t ++ ")").toList.head? = some '(' := by simp
  refine word (IsOperand.parenthesized h).words hhead (by decide) fun n hn htrue => ?_
  have hlength : t.length < n := by
    simp only [String.length_append] at hn
    have hone : "(".length = 1 := rfl
    omega
  rw [readUnit, if_neg htrue, hhead, if_neg (by decide), unwrap_parenthesized h, Option.bind_some, hread n hlength]

theorem not (h : Chain t b) : Chain ("!(" ++ t ++ ")") fun v => !b v := by
  obtain ⟨f, hread, hvalue⟩ := h.readWithin
  have hsplit : "!(" ++ t ++ ")" = "!" ++ ("(" ++ t ++ ")") := by
    simp only [← String.append_assoc]
    rfl
  have hhead : ("!(" ++ t ++ ")").toList.head? = some '!' := by simp
  have htail : ("!(" ++ t ++ ")").toList.tail = ("(" ++ t ++ ")").toList := by simp
  have hwords : words ("!(" ++ t ++ ")") = some ["!(" ++ t ++ ")"] := by
    refine words_single ((Leads.start rfl).hole h.closed |>.lit rfl) ?_
    rw [hsplit, outerChars_append (by decide), outerChars_parenthesized h.closed]
    decide
  have hchain := word (f := .not f) hwords hhead (by decide) fun n hn htrue => by
    have hlength : t.length < n := by
      simp only [String.length_append] at hn
      have hone : ")".length = 1 := rfl
      omega
    rw [readUnit, if_neg htrue, if_pos hhead, htail, unwrap_parenthesized h.closed, Option.bind_some, hread n hlength]
    rfl
  simpa only [eval, hvalue] using hchain

theorem or (h : Chain t b) (h' : Chain u c) : Chain ("(" ++ t ++ " || " ++ u ++ ")") fun v => b v || c v := by
  obtain ⟨ws, f, hwords, hor, hread, hvalue⟩ := h.conjunction
  obtain ⟨vs, g, hwords', hor', hread', hvalue'⟩ := h'.conjunction
  have hall : words (t ++ " || " ++ u) = some (ws ++ "||" :: vs) := by
    have hmiddle : words "||" = some ["||"] := by decide
    simpa [String.append_assoc] using words_append (words_append hwords hmiddle) hwords'
  have hboth : ∀ n, (t ++ " || " ++ u).length < n → Formula.readWithin n (t ++ " || " ++ u) = some (.or f g) := by
    intro n hn
    simp only [String.length_append] at hn
    obtain ⟨n, rfl⟩ := Nat.exists_eq_succ_of_ne_zero (Nat.ne_zero_of_lt hn)
    rw [Formula.readWithin, hall]
    simp [List.splitOn_append_cons_self, List.splitOn_eq_singleton hor, List.splitOn_eq_singleton hor',
      hread n (by omega), hread' n (by omega), joined]
  have hchain := parenthesized (closed_of_words hall) hboth
  simpa only [eval, hvalue, hvalue', ← String.append_assoc] using hchain

/-- Tests with `&&` between them; there is at least one. -/
theorem all {tests : List (String × (Valuation → Bool))} (hne : tests ≠ []) (h : ∀ x ∈ tests, Chain x.1 x.2) :
    Chain (" && ".intercalate (tests.map (·.1))) fun v => tests.all (·.2 v) := by
  induction tests with
  | nil => exact absurd rfl hne
  | cons x tests ih =>
    have hx := h x (List.mem_cons_self ..)
    cases tests with
    | nil => simpa using hx
    | cons y tests =>
      have hrest := ih (List.cons_ne_nil _ _) fun z hz => h z (List.mem_cons_of_mem _ hz)
      have hboth := hx.and hrest
      rwa [List.map_cons, List.map_cons, String.intercalate_cons_cons, ← List.map_cons]

/-- A text that is left out of a conjunction says nothing. -/
theorem eq_true (h : Chain "true" b) (v : Valuation) : b v = true := by
  obtain ⟨f, hread, hvalue⟩ := h.read
  have htruth : Formula.read "true" = some .truth := by decide
  rw [← hvalue, ← Option.some.inj (htruth.symm.trans hread)]
  rfl

/-- The tests that always hold can be left out. -/
theorem all_filter {tests : List (String × (Valuation → Bool))} (h : ∀ x ∈ tests, Chain x.1 x.2) (v : Valuation) :
    (tests.filter (·.1 ≠ "true")).all (·.2 v) = tests.all (·.2 v) := by
  induction tests with
  | nil => rfl
  | cons x tests ih =>
    have hrest := ih fun y hy => h y (List.mem_cons_of_mem _ hy)
    have hx : Chain x.1 x.2 := h x (List.mem_cons_self ..)
    by_cases htrue : x.1 = "true"
    · rw [htrue] at hx
      rw [List.filter_cons_of_neg (by simpa using htrue), hrest, List.all_cons, hx.eq_true, Bool.true_and]
    · rw [List.filter_cons_of_pos (by simpa using htrue), List.all_cons, List.all_cons, hrest]

end Chain

end ComponentScript.Script
