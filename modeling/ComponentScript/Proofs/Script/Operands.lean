/-
  ComponentScript.Proofs.Script.Operands — names, paths and literals are operands.

  A text of operand characters only is bare. Names are bare, and their camel case is: small
  letters are operand characters again (`isOperandPart_toLowercase`), though not always
  letters, as one capital becomes a letter with a mark. Literals are operands for another
  reason: a quoted text has nothing outside of its quotes.
-/

import ComponentScript.Convert.PatternTest
import ComponentScript.Proofs.Script.Formula

namespace ComponentScript.Script

open Text

/-! ## Characters -/

theorem isMark_of_isOperandPart {c : Char} (h : isOperandPart c = true) : isMark c = false :=
  isMark_eq_false (by decide) h

/-- One of the first 128 characters is among those that are checked one by one. -/
theorem of_ascii {p q : Char → Bool} (h : ∀ n : Fin 128, p (Char.ofNat n) = true → q (Char.ofNat n) = true) {c : Char}
    (hc : c.toNat < 128) (hp : p c = true) : q c = true := by
  have hn := h ⟨c.toNat, hc⟩
  rw [Char.ofNat_toNat] at hn
  exact hn hp

theorem isBlank_cases {c : Char} (h : isBlank c = true) :
    ∃ r ∈ blankRanges, c.toNat ∈ List.range' r.1 (r.2 - r.1 + 1) := by
  obtain ⟨r, hr, hc⟩ := List.any_eq_true.mp h
  refine ⟨r, hr, ?_⟩
  simp only [Bool.and_eq_true, decide_eq_true_eq] at hc
  rw [List.mem_range'_1]
  omega

theorem isOperandPart_of_continuesIdentifier {c : Char} (h : continuesIdentifier c = true) :
    isOperandPart c = true := by
  have hsmall : ∀ n : Fin 128, continuesIdentifier (Char.ofNat n) = true → isOperandPart (Char.ofNat n) = true := by
    decide +kernel
  have hblanks : ∀ r ∈ blankRanges, ∀ n ∈ List.range' r.1 (r.2 - r.1 + 1),
      continuesIdentifier (Char.ofNat n) = false := by
    decide +kernel
  by_cases hc : c.toNat < 128
  · exact of_ascii hsmall hc h
  · cases hb : isBlank c with
    | false => simp [isOperandPart, hc, hb]
    | true =>
      obtain ⟨r, hr, hn⟩ := isBlank_cases hb
      have hname := hblanks r hr _ hn
      rw [Char.ofNat_toNat, h] at hname
      cases hname

/-- Beyond the first 128 characters, the runs move to such characters again, and to no blanks.
    Only the Kelvin sign becomes a `k`. -/
theorem lowercaseRuns_moved : ∀ r ∈ lowercaseRuns, r.1.last < 128 ∨
    (128 ≤ (r.1.first : Int) + r.2 ∧
      ((r.1.last : Int) + r.2 < 0xD800 ∨ 0xDFFF < (r.1.first : Int) + r.2 ∧ (r.1.last : Int) + r.2 < 0x110000) ∧
      ∀ b ∈ blankRanges, (b.2 : Int) < r.1.first + r.2 ∨ (r.1.last : Int) + r.2 < b.1) ∨
    (r.1.first = 0x212A ∧ r.1.last = 0x212A ∧ r.2 = -8383) := by
  decide +kernel

theorem isOperandPart_ofNat {n : Nat} (hlarge : 128 ≤ n) (hvalid : n.isValidChar)
    (hblank : inRanges blankRanges n = false) :
    isOperandPart (Char.ofNat n) = true := by
  have hn : (Char.ofNat n).toNat = n := by
    unfold Char.ofNat
    rw [dif_pos hvalid]
    rfl
  simp [isOperandPart, isBlank, hn, hblank, Nat.not_lt.mpr hlarge]

theorem isOperandPart_toLowercase {c : Char} (h : isOperandPart c = true) :
    ∀ d ∈ toLowercase c, isOperandPart d = true := by
  have hsmall : ∀ n : Fin 128, isOperandPart (Char.ofNat n) = true → isOperandPart (Char.ofNat n).toLower = true := by
    decide +kernel
  intro d hd
  unfold toLowercase at hd
  split at hd
  · next hc =>
    obtain rfl := List.mem_singleton.mp hd
    exact of_ascii (q := fun c => isOperandPart c.toLower) hsmall hc h
  split at hd
  · rcases List.mem_cons.mp hd with rfl | hd
    · decide
    · obtain rfl := List.mem_singleton.mp hd
      decide
  split at hd
  · next r hr =>
    obtain rfl := List.mem_singleton.mp hd
    have hholds := List.find?_some (p := fun r : Run × Int => r.1.holds c.toNat) hr
    simp only [Run.holds, Bool.and_eq_true, decide_eq_true_eq] at hholds
    have hmoved := lowercaseRuns_moved r (List.mem_of_find?_eq_some hr)
    rcases hmoved with hlast | ⟨hlarge, hvalid, hblank⟩ | ⟨hfirst, hlast, hmove⟩
    · omega
    · refine isOperandPart_ofNat (by omega) ?_ ?_
      · unfold Nat.isValidChar
        omega
      · rw [inRanges, List.any_eq_false]
        intro b hb
        have := hblank b hb
        simp only [Bool.and_eq_true, decide_eq_true_eq]
        omega
    · have hc : c.toNat = 0x212A := by omega
      rw [hc, hmove]
      decide
  · obtain rfl := List.mem_singleton.mp hd
    exact h

/-! ## Bare texts -/

/-- The text has operand characters only. -/
def Bare (t : String) : Prop := ∀ c ∈ t.toList, isOperandPart c = true

instance : DecidablePred Bare := fun t => List.decidableBAll (isOperandPart · = true) t.toList

theorem Scan.mem_of_mem_outer {s : Scan} {cs : List Char} {c : Char} (h : c ∈ s.outer cs) : c ∈ cs := by
  induction cs generalizing s with
  | nil => cases h
  | cons d cs ih =>
    rw [outer] at h
    split at h
    · cases h
    split at h
    · rcases List.mem_cons.mp h with rfl | h
      · exact List.mem_cons_self ..
      · exact List.mem_cons_of_mem _ (ih h)
    · exact List.mem_cons_of_mem _ (ih h)

namespace Bare

variable {t u : String}

theorem closed (h : Bare t) : Closed t := Markless.closed fun c hc => isMark_of_isOperandPart (h c hc)

theorem isOperand (h : Bare t) (hne : t ≠ "") : IsOperand t :=
  ⟨hne, h.closed, fun c hc => h c (Scan.mem_of_mem_outer hc)⟩

theorem append (h : Bare t) (hu : Bare u) : Bare (t ++ u) := by
  intro c hc
  rw [String.toList_append] at hc
  exact (List.mem_append.mp hc).elim (h c) (hu c)

theorem camelCase (h : Bare t) : Bare (camelCase t) := by
  intro c hc
  rw [Script.camelCase, String.toList_ofList] at hc
  exact forall_mem_camelChars isOperandPart_toLowercase h c hc

theorem intercalate {sep : String} (hsep : Bare sep) {ts : List String} (h : ∀ t ∈ ts, Bare t) :
    Bare (sep.intercalate ts) := by
  induction ts with
  | nil => rw [String.intercalate_nil]; decide
  | cons t ts ih =>
    have ht : Bare t := h t (List.mem_cons_self ..)
    cases ts with
    | nil => rwa [String.intercalate_singleton]
    | cons u us =>
      rw [String.intercalate_cons_cons]
      exact (ht.append hsep).append (ih fun v hv => h v (List.mem_cons_of_mem _ hv))

end Bare

namespace IsOperand

variable {t u : String}

theorem append_bare (h : IsOperand t) (hu : Bare u) : IsOperand (t ++ u) :=
  h.append hu.closed fun c hc => hu c (Scan.mem_of_mem_outer hc)

/-- A member of an operand is one. -/
theorem member (h : IsOperand t) (hu : Bare u) : IsOperand (t ++ "." ++ u) := (h.append_bare (by decide)).append_bare hu

/-- A call of an operand is one, whatever its argument. -/
theorem call (h : IsOperand t) (hu : Closed u) {opened : String} (ho : opened = t ++ "(") :
    IsOperand (opened ++ u ++ ")") := by
  have hcut : t ++ "(" ++ u ++ ")" = t ++ ("(" ++ u ++ ")") := by simp only [String.append_assoc]
  rw [ho, hcut]
  exact h.append (parenthesized hu).closed (parenthesized hu).parts

theorem operand (h : IsOperand t) : IsOperand (operand t) := by
  unfold Script.operand
  split
  · exact h
  · exact parenthesized h.closed

end IsOperand

/-! ## Names and paths -/

theorem bare_of_isIdentifier {name : String} (h : isIdentifier name = true) : Bare name :=
  fun c hc => isOperandPart_of_continuesIdentifier (continuesIdentifier_of_isIdentifier h c hc)

theorem ne_of_isIdentifier {name : String} (h : isIdentifier name = true) : name ≠ "" := by
  rintro rfl
  exact absurd h (by decide)

/-- Identifiers with dots between them. -/
def isDottedPath (path : String) : Bool :=
  (splitOn '.' path.toList).all fun part => isIdentifier (String.ofList part)

/-- Cutting a text loses the separators only. -/
theorem mem_splitOn {sep c : Char} {cs : List Char} (hc : c ∈ cs) : c = sep ∨ ∃ part ∈ splitOn sep cs, c ∈ part := by
  induction cs with
  | nil => cases hc
  | cons d cs ih =>
    have hrest : c ∈ cs → c = sep ∨ ∃ part ∈ splitOn sep (d :: cs), c ∈ part := by
      intro hm
      refine (ih hm).imp_right ?_
      rintro ⟨part, hpart, hin⟩
      rw [splitOn]
      split
      · exact ⟨part, List.mem_cons_of_mem _ hpart, hin⟩
      split
      · next hnil => rw [hnil] at hpart; cases hpart
      · next first parts hparts =>
        rw [hparts] at hpart
        rcases List.mem_cons.mp hpart with rfl | hpart
        · exact ⟨_, List.mem_cons_self .., List.mem_cons_of_mem _ hin⟩
        · exact ⟨part, List.mem_cons_of_mem _ hpart, hin⟩
    rcases List.mem_cons.mp hc with rfl | hm
    · by_cases hsep : c = sep
      · exact .inl hsep
      · refine .inr ?_
        rw [splitOn, if_neg hsep]
        split <;> exact ⟨_, List.mem_cons_self .., List.mem_cons_self ..⟩
    · exact hrest hm

theorem bare_of_isDottedPath {path : String} (h : isDottedPath path = true) : Bare path := by
  intro c hc
  have hparts : c = '.' ∨ ∃ part ∈ splitOn '.' path.toList, c ∈ part := mem_splitOn hc
  rcases hparts with rfl | ⟨part, hpart, hin⟩
  · decide
  · refine bare_of_isIdentifier (List.all_eq_true.mp h part hpart) c ?_
    rwa [String.toList_ofList]

theorem isOperand_of_isDottedPath {path : String} (h : isDottedPath path = true) : IsOperand path := by
  refine (bare_of_isDottedPath h).isOperand ?_
  rintro rfl
  exact absurd h (by decide)

theorem isOperand_of_isIdentifier {name : String} (h : isIdentifier name = true) : IsOperand name :=
  (bare_of_isIdentifier h).isOperand (ne_of_isIdentifier h)

theorem isOperand_memberPath {subject path : String} (hs : IsOperand subject) (hp : isDottedPath path = true) :
    IsOperand (memberPath subject path) := by
  refine hs.member (Bare.intercalate (by decide) fun t ht => ?_)
  obtain ⟨part, hpart, rfl⟩ := List.mem_map.mp ht
  exact (bare_of_isIdentifier (List.all_eq_true.mp hp part hpart)).camelCase

/-! ## Literals -/

namespace Scan

theorem outer_escapeChar (c : Char) (fs : List Frame) : (Scan.mk (some .string) fs).outer (escapeChar c) = [] := by
  unfold escapeChar
  repeat' split
  all_goals simp_all [outer, next, nextInLiteral, isLineBreak]

theorem outer_escape (cs : List Char) (fs : List Frame) :
    (Scan.mk (some .string) fs).outer (cs.flatMap escapeChar) = [] := by
  induction cs with
  | nil => rfl
  | cons c cs ih => rw [List.flatMap_cons, outer_append_of (run_escapeChar c fs), outer_escapeChar, ih]; rfl

end Scan

theorem isOperand_quote (s : String) : IsOperand (quote s) where
  nonempty heq := absurd (String.append_eq_empty_iff.mp (String.append_eq_empty_iff.mp heq).1).1 (by decide)
  closed := closed_quote s
  parts := by
    have hlist : (quote s).toList = '\x22' :: s.toList.flatMap escapeChar ++ ['\x22'] := by simp [quote, escape]
    have hopen : (Scan.code []).run ['\x22'] = some ⟨some .string, []⟩ := rfl
    have houter : outerChars (quote s) = [] := by
      rw [outerChars, hlist, List.cons_append, ← List.singleton_append, Scan.outer_append_of hopen,
        Scan.outer_append_of (Scan.run_escape s.toList []), Scan.outer_escape]
      rfl
    rw [houter]
    exact List.forall_mem_nil _

/-- A number as it is written: operand characters, not all of them separators of digits. -/
def isNumberText (text : String) : Bool := text.toList.any (· ≠ '_') && text.toList.all isOperandPart

theorem numeralChars_ne_nil {cs : List Char} (h : cs.any (· ≠ '_') = true) : numeralChars cs ≠ [] := by
  obtain ⟨c, hc, hunder⟩ := List.any_eq_true.mp h
  have hdigits : cs.filter (· ≠ '_') ≠ [] := List.ne_nil_of_mem (List.mem_filter.mpr ⟨hc, hunder⟩)
  unfold numeralChars
  dsimp only
  split
  · exact hdigits
  · next hbare => simpa using hbare

theorem isOperand_numeral {text : String} (h : isNumberText text = true) : IsOperand (numeral text) := by
  rw [isNumberText, Bool.and_eq_true, List.all_eq_true] at h
  have hbare : Bare (numeral text) := by
    intro c hc
    rw [numeral, String.toList_ofList] at hc
    exact h.2 c (mem_of_mem_numeralChars hc)
  refine hbare.isOperand fun heq => numeralChars_ne_nil h.1 ?_
  rw [← String.toList_ofList (l := numeralChars text.toList)]
  exact congrArg String.toList heq

end ComponentScript.Script
