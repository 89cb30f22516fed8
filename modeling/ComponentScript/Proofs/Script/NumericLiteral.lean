/-
  ComponentScript.Proofs.Script.NumericLiteral — the value of a numeric literal.

  Components write numbers with separators between the digits and with a suffix for the type.
  `NumberLiteral` is their grammar: integers in base sixteen, two and ten, and decimal numbers
  with a fraction or an exponent. In script text there is no suffix, and strict code has no
  decimal literal with a zero in front of other digits: `numberValue?` is the reader.

  - `numeralChars_text`: separators and suffix are dropped, and nothing else.
  - `numeral_keeps_value`: the script reads the value of the literal, unless it is decimal with
    a zero in front, and then it reads no number.
-/

import ComponentScript.Json.Grammar
import ComponentScript.Proofs.Script.Names
import Mathlib.Algebra.Field.Rat

namespace ComponentScript.Script

/-! ## Digits -/

/-- The digit that a character is in a base. -/
def digit? (base : Nat) (c : Char) : Option Nat := (Json.hexDigit? c).filter (· < base)

/-- The number with the digits, the most significant one first. -/
def ofDigits (base : Nat) (ds : List Nat) : Nat := ds.foldl (fun n d => base * n + d) 0

/-- A character that is a digit in the base. -/
abbrev Digit (base : Nat) := { c : Char // (digit? base c).isSome = true }

/-- Digits as components write them: a first one, and more with separators in front of each. -/
structure Digits (base : Nat) where
  first : Digit base
  more : List (Nat × Digit base)

namespace Digits

variable {base : Nat} (ds : Digits base)

def text : List Char := ds.first.1 :: ds.more.flatMap fun m => List.replicate m.1 '_' ++ [m.2.1]

/-- The digits without separators. -/
def bare : List Char := ds.first.1 :: ds.more.map (·.2.1)

def digits : List Nat := ds.bare.map fun c => (digit? base c).getD 0

def value : Nat := ofDigits base ds.digits

end Digits

/-! ## Literals of components -/

inductive Radix where
  | hexadecimal
  | binary

def Radix.base : Radix → Nat
  | .hexadecimal => 16
  | .binary => 2

def Radix.marker : Radix → Bool → Char
  | .hexadecimal, capital => if capital then 'X' else 'x'
  | .binary, capital => if capital then 'B' else 'b'

structure Exponent where
  capital : Bool
  /-- The sign, if one is written: `true` for minus. -/
  negative? : Option Bool
  digits : Digits 10

namespace Exponent

variable (e : Exponent)

def marker : Char := if e.capital then 'E' else 'e'

def sign : List Char :=
  match e.negative? with
  | none => []
  | some negative => [if negative then '-' else '+']

def value : Int := if e.negative? = some true then -e.digits.value else e.digits.value

end Exponent

/-- A decimal number: digits before or behind the point or both, and an exponent. -/
structure Decimal where
  whole? : Option (Digits 10)
  fraction? : Option (Digits 10)
  exponent? : Option Exponent
  digits_of : (whole?.isSome || fraction?.isSome) = true

def integerSuffixes : List String := ["", "u", "U", "l", "L", "ul", "uL", "Ul", "UL", "lu", "lU", "Lu", "LU"]

def realSuffixes : List String := ["f", "F", "d", "D", "m", "M"]

namespace Decimal

variable (n : Decimal)

/-- An integer may have a suffix of either kind, any other number only one of a real number. -/
def suffixes : List String :=
  if n.fraction?.isNone && n.exponent?.isNone then integerSuffixes ++ realSuffixes else "" :: realSuffixes

/-- The digits before the point, written by `digits`. -/
def wholePart (digits : Digits 10 → List Char) : List Char := n.whole?.elim [] digits

/-- The point and the digits behind it. -/
def fractionPart (digits : Digits 10 → List Char) : List Char := n.fraction?.elim [] fun ds => '.' :: digits ds

def exponentPart (digits : Digits 10 → List Char) : List Char :=
  n.exponent?.elim [] fun e => e.marker :: (e.sign ++ digits e.digits)

def written (digits : Digits 10 → List Char) : List Char :=
  n.wholePart digits ++ (n.fractionPart digits ++ n.exponentPart digits)

/-- The number without its exponent. -/
def mantissa : ℚ :=
  (n.whole?.elim 0 fun ds => (ds.value : ℚ)) + n.fraction?.elim 0 fun ds => (ds.value : ℚ) / 10 ^ ds.digits.length

def value : ℚ := n.mantissa * 10 ^ n.exponent?.elim 0 Exponent.value

/-- The number has a zero in front of other digits. -/
def LeadingZero : Prop := ∃ ds, n.whole? = some ds ∧ ds.first.1 = '0' ∧ ds.more ≠ []

end Decimal

/-- A numeric literal of a component. -/
inductive NumberLiteral where
  | based (radix : Radix) (capital : Bool) (separators : Nat) (digits : Digits radix.base)
      (suffix : { s : String // s ∈ integerSuffixes })
  | decimal (number : Decimal) (suffix : { s : String // s ∈ number.suffixes })

namespace NumberLiteral

/-- The literal as it is written. -/
def text : NumberLiteral → String
  | .based radix capital separators digits suffix =>
    String.ofList ('0' :: radix.marker capital :: (List.replicate separators '_' ++ digits.text)) ++ suffix.1
  | .decimal number suffix => String.ofList (number.written Digits.text) ++ suffix.1

/-- The literal without separators and without its suffix. -/
def bare : NumberLiteral → List Char
  | .based radix capital _ digits _ => '0' :: radix.marker capital :: digits.bare
  | .decimal number _ => number.written Digits.bare

def value : NumberLiteral → ℚ
  | .based _ _ _ digits _ => digits.value
  | .decimal number _ => number.value

/-- The literal is decimal, with a zero in front of other digits. -/
def LeadingZero : NumberLiteral → Prop
  | .based .. => False
  | .decimal number _ => number.LeadingZero

end NumberLiteral

/-! ## Literals of the script -/

/-- The digits of a text that has nothing else but single separators between digits. -/
def separated? (base : Nat) : List Char → Option (List Nat)
  | [] => none
  | [c] => (digit? base c).map fun d => [d]
  | c :: '_' :: cs => (digit? base c).bind fun d => (separated? base cs).map (d :: ·)
  | c :: cs => (digit? base c).bind fun d => (separated? base cs).map (d :: ·)

/-- The base that the letter behind a zero stands for. -/
def baseOf? (c : Char) : Option Nat :=
  if c = 'x' || c = 'X' then some 16
  else if c = 'o' || c = 'O' then some 8
  else if c = 'b' || c = 'B' then some 2
  else none

/-- The integer in front of a point: zero, or digits that do not begin with one. -/
def wholeValue? (cs : List Char) : Option Nat :=
  if cs = ['0'] then some 0
  else if cs.head? = some '0' then none
  else (separated? 10 cs).map (ofDigits 10)

def fractionValue? (cs : List Char) : Option ℚ :=
  (separated? 10 cs).map fun ds => (ofDigits 10 ds : ℚ) / 10 ^ ds.length

/-- The number in front of an exponent, given what is before the point and what is from the
    point on. Digits may be missing on one side of the point. -/
def mantissaValue? (whole : List Char) : List Char → Option ℚ
  | [] => (wholeValue? whole).map fun n => (n : ℚ)
  | _ :: fraction =>
    if whole.isEmpty then fractionValue? fraction
    else if fraction.isEmpty then (wholeValue? whole).map fun n => (n : ℚ)
    else (wholeValue? whole).bind fun n => (fractionValue? fraction).map fun f => (n : ℚ) + f

/-- An exponent with its marker and its sign, or none. -/
def exponentValue? : List Char → Option Int
  | [] => some 0
  | _ :: '+' :: cs => (separated? 10 cs).map fun ds => (ofDigits 10 ds : Int)
  | _ :: '-' :: cs => (separated? 10 cs).map fun ds => -(ofDigits 10 ds : Int)
  | _ :: cs => (separated? 10 cs).map fun ds => (ofDigits 10 ds : Int)

def isExponentMarker (c : Char) : Bool := c = 'e' || c = 'E'

def decimalValue? (cs : List Char) : Option ℚ :=
  let mantissa := cs.takeWhile (!isExponentMarker ·)
  (mantissaValue? (mantissa.takeWhile (· ≠ '.')) (mantissa.dropWhile (· ≠ '.'))).bind fun m =>
    (exponentValue? (cs.dropWhile (!isExponentMarker ·))).map fun e => m * 10 ^ e

/-- The value of a text that is one numeric literal of strict code. -/
def numberValue? (t : String) : Option ℚ :=
  match t.toList with
  | '0' :: c :: cs =>
    match baseOf? c with
    | some base => (separated? base cs).map fun ds => (ofDigits base ds : ℚ)
    | none => decimalValue? t.toList
  | cs => decimalValue? cs

/-! ## Digits without separators -/

theorem ne_separator_of_digit {base : Nat} {c : Char} (h : (digit? base c).isSome = true) : c ≠ '_' := by
  rintro rfl
  cases h

def EndsInDigit (base : Nat) (cs : List Char) : Prop :=
  ∃ front last, cs = front ++ [last] ∧ (digit? base last).isSome = true

theorem EndsInDigit.append {base : Nat} {ys : List Char} (h : EndsInDigit base ys) (xs : List Char) :
    EndsInDigit base (xs ++ ys) := by
  obtain ⟨front, last, rfl, hlast⟩ := h
  exact ⟨xs ++ front, last, (List.append_assoc ..).symm, hlast⟩

theorem EndsInDigit.cons {base : Nat} {ys : List Char} (h : EndsInDigit base ys) (c : Char) :
    EndsInDigit base (c :: ys) :=
  h.append [c]

/-- A digit is no letter of a suffix for integers. -/
theorem isIntegerSuffix_of_digit {base : Nat} {c : Char} (h : (digit? base c).isSome = true) :
    isIntegerSuffix c = false := by
  by_contra hc
  simp only [Bool.not_eq_false, isIntegerSuffix, Bool.or_eq_true, decide_eq_true_eq] at hc
  rcases hc with ((rfl | rfl) | rfl) | rfl <;> cases h

/-- A decimal digit is no letter of a suffix for real numbers either. -/
theorem isRealSuffix_of_digit {base : Nat} (hbase : base ≤ 10) {c : Char} (h : (digit? base c).isSome = true) :
    isRealSuffix c = false := by
  by_contra hc
  have hdigit : ∀ d : Nat, 10 ≤ d → ¬ d < base := fun d hd => by omega
  simp only [Bool.not_eq_false, isRealSuffix, Bool.or_eq_true, decide_eq_true_eq] at hc
  rcases hc with ((((rfl | rfl) | rfl) | rfl) | rfl) | rfl <;>
    simp [digit?, Json.hexDigit?, Option.filter, hdigit] at h

namespace Digits

variable {base : Nat} (ds : Digits base)

theorem digit_of_mem_bare : ∀ c ∈ ds.bare, (digit? base c).isSome = true := by
  refine List.forall_mem_cons.mpr ⟨ds.first.2, fun c hc => ?_⟩
  obtain ⟨m, -, rfl⟩ := List.mem_map.mp hc
  exact m.2.2

theorem filter_text : ds.text.filter (· ≠ '_') = ds.bare := by
  have hmore : ∀ more : List (Nat × Digit base),
      (more.flatMap fun m => List.replicate m.1 '_' ++ [m.2.1]).filter (· ≠ '_') = more.map (·.2.1) := by
    intro more
    induction more with
    | nil => rfl
    | cons m more ih =>
      have hdigit := ne_separator_of_digit m.2.2
      rw [List.flatMap_cons, List.filter_append, List.filter_append, ih]
      simp [hdigit]
  have hfirst := ne_separator_of_digit ds.first.2
  rw [text, bare, List.filter_cons_of_pos (by simpa using hfirst), hmore]

theorem endsInDigit : EndsInDigit base ds.bare := by
  rcases List.eq_nil_or_concat ds.bare with hnil | ⟨front, last, hlast⟩
  · cases hnil
  · rw [List.concat_eq_append] at hlast
    exact ⟨front, last, hlast, ds.digit_of_mem_bare last (by simp [hlast])⟩

end Digits

theorem separated_of_digits {base : Nat} {cs : List Char} (hne : cs ≠ [])
    (h : ∀ c ∈ cs, (digit? base c).isSome = true) :
    separated? base cs = some (cs.map fun c => (digit? base c).getD 0) := by
  induction cs with
  | nil => exact absurd rfl hne
  | cons c cs ih =>
    obtain ⟨hc, hcs⟩ := List.forall_mem_cons.mp h
    obtain ⟨d, hd⟩ := Option.isSome_iff_exists.mp hc
    cases cs with
    | nil => simp [separated?, hd]
    | cons b cs =>
      have hb : b ≠ '_' := ne_separator_of_digit (hcs b (List.mem_cons_self ..))
      rw [separated?.eq_4 _ _ _ (by simp) (by simp [hb]), ih (by simp) hcs]
      simp [hd]

theorem Digits.separated_bare {base : Nat} (ds : Digits base) : separated? base ds.bare = some ds.digits :=
  separated_of_digits (by simp [bare]) ds.digit_of_mem_bare

/-! ## Dropping separators and suffixes -/

/-- A text of digits and a suffix keeps the digits. -/
theorem numeralChars_append {body suffix front : List Char} {last : Char}
    (hbody : body.filter (· ≠ '_') = front ++ [last])
    (hsuffix : ∀ c ∈ suffix, isSuffixOf (front ++ [last] ++ suffix) c = true)
    (hlast : isSuffixOf (front ++ [last] ++ suffix) last = false) :
    numeralChars (body ++ suffix) = front ++ [last] := by
  have hclean : suffix.filter (· ≠ '_') = suffix := by
    refine List.filter_eq_self.mpr fun c hc => ?_
    have hne : c ≠ '_' := by
      rintro rfl
      simpa [isSuffixOf, isIntegerSuffix, isRealSuffix] using hsuffix _ hc
    simpa using hne
  have hdrop : ((front ++ [last] ++ suffix).reverse.dropWhile (isSuffixOf (front ++ [last] ++ suffix))) =
      (front ++ [last]).reverse := by
    rw [List.reverse_append]
    refine (takeWhile_dropWhile_append (fun c hc => hsuffix c (List.mem_reverse.mp hc)) fun c hc => ?_).2
    rw [List.reverse_concat] at hc
    rw [← Option.some.inj hc]
    exact hlast
  unfold numeralChars
  rw [List.filter_append, hbody, hclean]
  dsimp only
  rw [hdrop, List.reverse_reverse, if_neg (by simp)]

theorem isIntegerSuffix_of_mem {s : String} (hs : s ∈ integerSuffixes) {c : Char} (hc : c ∈ s.toList) :
    isIntegerSuffix c = true := by
  have hall : (integerSuffixes.all fun s => s.toList.all isIntegerSuffix) = true := by decide
  exact List.all_eq_true.mp (List.all_eq_true.mp hall s hs) c hc

/-- A letter of any suffix; it does not stand for a base. -/
theorem suffix_letter {s : String} (hs : s ∈ integerSuffixes ++ realSuffixes) {c : Char} (hc : c ∈ s.toList) :
    (isIntegerSuffix c || isRealSuffix c) = true ∧ baseOf? c = none := by
  have hall : ((integerSuffixes ++ realSuffixes).all fun s =>
      s.toList.all fun c => (isIntegerSuffix c || isRealSuffix c) && (baseOf? c).isNone) = true := by decide
  simpa only [Bool.and_eq_true, Option.isNone_iff_eq_none] using
    List.all_eq_true.mp (List.all_eq_true.mp hall s hs) c hc

theorem isHexLiteral_eq_false {cs : List Char} (h : ∀ c ∈ cs, baseOf? c = none) : isHexLiteral cs = false := by
  unfold isHexLiteral
  split
  · next c _ =>
    have hc : baseOf? c = none := h c (by simp)
    by_contra hx
    simp only [Bool.not_eq_false, Bool.or_eq_true, decide_eq_true_eq] at hx
    rcases hx with rfl | rfl <;> cases hc
  · rfl

theorem baseOf_of_digit {c : Char} (h : (digit? 10 c).isSome = true) : baseOf? c = none := by
  by_contra hc
  simp only [baseOf?, Bool.or_eq_true, decide_eq_true_eq] at hc
  split at hc
  · next hx => rcases hx with rfl | rfl <;> cases h
  split at hc
  · next ho => rcases ho with rfl | rfl <;> cases h
  split at hc
  · next hb => rcases hb with rfl | rfl <;> cases h
  · exact hc rfl

theorem isExponentMarker_of_digit {c : Char} (h : (digit? 10 c).isSome = true) : isExponentMarker c = false := by
  by_contra hc
  simp only [Bool.not_eq_false, isExponentMarker, Bool.or_eq_true, decide_eq_true_eq] at hc
  rcases hc with rfl | rfl <;> cases h

theorem Exponent.isExponentMarker_marker (e : Exponent) : isExponentMarker e.marker = true := by
  unfold marker
  cases e.capital <;> rfl

theorem Exponent.mem_sign {e : Exponent} {c : Char} (h : c ∈ e.sign) : c = '+' ∨ c = '-' := by
  unfold sign at h
  split at h
  · cases h
  · next negative _ => cases negative <;> simp_all

namespace Decimal

variable {n : Decimal} {c : Char}

theorem digit_of_mem_wholePart (h : c ∈ n.wholePart Digits.bare) : (digit? 10 c).isSome = true := by
  unfold wholePart at h
  cases hn : n.whole? with
  | none => rw [hn] at h; cases h
  | some ds => rw [hn] at h; exact ds.digit_of_mem_bare c h

theorem mem_fractionPart (h : c ∈ n.fractionPart Digits.bare) : c = '.' ∨ (digit? 10 c).isSome = true := by
  unfold fractionPart at h
  cases hn : n.fraction? with
  | none => rw [hn] at h; cases h
  | some ds =>
    rw [hn] at h
    rcases List.mem_cons.mp h with h | h
    · exact .inl h
    · exact .inr (ds.digit_of_mem_bare c h)

theorem mem_exponentPart (h : c ∈ n.exponentPart Digits.bare) :
    isExponentMarker c = true ∨ (c = '+' ∨ c = '-') ∨ (digit? 10 c).isSome = true := by
  unfold exponentPart at h
  cases hn : n.exponent? with
  | none => rw [hn] at h; cases h
  | some e =>
    rw [hn] at h
    rcases List.mem_cons.mp h with rfl | h
    · exact .inl e.isExponentMarker_marker
    rcases List.mem_append.mp h with h | h
    · exact .inr (.inl (e.mem_sign h))
    · exact .inr (.inr (e.digits.digit_of_mem_bare c h))

/-- A decimal number has no letter in it that stands for a base. -/
theorem baseOf_of_mem_written (h : c ∈ n.written Digits.bare) : baseOf? c = none := by
  rcases List.mem_append.mp h with h | h
  · exact baseOf_of_digit (digit_of_mem_wholePart h)
  rcases List.mem_append.mp h with h | h
  · rcases mem_fractionPart h with rfl | h
    · rfl
    · exact baseOf_of_digit h
  · rcases mem_exponentPart h with h | h | h
    · simp only [isExponentMarker, Bool.or_eq_true, decide_eq_true_eq] at h
      rcases h with rfl | rfl <;> rfl
    · rcases h with rfl | rfl <;> rfl
    · exact baseOf_of_digit h

variable (n)

theorem filter_written : (n.written Digits.text).filter (· ≠ '_') = n.written Digits.bare := by
  obtain ⟨whole?, fraction?, exponent?, h⟩ := n
  rw [written, written, List.filter_append, List.filter_append]
  congr 1
  · cases whole? with
    | none => rfl
    | some ds => exact ds.filter_text
  congr 1
  · cases fraction? with
    | none => rfl
    | some ds => exact congrArg ('.' :: ·) ds.filter_text
  · cases exponent? with
    | none => rfl
    | some e =>
      have hmarker : e.marker ≠ '_' := by
        unfold Exponent.marker
        cases e.capital <;> decide
      have hsign : e.sign.filter (· ≠ '_') = e.sign := by
        refine List.filter_eq_self.mpr fun c hc => ?_
        rcases e.mem_sign hc with rfl | rfl <;> rfl
      simp only [exponentPart, Option.elim_some]
      rw [List.filter_cons_of_pos (by simpa using hmarker), List.filter_append, hsign, e.digits.filter_text]

theorem endsInDigit : EndsInDigit 10 (n.written Digits.bare) := by
  obtain ⟨whole?, fraction?, exponent?, h⟩ := n
  rw [written]
  cases exponent? with
  | some e => exact (((e.digits.endsInDigit.append e.sign).cons e.marker).append _).append _
  | none =>
    cases fraction? with
    | some ds => exact EndsInDigit.append (by simpa [exponentPart, fractionPart] using ds.endsInDigit.cons '.') _
    | none =>
      cases whole? with
      | some ds => simpa [exponentPart, fractionPart, wholePart] using ds.endsInDigit
      | none => cases h

theorem suffixes_subset : n.suffixes ⊆ integerSuffixes ++ realSuffixes := by
  unfold suffixes
  split
  · exact List.Subset.refl _
  · decide

/-- A decimal number is not taken for a hexadecimal one, whatever its suffix. -/
theorem isHexLiteral_append {s : String} (hs : s ∈ n.suffixes) :
    isHexLiteral (n.written Digits.bare ++ s.toList) = false := by
  refine isHexLiteral_eq_false fun c hc => ?_
  rcases List.mem_append.mp hc with hc | hc
  · exact baseOf_of_mem_written hc
  · exact (suffix_letter (n.suffixes_subset hs) hc).2

end Decimal

/-- Separators and suffix are dropped, and nothing else. -/
theorem NumberLiteral.numeralChars_text (l : NumberLiteral) : numeralChars l.text.toList = l.bare := by
  cases l with
  | based radix capital separators digits suffix =>
    obtain ⟨front, last, hbare, hlast⟩ := (digits.endsInDigit.cons (radix.marker capital)).cons '0'
    have hbody : ('0' :: radix.marker capital :: (List.replicate separators '_' ++ digits.text)).filter (· ≠ '_') =
        front ++ [last] := by
      have hmarker : radix.marker capital ≠ '_' := by
        cases radix <;> cases capital <;> decide
      rw [List.filter_cons_of_pos (by decide), List.filter_cons_of_pos (by simpa using hmarker), List.filter_append,
        digits.filter_text, ← hbare]
      simp
    have hletters : ∀ c ∈ suffix.1.toList, isSuffixOf (front ++ [last] ++ suffix.1.toList) c = true := by
      intro c hc
      rw [isSuffixOf, isIntegerSuffix_of_mem suffix.2 hc, Bool.true_or]
    have hdigit : isSuffixOf (front ++ [last] ++ suffix.1.toList) last = false := by
      rw [isSuffixOf, isIntegerSuffix_of_digit hlast, Bool.false_or, ← hbare]
      cases radix with
      | hexadecimal => cases capital <;> rfl
      | binary => rw [isRealSuffix_of_digit (by decide) hlast, Bool.and_false]
    rw [text, String.toList_append, String.toList_ofList, numeralChars_append hbody hletters hdigit, bare, hbare]
  | decimal number suffix =>
    obtain ⟨front, last, hbare, hlast⟩ := number.endsInDigit
    have hbody : (number.written Digits.text).filter (· ≠ '_') = front ++ [last] := by
      rw [number.filter_written, hbare]
    have hhex : isHexLiteral (front ++ [last] ++ suffix.1.toList) = false := by
      rw [← hbare]
      exact number.isHexLiteral_append suffix.2
    have hletters : ∀ c ∈ suffix.1.toList, isSuffixOf (front ++ [last] ++ suffix.1.toList) c = true := by
      intro c hc
      rw [isSuffixOf, hhex, Bool.not_false, Bool.true_and]
      exact (suffix_letter (number.suffixes_subset suffix.2) hc).1
    have hdigit : isSuffixOf (front ++ [last] ++ suffix.1.toList) last = false := by
      rw [isSuffixOf, isIntegerSuffix_of_digit hlast, isRealSuffix_of_digit (by decide) hlast]
      simp
    rw [text, String.toList_append, String.toList_ofList, numeralChars_append hbody hletters hdigit, bare, hbare]

/-! ## Reading the number -/

section

variable (ds : Digits 10)

/-- A zero is read only if it is the only digit. -/
theorem wholeValue_bare :
    (ds.first.1 = '0' ∧ ds.more ≠ [] ∧ wholeValue? ds.bare = none) ∨
    (¬ (ds.first.1 = '0' ∧ ds.more ≠ []) ∧ wholeValue? ds.bare = some ds.value) := by
  obtain ⟨⟨c, hc⟩, more⟩ := ds
  by_cases hzero : c = '0'
  · subst hzero
    cases more with
    | nil => exact .inr ⟨fun h => h.2 rfl, rfl⟩
    | cons m more => exact .inl ⟨rfl, by simp, rfl⟩
  · refine .inr ⟨fun h => hzero h.1, ?_⟩
    have hsingle : Digits.bare ⟨⟨c, hc⟩, more⟩ ≠ ['0'] := fun h => hzero (List.cons.inj h).1
    have hhead : (Digits.bare ⟨⟨c, hc⟩, more⟩).head? ≠ some '0' := fun h => hzero (Option.some.inj h)
    rw [wholeValue?, if_neg hsingle, if_neg hhead, Digits.separated_bare]
    rfl

theorem fractionValue_bare : fractionValue? ds.bare = some ((ds.value : ℚ) / 10 ^ ds.digits.length) := by
  rw [fractionValue?, ds.separated_bare]
  rfl

end

theorem Exponent.exponentValue_written (e : Exponent) :
    exponentValue? (e.marker :: (e.sign ++ e.digits.bare)) = some e.value := by
  obtain ⟨capital, negative?, ds⟩ := e
  cases negative? with
  | none =>
    -- the first digit is no sign
    have hplus : ds.first.1 ≠ '+' := fun h => by cases h ▸ ds.first.2
    have hminus : ds.first.1 ≠ '-' := fun h => by cases h ▸ ds.first.2
    have hdigits := ds.separated_bare
    rw [Digits.bare] at hdigits
    show exponentValue? (_ :: ds.first.1 :: _) = _
    rw [exponentValue?.eq_4 _ _ (fun _ h => hplus (List.cons.inj h).1) (fun _ h => hminus (List.cons.inj h).1), hdigits]
    rfl
  | some negative =>
    cases negative with
    | true =>
      show (separated? 10 ds.bare).map _ = _
      rw [ds.separated_bare]
      rfl
    | false =>
      show (separated? 10 ds.bare).map _ = _
      rw [ds.separated_bare]
      rfl

namespace Decimal

variable (n : Decimal)

theorem leadingZero_some {ds : Digits 10} (h : n.whole? = some ds) :
    n.LeadingZero ↔ ds.first.1 = '0' ∧ ds.more ≠ [] := by
  simp [LeadingZero, h]

/-- The number in front of the exponent is read, unless it has a zero in front. -/
theorem mantissaValue_parts :
    (n.LeadingZero ∧ mantissaValue? (n.wholePart Digits.bare) (n.fractionPart Digits.bare) = none) ∨
    (¬ n.LeadingZero ∧ mantissaValue? (n.wholePart Digits.bare) (n.fractionPart Digits.bare) = some n.mantissa) := by
  cases hwhole : n.whole? with
  | none =>
    have hno : ¬ n.LeadingZero := by simp [LeadingZero, hwhole]
    refine .inr ⟨hno, ?_⟩
    cases hfraction : n.fraction? with
    | none =>
      have hdigits := n.digits_of
      rw [hwhole, hfraction] at hdigits
      cases hdigits
    | some f =>
      have hf := fractionValue_bare f
      simp [wholePart, fractionPart, mantissa, mantissaValue?, hwhole, hfraction, hf]
  | some w =>
    have hne : w.bare.isEmpty = false := rfl
    rw [n.leadingZero_some hwhole]
    rcases wholeValue_bare w with ⟨hzero, hmore, hnone⟩ | ⟨hgood, hsome⟩
    · refine .inl ⟨⟨hzero, hmore⟩, ?_⟩
      cases hfraction : n.fraction? with
      | none => simp [wholePart, fractionPart, mantissaValue?, hwhole, hfraction, hnone]
      | some f => simp [wholePart, fractionPart, mantissaValue?, hwhole, hfraction, hnone, hne]
    · refine .inr ⟨hgood, ?_⟩
      cases hfraction : n.fraction? with
      | none => simp [wholePart, fractionPart, mantissa, mantissaValue?, hwhole, hfraction, hsome]
      | some f =>
        have hf := fractionValue_bare f
        have hfne : f.bare.isEmpty = false := rfl
        simp [wholePart, fractionPart, mantissa, mantissaValue?, hwhole, hfraction, hsome, hf, hne, hfne]

/-- The parts of a decimal number are told apart by the point and the marker of the exponent. -/
theorem decimalValue_written :
    decimalValue? (n.written Digits.bare) =
      (mantissaValue? (n.wholePart Digits.bare) (n.fractionPart Digits.bare)).map
        (· * 10 ^ n.exponent?.elim 0 Exponent.value) := by
  have hmarker : ∀ c ∈ n.wholePart Digits.bare ++ n.fractionPart Digits.bare, (!isExponentMarker c) = true := by
    intro c hc
    rcases List.mem_append.mp hc with hc | hc
    · rw [isExponentMarker_of_digit (digit_of_mem_wholePart hc), Bool.not_false]
    · rcases mem_fractionPart hc with rfl | hc
      · rfl
      · rw [isExponentMarker_of_digit hc, Bool.not_false]
  have hexponent : ∀ c, (n.exponentPart Digits.bare).head? = some c → (!isExponentMarker c) = false := by
    intro c hc
    unfold exponentPart at hc
    cases he : n.exponent? with
    | none => rw [he] at hc; cases hc
    | some e =>
      rw [he] at hc
      rw [← Option.some.inj hc, e.isExponentMarker_marker, Bool.not_true]
  have hpoint : ∀ c ∈ n.wholePart Digits.bare, decide (c ≠ '.') = true := by
    intro c hc
    refine decide_eq_true ?_
    rintro rfl
    cases digit_of_mem_wholePart hc
  have hfraction : ∀ c, (n.fractionPart Digits.bare).head? = some c → decide (c ≠ '.') = false := by
    intro c hc
    unfold fractionPart at hc
    cases hf : n.fraction? with
    | none => rw [hf] at hc; cases hc
    | some f =>
      rw [hf] at hc
      rw [← Option.some.inj hc]
      rfl
  have hvalue : exponentValue? (n.exponentPart Digits.bare) = some (n.exponent?.elim 0 Exponent.value) := by
    unfold exponentPart
    cases n.exponent? with
    | none => rfl
    | some e => exact e.exponentValue_written
  obtain ⟨hmantissa, hrest⟩ := takeWhile_dropWhile_append hmarker hexponent
  obtain ⟨hwhole, hbehind⟩ := takeWhile_dropWhile_append hpoint hfraction
  rw [written, ← List.append_assoc, decimalValue?, hmantissa, hrest, hwhole, hbehind, hvalue]
  cases mantissaValue? (n.wholePart Digits.bare) (n.fractionPart Digits.bare) <;> rfl

/-- A decimal number is not read in another base. -/
theorem numberValue_written :
    numberValue? (String.ofList (n.written Digits.bare)) = decimalValue? (n.written Digits.bare) := by
  rw [numberValue?, String.toList_ofList]
  split
  · next c cs hcs =>
    have hc : baseOf? c = none := n.baseOf_of_mem_written (by simp [hcs])
    rw [hc]
  · rfl

end Decimal

/-- Numeric literals keep their value, unless a zero is in front of the digits. For every numeric
    literal of a component: the script text is a literal of strict code with the same value
    exactly if the literal is not a decimal one with a zero in front of other digits, and
    with such a zero it is not a literal. -/
theorem numeral_keeps_value (l : NumberLiteral) :
    (numberValue? (numeral l.text) = some l.value ↔ ¬ l.LeadingZero) ∧
    (numberValue? (numeral l.text) = none ↔ l.LeadingZero) := by
  rw [numeral, l.numeralChars_text]
  cases l with
  | based radix capital separators digits suffix =>
    have hread : numberValue? (String.ofList ('0' :: radix.marker capital :: digits.bare)) =
      some (digits.value : ℚ) := by
      have hbase : baseOf? (radix.marker capital) = some radix.base := by cases radix <;> cases capital <;> rfl
      rw [numberValue?, String.toList_ofList]
      simp only [hbase]
      rw [digits.separated_bare]
      rfl
    rw [NumberLiteral.bare, hread]
    simp [NumberLiteral.value, NumberLiteral.LeadingZero]
  | decimal number suffix =>
    rw [NumberLiteral.bare, number.numberValue_written, number.decimalValue_written]
    rcases number.mantissaValue_parts with ⟨hzero, hnone⟩ | ⟨hgood, hsome⟩
    · rw [hnone]
      simp [NumberLiteral.LeadingZero, hzero]
    · rw [hsome]
      simp [NumberLiteral.LeadingZero, NumberLiteral.value, Decimal.value, hgood]

-- Ten, and a literal that strict code does not have.
example : numeral "010" = "010" ∧ numberValue? "010" = none := by decide

end ComponentScript.Script
