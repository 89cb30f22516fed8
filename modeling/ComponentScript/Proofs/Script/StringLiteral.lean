/-
  ComponentScript.Proofs.Script.StringLiteral — the value of a string literal in strict code.

  A literal is read character by character. A backslash starts an escape: a letter for a
  control, a zero, a code point in hexadecimal digits, a line break that continues the
  literal, or any other character for itself. An escaped zero must not be followed by a
  digit, and the other digits cannot be escaped at all: those are octal escapes, which
  strict code does not have. The value is a sequence of 16-bit units.

  - `stringBody_escape`: the body of a quoted text is read back as the text, up to the first
    digit behind a NUL.
  - `stringValue_quote`: a quoted text is one literal with the text as its value unless it
    has a digit right behind a NUL, and then it is no literal at all.
-/

import ComponentScript.Json.Grammar
import ComponentScript.Script.Quoted

namespace ComponentScript.Script

/-! ## Values -/

/-- The 16-bit units of a code point: itself, or a pair of surrogates. -/
def codeUnits (point : Nat) : List Nat :=
  if point < 0x10000 then [point]
  else [0xD800 + (point - 0x10000) / 0x400, 0xDC00 + (point - 0x10000) % 0x400]

def unitsOf (cs : List Char) : List Nat := cs.flatMap fun c => codeUnits c.toNat

theorem unitsOf_cons (c : Char) (cs : List Char) : unitsOf (c :: cs) = codeUnits c.toNat ++ unitsOf cs := rfl

/-- A character is told from the units that begin with it: surrogates are no characters. -/
theorem codeUnits_append_inj {c d : Char} {us us' : List Nat} (h : codeUnits c.toNat ++ us = codeUnits d.toNat ++ us') :
    c = d ∧ us = us' := by
  have hc : c.toNat < 0xD800 ∨ (0xDFFF < c.toNat ∧ c.toNat < 0x110000) := c.valid
  have hd : d.toNat < 0xD800 ∨ (0xDFFF < d.toNat ∧ d.toNat < 0x110000) := d.valid
  have hpoint : c.toNat = d.toNat ∧ us = us' := by
    unfold codeUnits at h
    split at h <;> split at h <;> simp only [List.cons_append, List.nil_append, List.cons.injEq] at h
    · exact ⟨h.1, h.2⟩
    · omega
    · omega
    · refine ⟨by omega, h.2.2⟩
  exact ⟨Char.toNat_inj.mp hpoint.1, hpoint.2⟩

theorem unitsOf_injective : Function.Injective unitsOf := by
  intro cs ds h
  induction cs generalizing ds with
  | nil =>
    cases ds with
    | nil => rfl
    | cons d ds =>
      rw [unitsOf_cons, codeUnits] at h
      split at h <;> cases h
  | cons c cs ih =>
    cases ds with
    | nil =>
      rw [unitsOf_cons, codeUnits] at h
      split at h <;> cases h
    | cons d ds =>
      obtain ⟨rfl, hrest⟩ := codeUnits_append_inj h
      rw [ih hrest]

/-! ## Escapes -/

/-- What the reader of a literal is in the middle of. -/
inductive Cooking where
  /-- Nothing: the next character stands for itself, starts an escape or ends the literal. -/
  | text
  | escape
  /-- Behind an escaped zero, which no digit may follow. -/
  | nul
  /-- Behind a carriage return, to which a line feed belongs. -/
  | carriage
  | hex (missing value : Nat)
  /-- Behind `\u`, before a digit or a brace. -/
  | unicode
  /-- A code point in braces, with the value of the digits so far. -/
  | point (value? : Option Nat)
  deriving DecidableEq

namespace Cooking

/-- Whether the literal can end here. -/
def between : Cooking → Bool
  | .text | .nul | .carriage => true
  | _ => false

/-- The units that an escaped character stands for when it is no digit and no line break. -/
def escapedUnits (c : Char) : List Nat :=
  if c = 'b' then [0x08]
  else if c = 't' then [0x09]
  else if c = 'n' then [0x0A]
  else if c = 'v' then [0x0B]
  else if c = 'f' then [0x0C]
  else if c = 'r' then [0x0D]
  else codeUnits c.toNat

def isLineSeparator (c : Char) : Bool := c = '\u2028' || c = '\u2029'

/-- The character behind a backslash: the units it gives, and what the reader is in then. -/
def escaped (c : Char) : Option (List Nat × Cooking) :=
  if c = 'x' then some ([], .hex 2 0)
  else if c = 'u' then some ([], .unicode)
  else if c = '0' then some ([0], .nul)
  else if c.isDigit then none
  else if c = '\r' then some ([], .carriage)
  else if c = '\n' || isLineSeparator c then some ([], .text)
  else some (escapedUnits c, .text)

def digit (missing value : Nat) (c : Char) : Option (List Nat × Cooking) :=
  (Json.hexDigit? c).map fun d =>
    if missing ≤ 1 then ([16 * value + d], .text) else ([], .hex (missing - 1) (16 * value + d))

def pointDigit (value? : Option Nat) (c : Char) : Option (List Nat × Cooking) := do
  let d ← Json.hexDigit? c
  let value := 16 * value?.getD 0 + d
  if value ≤ 0x10FFFF then some ([], .point (some value)) else none

/-- One more character; `plain` is what a character gives that no escape is in front of. -/
def next (plain : Char → Option (List Nat × Cooking)) (k : Cooking) (c : Char) : Option (List Nat × Cooking) :=
  let fresh := if c = '\x5c' then some ([], .escape) else plain c
  match k with
  | .text => fresh
  | .nul => if c.isDigit then none else fresh
  | .carriage => if c = '\n' then some ([], .text) else fresh
  | .escape => escaped c
  | .hex missing value => digit missing value c
  | .unicode => if c = '\x7b' then some ([], .point none) else digit 4 0 c
  | .point value? =>
    if c = '\x7d' then value?.map fun value => (codeUnits value, .text) else pointDigit value? c

end Cooking

/-! ## String literals -/

/-- A character of a string without an escape: anything but a line break. -/
def stringChar (c : Char) : Option (List Nat × Cooking) :=
  if c = '\n' || c = '\r' then none else some (codeUnits c.toNat, .text)

/-- The value of the characters up to the double quote, which must be the last character. -/
def stringBody : Cooking → List Char → Option (List Nat)
  | _, [] => none
  | k, c :: cs =>
    if k.between && c = '\x22' then if cs.isEmpty then some [] else none
    else (k.next stringChar c).bind fun r => (stringBody r.2 cs).map (r.1 ++ ·)

/-- The value of a text that is one string literal. -/
def stringValue? (t : String) : Option (List Nat) :=
  match t.toList with
  | '\x22' :: cs => stringBody .text cs
  | _ => none

theorem stringBody_cons {k k' : Cooking} {c : Char} {us : List Nat} (hend : (k.between && c = '\x22') = false)
    (h : k.next stringChar c = some (us, k')) (rest : List Char) :
    stringBody k (c :: rest) = (stringBody k' rest).map (us ++ ·) := by
  rw [stringBody, hend, h]
  rfl

/-! ## Quoted texts -/

/-- Some decimal digit stands right behind a NUL. -/
def DigitBehindNul (cs : List Char) : Prop := ∃ d : Char, d.isDigit = true ∧ ['\x00', d] <:+: cs

theorem not_digitBehindNul_nil : ¬ DigitBehindNul [] := by
  rintro ⟨d, -, h⟩
  exact absurd h.length_le (by simp)

theorem not_digitBehindNul_singleton (c : Char) : ¬ DigitBehindNul [c] := by
  rintro ⟨d, -, h⟩
  exact absurd h.length_le (by simp)

theorem digitBehindNul_cons_cons (b c : Char) (cs : List Char) :
    DigitBehindNul (b :: c :: cs) ↔ (b = '\x00' ∧ c.isDigit = true) ∨ DigitBehindNul (c :: cs) := by
  constructor
  · rintro ⟨d, hd, h⟩
    rcases List.infix_cons_iff.mp h with h | h
    · obtain ⟨hb, htail⟩ := List.cons_prefix_cons.mp h
      obtain ⟨rfl, -⟩ := List.cons_prefix_cons.mp htail
      exact .inl ⟨hb.symm, hd⟩
    · exact .inr ⟨d, hd, h⟩
  · rintro (⟨rfl, hd⟩ | ⟨d, hd, h⟩)
    · exact ⟨c, hd, List.infix_cons_iff.mpr (.inl ⟨cs, rfl⟩)⟩
    · exact ⟨d, hd, List.infix_cons_iff.mpr (.inr h)⟩

/-- What the reader is in behind a quoted character. -/
def Cooking.behind (c : Char) : Cooking := if c = '\x00' then .nul else .text

@[simp] theorem Cooking.between_behind (b : Char) : (behind b).between = true := by
  unfold behind
  split <;> rfl

/-- Behind a NUL as elsewhere, a character that is no digit is read the same way. -/
theorem Cooking.next_behind {b c : Char} (h : b = '\x00' → c.isDigit = false)
    (plain : Char → Option (List Nat × Cooking)) : (behind b).next plain c = Cooking.text.next plain c := by
  unfold behind
  split
  · next hb => simp [next, h hb]
  · rfl

theorem stringBody_backslash {c : Char} {us : List Nat} {k : Cooking} (hc : Cooking.escaped c = some (us, k))
    (b : Char) (rest : List Char) :
    stringBody (.behind b) ('\x5c' :: c :: rest) = (stringBody k rest).map (us ++ ·) := by
  have hslash : (Cooking.behind b).next stringChar '\x5c' = some ([], .escape) := Cooking.next_behind (fun _ => rfl) _
  have hend : ((Cooking.behind b).between && '\x5c' = '\x22') = false := by simp
  rw [stringBody_cons hend hslash, stringBody_cons rfl (k := .escape) hc, Option.map_map]
  rfl

/-- A quoted character is read back, and only a NUL leaves the reader waiting. -/
theorem stringBody_escapeChar {b c : Char} (h : b = '\x00' → c.isDigit = false) (rest : List Char) :
    stringBody (.behind b) (escapeChar c ++ rest) = (stringBody (.behind c) rest).map (codeUnits c.toNat ++ ·) := by
  unfold escapeChar
  split
  · subst c; exact stringBody_backslash rfl b rest
  split
  · subst c; exact stringBody_backslash rfl b rest
  split
  · subst c; exact stringBody_backslash rfl b rest
  split
  · subst c; exact stringBody_backslash rfl b rest
  split
  · subst c; exact stringBody_backslash rfl b rest
  split
  · subst c; exact stringBody_backslash rfl b rest
  · next hslash hquote hfeed hreturn _ hnul =>
    have hnext : (Cooking.behind b).next stringChar c = some (codeUnits c.toNat, .behind c) := by
      rw [Cooking.next_behind h]
      simp [Cooking.next, Cooking.behind, stringChar, hslash, hfeed, hreturn, hnul]
    exact stringBody_cons (by simp [hquote]) hnext rest

theorem escapeChar_of_isDigit {c : Char} (h : c.isDigit = true) : escapeChar c = [c] := by
  unfold escapeChar
  repeat' split
  all_goals first | rfl | (subst c; cases h)

/-- Behind an escaped zero nothing is read from a digit on. -/
theorem stringBody_nul_of_isDigit {c : Char} (h : c.isDigit = true) (rest : List Char) :
    stringBody .nul (c :: rest) = none := by
  have hquote : c ≠ '\x22' := by rintro rfl; cases h
  simp [stringBody, hquote, Cooking.next, h]

/-- The body of a quoted text with `b` in front: read to the end, or refused for a digit behind a NUL. -/
theorem stringBody_escape (b : Char) (cs : List Char) :
    (DigitBehindNul (b :: cs) ∧ stringBody (.behind b) (cs.flatMap escapeChar ++ ['\x22']) = none) ∨
    (¬ DigitBehindNul (b :: cs) ∧
      stringBody (.behind b) (cs.flatMap escapeChar ++ ['\x22']) = some (unitsOf cs)) := by
  induction cs generalizing b with
  | nil => exact .inr ⟨not_digitBehindNul_singleton b, by simp [stringBody, unitsOf]⟩
  | cons c cs ih =>
    rw [digitBehindNul_cons_cons, List.flatMap_cons, List.append_assoc]
    by_cases hc : b = '\x00' ∧ c.isDigit = true
    · obtain ⟨rfl, hdigit⟩ := hc
      rw [escapeChar_of_isDigit hdigit]
      exact .inl ⟨.inl ⟨rfl, hdigit⟩, stringBody_nul_of_isDigit hdigit _⟩
    · have hfree : b = '\x00' → c.isDigit = false := fun hb => by simpa [hb] using hc
      rw [stringBody_escapeChar hfree]
      rcases ih c with ⟨hbad, hnone⟩ | ⟨hgood, hsome⟩
      · exact .inl ⟨.inr hbad, by rw [hnone]; rfl⟩
      · refine .inr ⟨fun h => h.elim hc hgood, ?_⟩
        rw [hsome]
        rfl

/-- A text without a NUL is the value of its literal. -/
theorem stringValue_quote_of_notMem {s : String} (h : '\x00' ∉ s.toList) :
    stringValue? (quote s) = some (unitsOf s.toList) := by
  have hquote : (quote s).toList = '\x22' :: (s.toList.flatMap escapeChar ++ ['\x22']) := by
    simp [quote, escape, String.toList_append]
  rw [stringValue?, hquote]
  rcases stringBody_escape '\x22' s.toList with ⟨⟨d, -, hinfix⟩, -⟩ | ⟨-, hsome⟩
  · have hmem : '\x00' ∈ '\x22' :: s.toList := hinfix.subset (List.mem_cons_self ..)
    rcases List.mem_cons.mp hmem with hmem | hmem
    · cases hmem
    · exact absurd hmem h
  · exact hsome

/-- A quoted text is one string literal of strict code, with the text as its value, exactly if
    no digit stands right behind a NUL in it. With such a digit it is not a literal. -/
theorem stringValue_quote (s : String) :
    (stringValue? (quote s) = some (unitsOf s.toList) ↔ ¬ DigitBehindNul s.toList) ∧
    (stringValue? (quote s) = none ↔ DigitBehindNul s.toList) := by
  have hquote : (quote s).toList = '\x22' :: (s.toList.flatMap escapeChar ++ ['\x22']) := by
    simp [quote, escape, String.toList_append]
  have hvalue : stringValue? (quote s) = stringBody (.behind '\x22') (s.toList.flatMap escapeChar ++ ['\x22']) := by
    rw [stringValue?, hquote]
    rfl
  -- the opening quote stands in front of the text, and it is no NUL
  have hfront : DigitBehindNul ('\x22' :: s.toList) ↔ DigitBehindNul s.toList := by
    cases s.toList with
    | nil => exact iff_of_false (not_digitBehindNul_singleton _) not_digitBehindNul_nil
    | cons c cs => simp [digitBehindNul_cons_cons]
  rw [hvalue, ← hfront]
  rcases stringBody_escape '\x22' s.toList with ⟨hbad, hnone⟩ | ⟨hgood, hsome⟩
  · simp [hnone, hbad]
  · simp [hsome, hgood]

end ComponentScript.Script
