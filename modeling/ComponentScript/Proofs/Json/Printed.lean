/-
  ComponentScript.Proofs.Json.Printed — a value that is printed reads back as itself.

  `Spells cs j`: wherever the text `cs` stands, the reader takes it for `j` and leaves what
  follows. Its fuel has to be twice the length of `cs`, and what follows must not go on with
  a number (`endsNumber`). Words, numbers and strings are spelled as they are printed. Items
  and fields are read by loops of one shape, so that one induction does for both
  (`loop_intercalate`).

  `spells_pretty`: what is printed over several lines spells its value. With a reader that
  takes the value to `a`, reading the text as a whole gives `a` (`readWhole_pretty`).
-/

import ComponentScript.Json.Grammar
import ComponentScript.Json.Printer
import ComponentScript.Proofs.Json.Reads
import ComponentScript.Proofs.Text.Decimal

namespace ComponentScript.Json

open Text

/-! ## White space -/

def Blank (cs : List Char) : Prop := ∀ c ∈ cs, isSpace c = true

theorem blank_nil : Blank [] := List.forall_mem_nil _

theorem blank_indentation (level : Nat) : Blank (indentation level).toList := by
  intro c hc
  rw [indentation, String.toList_ofList] at hc
  rw [List.eq_of_mem_replicate hc]
  rfl

theorem blank_newline {cs : List Char} (h : Blank cs) : Blank ('\n' :: cs) := by
  intro c hc
  rcases List.mem_cons.mp hc with rfl | hc
  · rfl
  · exact h c hc

theorem skipSpace_blank {ws : List Char} (h : Blank ws) (cs : List Char) : skipSpace (ws ++ cs) = skipSpace cs :=
  List.dropWhile_append_of_pos h

theorem skipSpace_cons {c : Char} (h : isSpace c = false) (cs : List Char) : skipSpace (c :: cs) = c :: cs :=
  List.dropWhile_cons_of_neg (by simp [h])

/-- White space up to a character is skipped. -/
theorem skipSpace_to {ws : List Char} (hw : Blank ws) {c : Char} (hc : isSpace c = false) (cs : List Char) :
    skipSpace (ws ++ c :: cs) = c :: cs := by
  rw [skipSpace_blank hw, skipSpace_cons hc]

theorem value_blank {ws : List Char} (h : Blank ws) (n : Nat) (cs : List Char) : value n (ws ++ cs) = value n cs := by
  cases n with
  | zero => rfl
  | succ n => rw [value, value, skipSpace_blank h]

theorem items_blank {ws : List Char} (h : Blank ws) (n : Nat) (cs : List Char) : items n (ws ++ cs) = items n cs := by
  cases n with
  | zero => rfl
  | succ n => rw [items, items, value_blank h]

theorem fields_blank {ws : List Char} (h : Blank ws) (n : Nat) (cs : List Char) :
    fields n (ws ++ cs) = fields n cs := by
  cases n with
  | zero => rfl
  | succ n => rw [fields, fields, fieldStart, fieldStart, skipSpace_blank h]

/-- After some white space the text goes on, and not with the closing bracket. -/
def Opens (closing : Char) (cs : List Char) : Prop :=
  ∃ ws c ds, cs = ws ++ c :: ds ∧ Blank ws ∧ isSpace c = false ∧ c ≠ closing

namespace Opens

variable {closing : Char} {cs : List Char}

theorem append (h : Opens closing cs) (rest : List Char) : Opens closing (cs ++ rest) := by
  obtain ⟨ws, c, ds, rfl, hw, hc⟩ := h
  exact ⟨ws, c, ds ++ rest, by simp, hw, hc⟩

theorem blank {ws : List Char} (hw : Blank ws) (h : Opens closing cs) : Opens closing (ws ++ cs) := by
  obtain ⟨ws', c, ds, rfl, hw', hc⟩ := h
  exact ⟨ws ++ ws', c, ds, by simp, fun d hd => (List.mem_append.mp hd).elim (hw d) (hw' d), hc⟩

theorem intercalate (h : Opens closing cs) (sep : List Char) (css : List (List Char)) :
    Opens closing (sep.intercalate (cs :: css)) := by
  cases css with
  | nil => rw [List.intercalate_singleton]; exact h
  | cons ds css => rw [List.intercalate_cons_cons, List.append_assoc]; exact h.append _

end Opens

theorem value_arr {cs : List Char} (h : Opens ']' cs) (n : Nat) :
    value (n + 1) ('[' :: cs) = (.arr (items n cs).1, (items n cs).2) := by
  obtain ⟨ws, c, ds, rfl, hw, hs, hc⟩ := h
  rw [value, skipSpace_cons rfl, items_blank hw]
  simp only [skipSpace_to hw hs]
  split
  · rename_i heq; exact absurd (List.cons.inj heq).1 hc
  · rfl

theorem value_obj {cs : List Char} (h : Opens '\x7d' cs) (n : Nat) :
    value (n + 1) ('\x7b' :: cs) = (.obj (fields n cs).1, (fields n cs).2) := by
  obtain ⟨ws, c, ds, rfl, hw, hs, hc⟩ := h
  rw [value, skipSpace_cons rfl, fields_blank hw]
  simp only [skipSpace_to hw hs]
  split
  · rename_i heq; exact absurd (List.cons.inj heq).1 hc
  · rfl

/-! ## Strings -/

theorem hexDigit_hexChar : ∀ d, d < 16 → hexDigit? (hexChar d) = some d := by decide

theorem stringCodes_escape {code n : Nat} {cs rest : List Char} (h : escape? cs = some (code, rest)) :
    stringCodes (n + 1) ('\x5c' :: cs) = (stringCodes n rest).map fun r => (code :: r.1, r.2) := by
  rw [stringCodes, if_neg (by decide), if_pos rfl, h]
  simp only [Option.bind_eq_bind, Option.bind_some]
  cases stringCodes n rest <;> rfl

theorem stringCodes_plain {c : Char} (hq : c ≠ '\x22') (hb : c ≠ '\x5c') (hc : ¬c.toNat < 0x20) (n : Nat)
    (cs : List Char) :
    stringCodes (n + 1) (c :: cs) = (stringCodes n cs).map fun r => (c.toNat :: r.1, r.2) := by
  rw [stringCodes, if_neg hq, if_neg hb, if_neg hc]
  cases stringCodes n cs <;> rfl

/-- The code of a control character in hexadecimal. -/
theorem escape_control {c : Char} (h : c.toNat < 0x20) (cs : List Char) :
    escape? ('u' :: '0' :: '0' :: hexChar (c.toNat / 16) :: hexChar (c.toNat % 16) :: cs) = some (c.toNat, cs) := by
  have hhigh := hexDigit_hexChar (c.toNat / 16) (by omega)
  have hlow := hexDigit_hexChar (c.toNat % 16) (by omega)
  have hzero : hexDigit? '0' = some 0 := rfl
  have hcode : ((0 * 16 + 0) * 16 + c.toNat / 16) * 16 + c.toNat % 16 = c.toNat := by omega
  simp only [escape?, hex4?, hzero, hhigh, hlow, bind, Option.bind, pure, hcode]

/-- A printed character reads as its code. -/
theorem stringCodes_printChar (c : Char) (n : Nat) (cs : List Char) :
    stringCodes (n + 1) (printChar c ++ cs) = (stringCodes n cs).map fun r => (c.toNat :: r.1, r.2) := by
  unfold printChar
  split
  · subst c; exact stringCodes_escape rfl
  split
  · subst c; exact stringCodes_escape rfl
  split
  · subst c; exact stringCodes_escape rfl
  split
  · subst c; exact stringCodes_escape rfl
  split
  · subst c; exact stringCodes_escape rfl
  split
  · subst c; exact stringCodes_escape rfl
  split
  · subst c; exact stringCodes_escape rfl
  split
  · rename_i hcontrol
    exact stringCodes_escape (escape_control hcontrol cs)
  · rename_i hquote hbackslash _ _ _ _ _ hcontrol
    exact stringCodes_plain hquote hbackslash hcontrol n cs

theorem stringCodes_print {cs : List Char} {n : Nat} (hn : cs.length < n) (rest : List Char) :
    stringCodes n (cs.flatMap printChar ++ '\x22' :: rest) = some (cs.map Char.toNat, rest) := by
  induction cs generalizing n with
  | nil =>
    cases n with
    | zero => exact absurd hn (Nat.not_lt_zero _)
    | succ n => rfl
  | cons c cs ih =>
    cases n with
    | zero => exact absurd hn (Nat.not_lt_zero _)
    | succ n =>
      rw [List.flatMap_cons, List.append_assoc, stringCodes_printChar, ih (Nat.lt_of_succ_lt_succ hn)]
      rfl

/-- No character is a surrogate. -/
theorem not_surrogate (c : Char) : isHighSurrogate c.toNat = false ∧ isLowSurrogate c.toNat = false := by
  have hvalid : c.toNat < 0xD800 ∨ 0xDFFF < c.toNat ∧ c.toNat < 0x110000 := c.valid
  simp only [isHighSurrogate, isLowSurrogate, Bool.and_eq_false_iff, decide_eq_false_iff_not]
  omega

theorem paired_toNat (cs : List Char) : paired? (cs.map Char.toNat) = some cs := by
  induction cs with
  | nil => rfl
  | cons c cs ih =>
    obtain ⟨hhigh, hlow⟩ := not_surrogate c
    rw [List.map_cons]
    unfold paired?
    simp only [hhigh, hlow, ih, Char.ofNat_toNat, Bool.false_eq_true, if_false, Option.map_some]

theorem length_le_flatMap_printChar (cs : List Char) : cs.length ≤ (cs.flatMap printChar).length := by
  induction cs with
  | nil => exact Nat.le_refl _
  | cons c cs ih =>
    have hc : 1 ≤ (printChar c).length := by
      unfold printChar
      repeat' split
      all_goals simp
    rw [List.flatMap_cons, List.length_append, List.length_cons]
    omega

/-- A printed string reads as itself, after its opening quote. -/
theorem string_print (s : String) (rest : List Char) :
    string? (s.toList.flatMap printChar ++ '\x22' :: rest) = some (some s, rest) := by
  have hn : s.toList.length < (s.toList.flatMap printChar ++ '\x22' :: rest).length := by
    have := length_le_flatMap_printChar s.toList
    rw [List.length_append, List.length_cons]
    omega
  simp only [string?, stringCodes_print hn, bind, Option.bind, paired_toNat, Option.map_some, String.ofList_toList]
  rfl

theorem toList_printString (s : String) :
    (printString s).toList = '\x22' :: (s.toList.flatMap printChar ++ ['\x22']) := by
  simp only [printString, String.toList_append, String.toList_ofList]
  rfl

/-! ## Numbers -/

/-- Whether a number in front of the text ends there. -/
def endsNumber : List Char → Bool
  | [] => true
  | c :: _ => !c.isDigit && c ≠ '.' && c ≠ 'e' && c ≠ 'E'

theorem endsNumber_blank {ws cs : List Char} (hw : Blank ws) (h : endsNumber cs = true) :
    endsNumber (ws ++ cs) = true := by
  cases ws with
  | nil => exact h
  | cons c ws =>
    have hc := hw c (List.mem_cons_self ..)
    simp only [isSpace, Bool.or_eq_true, decide_eq_true_eq] at hc
    rcases hc with ((rfl | rfl) | rfl) | rfl <;> rfl

theorem head_isDigit_of_endsNumber {rest : List Char} (h : endsNumber rest = true) :
    rest.head?.any Char.isDigit = false := by
  cases rest with
  | nil => rfl
  | cons c rest =>
    simp only [endsNumber, Bool.and_eq_true, Bool.not_eq_true'] at h
    exact h.1.1.1

theorem digits_toString (n : Nat) {rest : List Char} (h : endsNumber rest = true) :
    digits? ((toString n).toList ++ rest) = some ((toString n).toList, rest) := by
  have hall : ∀ c ∈ (toString n).toList, c.isDigit = true := fun c hc => isDigit_of_mem_toString hc
  have hrest : rest.takeWhile Char.isDigit = [] ∧ rest.dropWhile Char.isDigit = rest := by
    have hhead := head_isDigit_of_endsNumber h
    cases rest with
    | nil => exact ⟨rfl, rfl⟩
    | cons c rest =>
      have hc : ¬c.isDigit = true := by simpa using hhead
      exact ⟨List.takeWhile_cons_of_neg hc, List.dropWhile_cons_of_neg hc⟩
  obtain ⟨d, ds, hds, -⟩ := toString_eq_cons n
  rw [digits?, List.takeWhile_append_of_pos hall, List.dropWhile_append_of_pos hall, hrest.1, hrest.2,
    List.append_nil, hds]

theorem wholePart_toString (n : Nat) {rest : List Char} (h : endsNumber rest = true) :
    wholePart? ((toString n).toList ++ rest) = some ((toString n).toList, rest) := by
  by_cases hn : n = 0
  · subst hn
    show (if rest.head?.any Char.isDigit then none else some (['0'], rest)) = _
    rw [head_isDigit_of_endsNumber h]
    rfl
  · rw [← digits_toString n h]
    unfold wholePart?
    split
    · rename_i rest' heq
      obtain ⟨d, ds, hds, -⟩ := toString_eq_cons n
      rw [hds, List.cons_append] at heq
      refine absurd (eq_zero_of_head_toString (n := n) ?_) hn
      rw [hds, List.head?_cons, (List.cons.inj heq).1]
    · rfl

theorem fraction_none {rest : List Char} (h : endsNumber rest = true) : fraction? rest = some ([], rest) := by
  unfold fraction?
  split
  · cases h
  · rfl

theorem exponent_none {rest : List Char} (h : endsNumber rest = true) :
    exponent? rest = some (false, [], rest) := by
  cases rest with
  | nil => rfl
  | cons c rest =>
    simp only [endsNumber, Bool.and_eq_true, decide_eq_true_eq] at h
    have hc : ¬(c = 'e' || c = 'E') = true := by simp [h.1.2, h.2]
    exact if_neg hc

theorem number_ofNat {n : Nat} (hn : n < 18446744073709551616) {rest : List Char} (h : endsNumber rest = true) :
    number? ((toString n).toList ++ rest) = some (.int n, rest) := by
  have hwhole := wholePart_toString n h
  have hvalue := digitsValue_toString n
  obtain ⟨d, ds, hds, hd⟩ := toString_eq_cons n
  have hminus : d ≠ '-' := by
    intro heq
    rw [heq] at hd
    cases hd
  rw [hds, List.cons_append] at hwhole ⊢
  rw [hds] at hvalue
  unfold number?
  simp [hminus, hwhole, hvalue, fraction_none h, exponent_none h, hn]

theorem number_neg {n : Nat} (hpos : 0 < n) (hn : n ≤ 9223372036854775808) {rest : List Char}
    (h : endsNumber rest = true) : number? ('-' :: ((toString n).toList ++ rest)) = some (.int (-n), rest) := by
  have hwhole := wholePart_toString n h
  have hvalue := digitsValue_toString n
  generalize (toString n).toList = ds at hwhole hvalue ⊢
  unfold number?
  simp [hwhole, hvalue, fraction_none h, exponent_none h, hn, hpos]

/-! ## Words, numbers and strings -/

/-- Wherever it stands, the text is read as the value, with fuel for twice its length. -/
structure Spells (cs : List Char) (j : Json) : Prop where
  opens : Opens ']' cs
  read {n : Nat} {rest : List Char} : 2 * cs.length ≤ n → endsNumber rest = true →
    value n (cs ++ rest) = (j, some rest)

/-- A value without parts takes one level of fuel. -/
theorem Spells.leaf {c : Char} {cs : List Char} {j : Json} (hs : isSpace c = false) (hc : c ≠ ']')
    (h : ∀ n rest, endsNumber rest = true → value (n + 1) (c :: (cs ++ rest)) = (j, some rest)) :
    Spells (c :: cs) j := by
  refine ⟨⟨[], c, cs, rfl, blank_nil, hs, hc⟩, fun {n rest} hn hr => ?_⟩
  cases n with
  | zero => rw [List.length_cons] at hn; omega
  | succ n => exact h n rest hr

theorem spells_null : Spells "null".toList .null := .leaf rfl (by decide) fun _ _ _ => rfl

theorem spells_bool (b : Bool) : Spells (printLeaf (.bool b)).toList (.bool b) := by
  cases b with
  | false => exact .leaf rfl (by decide) fun _ _ _ => rfl
  | true => exact .leaf rfl (by decide) fun _ _ _ => rfl

theorem spells_string (s : String) : Spells (printString s).toList (.str s) := by
  rw [toList_printString]
  refine .leaf rfl (by decide) fun n rest _ => ?_
  rw [value, skipSpace_cons rfl, List.append_assoc]
  simp only [List.cons_append, List.nil_append, string_print]

/-- Whether a number starts with the character. -/
def startsNumber (c : Char) : Bool := c.isDigit || c = '-'

theorem ne_of_startsNumber {c d : Char} (hc : startsNumber c = true) (hd : startsNumber d = false) : c ≠ d := by
  intro heq
  rw [heq, hd] at hc
  cases hc

theorem isSpace_of_startsNumber {c : Char} (hc : startsNumber c = true) : isSpace c = false := by
  simp only [isSpace, Bool.or_eq_false_iff, decide_eq_false_iff_not]
  exact ⟨⟨⟨ne_of_startsNumber hc rfl, ne_of_startsNumber hc rfl⟩, ne_of_startsNumber hc rfl⟩,
    ne_of_startsNumber hc rfl⟩

/-- A text that starts like a number is read as one. -/
theorem value_number {c : Char} {cs rest : List Char} {j : Json} (hc : startsNumber c = true)
    (h : number? (c :: cs) = some (j, rest)) (n : Nat) : value (n + 1) (c :: cs) = (j, some rest) := by
  have hne : ∀ {d : Char} {ds : List Char}, startsNumber d = false → c :: cs ≠ d :: ds := by
    intro d ds hd heq
    exact ne_of_startsNumber hc hd (List.cons.inj heq).1
  rw [value, skipSpace_cons (isSpace_of_startsNumber hc)]
  split
  · rename_i heq; exact absurd heq (hne rfl)
  · rename_i heq; exact absurd heq (hne rfl)
  · rename_i heq; exact absurd heq (hne rfl)
  · unfold bare
    split
    · rename_i heq; exact absurd heq (hne rfl)
    · rename_i heq; exact absurd heq (hne rfl)
    · rename_i heq; exact absurd heq (hne rfl)
    · rw [h]

theorem Spells.number {c : Char} {cs : List Char} {j : Json} (hc : startsNumber c = true)
    (h : ∀ rest, endsNumber rest = true → number? (c :: (cs ++ rest)) = some (j, rest)) : Spells (c :: cs) j :=
  .leaf (isSpace_of_startsNumber hc) (ne_of_startsNumber hc rfl) fun n rest hr => value_number hc (h rest hr) n

theorem spells_int {n : Int} (hlow : -9223372036854775808 ≤ n) (hhigh : n < 18446744073709551616) :
    Spells (toString n).toList (.int n) := by
  cases n with
  | ofNat n =>
    have hn : n < 18446744073709551616 := Int.ofNat_lt.mp hhigh
    obtain ⟨d, ds, hds, hd⟩ := toString_eq_cons n
    show Spells (toString n).toList (.int n)
    rw [hds]
    refine .number (by rw [startsNumber, hd]; rfl) fun rest hr => ?_
    rw [← List.cons_append, ← hds]
    exact number_ofNat hn hr
  | negSucc n =>
    have htext : (toString (Int.negSucc n)).toList = '-' :: (toString (n + 1)).toList := by
      show ("-" ++ toString (n + 1)).toList = _
      rw [String.toList_append]
      rfl
    rw [htext]
    exact .number rfl fun rest hr => number_neg (Nat.succ_pos n) (by omega) hr

/-! ## Items and fields -/

/-- A loop that reads one part at a time: if each part ends the loop before `closed` and goes
    on behind a comma, the loop reads all parts. -/
theorem loop_intercalate {β : Type} {loop : Nat → List Char → List β × Rest} {text : β → List Char}
    {closed rest : List Char} {bs : List β} (hne : bs ≠ [])
    (hlast : ∀ b ∈ bs, ∀ n, 2 * (text b).length ≤ n → loop (n + 1) (text b ++ closed) = ([b], some rest))
    (hmore : ∀ b ∈ bs, ∀ n cs, 2 * (text b).length ≤ n →
      loop (n + 1) (text b ++ ',' :: '\n' :: cs) = (b :: (loop n cs).1, (loop n cs).2)) :
    ∀ n, 2 * ([',', '\n'].intercalate (bs.map text)).length ≤ n →
      loop (n + 1) ([',', '\n'].intercalate (bs.map text) ++ closed) = (bs, some rest) := by
  induction bs with
  | nil => exact absurd rfl hne
  | cons b bs ih =>
    intro n hn
    cases bs with
    | nil =>
      rw [List.map_singleton, List.intercalate_singleton] at hn ⊢
      exact hlast b (List.mem_cons_self ..) n hn
    | cons b' bs =>
      have hrest := ih (List.cons_ne_nil _ _) (fun c hc => hlast c (List.mem_cons_of_mem _ hc))
        fun c hc => hmore c (List.mem_cons_of_mem _ hc)
      rw [List.map_cons, List.map_cons, List.intercalate_cons_cons] at hn ⊢
      -- the separator pays for the level that the rest is read at
      simp only [List.length_append, List.length_cons, List.length_nil] at hn
      rw [List.map_cons] at hrest
      have hfirst := hmore b (List.mem_cons_self ..) n
        ([',', '\n'].intercalate (text b' :: bs.map text) ++ closed) (by omega)
      cases n with
      | zero => omega
      | succ n =>
        rw [hrest n (by omega)] at hfirst
        rw [List.append_assoc, List.append_assoc]
        exact hfirst

section

variable {ws cs rest : List Char} {key : String} {j : Json} {n : Nat}

/-- An item is read with the fuel for its line. -/
theorem Spells.read_line (h : Spells cs j) (hw : Blank ws) (hn : 2 * (ws ++ cs).length ≤ n)
    (hr : endsNumber rest = true) : value n (ws ++ cs ++ rest) = (j, some rest) := by
  rw [List.length_append] at hn
  rw [List.append_assoc, value_blank hw, h.read (by omega) hr]

/-- An item and the comma behind it. -/
theorem items_more (hw : Blank ws) (h : Spells cs j) (hn : 2 * (ws ++ cs).length ≤ n) (rest : List Char) :
    items (n + 1) (ws ++ cs ++ ',' :: rest) = (j :: (items n rest).1, (items n rest).2) := by
  rw [items, h.read_line hw hn rfl]
  simp only [skipSpace_cons (c := ',') rfl]

/-- The last item and the bracket behind it. -/
theorem items_last (hw : Blank ws) (h : Spells cs j) (hn : 2 * (ws ++ cs).length ≤ n) {tail : List Char}
    (ht : Blank tail) (rest : List Char) : items (n + 1) (ws ++ cs ++ (tail ++ ']' :: rest)) = ([j], some rest) := by
  rw [items, h.read_line hw hn (endsNumber_blank ht rfl)]
  simp only [skipSpace_to (c := ']') ht rfl]

theorem fieldStart_print (hw : Blank ws) (key : String) (cs : List Char) :
    fieldStart (ws ++ ((printString key).toList ++ ':' :: cs)) = .named (some key) cs := by
  rw [fieldStart, toList_printString, List.cons_append, skipSpace_to hw rfl, List.append_assoc]
  simp only [List.cons_append, List.nil_append, string_print, skipSpace_cons (c := ':') rfl]

/-- The text of a field, given that of its value. -/
def fieldText (key : String) (cs : List Char) : List Char := (printString key).toList ++ ':' :: ' ' :: cs

/-- A field is read up to the end of its value. -/
theorem field_read (hw : Blank ws) (h : Spells cs j) (hn : 2 * (ws ++ fieldText key cs).length ≤ n)
    (hr : endsNumber rest = true) :
    fieldStart (ws ++ fieldText key cs ++ rest) = .named (some key) (' ' :: (cs ++ rest)) ∧
      value n (' ' :: (cs ++ rest)) = (j, some rest) := by
  have hblank : Blank [' '] := by simp [Blank, isSpace]
  have hlength : 2 * cs.length ≤ n := by
    simp only [fieldText, List.length_append, List.length_cons] at hn
    omega
  refine ⟨?_, (value_blank hblank n _).trans (h.read hlength hr)⟩
  rw [fieldText, List.append_assoc, List.append_assoc]
  exact fieldStart_print hw key _

theorem fields_more (hw : Blank ws) (key : String) (h : Spells cs j)
    (hn : 2 * (ws ++ fieldText key cs).length ≤ n) (rest : List Char) :
    fields (n + 1) (ws ++ fieldText key cs ++ ',' :: rest) = ((key, j) :: (fields n rest).1, (fields n rest).2) := by
  obtain ⟨hstart, hvalue⟩ := field_read hw h hn (rfl : endsNumber (',' :: rest) = true)
  rw [fields, hstart]
  simp only [hvalue, fieldOf, skipSpace_cons (c := ',') rfl]

theorem fields_last (hw : Blank ws) (key : String) (h : Spells cs j)
    (hn : 2 * (ws ++ fieldText key cs).length ≤ n) {tail : List Char} (ht : Blank tail) (rest : List Char) :
    fields (n + 1) (ws ++ fieldText key cs ++ (tail ++ '\x7d' :: rest)) = ([(key, j)], some rest) := by
  obtain ⟨hstart, hvalue⟩ := field_read hw h hn (endsNumber_blank ht (rfl : endsNumber ('\x7d' :: rest) = true))
  rw [fields, hstart]
  simp only [hvalue, fieldOf, skipSpace_to (c := '\x7d') ht rfl]

end

/-! ## Arrays and objects -/

section

variable {lines tail : List Char}

/-- The lines between brackets are read as items. -/
theorem Spells.arr {js : List Json} (ho : Opens ']' lines) (h : ∀ n rest, 2 * lines.length ≤ n →
    items (n + 1) (lines ++ (tail ++ ']' :: rest)) = (js, some rest)) :
    Spells ('[' :: '\n' :: (lines ++ (tail ++ [']']))) (.arr js) := by
  refine ⟨⟨[], '[', _, rfl, blank_nil, rfl, by decide⟩, fun {n rest} hn _ => ?_⟩
  have hnewline : Blank ['\n'] := blank_newline blank_nil
  simp only [List.length_cons, List.length_append] at hn
  obtain ⟨n, rfl⟩ : ∃ i, n = i + 2 := ⟨n - 2, by omega⟩
  have htext : '[' :: '\n' :: (lines ++ (tail ++ [']'])) ++ rest =
      '[' :: (['\n'] ++ (lines ++ (tail ++ ']' :: rest))) := by simp
  rw [htext, value_arr ((ho.append _).blank hnewline), items_blank hnewline, h n rest (by omega)]

theorem Spells.obj {fs : List (String × Json)} (ho : Opens '\x7d' lines) (h : ∀ n rest, 2 * lines.length ≤ n →
    fields (n + 1) (lines ++ (tail ++ '\x7d' :: rest)) = (fs, some rest)) :
    Spells ('\x7b' :: '\n' :: (lines ++ (tail ++ ['\x7d']))) (.obj fs) := by
  refine ⟨⟨[], '\x7b', _, rfl, blank_nil, rfl, by decide⟩, fun {n rest} hn _ => ?_⟩
  have hnewline : Blank ['\n'] := blank_newline blank_nil
  simp only [List.length_cons, List.length_append] at hn
  obtain ⟨n, rfl⟩ : ∃ i, n = i + 2 := ⟨n - 2, by omega⟩
  have htext : '\x7b' :: '\n' :: (lines ++ (tail ++ ['\x7d'])) ++ rest =
      '\x7b' :: (['\n'] ++ (lines ++ (tail ++ '\x7d' :: rest))) := by simp
  rw [htext, value_obj ((ho.append _).blank hnewline), fields_blank hnewline, h n rest (by omega)]

end

/-- Parts are spread over lines of their own between the brackets. -/
theorem toList_spread (opening closing : String) (level : Nat) {parts : List String} (h : parts ≠ []) :
    (spread opening closing level parts).toList =
      opening.toList ++ '\n' :: ([',', '\n'].intercalate
        (parts.map fun p => (indentation (level + 1)).toList ++ p.toList) ++
        ('\n' :: (indentation level).toList ++ closing.toList)) := by
  have hempty : ¬parts.isEmpty = true := by simpa using h
  rw [spread, if_neg hempty]
  simp only [String.toList_append, String.toList_intercalate, List.map_map, Function.comp_def, List.append_assoc]
  rfl

theorem prettyItems_eq (level : Nat) (items : List Json) : prettyItems level items = items.map (pretty level) := by
  induction items with
  | nil => rfl
  | cons j items ih => rw [prettyItems, ih, List.map_cons]

theorem prettyFields_eq (level : Nat) (fields : List (String × Json)) :
    prettyFields level fields = fields.map fun f => printString f.1 ++ ": " ++ pretty level f.2 := by
  induction fields with
  | nil => rfl
  | cons f fields ih => rw [prettyFields, ih, List.map_cons]

theorem spells_items {level : Nat} : ∀ {js : List Json}, (∀ j ∈ js, Spells (pretty (level + 1) j).toList j) →
    Spells (pretty level (.arr js)).toList (.arr js)
  | [], _ => by
    rw [pretty, prettyItems, spread, List.isEmpty_nil, if_pos rfl, String.toList_append]
    exact .leaf rfl (by decide) fun _ _ _ => rfl
  | j :: js, h => by
    have hlead := blank_indentation (level + 1)
    rw [pretty, prettyItems_eq, toList_spread "[" "]" level (by simp), List.map_map]
    refine Spells.arr (((h j (List.mem_cons_self ..)).opens.blank hlead).intercalate _ _) fun n rest hn => ?_
    refine loop_intercalate (List.cons_ne_nil j js) (fun i hi n hn => ?_) (fun i hi n cs hn => ?_) n hn
    · exact items_last hlead (h i hi) hn (blank_newline (blank_indentation level)) rest
    · have hmore := items_more hlead (h i hi) hn ('\n' :: cs)
      rwa [show items n ('\n' :: cs) = items n cs from items_blank (blank_newline blank_nil) n cs] at hmore

theorem toList_field (key s : String) : (printString key ++ ": " ++ s).toList = fieldText key s.toList := by
  rw [String.toList_append, String.toList_append, List.append_assoc]
  rfl

theorem opens_fieldText (key : String) (cs : List Char) : Opens '\x7d' (fieldText key cs) := by
  rw [fieldText, toList_printString]
  exact ⟨[], '\x22', _, rfl, blank_nil, rfl, by decide⟩

theorem spells_fields {level : Nat} : ∀ {fs : List (String × Json)},
    (∀ f ∈ fs, Spells (pretty (level + 1) f.2).toList f.2) → Spells (pretty level (.obj fs)).toList (.obj fs)
  | [], _ => by
    rw [pretty, prettyFields, spread, List.isEmpty_nil, if_pos rfl, String.toList_append]
    exact .leaf rfl (by decide) fun _ _ _ => rfl
  | f :: fs, h => by
    have hlead := blank_indentation (level + 1)
    rw [pretty, prettyFields_eq, toList_spread "\x7b" "\x7d" level (by simp), List.map_map]
    simp only [Function.comp_def, toList_field]
    refine Spells.obj (((opens_fieldText _ _).blank hlead).intercalate _ _) fun n rest hn => ?_
    refine loop_intercalate (List.cons_ne_nil f fs) (fun g hg n hn => ?_) (fun g hg n cs hn => ?_) n hn
    · exact fields_last hlead g.1 (h g hg) hn (blank_newline (blank_indentation level)) rest
    · have hmore := fields_more hlead g.1 (h g hg) hn ('\n' :: cs)
      rwa [show fields n ('\n' :: cs) = fields n cs from fields_blank (blank_newline blank_nil) n cs] at hmore

/-! ## All values -/

mutual
/-- Whether the value is printed as it would be read: its integers fit in 64 bits, it has no
    other numbers and no faults, and its parts nest at most `room` deep. -/
def printable (room : Nat) : Json → Bool
  | .null | .bool _ | .str _ => true
  | .int n => -9223372036854775808 ≤ n && n < 18446744073709551616
  | .arr items =>
    match room with
    | 0 => false
    | room + 1 => printableItems room items
  | .obj fields =>
    match room with
    | 0 => false
    | room + 1 => printableFields room fields
  | .real _ | .loose | .misnamed _ | .cut | .unnamed => false
def printableItems (room : Nat) : List Json → Bool
  | [] => true
  | j :: js => printable room j && printableItems room js
def printableFields (room : Nat) : List (String × Json) → Bool
  | [] => true
  | (_, j) :: fs => printable room j && printableFields room fs
end

theorem printableItems_of_forall {room : Nat} {js : List Json} (h : ∀ j ∈ js, j.printable room = true) :
    printableItems room js = true := by
  induction js with
  | nil => rfl
  | cons j js ih =>
    obtain ⟨hj, hjs⟩ := List.forall_mem_cons.mp h
    rw [printableItems, hj, ih hjs, Bool.and_self]

theorem printableFields_of_forall {room : Nat} {fs : List (String × Json)}
    (h : ∀ f ∈ fs, f.2.printable room = true) : printableFields room fs = true := by
  induction fs with
  | nil => rfl
  | cons f fs ih =>
    obtain ⟨hf, hfs⟩ := List.forall_mem_cons.mp h
    rw [printableFields, hf, ih hfs, Bool.and_self]

mutual
theorem readable_of_printable {room : Nat} : ∀ {j : Json}, j.printable room = true → j.readable room = true
  | .null, _ | .bool _, _ | .str _, _ | .int _, _ => rfl
  | .arr _, h => by
    cases room with
    | zero => cases h
    | succ room => exact readableItems_of_printable h
  | .obj _, h => by
    cases room with
    | zero => cases h
    | succ room => exact readableFields_of_printable h
theorem readableItems_of_printable {room : Nat} :
    ∀ {js : List Json}, printableItems room js = true → readableItems room js = true
  | [], _ => rfl
  | _ :: _, h => by
    rw [printableItems, Bool.and_eq_true] at h
    rw [readableItems, readable_of_printable h.1, readableItems_of_printable h.2, Bool.and_self]
theorem readableFields_of_printable {room : Nat} :
    ∀ {fs : List (String × Json)}, printableFields room fs = true → readableFields room fs = true
  | [], _ => rfl
  | (_, _) :: _, h => by
    rw [printableFields, Bool.and_eq_true] at h
    rw [readableFields, readable_of_printable h.1, readableFields_of_printable h.2, Bool.and_self]
end

mutual
/-- What is printed over several lines spells its value. -/
theorem spells_pretty {room : Nat} :
    ∀ {level : Nat} {j : Json}, j.printable room = true → Spells (pretty level j).toList j
  | _, .null, _ => spells_null
  | _, .bool b, _ => spells_bool b
  | _, .str s, _ => spells_string s
  | _, .int n, h => by
    rw [printable, Bool.and_eq_true, decide_eq_true_eq, decide_eq_true_eq] at h
    exact spells_int h.1 h.2
  | _, .arr _, h => by
    cases room with
    | zero => cases h
    | succ room => exact spells_items (spells_prettyItems h)
  | _, .obj _, h => by
    cases room with
    | zero => cases h
    | succ room => exact spells_fields (spells_prettyFields h)
theorem spells_prettyItems {room : Nat} : ∀ {level : Nat} {js : List Json}, printableItems room js = true →
    ∀ j ∈ js, Spells (pretty level j).toList j
  | _, [], _ => List.forall_mem_nil _
  | _, _ :: _, h => by
    rw [printableItems, Bool.and_eq_true] at h
    exact List.forall_mem_cons.mpr ⟨spells_pretty h.1, spells_prettyItems h.2⟩
theorem spells_prettyFields {room : Nat} : ∀ {level : Nat} {fs : List (String × Json)},
    printableFields room fs = true → ∀ f ∈ fs, Spells (pretty level f.2).toList f.2
  | _, [], _ => List.forall_mem_nil _
  | _, (_, _) :: _, h => by
    rw [printableFields, Bool.and_eq_true] at h
    exact List.forall_mem_cons.mpr ⟨spells_pretty h.1, spells_prettyFields h.2⟩
end

theorem readText_pretty {room : Nat} {j : Json} (h : j.printable room = true) : readText (pretty 0 j) = (j, true) := by
  have hread : value (2 * (pretty 0 j).toList.length + 2) ((pretty 0 j).toList ++ []) = (j, some []) :=
    (spells_pretty h).read (by omega) rfl
  rw [List.append_nil] at hread
  simp only [readText, hread]
  rfl

/-- Reading a printed value as a whole gives what reading the value gives. -/
theorem readWhole_pretty {α : Type} {read : Reader α} {j : Json} {a : α} (hp : j.printable maxDepth = true)
    (h : Reads read j a) : readWhole read (pretty 0 j) = .ok a := by
  have hok : read (.text maxDepth) j = .ok a := h.ok (readable_of_printable hp)
  simp only [readWhole, readText_pretty hp, hok, bind, Except.bind]
  rfl

end ComponentScript.Json
