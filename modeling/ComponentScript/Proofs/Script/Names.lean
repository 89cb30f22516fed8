/-
  ComponentScript.Proofs.Script.Names — names, numbers and types in script text.

  Names and numbers have no quotes and no brackets, and what the script makes of them has
  none either.
  - `markless_camelCase`, `markless_numeral`: names in camel case and numbers.
  - `closed_objectKey`: a key of an object literal is closed, whatever it is.
  - `closed_simpleTypeName`: a type name may have dots, a backtick before an arity, and
    brackets for array ranks; its simple name is closed.
-/

import ComponentScript.Proofs.Script.Scan
import ComponentScript.Script.Name
import ComponentScript.Script.Numeral
import ComponentScript.Syntax.TypeRef

namespace ComponentScript.Script

open Text

/-! ## Characters -/

theorem isMark_of_continuesIdentifier {c : Char} (h : continuesIdentifier c = true) : isMark c = false :=
  isMark_eq_false (by decide +kernel) h

theorem isMark_of_isDigit {c : Char} (h : c.isDigit = true) : isMark c = false :=
  isMark_eq_false (by decide) h

theorem isMark_of_large {c : Char} (h : 128 ≤ c.toNat) : isMark c = false :=
  isMark_eq_false (p := fun c => 128 ≤ c.toNat) (by decide) (decide_eq_true h)

/-- Beyond the first 128 characters, the runs move to such characters again. Only the Kelvin
    sign becomes a `k`. -/
theorem lowercaseRuns_large : ∀ r ∈ lowercaseRuns, r.1.last < 128 ∨ 128 ≤ (r.1.first : Int) + r.2 ∨
    (r.1.first = 0x212A ∧ r.1.last = 0x212A ∧ r.2 = -8383) := by
  decide +kernel

/-- A property of some of the first 128 characters that none of them gains with its small letter
    is gained by no small form at all. -/
theorem toLowercase_avoids {p : Char → Bool}
    (hsmall : ∀ n : Fin 128, p (Char.ofNat n) = false → p (Char.ofNat n).toLower = false)
    (hlarge : ∀ c : Char, 128 ≤ c.toNat → p c = false) (hletters : ['\x00', 'i', 'k'].any p = false) {c : Char}
    (h : p c = false) : ∀ d ∈ toLowercase c, p d = false := by
  intro d hd
  have hletter : ∀ c, c ∈ ['\x00', 'i', 'k'] → p c = false := fun c hc => by
    simpa using List.any_eq_false.mp hletters c hc
  unfold toLowercase at hd
  split at hd
  · next hc =>
    obtain rfl := List.mem_singleton.mp hd
    have hlower := hsmall ⟨c.toNat, hc⟩
    rw [Char.ofNat_toNat] at hlower
    exact hlower h
  next hc =>
  split at hd
  · rcases List.mem_cons.mp hd with rfl | hd
    · exact hletter 'i' (by decide)
    · obtain rfl := List.mem_singleton.mp hd
      exact hlarge _ (by decide)
  split at hd
  · next r hr =>
    obtain rfl := List.mem_singleton.mp hd
    have hholds := List.find?_some (p := fun r : Run × Int => r.1.holds c.toNat) hr
    simp only [Run.holds, Bool.and_eq_true, decide_eq_true_eq] at hholds
    rcases lowercaseRuns_large r (List.mem_of_find?_eq_some hr) with hfew | hmoved | ⟨hfirst, hlast, hmove⟩
    · omega
    · by_cases hv : (c.toNat + r.2).toNat.isValidChar
      · have hn : (Char.ofNat (c.toNat + r.2).toNat).toNat = (c.toNat + r.2).toNat := by
          unfold Char.ofNat
          rw [dif_pos hv]
          rfl
        exact hlarge _ (by omega)
      · unfold Char.ofNat
        rw [dif_neg hv]
        exact hletter _ (by decide)
    · have hkelvin : c.toNat = 0x212A := by omega
      rw [hkelvin, hmove]
      exact hletter 'k' (by decide)
  · obtain rfl := List.mem_singleton.mp hd
    exact h

theorem isMark_toLowercase {c : Char} (h : isMark c = false) : ∀ d ∈ toLowercase c, isMark d = false :=
  toLowercase_avoids (by decide +kernel) (fun _ => isMark_of_large) (by decide) h

/-! ## Names and numbers -/

/-- What a text is in front of the first character of another kind, and what it is from there on. -/
theorem takeWhile_dropWhile_append {p : Char → Bool} {xs ys : List Char} (hxs : ∀ c ∈ xs, p c = true)
    (hys : ∀ c, ys.head? = some c → p c = false) : (xs ++ ys).takeWhile p = xs ∧ (xs ++ ys).dropWhile p = ys := by
  rw [List.takeWhile_append_of_pos hxs, List.dropWhile_append_of_pos hxs]
  cases ys with
  | nil => exact ⟨List.append_nil _, rfl⟩
  | cons c ys =>
    have hc : ¬ p c = true := by simp [hys c rfl]
    rw [List.takeWhile_cons_of_neg hc, List.dropWhile_cons_of_neg hc]
    exact ⟨List.append_nil _, rfl⟩

theorem markless_ofList {cs : List Char} (h : ∀ c ∈ cs, isMark c = false) : Markless (String.ofList cs) := by
  intro c hc
  rw [String.toList_ofList] at hc
  exact h c hc

theorem Markless.append {t u : String} (ht : Markless t) (hu : Markless u) : Markless (t ++ u) := by
  intro c hc
  rw [String.toList_append] at hc
  rcases List.mem_append.mp hc with hc | hc
  · exact ht c hc
  · exact hu c hc

theorem continuesIdentifier_of_isIdentifier {key : String} (h : isIdentifier key = true) :
    ∀ c ∈ key.toList, continuesIdentifier c = true := by
  intro c hc
  unfold isIdentifier at h
  split at h
  · cases h
  · next first rest hkey =>
    rw [hkey] at hc
    rw [Bool.and_eq_true] at h
    rcases List.mem_cons.mp hc with rfl | hc
    · have hfirst := h.1
      simp only [startsIdentifier, continuesIdentifier, isAlphanumeric, Bool.or_eq_true] at hfirst ⊢
      rcases hfirst with (hfirst | hfirst) | hfirst
      · exact .inl (.inl (.inl hfirst))
      · exact .inl (.inr hfirst)
      · exact .inr hfirst
    · exact List.all_eq_true.mp h.2 c hc

theorem markless_of_isIdentifier {key : String} (h : isIdentifier key = true) : Markless key :=
  fun c hc => isMark_of_continuesIdentifier (continuesIdentifier_of_isIdentifier h c hc)

theorem closed_objectKey (key : String) : Closed (objectKey key) := by
  unfold objectKey
  split
  · next h => exact (markless_of_isIdentifier h).closed
  · exact closed_quote key

/-- What holds of the characters of a name and of their small forms holds of its camel case. -/
theorem forall_mem_camelChars {p : Char → Prop} (hp : ∀ {c}, p c → ∀ d ∈ toLowercase c, p d) {cs : List Char}
    (h : ∀ c ∈ cs, p c) : ∀ c ∈ camelChars cs, p c := by
  intro c hc
  unfold camelChars at hc
  dsimp only at hc
  split at hc
  · exact h c hc
  have hrest : ∀ d ∈ cs.dropWhile (· = '_'), p d := fun d hd => h d ((List.dropWhile_sublist _).subset hd)
  rcases List.mem_append.mp hc with hc | hc
  · rcases List.mem_append.mp hc with hc | hc
    · exact h c ((List.takeWhile_sublist _).subset hc)
    · obtain ⟨d, hd, hcd⟩ := List.mem_flatMap.mp hc
      exact hp (hrest d (List.mem_of_mem_take hd)) c hcd
  · exact hrest c (List.mem_of_mem_drop hc)

theorem markless_camelCase {name : String} (h : Markless name) : Markless (camelCase name) :=
  markless_ofList (forall_mem_camelChars isMark_toLowercase h)

/-- The parts of a text have no other characters than the text. -/
theorem mem_of_mem_splitOn {sep c : Char} {cs part : List Char} (hp : part ∈ splitOn sep cs) (hc : c ∈ part) :
    c ∈ cs := by
  induction cs generalizing part with
  | nil => rw [List.mem_singleton.mp hp] at hc; cases hc
  | cons d cs ih =>
    rw [splitOn] at hp
    split at hp
    · rcases List.mem_cons.mp hp with rfl | hp
      · cases hc
      · exact List.mem_cons_of_mem _ (ih hp hc)
    split at hp
    · rw [List.mem_singleton.mp hp] at hc
      exact List.mem_cons.mpr (.inl (List.mem_singleton.mp hc))
    · next first rest heq =>
      rcases List.mem_cons.mp hp with rfl | hp
      · rcases List.mem_cons.mp hc with rfl | hc
        · exact List.mem_cons_self ..
        · exact List.mem_cons_of_mem _ (ih (heq ▸ List.mem_cons_self ..) hc)
      · exact List.mem_cons_of_mem _ (ih (heq ▸ List.mem_cons_of_mem _ hp) hc)

/-- A number has no other characters than its text. -/
theorem mem_of_mem_numeralChars {cs : List Char} {c : Char} (hc : c ∈ numeralChars cs) : c ∈ cs := by
  unfold numeralChars at hc
  dsimp only at hc
  split at hc
  · exact (List.mem_filter.mp hc).1
  · have hbare := (List.dropWhile_sublist _).subset (List.mem_reverse.mp hc)
    exact (List.mem_filter.mp (List.mem_reverse.mp hbare)).1

theorem markless_numeral {text : String} (h : Markless text) : Markless (numeral text) :=
  markless_ofList fun c hc => h c (mem_of_mem_numeralChars hc)

theorem markless_toString (n : Nat) : Markless (toString n) := by
  intro c hc
  have hdigits : c ∈ Nat.toDigits 10 n := by rwa [← Nat.toList_repr]
  exact isMark_of_isDigit (Nat.isDigit_of_mem_toDigits (by decide) (by decide) hdigits)

/-! ## Type names -/

/-- Characters of a type name: no marks, except for a backtick and for brackets that are
    closed at once. -/
def typeChars : List Char → Bool
  | [] => true
  | '[' :: ']' :: rest => typeChars rest
  | c :: rest => (!isMark c || c = '\x60') && typeChars rest

/-- A name with dots, a backtick before an arity, and array ranks. -/
def TypeName (name : String) : Prop := typeChars name.toList = true

instance : DecidablePred TypeName := fun _ => inferInstanceAs (Decidable (_ = _))

/-- A type name can be cut in front of everything but a closing bracket. -/
theorem typeChars_cut {xs ys : List Char} {c : Char} (hc : c ≠ ']') (h : typeChars (xs ++ c :: ys) = true) :
    typeChars xs = true ∧ typeChars (c :: ys) = true := by
  fun_induction typeChars xs with
  | case1 => exact ⟨rfl, h⟩
  | case2 rest ih => exact ih h
  | case3 d rest hrest ih =>
    have hgeneral : ∀ more, d = '[' → rest ++ c :: ys = ']' :: more → False := by
      intro more hd heq
      cases rest with
      | nil => exact hc (List.cons.inj heq).1
      | cons e es =>
        obtain ⟨rfl, -⟩ := List.cons.inj heq
        exact hrest es hd rfl
    rw [List.cons_append, typeChars.eq_3 _ _ hgeneral, Bool.and_eq_true] at h
    obtain ⟨hleft, hright⟩ := ih h.2
    exact ⟨by rw [h.1, hleft]; rfl, hright⟩

theorem typeChars_dropRanks {rs : List Char} (h : typeChars rs.reverse = true) :
    typeChars (dropRanks rs).reverse = true := by
  fun_induction dropRanks rs with
  | case1 rest ih =>
    have hranks : typeChars (rest.reverse ++ '[' :: [']']) = true := by simpa using h
    exact ih (typeChars_cut (by decide) hranks).1
  | case2 => exact h

/-- A list is what stands in front of the first stop and, if there is one, the stop and what follows. -/
theorem takeWhile_ne_cases (stop : Char) (cs : List Char) :
    cs.takeWhile (· ≠ stop) = cs ∨ ∃ rest, cs = cs.takeWhile (· ≠ stop) ++ stop :: rest := by
  induction cs with
  | nil => exact .inl rfl
  | cons c cs ih =>
    by_cases hc : c = stop
    · subst hc
      exact .inr ⟨cs, by simp⟩
    · have hgo : (c :: cs).takeWhile (· ≠ stop) = c :: cs.takeWhile (· ≠ stop) := by simp [hc]
      rw [hgo]
      rcases ih with ih | ⟨rest, ih⟩
      · exact .inl (congrArg (c :: ·) ih)
      · exact .inr ⟨rest, congrArg (c :: ·) ih⟩

theorem typeChars_afterLast {cs : List Char} (h : typeChars cs = true) : typeChars (afterLast '.' cs) = true := by
  unfold afterLast
  rcases takeWhile_ne_cases '.' cs.reverse with hall | ⟨rest, hcut⟩
  · rw [hall, List.reverse_reverse]
    exact h
  · have hcs : cs = rest.reverse ++ '.' :: (cs.reverse.takeWhile (· ≠ '.')).reverse := by
      simpa using congrArg List.reverse hcut
    rw [hcs] at h
    have hdot := (typeChars_cut (by decide) h).2
    rw [typeChars.eq_3 '.' _ fun _ hc => absurd hc (by decide), Bool.and_eq_true] at hdot
    exact hdot.2

theorem typeChars_beforeFirst {cs : List Char} (h : typeChars cs = true) :
    typeChars (beforeFirst '\x60' cs) = true := by
  unfold beforeFirst
  rcases takeWhile_ne_cases '\x60' cs with hall | ⟨rest, hcut⟩
  · rw [hall]
    exact h
  · rw [hcut] at h
    exact (typeChars_cut (by decide) h).1

theorem run_typeChars {cs : List Char} (h : typeChars cs = true) (hback : '\x60' ∉ cs) (fs : List Frame) :
    (Scan.code fs).run cs = some (.code fs) := by
  fun_induction typeChars cs with
  | case1 => rfl
  | case2 rest ih =>
    have hranks : (Scan.code fs).run ['[', ']'] = some (.code fs) := rfl
    refine (Scan.run_append_of hranks rest).trans (ih h fun hm => hback ?_)
    exact List.mem_cons_of_mem _ (List.mem_cons_of_mem _ hm)
  | case3 c rest _ ih =>
    rw [Bool.and_eq_true, Bool.or_eq_true] at h
    have hc : isMark c = false := by
      rcases h.1 with hc | hc
      · simpa using hc
      · exact absurd (List.mem_cons.mpr (.inl (of_decide_eq_true hc).symm)) hback
    rw [Scan.run_cons, show (Scan.code fs).next c = some (.code fs) from Scan.nextInCode_of_isMark hc fs]
    exact ih h.2 fun hm => hback (List.mem_cons_of_mem _ hm)

theorem closed_simpleTypeName {name : String} (h : TypeName name) : Closed (simpleTypeName name) := by
  have hranks : typeChars (dropRanks name.toList.reverse).reverse = true :=
    typeChars_dropRanks (by rw [List.reverse_reverse]; exact h)
  have hback : '\x60' ∉ beforeFirst '\x60' (afterLast '.' (dropRanks name.toList.reverse).reverse) := by
    intro hm
    simpa using List.all_eq_true.mp List.all_takeWhile _ hm
  rw [Closed, Leads, simpleTypeName, String.toList_ofList]
  exact run_typeChars (typeChars_beforeFirst (typeChars_afterLast hranks)) hback []

end ComponentScript.Script
