/-
  ComponentScript.Proofs.Text.Decimal — the decimal digits of a number.

  A number is written with digits only, reads back as itself and has no zero in front. Behind
  a text that does not end in a digit it can be told from the text (`number_eq_of_append_eq`).
-/

import ComponentScript.Text.Decimal

namespace ComponentScript.Text

theorem toList_toString (n : Nat) : (toString n).toList = Nat.toDigits 10 n := by
  rw [Nat.toString_eq_ofList_toDigits, String.toList_ofList]

theorem isDigit_of_mem_toString {n : Nat} {c : Char} (h : c ∈ (toString n).toList) : c.isDigit = true := by
  rw [toList_toString] at h
  exact Nat.isDigit_of_mem_toDigits (by decide) (by decide) h

/-- A number has a first digit. -/
theorem toString_eq_cons (n : Nat) : ∃ d ds, (toString n).toList = d :: ds ∧ d.isDigit = true := by
  cases hds : (toString n).toList with
  | nil =>
    rw [toList_toString] at hds
    exact absurd hds Nat.toDigits_ne_nil
  | cons d ds => exact ⟨d, ds, rfl, isDigit_of_mem_toString (n := n) (hds ▸ List.mem_cons_self ..)⟩

theorem digitsValue_toString (n : Nat) : digitsValue (toString n).toList = n := by
  have hfold : ∀ (ds : List Char) (i : Nat),
      ds.foldl (fun n d => n * 10 + (d.toNat - 48)) i = Nat.ofDigitChars 10 ds i := by
    intro ds
    induction ds with
    | nil => intro i; simp
    | cons d ds ih => intro i; rw [List.foldl_cons, ih, Nat.ofDigitChars_cons, Nat.mul_comm]; rfl
  rw [toList_toString, digitsValue, hfold, Nat.ofDigitChars_ten_toDigits]

/-- Only zero starts with a zero. -/
theorem eq_zero_of_head_toString {n : Nat} (h : (toString n).toList.head? = some '0') : n = 0 := by
  rw [toList_toString] at h
  induction n using Nat.strongRecOn with
  | ind n ih =>
    by_cases hn : n < 10
    · rw [Nat.toDigits_of_lt_base hn] at h
      have hdigit : ∀ i, i < 10 → Nat.digitChar i = '0' → i = 0 := by decide
      exact hdigit n hn (Option.some.inj h)
    · rw [Nat.toDigits_of_base_le (by decide) (by omega)] at h
      have hhead : (Nat.toDigits 10 (n / 10)).head? = some '0' := by
        cases hd : Nat.toDigits 10 (n / 10) with
        | nil => exact absurd hd Nat.toDigits_ne_nil
        | cons d ds => simpa [hd] using h
      have := ih (n / 10) (by omega) hhead
      omega

/-- A number behind a text that does not end in a digit can be told from it. -/
theorem number_eq_of_append_eq {a b : List Char} {n i : Nat} (ha : a.getLast?.any Char.isDigit = false)
    (hb : b.getLast?.any Char.isDigit = false) (h : a ++ (toString n).toList = b ++ (toString i).toList) : n = i := by
  -- what the longer text has more would be digits
  have hno : ∀ {a c ds : List Char} {j : Nat}, (a ++ c).getLast?.any Char.isDigit = false →
      (toString j).toList = c ++ ds → c = [] := by
    intro a c ds j hlast hj
    rcases List.eq_nil_or_concat c with rfl | ⟨c, d, rfl⟩
    · rfl
    · have hd : d.isDigit = true := isDigit_of_mem_toString (n := j) (by rw [hj]; simp)
      simp [← List.append_assoc, hd] at hlast
  have hdigits : (toString n).toList = (toString i).toList := by
    rcases List.append_eq_append_iff.mp h with ⟨c, rfl, hn⟩ | ⟨c, rfl, hi⟩
    · rw [hno hb hn, List.nil_append] at hn
      exact hn
    · rw [hno ha hi, List.nil_append] at hi
      exact hi.symm
  rw [← digitsValue_toString n, hdigits, digitsValue_toString]

end ComponentScript.Text
