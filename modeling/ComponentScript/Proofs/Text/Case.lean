/-
  ComponentScript.Proofs.Text.Case — the small form of a capital.

  The tables of capitals and of small forms are checked against each other: no run of small
  forms has a code point in common with the capitals (`lowercaseRuns_clear`). So the small
  form of a capital is the capital itself, where it has none, or begins with a character that
  is no capital (`toLowercase_of_isUppercase`).
-/

import ComponentScript.Proofs.Text.Ranges
import ComponentScript.Text.Case

namespace ComponentScript.Text

/-- What is checked for each of the first 128 characters holds of all of them. -/
theorem forall_few {p : Char → Prop} (h : ∀ n : Fin 128, p (Char.ofNat n)) {c : Char} (hc : c.toNat < 128) : p c := by
  have hp := h ⟨c.toNat, hc⟩
  rwa [Char.ofNat_toNat] at hp

/-! ## Capitals and small forms -/

theorem uppercaseRuns_sorted : uppercaseRuns.Pairwise fun q q' => q.first ≤ q'.first :=
  List.isChain_iff_pairwise.mp (by decide +kernel)

/-- The small forms of a run are no capitals, and there is no underscore among them. -/
theorem lowercaseRuns_clear : ∀ r ∈ lowercaseRuns, 0 ≤ (r.1.first : Int) + r.2 ∧
    (r.1.moved r.2).clearOf uppercaseRuns = true ∧
    ((r.1.last : Int) + r.2 < 0x5F ∨ 0x5F < (r.1.first : Int) + r.2) := by
  decide +kernel

theorem inRuns_of_isUppercase {c : Char} (h : isUppercase c = true) : inRuns uppercaseRuns c.toNat = true := by
  by_cases hc : c.toNat < 128
  · exact forall_few (p := fun c => isUppercase c = true → inRuns uppercaseRuns c.toNat = true) (by decide +kernel) hc h
  · rw [isUppercase, if_neg hc] at h
    exact h

/-- A small form that a run gives. -/
theorem isUppercase_moved {r : Run × Int} (hmem : r ∈ lowercaseRuns) {n : Nat} (hn : r.1.holds n = true) :
    isUppercase (Char.ofNat (n + r.2).toNat) = false ∧ Char.ofNat (n + r.2).toNat ≠ '_' := by
  obtain ⟨hstart, hclear, hscore⟩ := lowercaseRuns_clear r hmem
  by_cases hv : (n + r.2).toNat.isValidChar
  · have hcode : (Char.ofNat (n + r.2).toNat).toNat = (n + r.2).toNat := by
      unfold Char.ofNat
      rw [dif_pos hv]
      rfl
    constructor
    · have hfree := Run.inRuns_eq_false_of_clearOf uppercaseRuns_sorted hclear (Run.holds_moved hstart hn)
      by_contra hcapital
      have hruns := inRuns_of_isUppercase (Bool.not_eq_false _ ▸ hcapital)
      rw [hcode, hfree] at hruns
      cases hruns
    · intro heq
      have hcode' : (n + r.2).toNat = 0x5F := by rw [← hcode, heq]; rfl
      have hbounds := Run.holds_iff.mp hn
      omega
  · unfold Char.ofNat
    rw [dif_neg hv]
    decide

/-- The small form of a capital is the capital, where it has none, or begins with a character
    that is neither a capital nor an underscore. -/
theorem toLowercase_of_isUppercase {c : Char} (h : isUppercase c = true) :
    toLowercase c = [c] ∨ ∃ d ds, toLowercase c = d :: ds ∧ isUppercase d = false ∧ d ≠ '_' := by
  unfold toLowercase
  split
  · next hc =>
    have hsmall := forall_few (p := fun c => isUppercase c = true → isUppercase c.toLower = false ∧ c.toLower ≠ '_')
      (by decide +kernel) hc h
    exact .inr ⟨_, _, rfl, hsmall⟩
  split
  · exact .inr ⟨_, _, rfl, by decide⟩
  split
  · next r hr =>
    have hholds := List.find?_some (p := fun r : Run × Int => r.1.holds c.toNat) hr
    exact .inr ⟨_, _, rfl, isUppercase_moved (List.mem_of_find?_eq_some hr) hholds⟩
  · exact .inl rfl

end ComponentScript.Text
