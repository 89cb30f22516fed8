/-
  ComponentScript.Proofs.Script.CamelCase — a name in camel case stays as it is.

  A name is its leading underscores and a rest, and only capitals at the beginning of the
  rest become small. A capital without a small form stays, so the rest may still begin with
  capitals afterwards. Those are capitals that stay every time: behind the first one that did
  change there is a character that is no capital, and a second run ends in front of it
  (`flatMap_toLowercase_cases`).
-/

import ComponentScript.Proofs.Script.Names
import ComponentScript.Proofs.Text.Case
import Mathlib.Data.List.TakeWhile

namespace ComponentScript.Script

open Text

/-! ## The rest of a name -/

/-- How many characters of the rest become small. -/
def smallLength (rest : List Char) : Nat := smallCount (rest.takeWhile isUppercase).length rest.length

/-- The rest of a name, behind its underscores, in camel case. -/
def camelRest (rest : List Char) : List Char :=
  if (rest.takeWhile isUppercase).length = 0 then rest
  else (rest.take (smallLength rest)).flatMap toLowercase ++ rest.drop (smallLength rest)

/-- The underscores in front of a rest that begins with none. -/
theorem span_underscores {us rest : List Char} (hus : ∀ c ∈ us, c = '_') (hrest : rest.head? ≠ some '_') :
    (us ++ rest).takeWhile (· = '_') = us ∧ (us ++ rest).dropWhile (· = '_') = rest := by
  refine takeWhile_dropWhile_append (by simpa using hus) fun c hc => ?_
  have hne : c ≠ '_' := by
    rintro rfl
    exact hrest hc
  exact decide_eq_false hne

/-- Underscores stay in front of the rest. -/
theorem camelChars_append {us rest : List Char} (hus : ∀ c ∈ us, c = '_') (hrest : rest.head? ≠ some '_') :
    camelChars (us ++ rest) = us ++ camelRest rest := by
  obtain ⟨htake, hdrop⟩ := span_underscores hus hrest
  rw [camelChars, htake, hdrop]
  dsimp only [camelRest, smallLength]
  split
  · rfl
  · rw [List.append_assoc]

/-- The run of capitals in front of another character. -/
theorem takeWhile_capitals {caps : List Char} (hcaps : ∀ b ∈ caps, isUppercase b = true) {c : Char}
    (hc : isUppercase c = false) (tail : List Char) : (caps ++ c :: tail).takeWhile isUppercase = caps := by
  refine (takeWhile_dropWhile_append hcaps fun b hb => ?_).1
  rw [← Option.some.inj hb]
  exact hc

theorem smallCount_le {run n : Nat} (h : run ≠ 0) : smallCount run n ≤ run := by
  unfold smallCount
  split
  · exact Nat.le_refl _
  · omega

/-- Only capitals become small. -/
theorem isUppercase_of_mem_take {rest : List Char} (h : (rest.takeWhile isUppercase).length ≠ 0) :
    ∀ c ∈ rest.take (smallLength rest), isUppercase c = true := by
  intro c hc
  have hle : smallLength rest ≤ (rest.takeWhile isUppercase).length := smallCount_le h
  have hfront : rest.take (smallLength rest) <+: rest.takeWhile isUppercase := by
    rw [List.prefix_iff_eq_take.mp (List.takeWhile_prefix isUppercase (l := rest))]
    exact List.take_prefix_take_left hle
  exact List.mem_takeWhile_imp (hfront.subset hc)

/-- A rest is not changed if its first capitals have no small form. -/
theorem camelRest_eq_self {rest : List Char} (h : ∀ c ∈ rest.take (smallLength rest), toLowercase c = [c]) :
    camelRest rest = rest := by
  unfold camelRest
  split
  · rfl
  · rw [List.flatMap_congr h, List.flatMap_singleton', List.take_append_drop]

/-- Capitals have no small forms at all, or become capitals without one and then a character
    that is no capital. -/
theorem flatMap_toLowercase_cases {caps : List Char} (h : ∀ c ∈ caps, isUppercase c = true) :
    (∀ c ∈ caps, toLowercase c = [c]) ∨
    ∃ same d ds, caps.flatMap toLowercase = same ++ d :: ds ∧ (∀ c ∈ same, isUppercase c = true ∧ toLowercase c = [c]) ∧
      isUppercase d = false ∧ d ≠ '_' := by
  induction caps with
  | nil => exact .inl (List.forall_mem_nil _)
  | cons c caps ih =>
    obtain ⟨hc, hcaps⟩ := List.forall_mem_cons.mp h
    rcases toLowercase_of_isUppercase hc with hsame | ⟨d, ds, hlower, hd, hscore⟩
    · rcases ih hcaps with hall | ⟨same, d, ds, hflat, hsames, hd, hscore⟩
      · exact .inl (List.forall_mem_cons.mpr ⟨hsame, hall⟩)
      · refine .inr ⟨c :: same, d, ds, ?_, List.forall_mem_cons.mpr ⟨⟨hc, hsame⟩, hsames⟩, hd, hscore⟩
        rw [List.flatMap_cons, hsame, hflat]
        rfl
    · refine .inr ⟨[], d, ds ++ caps.flatMap toLowercase, ?_, List.forall_mem_nil _, hd, hscore⟩
      rw [List.flatMap_cons, hlower]
      rfl

/-- Capitals without small forms in front of a character that is no capital are not changed. -/
theorem camelRest_append {same : List Char} (hsame : ∀ c ∈ same, isUppercase c = true ∧ toLowercase c = [c]) {d : Char}
    (hd : isUppercase d = false) (ds : List Char) : camelRest (same ++ d :: ds) = same ++ d :: ds := by
  have hrun := takeWhile_capitals (fun c hc => (hsame c hc).1) hd ds
  cases same with
  | nil => rw [camelRest, hrun]; rfl
  | cons c same =>
    refine camelRest_eq_self fun b hb => (hsame b ?_).2
    have hle : smallLength ((c :: same) ++ d :: ds) ≤ (c :: same).length := by
      rw [smallLength, hrun]
      exact smallCount_le (by simp)
    rw [List.take_append_of_le_length hle] at hb
    exact List.mem_of_mem_take hb

/-- A rest in camel case is not changed, and it does not begin with an underscore. -/
theorem camelRest_stable {rest : List Char} (h : rest.head? ≠ some '_') :
    camelRest (camelRest rest) = camelRest rest ∧ (camelRest rest).head? ≠ some '_' := by
  by_cases hrun : (rest.takeWhile isUppercase).length = 0
  · have hself : camelRest rest = rest := by rw [camelRest, if_pos hrun]
    rw [hself, hself]
    exact ⟨rfl, h⟩
  · rcases flatMap_toLowercase_cases (isUppercase_of_mem_take hrun) with hall | ⟨same, d, ds, hflat, hsame, hd, hscore⟩
    · rw [camelRest_eq_self hall, camelRest_eq_self hall]
      exact ⟨rfl, h⟩
    · have hout : camelRest rest = same ++ d :: (ds ++ rest.drop (smallLength rest)) := by
        rw [camelRest, if_neg hrun, hflat, List.append_assoc]
        rfl
      rw [hout, camelRest_append hsame hd]
      refine ⟨rfl, ?_⟩
      cases same with
      | nil => simpa using hscore
      | cons c same =>
        have hc := (hsame c (List.mem_cons_self ..)).1
        simp only [List.cons_append, List.head?_cons, ne_eq, Option.some.injEq]
        rintro rfl
        exact absurd hc (by decide)

/-! ## Names -/

/-- A name is underscores and a rest that begins with none. -/
theorem exists_underscores (cs : List Char) :
    ∃ us rest, cs = us ++ rest ∧ (∀ c ∈ us, c = '_') ∧ rest.head? ≠ some '_' := by
  refine ⟨cs.takeWhile (· = '_'), cs.dropWhile (· = '_'), List.takeWhile_append_dropWhile.symm, ?_, ?_⟩
  · intro c hc
    simpa using List.mem_takeWhile_imp hc
  · intro hhead
    have := List.head?_dropWhile_not (fun c => decide (c = '_')) cs
    simp [hhead] at this

/-- The rest begins with capitals and goes on with another character: all capitals but the
    last become small, or the only one. -/
theorem camelRest_capitals {caps : List Char} (hne : caps ≠ []) (hcaps : ∀ b ∈ caps, isUppercase b = true) {c : Char}
    (hc : isUppercase c = false) (tail : List Char) :
    camelRest (caps ++ c :: tail) =
      ((caps ++ c :: tail).take (max (caps.length - 1) 1)).flatMap toLowercase ++
        (caps ++ c :: tail).drop (max (caps.length - 1) 1) := by
  have hrun := takeWhile_capitals hcaps hc tail
  have hsmall : smallLength (caps ++ c :: tail) = max (caps.length - 1) 1 := by
    rw [smallLength, hrun, smallCount, if_neg (by simp)]
  rw [camelRest, hrun, if_neg (by simpa using hne), hsmall]

/-- Camel case is stable. For every name: in camel case it is not changed any more, and it has
    the underscores in front that it had before. Where capitals follow them, `caps`, and then
    another character, the rest of the name is unchanged from the last of these capitals
    on, or behind the only one, and what is in front of that becomes small. -/
theorem camelCase_stable (name : String) :
    camelCase (camelCase name) = camelCase name ∧
    (camelCase name).toList.takeWhile (· = '_') = name.toList.takeWhile (· = '_') ∧
    ∀ (us caps : List Char) (c : Char) (tail : List Char), name.toList = us ++ (caps ++ c :: tail) →
      (∀ b ∈ us, b = '_') → caps ≠ [] → (∀ b ∈ caps, isUppercase b = true) → isUppercase c = false →
      (camelCase name).toList =
        us ++ (((caps ++ c :: tail).take (max (caps.length - 1) 1)).flatMap toLowercase ++
          (caps ++ c :: tail).drop (max (caps.length - 1) 1)) := by
  refine ⟨?_, ?_, ?_⟩
  · obtain ⟨us, rest, hname, hus, hrest⟩ := exists_underscores name.toList
    obtain ⟨hstable, hhead⟩ := camelRest_stable hrest
    rw [camelCase, camelCase, String.toList_ofList, hname, camelChars_append hus hrest, camelChars_append hus hhead,
      hstable]
  · obtain ⟨us, rest, hname, hus, hrest⟩ := exists_underscores name.toList
    have hhead := (camelRest_stable hrest).2
    rw [camelCase, String.toList_ofList, hname, camelChars_append hus hrest, (span_underscores hus hrest).1,
      (span_underscores hus hhead).1]
  · intro us caps c tail hname hus hne hcaps hc
    have hrest : (caps ++ c :: tail).head? ≠ some '_' := by
      cases caps with
      | nil => exact absurd rfl hne
      | cons b caps =>
        intro hb
        have hcapital := hcaps b (List.mem_cons_self ..)
        rw [Option.some.inj hb] at hcapital
        exact absurd hcapital (by decide)
    rw [camelCase, String.toList_ofList, hname, camelChars_append hus hrest, camelRest_capitals hne hcaps hc]

/-- The `P` of an acronym and its word stays, and the capitals in front of it become small. -/
theorem camelCase_stable_acronym :
    "__HTMLParser".toList = "__".toList ++ ("HTMLP".toList ++ 'a' :: "rser".toList) ∧
    (camelCase "__HTMLParser").toList = "__".toList ++ ("html".toList ++ "Parser".toList) := by
  have hus : ∀ b ∈ "__".toList, b = '_' := by simp
  have hcaps : "HTMLP".toList.all isUppercase = true := by decide
  refine ⟨by decide, ?_⟩
  exact (camelCase_stable "__HTMLParser").2.2 "__".toList "HTMLP".toList 'a' "rser".toList (by decide) hus (by decide)
    (List.all_eq_true.mp hcaps) (by decide)

end ComponentScript.Script
