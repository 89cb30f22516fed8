/-
  ComponentScript.Proofs.Script.TemplateText — the text of a template up to its next stop.

  A template is read up to the backtick that ends it or the dollar sign and brace that open a
  substitution. Escaped text has none of these stops inside, even where it ends in a
  dollar sign and a substitution follows (`templateText_escapeTemplate`).

  Text is escaped in one pass from left to right. That is the same as six replacements, one
  after the other (`templateChars_eq_replacements`), since no replacement makes or breaks
  what a later one looks for. For what stands in quotes this is `escape_eq_replacements`.
-/

import ComponentScript.Proofs.Script.TemplateLiteral

namespace ComponentScript.Script

/-! ## Replacements -/

/-- Each `old` is replaced by `new`. -/
def replaceChar (old : Char) (new : List Char) (cs : List Char) : List Char :=
  cs.flatMap fun c => if c = old then new else [c]

/-- Each `first` with a `second` behind it is replaced, the two of them together. -/
def replacePair (first second : Char) (new : List Char) : List Char → List Char
  | c :: d :: cs =>
    if c = first ∧ d = second then new ++ replacePair first second new cs
    else c :: replacePair first second new (d :: cs)
  | cs => cs

section

variable {old c first second : Char} {new cs : List Char}

theorem replaceChar_append (ds : List Char) :
    replaceChar old new (cs ++ ds) = replaceChar old new cs ++ replaceChar old new ds :=
  List.flatMap_append

theorem notMem_replaceChar_self (h : old ∉ new) : old ∉ replaceChar old new cs := by
  intro hm
  obtain ⟨c, -, hc⟩ := List.mem_flatMap.mp hm
  split at hc
  · exact h hc
  · next hne => exact hne (List.mem_singleton.mp hc).symm

theorem notMem_replaceChar (hnew : c ∉ new) (hcs : c ∉ cs) : c ∉ replaceChar old new cs := by
  intro hm
  obtain ⟨d, hd, hc⟩ := List.mem_flatMap.mp hm
  split at hc
  · exact hnew hc
  · rw [List.mem_singleton.mp hc] at hcs
    exact hcs hd

theorem replacePair_hit :
    replacePair first second new (first :: second :: cs) = new ++ replacePair first second new cs := by
  rw [replacePair, if_pos ⟨rfl, rfl⟩]

theorem replacePair_cons (h : ¬ (c = first ∧ cs.head? = some second)) :
    replacePair first second new (c :: cs) = c :: replacePair first second new cs := by
  cases cs with
  | nil => rfl
  | cons d cs => rw [replacePair, if_neg (by simpa using h)]

theorem replacePair_append {xs : List Char} (h : first ∉ xs) :
    replacePair first second new (xs ++ cs) = xs ++ replacePair first second new cs := by
  induction xs with
  | nil => rfl
  | cons c xs ih =>
    have hc : ¬ (c = first ∧ (xs ++ cs).head? = some second) := fun hpair => h (by simp [hpair.1])
    have hxs : first ∉ xs := fun hm => h (List.mem_cons_of_mem _ hm)
    rw [List.cons_append, replacePair_cons hc, ih hxs, List.cons_append]

end

/-- The replacements of the marks that escapes and templates are made of. -/
def replaceMarks (cs : List Char) : List Char :=
  replaceChar '\x60' ['\x5c', '\x60'] (replaceChar '\x5c' ['\x5c', '\x5c'] cs)

/-- The replacements of the controls. -/
def replaceControls (cs : List Char) : List Char :=
  replaceChar '\t' ['\x5c', 't'] (replaceChar '\r' ['\x5c', 'r'] (replaceChar '\n' ['\x5c', 'n'] cs))

theorem replaceMarks_cons (c : Char) (cs : List Char) :
    replaceMarks (c :: cs) = replaceMarks [c] ++ replaceMarks cs := by
  rw [replaceMarks, replaceMarks, replaceMarks, ← replaceChar_append, ← replaceChar_append]
  rfl

theorem replaceControls_append (cs ds : List Char) :
    replaceControls (cs ++ ds) = replaceControls cs ++ replaceControls ds := by
  simp only [replaceControls, replaceChar_append]

/-- A brace comes first only where it did before. -/
theorem head_replaceMarks {cs : List Char} (h : (replaceMarks cs).head? = some '\x7b') : cs.head? = some '\x7b' := by
  cases cs with
  | nil => exact h
  | cons c cs =>
    by_cases hslash : c = '\x5c'
    · subst hslash
      cases h
    by_cases htick : c = '\x60'
    · subst htick
      cases h
    rw [replaceMarks_cons] at h
    simpa [replaceMarks, replaceChar, hslash, htick] using h

/-- The replacements of one character are its escape. -/
theorem replaceControls_replaceMarks (c : Char) : replaceControls (replaceMarks [c]) = templateChar c := by
  by_cases hslash : c = '\x5c'
  · subst hslash; rfl
  by_cases htick : c = '\x60'
  · subst htick; rfl
  by_cases hfeed : c = '\n'
  · subst hfeed; rfl
  by_cases hreturn : c = '\r'
  · subst hreturn; rfl
  by_cases htab : c = '\t'
  · subst htab; rfl
  simp [replaceControls, replaceMarks, replaceChar, templateChar, hslash, htick, hfeed, hreturn, htab]

/-- The marks of one character open no substitution, unless it is a dollar sign before a brace. -/
theorem replacePair_replaceMarks {c : Char} {new cs : List Char} (h : ¬ (c = '$' ∧ cs.head? = some '\x7b')) :
    replacePair '$' '\x7b' new (replaceMarks [c] ++ cs) = replaceMarks [c] ++ replacePair '$' '\x7b' new cs := by
  by_cases hslash : c = '\x5c'
  · subst hslash
    exact replacePair_append (by decide)
  by_cases htick : c = '\x60'
  · subst htick
    exact replacePair_append (by decide)
  have hmarks : replaceMarks [c] = [c] := by simp [replaceMarks, replaceChar, hslash, htick]
  rw [hmarks]
  exact replacePair_cons h

/-- Escaping text is six replacements, one after the other. -/
theorem templateChars_eq_replacements (cs : List Char) :
    templateChars cs = replaceControls (replacePair '$' '\x7b' ['\x5c', '$', '\x7b'] (replaceMarks cs)) := by
  fun_induction templateChars cs with
  | case1 => rfl
  | case2 tail ih =>
    have hmarks : replaceMarks ('$' :: '\x7b' :: tail) = '$' :: '\x7b' :: replaceMarks tail := rfl
    rw [hmarks, replacePair_hit, replaceControls_append, ← ih]
    rfl
  | case3 c tail hrest ih =>
    have hopen : ¬ (c = '$' ∧ (replaceMarks tail).head? = some '\x7b') := by
      rintro ⟨hc, hhead⟩
      obtain ⟨ds, hds⟩ := List.head?_eq_some_iff.mp (head_replaceMarks hhead)
      exact hrest ds hc hds
    rw [replaceMarks_cons, replacePair_replaceMarks hopen, replaceControls_append, replaceControls_replaceMarks, ih]

/-- So is escaping what stands in quotes; the replacements are of single characters. -/
theorem escape_eq_replacements (t : String) :
    (escape t).toList = replaceChar '\x00' ['\x5c', '0'] (replaceControls
      (replaceChar '\x22' ['\x5c', '\x22'] (replaceChar '\x5c' ['\x5c', '\x5c'] t.toList))) := by
  rw [escape, String.toList_ofList]
  simp only [replaceControls, replaceChar, List.flatMap_assoc]
  refine congrArg (t.toList.flatMap ·) (funext fun c => ?_)
  by_cases hslash : c = '\x5c'
  · subst hslash; rfl
  by_cases hquote : c = '\x22'
  · subst hquote; rfl
  by_cases hfeed : c = '\n'
  · subst hfeed; rfl
  by_cases hreturn : c = '\r'
  · subst hreturn; rfl
  by_cases htab : c = '\t'
  · subst htab; rfl
  simp [escapeChar, hslash, hquote, hfeed, hreturn, htab]

/-! ## The reader -/

/-- Reads text up to the backtick that ends the template or the dollar sign that opens a
    substitution: the units that it stands for, and what is left. -/
def templateText : Cooking → List Char → Option (List Nat × List Char)
  | _, [] => none
  | k, c :: cs =>
    if k.between && c = '\x60' then some ([], c :: cs)
    else if k.between && c = '$' && cs.head? = some '\x7b' then some ([], c :: cs)
    else (k.next cookedChar c).bind fun r => (templateText r.2 cs).map fun v => (r.1 ++ v.1, v.2)

theorem templateText_readsText : ReadsText templateText fun us v => (us ++ v.1, v.2) where
  cook_nil := rfl
  cook_comp_cook us us' := by
    funext v
    simp
  read_cons hend hopen hnext := by
    rw [templateText, hend, hopen, hnext]
    rfl

/-- Where a template ends or a substitution opens, there is no more text. -/
theorem templateText_stop {r : List Char} (h : r.head? = some '\x60' ∨ ['$', '\x7b'] <+: r) :
    templateText .text r = some ([], r) := by
  rcases h with h | ⟨rest, rfl⟩
  · obtain ⟨rest, rfl⟩ := List.head?_eq_some_iff.mp h
    rfl
  · rfl

/-- Escaped text is read back. In front of a backtick or of an opening substitution, the reader
    takes exactly the escaped text, with no such stop inside, and it gives the text. The
    escaped text has no line breaks. -/
theorem templateText_escapeTemplate (t : String) {r : List Char} (hr : r.head? = some '\x60' ∨ ['$', '\x7b'] <+: r) :
    templateText .text ((escapeTemplate t).toList ++ r) = some (unitsOf t.toList, r) ∧
    '\n' ∉ (escapeTemplate t).toList ∧ '\r' ∉ (escapeTemplate t).toList := by
  rw [escapeTemplate, String.toList_ofList]
  refine ⟨?_, ?_, ?_⟩
  · -- a stop does not begin with a brace, so a dollar sign at the end of the text stays one
    have hopen : ¬ (t.toList.getLast? = some '$' ∧ r.head? = some '\x7b') := by
      rintro ⟨-, hhead⟩
      rcases hr with h | ⟨rest, rfl⟩
      · rw [h] at hhead
        cases hhead
      · cases hhead
    rw [templateText_readsText.read_templateChars _ hopen, templateText_stop hr]
    simp
  · rw [templateChars_eq_replacements, replaceControls]
    exact notMem_replaceChar (by decide) (notMem_replaceChar (by decide) (notMem_replaceChar_self (by decide)))
  · rw [templateChars_eq_replacements, replaceControls]
    exact notMem_replaceChar (by decide) (notMem_replaceChar_self (by decide))

/-- A dollar sign at the end of a text, right in front of a substitution, is text. -/
theorem templateText_escapeTemplate_dollar :
    ['$', '\x7b'] <+: "$\x7bprice\x7d`".toList ∧
    templateText .text ((escapeTemplate "`US$\n$").toList ++ "$\x7bprice\x7d`".toList) =
      some (unitsOf "`US$\n$".toList, "$\x7bprice\x7d`".toList) :=
  ⟨by decide, (templateText_escapeTemplate "`US$\n$" (.inr (by decide))).1⟩

end ComponentScript.Script
