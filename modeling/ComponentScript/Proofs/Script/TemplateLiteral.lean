/-
  ComponentScript.Proofs.Script.TemplateLiteral — the value of a template literal.

  A template is read character by character. Its text is cooked like that of a string, but
  for line breaks, which it may contain. A dollar sign in front of a brace opens a
  substitution, which is code up to the brace that closes it. The value of a template is the
  cooked texts around its substitutions and the code in them.

  A template is written piece by piece, and each text is escaped by itself.
  - `ReadsText.read_templateChars`: a text is read back by every reader of template text,
    unless it ends in a dollar sign and a brace follows.
  - `templateBody_straddling`: then the dollar sign and the brace open a substitution.
  - `templateBody_substitution`: a substitution is read back if its code is closed.
-/

import ComponentScript.Proofs.Script.Scan
import ComponentScript.Proofs.Script.StringLiteral

namespace ComponentScript.Script

/-! ## Values -/

/-- What a template says: the texts around its substitutions, and the code of these. -/
structure TemplateValue where
  texts : List (List Nat)
  codes : List (List Char)
  deriving DecidableEq

namespace TemplateValue

/-- More text in front. -/
def cook (units : List Nat) (v : TemplateValue) : TemplateValue := ⟨v.texts.modifyHead (units ++ ·), v.codes⟩

/-- More code in front, inside a substitution. -/
def code (cs : List Char) (v : TemplateValue) : TemplateValue := ⟨v.texts, v.codes.modifyHead (cs ++ ·)⟩

/-- A substitution opens here. -/
def opened (v : TemplateValue) : TemplateValue := ⟨[] :: v.texts, v.codes⟩

/-- A substitution closes here. -/
def closed (v : TemplateValue) : TemplateValue := ⟨v.texts, [] :: v.codes⟩

/-- A substitution in front. -/
def substituted (cs : List Char) (v : TemplateValue) : TemplateValue := ⟨[] :: v.texts, cs :: v.codes⟩

end TemplateValue

/-! ## The reader -/

/-- Where the reader of a template is: in text, between a dollar sign and its brace, or in a
    substitution. -/
inductive TemplatePlace where
  | text (k : Cooking)
  | opening
  | code (s : Scan)

/-- A character of text without an escape; a line break of any kind is a line feed. -/
def cookedChar (c : Char) : Option (List Nat × Cooking) :=
  if c = '\r' then some ([0x0A], .carriage) else some (codeUnits c.toNat, .text)

/-- The value of the characters up to the backtick, which must be the last character. -/
def templateBody : TemplatePlace → List Char → Option TemplateValue
  | _, [] => none
  | .text k, c :: cs =>
    if k.between && c = '\x60' then if cs.isEmpty then some ⟨[[]], []⟩ else none
    else if k.between && c = '$' && cs.head? = some '\x7b' then (templateBody .opening cs).map .opened
    else (k.next cookedChar c).bind fun r => (templateBody (.text r.2) cs).map (.cook r.1)
  | .opening, _ :: cs => templateBody (.code (.code [.substitution])) cs
  | .code s, c :: cs =>
    (s.next c).bind fun s' =>
      if s' = ⟨some .template, []⟩ then (templateBody (.text .text) cs).map .closed
      else (templateBody (.code s') cs).map (.code [c])

/-- The value of a text that is one template literal. -/
def templateValue? (t : String) : Option TemplateValue :=
  match t.toList with
  | '\x60' :: cs => templateBody (.text .text) cs
  | _ => none

namespace TemplateValue

@[simp] theorem cook_nil : cook [] = id := by
  funext v
  obtain ⟨texts, codes⟩ := v
  cases texts <;> rfl

@[simp] theorem cook_comp_cook (us us' : List Nat) : cook us' ∘ cook us = cook (us' ++ us) := by
  funext v
  obtain ⟨texts, codes⟩ := v
  cases texts <;> simp [cook]

theorem cook_injective (us : List Nat) : Function.Injective (cook us) := by
  rintro ⟨texts, codes⟩ ⟨texts', codes'⟩ h
  cases texts <;> cases texts' <;> simp_all [cook]

theorem substituted_injective (cs : List Char) : Function.Injective (substituted cs) := by
  rintro ⟨texts, codes⟩ ⟨texts', codes'⟩ h
  simpa [substituted] using h

@[simp] theorem code_nil : code [] = id := by
  funext v
  obtain ⟨texts, codes⟩ := v
  cases codes <;> rfl

@[simp] theorem code_comp_code (cs cs' : List Char) : code cs' ∘ code cs = code (cs' ++ cs) := by
  funext v
  obtain ⟨texts, codes⟩ := v
  cases codes <;> simp [code]

end TemplateValue

/-! ## Texts -/

/-- A reader of template text: a character that neither ends the text nor opens a substitution
    is cooked, and put in front of what the rest gives. -/
structure ReadsText {α : Type} (read : Cooking → List Char → Option α) (cook : List Nat → α → α) : Prop where
  cook_nil : cook [] = id
  cook_comp_cook (us us' : List Nat) : cook us' ∘ cook us = cook (us' ++ us)
  read_cons {k k' : Cooking} {c : Char} {us : List Nat} {rest : List Char} :
    (k.between && c = '\x60') = false → (k.between && c = '$' && rest.head? = some '\x7b') = false →
    k.next cookedChar c = some (us, k') → read k (c :: rest) = (read k' rest).map (cook us)

theorem head_templateChars {d : Char} (ds rest : List Char)
    (h : (templateChars (d :: ds) ++ rest).head? = some '\x7b') :
    d = '\x7b' := by
  rw [templateChars.eq_def] at h
  split at h
  · next heq => cases heq
  · cases h
  · next heq =>
    cases heq
    unfold templateChar at h
    repeat' split at h
    all_goals first | (cases h; done) | exact Option.some.inj h

namespace ReadsText

variable {α : Type} {read : Cooking → List Char → Option α} {cook : List Nat → α → α} (h : ReadsText read cook)
  {c : Char} {us : List Nat} {rest : List Char}

include h

theorem read_escape (hc : Cooking.escaped c = some (us, .text)) :
    read .text ('\x5c' :: c :: rest) = (read .text rest).map (cook us) := by
  rw [h.read_cons rfl rfl rfl, h.read_cons rfl rfl (k := .escape) hc, h.cook_nil, Option.map_id, id]

theorem read_templateChar (hopen : ¬ (c = '$' ∧ rest.head? = some '\x7b')) :
    read .text (templateChar c ++ rest) = (read .text rest).map (cook (codeUnits c.toNat)) := by
  unfold templateChar
  split
  · subst c; exact h.read_escape rfl
  split
  · subst c; exact h.read_escape rfl
  split
  · subst c; exact h.read_escape rfl
  split
  · subst c; exact h.read_escape rfl
  split
  · subst c; exact h.read_escape rfl
  · next hslash htick _ hreturn _ =>
    refine h.read_cons (by simp [htick]) (by simpa [Cooking.between] using hopen) ?_
    simp [Cooking.next, cookedChar, hslash, hreturn]

/-- A text is read back, unless its last dollar sign comes before a brace. -/
theorem read_templateChars (cs : List Char) (hopen : ¬ (cs.getLast? = some '$' ∧ rest.head? = some '\x7b')) :
    read .text (templateChars cs ++ rest) = (read .text rest).map (cook (unitsOf cs)) := by
  fun_induction templateChars cs with
  | case1 =>
    have hnil : unitsOf [] = [] := rfl
    rw [hnil, h.cook_nil, Option.map_id]
    rfl
  | case2 tail ih =>
    have htail : ¬ (tail.getLast? = some '$' ∧ rest.head? = some '\x7b') := by
      rintro ⟨hlast, hhead⟩
      exact hopen ⟨by simp [List.getLast?_cons, hlast], hhead⟩
    have hbrace : read .text ('\x7b' :: (templateChars tail ++ rest)) =
        (read .text (templateChars tail ++ rest)).map (cook (codeUnits '\x7b'.toNat)) :=
      h.read_cons rfl rfl rfl
    rw [List.cons_append, List.cons_append, List.cons_append, h.read_escape rfl, hbrace, ih htail, Option.map_map,
      Option.map_map, h.cook_comp_cook, h.cook_comp_cook]
    rfl
  | case3 c tail hrest ih =>
    have htail : ¬ (tail.getLast? = some '$' ∧ rest.head? = some '\x7b') := by
      rintro ⟨hlast, hhead⟩
      exact hopen ⟨by simp [List.getLast?_cons, hlast], hhead⟩
    have hdollar : ¬ (c = '$' ∧ (templateChars tail ++ rest).head? = some '\x7b') := by
      rintro ⟨rfl, hhead⟩
      cases tail with
      | nil => exact hopen ⟨rfl, hhead⟩
      | cons d ds => exact hrest ds rfl (congrArg (· :: ds) (head_templateChars ds rest hhead))
    rw [List.append_assoc, h.read_templateChar hdollar, ih htail, Option.map_map, h.cook_comp_cook, unitsOf_cons]

end ReadsText

theorem templateBody_readsText : ReadsText (fun k => templateBody (.text k)) TemplateValue.cook where
  cook_nil := TemplateValue.cook_nil
  cook_comp_cook := TemplateValue.cook_comp_cook
  read_cons hend hopen hnext := by
    rw [templateBody, hend, hopen, hnext]
    rfl

theorem templateBody_templateChars (cs : List Char) {rest : List Char}
    (h : ¬ (cs.getLast? = some '$' ∧ rest.head? = some '\x7b')) :
    templateBody (.text .text) (templateChars cs ++ rest) =
      (templateBody (.text .text) rest).map (.cook (unitsOf cs)) :=
  templateBody_readsText.read_templateChars cs h

/-- A dollar sign at the end of a text is the last character to be written. -/
theorem templateChars_concat (cs : List Char) : templateChars (cs ++ ['$']) = templateChars cs ++ ['$'] := by
  fun_induction templateChars cs with
  | case1 => rfl
  | case2 tail ih => simp [templateChars, ih]
  | case3 c tail hrest ih =>
    have hsplit : templateChars (c :: (tail ++ ['$'])) = templateChar c ++ templateChars (tail ++ ['$']) := by
      rw [templateChars.eq_3]
      intro ds hc hds
      cases tail with
      | nil => cases hds
      | cons d ds' => cases hds; exact hrest ds' hc rfl
    rw [List.cons_append, hsplit, ih, List.append_assoc]

/-- Between a dollar sign at the end of a text and a brace behind it, a substitution opens. -/
theorem templateBody_straddling (cs : List Char) {rest : List Char} (h : rest.head? = some '\x7b') :
    templateBody (.text .text) (templateChars (cs ++ ['$']) ++ rest) =
      (templateBody .opening rest).map fun v => v.opened.cook (unitsOf cs) := by
  have hopen : templateBody (.text .text) ('$' :: rest) = (templateBody .opening rest).map .opened := by
    rw [templateBody, h]
    rfl
  rw [templateChars_concat, List.append_assoc, templateBody_templateChars cs (by simp), List.singleton_append, hopen,
    Option.map_map]
  rfl

/-! ## Substitutions -/

/-- Code is read to its end, wherever the reader is in the substitution. -/
theorem templateBody_code {s t : Scan} {cs : List Char} (h : s.run cs = some t) (rest : List Char) :
    templateBody (.code (s.inside [.substitution])) (cs ++ rest) =
      (templateBody (.code (t.inside [.substitution])) rest).map (.code cs) := by
  induction cs generalizing s with
  | nil => cases h; simp
  | cons c cs ih =>
    rw [Scan.run_cons] at h
    obtain ⟨u, hnext, hrun⟩ := Option.bind_eq_some_iff.mp h
    -- the frame of the substitution is still open, so it does not end here
    have hopen : u.inside [.substitution] ≠ ⟨some .template, []⟩ := by
      intro heq
      have hframes : u.frames ++ [Frame.substitution] = [] := congrArg Scan.frames heq
      simp at hframes
    rw [List.cons_append, templateBody, Scan.next_inside hnext, Option.bind_some, if_neg hopen, ih hrun]
    simp

theorem templateBody_substitution {t : String} (ht : Closed t) (rest : List Char) :
    templateBody (.text .text) ((substitution t).toList ++ rest) =
      (templateBody (.text .text) rest).map (.substituted t.toList) := by
  have hlist : (substitution t).toList ++ rest = '$' :: '\x7b' :: (t.toList ++ '\x7d' :: rest) := by
    simp [substitution]
  have hopen : templateBody (.text .text) ('$' :: '\x7b' :: (t.toList ++ '\x7d' :: rest)) =
      (templateBody (.code (.code [.substitution])) (t.toList ++ '\x7d' :: rest)).map .opened := rfl
  have hcode : templateBody (.code (.code [.substitution])) (t.toList ++ '\x7d' :: rest) =
      (templateBody (.code (.code [.substitution])) ('\x7d' :: rest)).map (.code t.toList) :=
    templateBody_code ht _
  have hclose : templateBody (.code (.code [.substitution])) ('\x7d' :: rest) =
      (templateBody (.text .text) rest).map .closed := rfl
  rw [hlist, hopen, hcode, hclose, Option.map_map, Option.map_map]
  congr 1
  funext v
  simp [TemplateValue.opened, TemplateValue.code, TemplateValue.closed, TemplateValue.substituted]

end ComponentScript.Script
