/-
  ComponentScript.Proofs.Script.ArrowCall — calls of arrow functions, read by their brackets.

  In the first parentheses there is a function, which is its parameters and a body, and in the
  second there are the arguments. A list is cut at the commas outside of brackets and literals.
  What parameters, body and arguments mean is not looked at.

  - `ArrowCall.read?`: the call that a text is, or nothing if it is of another form.
  - `ArrowCall.read_text`: the text of a call is read back, if each of its texts stands for one
    item of a list.
-/

import ComponentScript.Proofs.Script.Formula

namespace ComponentScript.Script

open Text

/-! ## Brackets and lists -/

/-- A text without its first blank, should it begin with one. -/
def dropBlank : List Char → List Char
  | ' ' :: cs => cs
  | cs => cs

namespace Scan

/-- What is in front of the closing bracket of the pair around the text, and what is behind it. -/
def enclosed (closing : Char) (s : Scan) : List Char → Option (List Char × List Char)
  | [] => none
  | c :: cs =>
    if s = code [] ∧ c = closing then some ([], cs)
    else (s.next c).bind fun t => (t.enclosed closing cs).map fun p => (c :: p.1, p.2)

/-- Cuts a text at the commas outside of brackets and literals; a blank behind a comma goes with
    it. -/
def pieces (s : Scan) : List Char → Option (List (List Char))
  | [] => if s = code [] then some [[]] else none
  | c :: cs =>
    if s = code [] ∧ c = ',' then (s.pieces cs).map fun ps => [] :: ps.modifyHead dropBlank
    else (s.next c).bind fun t => (t.pieces cs).map (consLine c)

/-- A closed text does not close the pair around it. -/
theorem enclosed_append {closing : Char} (hclosing : (code []).next closing = none) {s : Scan} {cs : List Char}
    (h : s.run cs = some (code [])) (rest : List Char) :
    s.enclosed closing (cs ++ closing :: rest) = some (cs, rest) := by
  induction cs generalizing s with
  | nil =>
    cases h
    rw [List.nil_append, enclosed, if_pos ⟨rfl, rfl⟩]
  | cons c cs ih =>
    rw [run_cons] at h
    obtain ⟨t, hn, hrun⟩ := Option.bind_eq_some_iff.mp h
    -- the scan stops at a bracket that closes nothing, so there is none in the text
    have hs : ¬ (s = code [] ∧ c = closing) := by
      rintro ⟨rfl, rfl⟩
      rw [hclosing] at hn
      cases hn
    rw [List.cons_append, enclosed, if_neg hs, hn, Option.bind_some, ih hrun]
    rfl

/-- The text goes on with the first piece of what follows it. -/
theorem pieces_append {s : Scan} {cs ds : List Char} (h : s.run cs = some (code [])) (hcomma : ',' ∉ s.outer cs)
    {p : List Char} {ps : List (List Char)} (h' : (code []).pieces ds = some (p :: ps)) :
    s.pieces (cs ++ ds) = some ((cs ++ p) :: ps) := by
  induction cs generalizing s with
  | nil =>
    cases h
    exact h'
  | cons c cs ih =>
    rw [run_cons] at h
    obtain ⟨t, hn, hrun⟩ := Option.bind_eq_some_iff.mp h
    obtain ⟨hs, hrest⟩ := not_mem_outer_cons rfl hn hcomma
    rw [List.cons_append, pieces, if_neg hs, hn, Option.bind_some, ih hrun hrest]
    rfl

end Scan

/-- A text that stands for one item of a list. -/
structure IsItem (t : String) : Prop where
  nonempty : t ≠ ""
  closed : Closed t
  single : ',' ∉ outerChars t

instance : DecidablePred IsItem := fun t =>
  decidable_of_iff (t ≠ "" ∧ Closed t ∧ (outerChars t).contains ',' = false)
    ⟨fun h => ⟨h.1, h.2.1, by simpa using h.2.2⟩, fun h => ⟨h.nonempty, h.closed, by simpa using h.single⟩⟩

theorem IsOperand.isItem {t : String} (h : IsOperand t) : IsItem t where
  nonempty := h.nonempty
  closed := h.closed
  single hm := absurd (h.parts ',' hm) (by decide)

theorem IsItem.append {t u : String} (ht : IsItem t) (hu : IsItem u) : IsItem (t ++ u) where
  nonempty hempty := ht.nonempty (String.append_eq_empty_iff.mp hempty).1
  closed := ht.closed.append hu.closed
  single := by
    rw [outerChars_append ht.closed, List.mem_append, not_or]
    exact ⟨ht.single, hu.single⟩

/-- The items of a list. -/
def listItems (cs : List Char) : Option (List String) :=
  if cs = [] then some [] else ((Scan.code []).pieces cs).map (·.map String.ofList)

theorem pieces_commaList {t : String} {ts : List String} (h : ∀ u ∈ t :: ts, IsItem u) :
    (Scan.code []).pieces (commaList (t :: ts)).toList = some ((t :: ts).map String.toList) := by
  induction ts generalizing t with
  | nil =>
    obtain ⟨ht, -⟩ := List.forall_mem_cons.mp h
    have hend : (Scan.code []).pieces [] = some [[]] := rfl
    simpa [commaList] using Scan.pieces_append ht.closed ht.single hend
  | cons u us ih =>
    obtain ⟨ht, hus⟩ := List.forall_mem_cons.mp h
    have hrest : (Scan.code []).pieces (',' :: ' ' :: (commaList (u :: us)).toList) =
        some ([] :: (u :: us).map String.toList) := by
      have hblank : (Scan.code []).next ' ' = some (.code []) := rfl
      rw [Scan.pieces, if_pos ⟨rfl, rfl⟩, Scan.pieces, if_neg (by decide), hblank, Option.bind_some, ih hus]
      rfl
    have hlist : (commaList (t :: u :: us)).toList = t.toList ++ ',' :: ' ' :: (commaList (u :: us)).toList := by
      rw [commaList, String.intercalate_cons_cons, String.toList_append, String.toList_append, List.append_assoc]
      rfl
    rw [hlist, Scan.pieces_append ht.closed ht.single hrest, List.append_nil]
    rfl

/-- A list of items is read back. -/
theorem listItems_commaList {ts : List String} (h : ∀ t ∈ ts, IsItem t) :
    listItems (commaList ts).toList = some ts := by
  cases ts with
  | nil => rfl
  | cons t ts =>
    have hpieces := pieces_commaList h
    have hne : (commaList (t :: ts)).toList ≠ [] := by
      intro hnil
      rw [hnil] at hpieces
      have hlist : [[]] = (t :: ts).map String.toList := Option.some.inj hpieces
      have hempty : t.toList = [] := (List.cons.inj hlist).1.symm
      exact (h t (List.mem_cons_self ..)).nonempty (String.toList_eq_nil_iff.mp hempty)
    rw [listItems, if_neg hne, hpieces, Option.map_some, List.map_map]
    simp

/-! ## Calls -/

structure ArrowCall where
  params : List String
  body : String
  values : List String

/-- What is behind the given beginning of a text. -/
def behind (front : String) (cs : List Char) : Option (List Char) :=
  if front.toList.isPrefixOf cs then some (cs.drop front.length) else none

theorem behind_append (front : String) (cs : List Char) : behind front (front.toList ++ cs) = some cs := by
  have hfront : front.toList.isPrefixOf (front.toList ++ cs) = true := by simp
  rw [behind, if_pos hfront, ← String.length_toList, List.drop_left]

namespace ArrowCall

def text (c : ArrowCall) : String :=
  let params := commaList c.params
  let values := commaList c.values
  s!"(({params}) => {c.body})({values})"

/-- The call that a text is. Its body must be one item: behind a comma there would be another
    expression, and that one would be called. -/
def read? (t : String) : Option ArrowCall := do
  let cs ← behind "((" t.toList
  let (params, cs) ← (Scan.code []).enclosed ')' cs
  let cs ← behind " => " cs
  let (body, cs) ← (Scan.code []).enclosed ')' cs
  let cs ← behind "(" cs
  let (values, cs) ← (Scan.code []).enclosed ')' cs
  if cs = [] ∧ IsItem (String.ofList body) then
    return ⟨← listItems params, String.ofList body, ← listItems values⟩
  else none

theorem toList_text (c : ArrowCall) :
    c.text.toList = "((".toList ++ ((commaList c.params).toList ++ ')' :: (" => ".toList ++
      (c.body.toList ++ ')' :: ("(".toList ++ ((commaList c.values).toList ++ [')']))))) := by
  show ("((" ++ commaList c.params ++ ") => " ++ c.body ++ ")(" ++ commaList c.values ++ ")").toList = _
  simp

/-- A call of items is read back. -/
theorem read_text {c : ArrowCall} (hparams : ∀ t ∈ c.params, IsItem t) (hbody : IsItem c.body)
    (hvalues : ∀ t ∈ c.values, IsItem t) : read? c.text = some c := by
  have hclosing : (Scan.code []).next ')' = none := rfl
  have hparens := Scan.enclosed_append hclosing (closed_commaList fun t ht => (hparams t ht).closed)
  have hfunction := Scan.enclosed_append hclosing hbody.closed
  have harguments := Scan.enclosed_append hclosing (closed_commaList fun t ht => (hvalues t ht).closed)
  unfold read?
  rw [toList_text, behind_append]
  simp only [Option.bind_eq_bind, Option.bind_some, hparens, behind_append, hfunction, harguments,
    String.ofList_toList]
  rw [if_pos ⟨trivial, hbody⟩, listItems_commaList hparams, listItems_commaList hvalues]
  rfl

end ArrowCall

end ComponentScript.Script
