/-
  ComponentScript.Proofs.Model.Table — the semantic table as a store and as a file.

  A table is filled step by step with symbols and types (`Insertion`, `ofInsertions`). Each
  sort has a map of its own, and that map holds what the records of its sort make it hold
  (`filled`): the last record of every span but the dummy one, whose records are dropped.

  The file lists the records of both maps in the order of their spans. Maps with the same
  lookups list the same records, so tables that answer alike have the same text. The text
  can be read as long as it does not nest too deep, and what is read answers like the table
  that was written. `table_store_and_file` says all of this of every sequence of steps.
-/

import Mathlib.Data.Finset.Card
import ComponentScript.Model.Table
import ComponentScript.Proofs.Json.Printed
import ComponentScript.Proofs.Syntax.RoundTrip

namespace ComponentScript

open Json Fields

namespace Span

instance : Std.TransOrd Span :=
  inferInstanceAs (Std.TransCmp (compareLex (compareOn Span.start) (compareOn Span.stop)))

instance : Std.LawfulEqOrd Span where
  compare_self := Std.ReflOrd.compare_self
  eq_of_compare {s s'} h := by
    obtain ⟨hstart, hstop⟩ := compareLex_eq_eq.mp h
    obtain ⟨start, stop⟩ := s
    obtain ⟨start', stop'⟩ := s'
    cases (Std.LawfulEqOrd.eq_of_compare hstart : start = start')
    cases (Std.LawfulEqOrd.eq_of_compare hstop : stop = stop')
    rfl

end Span

/-! ## Types and symbols as JSON -/

theorem mem_fieldIf {present : Bool} {key : String} {j : Json} {f : String × Json} (h : f ∈ fieldIf present key j) :
    f = (key, j) := by
  cases present with
  | false => cases h
  | true => exact List.mem_singleton.mp h

theorem Span.printable_toJson (s : Span) {room : Nat} (h : 1 ≤ room) : s.toJson.printable room = true := by
  obtain ⟨room, rfl⟩ : ∃ i, room = i + 1 := ⟨room - 1, by omega⟩
  have hfits : ∀ n : UInt32, (Json.int n.toNat).printable room = true := by
    intro n
    have := n.toNat_lt
    rw [printable, Bool.and_eq_true, decide_eq_true_eq, decide_eq_true_eq]
    omega
  show printableFields room [("start", .int s.start.toNat), ("end", .int s.stop.toNat)] = true
  rw [printableFields, printableFields, hfits, hfits]
  rfl

namespace TypeInfo

mutual
/-- How deep type arguments nest in the type: not at all without any. -/
def nesting : TypeInfo → Nat
  | ⟨_, args, _⟩ => nestingArgs args
def nestingArgs : List TypeInfo → Nat
  | [] => 0
  | t :: ts => max (t.nesting + 1) (nestingArgs ts)
end

theorem toJsonList_eq : toJsonList = List.map toJson := eq_map_of_cons rfl fun _ _ => rfl

theorem toJson_ne_null (t : TypeInfo) : t.toJson ≠ .null := by
  obtain ⟨name, args, implements⟩ := t
  rw [toJson]
  exact Json.noConfusion

mutual
/-- A type takes two levels, and two more for each level of its arguments. -/
theorem printable_toJson : ∀ {t : TypeInfo} {room : Nat}, 2 * t.nesting + 2 ≤ room → t.toJson.printable room = true
  | ⟨name, args, implements⟩, room, h => by
    obtain ⟨room, rfl⟩ : ∃ i, room = i + 2 := ⟨room - 2, by omega⟩
    have hargs : (Json.arr (toJsonList args)).printable (room + 1) = true :=
      printableItems_toJsonList (by rw [nesting] at h; omega)
    have himplements : (Json.arr (implements.map Json.str)).printable (room + 1) = true :=
      printableItems_of_forall fun j hj => by
        obtain ⟨s, -, rfl⟩ := List.mem_map.mp hj
        rfl
    rw [toJson]
    refine printableFields_of_forall fun f hf => ?_
    rcases List.mem_cons.mp hf with rfl | hf
    · rfl
    · rcases List.mem_append.mp hf with hf | hf
      · rw [mem_fieldIf hf]; exact hargs
      · rw [mem_fieldIf hf]; exact himplements
theorem printableItems_toJsonList : ∀ {ts : List TypeInfo} {room : Nat}, 2 * nestingArgs ts ≤ room →
    printableItems room (toJsonList ts) = true
  | [], _, _ => rfl
  | t :: ts, _, h => by
    rw [nestingArgs] at h
    rw [toJsonList, printableItems, printable_toJson (by omega), printableItems_toJsonList (by omega), Bool.and_self]
end

/-- As much depth as the value has is enough. -/
theorem readTypeInfo_reads : ∀ {d : Nat} (t : TypeInfo), t.toJson.depth ≤ d → Reads (readTypeInfo d) t.toJson t := by
  intro d
  induction d with
  | zero =>
    intro t hd
    obtain ⟨name, args, implements⟩ := t
    rw [toJson] at hd
    exact absurd hd (Nat.not_succ_le_zero _)
  | succ d ih =>
    intro t hd
    obtain ⟨name, args, implements⟩ := t
    rw [toJson] at hd ⊢
    refine reads_record ((((gives_required rfl (reads_string name)).map _).seq ?_).seq ?_) rfl ?_
    · cases args with
      | nil => exact gives_default [] (by cases implements <;> rfl)
      | cons arg args =>
        obtain ⟨-, hargs, -⟩ := fitFields_of_succ hd
        exact gives_defaulted rfl (reads_items toJsonList_eq ih hargs)
    · cases implements with
      | nil => exact gives_default [] (by cases args <;> rfl)
      | cons i is => exact gives_defaulted (by cases args <;> rfl) (reads_list fun s _ => reads_string s)
    · cases args <;> cases implements <;> rfl

theorem reads (t : TypeInfo) : Reads TypeInfo.read t.toJson t := by
  have h := readTypeInfo_reads t (Nat.le_refl _)
  exact ⟨h.named, h.ok⟩

end TypeInfo

namespace SymbolInfo

theorem reads (i : SymbolInfo) : Reads SymbolInfo.read i.toJson i := by
  obtain ⟨name, kind, containingType?, type?⟩ := i
  have hkind : Reads SymbolKind.read (.str kind.word) kind := reads_word (by cases kind <;> rfl)
  have htype : Reads (readOption TypeInfo.read) (optionJson TypeInfo.toJson type?) type? :=
    reads_optionJson TypeInfo.toJson_ne_null (fun t _ => t.reads) (Nat.le_refl _)
  exact reads_record (((((gives_required rfl (reads_string name)).map _).seq (gives_required rfl hkind)).seq
    (gives_nullable rfl (reads_string? containingType?))).seq (gives_nullable rfl htype)) rfl rfl

theorem printable_toJson {i : SymbolInfo} {n room : Nat} (h : ∀ t, i.type? = some t → t.nesting ≤ n)
    (hroom : 2 * n + 3 ≤ room) : i.toJson.printable room = true := by
  obtain ⟨name, kind, containingType?, type?⟩ := i
  obtain ⟨room, rfl⟩ : ∃ i, room = i + 1 := ⟨room - 1, by omega⟩
  have hcontaining : (optionJson Json.str containingType?).printable room = true := by cases containingType? <;> rfl
  have htype : (optionJson TypeInfo.toJson type?).printable room = true := by
    cases type? with
    | none => rfl
    | some t =>
      have := h t rfl
      exact t.printable_toJson (by omega)
  show printableFields room [("name", .str name), ("kind", .str kind.word),
    ("containing_type", optionJson Json.str containingType?), ("ty", optionJson TypeInfo.toJson type?)] = true
  simp only [printableFields, hcontaining, htype, printable, Bool.and_self]

end SymbolInfo

namespace SemanticTable

/-! ## Records of one sort -/

section

variable {β : Type}

/-- The map with one record more. The dummy span names no node, so its records are dropped. -/
def keep (m : Std.TreeMap Span β) (r : Span × β) : Std.TreeMap Span β :=
  if r.1.isDummy then m else m.insert r.1 r.2

/-- The map that some records make, one after the other. -/
def filled (rs : List (Span × β)) : Std.TreeMap Span β := rs.foldl keep ∅

/-- The last record for a span. -/
def lastFor (s : Span) (rs : List (Span × β)) : Option β := (rs.filter (·.1 = s)).getLast?.map (·.2)

/-- The spans that the records are for, without the dummy one. -/
def placesOf (rs : List (Span × β)) : Finset Span := ((rs.map (·.1)).filter (!·.isDummy)).toFinset

theorem filled_concat (rs : List (Span × β)) (r : Span × β) : filled (rs ++ [r]) = keep (filled rs) r := by
  simp only [filled, List.foldl_append, List.foldl_cons, List.foldl_nil]

theorem lastFor_concat (s : Span) (rs : List (Span × β)) (r : Span × β) :
    lastFor s (rs ++ [r]) = if r.1 = s then some r.2 else lastFor s rs := by
  by_cases h : r.1 = s <;> simp [lastFor, h]

theorem placesOf_concat (rs : List (Span × β)) (r : Span × β) :
    placesOf (rs ++ [r]) = if r.1.isDummy then placesOf rs else insert r.1 (placesOf rs) := by
  by_cases h : r.1.isDummy = true
  · simp [placesOf, h]
  · ext s
    simp [placesOf, h]

/-- The last record of a span is the one that is found, and none is found for the dummy span. -/
theorem getElem_filled (rs : List (Span × β)) (s : Span) :
    (filled rs)[s]? = if s.isDummy then none else lastFor s rs := by
  induction rs using List.reverseRecOn with
  | nil => simp [filled, lastFor]
  | append_singleton rs r ih =>
    rw [filled_concat, lastFor_concat, keep]
    by_cases hdummy : r.1.isDummy = true
    · -- the record is dropped; it can only be the last one for the dummy span itself
      rw [if_pos hdummy, ih]
      by_cases hs : r.1 = s
      · rw [← hs, if_pos hdummy, if_pos hdummy]
      · rw [if_neg hs]
    · rw [if_neg hdummy, Std.TreeMap.getElem?_insert, ih]
      by_cases hs : r.1 = s
      · subst hs
        rw [if_pos (Std.ReflOrd.compare_self), if_neg hdummy, if_pos rfl]
      · have hne : compare r.1 s ≠ .eq := fun h => hs (Std.LawfulEqOrd.eq_of_compare h)
        rw [if_neg hne, if_neg hs]

theorem mem_filled (rs : List (Span × β)) (s : Span) : s ∈ filled rs ↔ s ∈ placesOf rs := by
  induction rs using List.reverseRecOn with
  | nil => simp [filled, placesOf]
  | append_singleton rs r ih =>
    rw [filled_concat, placesOf_concat, keep]
    by_cases hdummy : r.1.isDummy = true
    · rw [if_pos hdummy, if_pos hdummy, ih]
    · rw [if_neg hdummy, if_neg hdummy, Std.TreeMap.mem_insert, Std.LawfulEqCmp.compare_eq_iff_eq, ih,
        Finset.mem_insert, eq_comm]

/-- The map has one record for each span that is no dummy. -/
theorem size_filled (rs : List (Span × β)) : (filled rs).size = (placesOf rs).card := by
  induction rs using List.reverseRecOn with
  | nil => simp [filled, placesOf]
  | append_singleton rs r ih =>
    rw [filled_concat, placesOf_concat, keep]
    by_cases hdummy : r.1.isDummy = true
    · rw [if_pos hdummy, if_pos hdummy, ih]
    · rw [if_neg hdummy, if_neg hdummy, Std.TreeMap.size_insert, Finset.card_insert_eq_ite, ih]
      simp only [← Std.TreeMap.mem_iff_contains, mem_filled]

/-- Maps with the same lookups list the same records. -/
theorem toList_eq_of_getElem {m m' : Std.TreeMap Span β} (h : ∀ s : Span, m[s]? = m'[s]?) : m.toList = m'.toList :=
  (Std.TreeMap.Equiv.of_forall_constGet?_eq h).toList_eq

/-- Among the records that a map lists, the last one for a span is the one it holds. -/
theorem lastFor_toList (m : Std.TreeMap Span β) (s : Span) : lastFor s m.toList = m[s]? := by
  unfold lastFor
  cases hlast : (m.toList.filter (·.1 = s)).getLast? with
  | none =>
    -- what the map holds, it lists
    have hnone : m.toList.filter (·.1 = s) = [] := List.getLast?_eq_none_iff.mp hlast
    cases hm : m[s]? with
    | none => rfl
    | some v =>
      have hmem := Std.TreeMap.mem_toList_iff_getElem?_eq_some.mpr hm
      have := List.filter_eq_nil_iff.mp hnone (s, v) hmem
      simp at this
  | some r =>
    obtain ⟨hmem, hs⟩ := List.mem_filter.mp (List.mem_of_getLast? hlast)
    have hr : r.1 = s := of_decide_eq_true hs
    subst hr
    exact (Std.TreeMap.mem_toList_iff_getElem?_eq_some.mp hmem).symm

end

/-! ## Steps -/

/-- A step that stores a record. -/
inductive Insertion where
  | symbol (s : Span) (info : SymbolInfo)
  | type (s : Span) (info : TypeInfo)

namespace Insertion

def symbol? : Insertion → Option (Span × SymbolInfo)
  | .symbol s info => some (s, info)
  | .type _ _ => none

def type? : Insertion → Option (Span × TypeInfo)
  | .symbol _ _ => none
  | .type s info => some (s, info)

end Insertion

def insert (t : SemanticTable) : Insertion → SemanticTable
  | .symbol s info => t.insertSymbol s info
  | .type s info => t.insertType s info

/-- The table after some steps. -/
def ofInsertions (steps : List Insertion) : SemanticTable := steps.foldl insert empty

variable (t : SemanticTable) (s : Span)

theorem symbols_insertSymbol (info : SymbolInfo) : (t.insertSymbol s info).symbols = keep t.symbols (s, info) := by
  unfold insertSymbol keep
  split <;> rfl

theorem types_insertSymbol (info : SymbolInfo) : (t.insertSymbol s info).types = t.types := by
  unfold insertSymbol
  split <;> rfl

theorem symbols_insertType (info : TypeInfo) : (t.insertType s info).symbols = t.symbols := by
  unfold insertType
  split <;> rfl

theorem types_insertType (info : TypeInfo) : (t.insertType s info).types = keep t.types (s, info) := by
  unfold insertType keep
  split <;> rfl

theorem symbols_ofInsertions (steps : List Insertion) :
    (ofInsertions steps).symbols = filled (steps.filterMap Insertion.symbol?) := by
  rw [filled, List.foldl_filterMap]
  refine (List.foldl_hom SemanticTable.symbols fun t step => ?_).symm
  cases step with
  | symbol s info => exact (symbols_insertSymbol t s info).symm
  | type s info => exact (symbols_insertType t s info).symm

theorem types_ofInsertions (steps : List Insertion) :
    (ofInsertions steps).types = filled (steps.filterMap Insertion.type?) := by
  rw [filled, List.foldl_filterMap]
  refine (List.foldl_hom SemanticTable.types fun t step => ?_).symm
  cases step with
  | symbol s info => exact (types_insertSymbol t s info).symm
  | type s info => exact (types_insertType t s info).symm

/-- What a table answers after some steps, and how much it holds. -/
structure Stores (t : SemanticTable) (steps : List Insertion) : Prop where
  symbol (s : Span) : t.symbol s = if s.isDummy then none else lastFor s (steps.filterMap Insertion.symbol?)
  type (s : Span) : t.type s = if s.isDummy then none else lastFor s (steps.filterMap Insertion.type?)
  /-- Nothing is held that is not found, so nothing is held for the dummy span. -/
  symbols_held (s : Span) : t.symbols[s]? = t.symbol s
  types_held (s : Span) : t.types[s]? = t.type s
  /-- A record of one sort leaves the other as it is. -/
  symbol_insertType (s : Span) (info : TypeInfo) : (t.insertType s info).symbol = t.symbol
  type_insertSymbol (s : Span) (info : SymbolInfo) : (t.insertSymbol s info).type = t.type
  size : t.size = (placesOf (steps.filterMap Insertion.symbol?)).card +
    (placesOf (steps.filterMap Insertion.type?)).card

theorem ofInsertions_stores (steps : List Insertion) : (ofInsertions steps).Stores steps := by
  have hsymbols : ∀ s : Span, (ofInsertions steps).symbols[s]? =
      if s.isDummy then none else lastFor s (steps.filterMap Insertion.symbol?) := by
    intro s
    rw [symbols_ofInsertions, getElem_filled]
  have htypes : ∀ s : Span, (ofInsertions steps).types[s]? =
      if s.isDummy then none else lastFor s (steps.filterMap Insertion.type?) := by
    intro s
    rw [types_ofInsertions, getElem_filled]
  constructor
  case symbol => intro s; rw [SemanticTable.symbol, hsymbols]; split <;> rfl
  case type => intro s; rw [SemanticTable.type, htypes]; split <;> rfl
  case symbols_held => intro s; rw [SemanticTable.symbol, hsymbols]; split <;> rfl
  case types_held => intro s; rw [SemanticTable.type, htypes]; split <;> rfl
  case symbol_insertType => intro s info; funext s'; rw [SemanticTable.symbol, symbols_insertType]; rfl
  case type_insertSymbol => intro s info; funext s'; rw [SemanticTable.type, types_insertSymbol]; rfl
  case size => rw [size, symbols_ofInsertions, types_ofInsertions, size_filled, size_filled]

/-! ## The text -/

/-- The tables answer alike. -/
def SameLookups (t t' : SemanticTable) : Prop := ∀ s, t.symbol s = t'.symbol s ∧ t.type s = t'.type s

theorem toText_eq_of_lookups {steps steps' : List Insertion}
    (h : (ofInsertions steps).SameLookups (ofInsertions steps')) :
    (ofInsertions steps).toText = (ofInsertions steps').toText := by
  have hs := ofInsertions_stores steps
  have hs' := ofInsertions_stores steps'
  have hsymbols : (ofInsertions steps).symbols.toList = (ofInsertions steps').symbols.toList :=
    toList_eq_of_getElem fun s => by rw [hs.symbols_held, hs'.symbols_held, (h s).1]
  have htypes : (ofInsertions steps).types.toList = (ofInsertions steps').types.toList :=
    toList_eq_of_getElem fun s => by rw [hs.types_held, hs'.types_held, (h s).2]
  rw [toText, toText, toJson, toJson, hsymbols, htypes]

/-- The entries of a file, as steps. -/
def Entries.steps (e : Entries) : List Insertion :=
  e.symbols.map (fun r => .symbol r.1 r.2) ++ e.types.map fun r => .type r.1 r.2

theorem ofEntries_eq (e : Entries) : ofEntries e = ofInsertions e.steps := by
  rw [ofInsertions, Entries.steps, List.foldl_append, List.foldl_map, List.foldl_map]
  rfl

theorem Entries.symbols_steps (e : Entries) : e.steps.filterMap Insertion.symbol? = e.symbols := by
  simp [Entries.steps, List.filterMap_map, Function.comp_def, Insertion.symbol?]

theorem Entries.types_steps (e : Entries) : e.steps.filterMap Insertion.type? = e.types := by
  simp [Entries.steps, List.filterMap_map, Function.comp_def, Insertion.type?]

/-- The records that a table lists. -/
def entries (t : SemanticTable) : Entries := ⟨t.symbols.toList, t.types.toList⟩

/-- A table that is filled with the records of another one answers like it. -/
theorem sameLookups_entries (steps : List Insertion) :
    (ofInsertions (ofInsertions steps).entries.steps).SameLookups (ofInsertions steps) := by
  intro s
  have hs := ofInsertions_stores steps
  have hs' := ofInsertions_stores (ofInsertions steps).entries.steps
  rw [hs'.symbol, hs'.type, Entries.symbols_steps, Entries.types_steps]
  show (if s.isDummy then none else lastFor s (ofInsertions steps).symbols.toList) = _ ∧
    (if s.isDummy then none else lastFor s (ofInsertions steps).types.toList) = _
  rw [lastFor_toList, lastFor_toList, hs.symbols_held, hs.types_held, SemanticTable.symbol, SemanticTable.type]
  by_cases hdummy : s.isDummy = true
  · simp [hdummy]
  · simp [hdummy]

/-! ## The file -/

/-- No type that the table answers with has arguments that nest deeper than `n`. -/
structure NestsAtMost (t : SemanticTable) (n : Nat) : Prop where
  symbol : ∀ s info ty, t.symbol s = some info → info.type? = some ty → ty.nesting ≤ n
  type : ∀ s ty, t.type s = some ty → ty.nesting ≤ n

theorem printable_entries {β : Type} {encode : β → Json} {key : String} {rs : List (Span × β)} {room : Nat}
    (h : ∀ r ∈ rs, (encode r.2).printable room = true) (hroom : 1 ≤ room) :
    printableItems (room + 1) (rs.map fun r => .obj [("span", r.1.toJson), (key, encode r.2)]) = true := by
  refine printableItems_of_forall fun j hj => ?_
  obtain ⟨r, hr, rfl⟩ := List.mem_map.mp hj
  show printableFields room [("span", r.1.toJson), (key, encode r.2)] = true
  rw [printableFields, printableFields, r.1.printable_toJson hroom, h r hr]
  rfl

/-- Around a symbol the file has three levels, and the symbol has one around its type. -/
theorem printable_toJson {steps : List Insertion} {n room : Nat} (h : (ofInsertions steps).NestsAtMost n)
    (hroom : 2 * n + 6 ≤ room) : (ofInsertions steps).toJson.printable room = true := by
  obtain ⟨room, rfl⟩ : ∃ i, room = i + 3 := ⟨room - 3, by omega⟩
  have hs := ofInsertions_stores steps
  have hsymbols : ∀ r ∈ (ofInsertions steps).symbols.toList, r.2.toJson.printable room = true := by
    intro r hr
    have hfound : (ofInsertions steps).symbol r.1 = some r.2 := by
      rw [← hs.symbols_held]
      exact Std.TreeMap.mem_toList_iff_getElem?_eq_some.mp hr
    exact SymbolInfo.printable_toJson (fun ty hty => h.symbol _ _ ty hfound hty) (by omega)
  have htypes : ∀ r ∈ (ofInsertions steps).types.toList, r.2.toJson.printable room = true := by
    intro r hr
    have hfound : (ofInsertions steps).type r.1 = some r.2 := by
      rw [← hs.types_held]
      exact Std.TreeMap.mem_toList_iff_getElem?_eq_some.mp hr
    have := h.type _ _ hfound
    exact TypeInfo.printable_toJson (by omega)
  simp only [toJson, printable, printableFields, printable_entries hsymbols (by omega),
    printable_entries htypes (by omega), Bool.and_self]

theorem reads_toJson (t : SemanticTable) : Reads SemanticTable.read t.toJson (ofInsertions t.entries.steps) := by
  have hsymbols : Reads (readList readSymbolEntry) (.arr (t.symbols.toList.map fun e =>
      .obj [("span", e.1.toJson), ("symbol", e.2.toJson)])) t.symbols.toList :=
    reads_list fun e _ => reads_record
      (((gives_required rfl e.1.reads).map _).seq (gives_required rfl e.2.reads)) rfl rfl
  have htypes : Reads (readList readTypeEntry) (.arr (t.types.toList.map fun e =>
      .obj [("span", e.1.toJson), ("type", e.2.toJson)])) t.types.toList :=
    reads_list fun e _ => reads_record
      (((gives_required rfl e.1.reads).map _).seq (gives_required rfl e.2.reads)) rfl rfl
  rw [← ofEntries_eq]
  exact reads_record (((gives_defaulted rfl hsymbols).map _).seq (gives_defaulted rfl htypes)) rfl rfl

/-- The table that a table's text is read as. -/
theorem ofText_toText {steps : List Insertion} (h : (ofInsertions steps).NestsAtMost 60) :
    ofText (ofInsertions steps).toText = .ok (ofInsertions (ofInsertions steps).entries.steps) :=
  readWhole_pretty (printable_toJson h (by decide)) (reads_toJson _)

/-- Whatever is stored, in whatever order: the table answers with the last record of each sort
    for a span. Its text can be read, unless it nests too deep, as a table that answers alike,
    and it is the text of every table that answers alike. -/
theorem table_store_and_file (steps : List Insertion) :
    (ofInsertions steps).Stores steps ∧
      ((ofInsertions steps).NestsAtMost 60 →
        ∃ t, ofText (ofInsertions steps).toText = .ok t ∧ t.SameLookups (ofInsertions steps)) ∧
      ∀ steps', (ofInsertions steps').SameLookups (ofInsertions steps) →
        (ofInsertions steps').toText = (ofInsertions steps).toText := by
  refine ⟨ofInsertions_stores steps, fun h => ?_, fun steps' h => toText_eq_of_lookups h⟩
  exact ⟨_, ofText_toText h, sameLookups_entries steps⟩

/-- How deep type arguments nest in the record. -/
def Insertion.nesting : Insertion → Nat
  | .symbol _ info => (info.type?.map TypeInfo.nesting).getD 0
  | .type _ info => info.nesting

theorem mem_of_lastFor {β : Type} {s : Span} {rs : List (Span × β)} {v : β} (h : lastFor s rs = some v) :
    (s, v) ∈ rs := by
  obtain ⟨r, hr, rfl⟩ := Option.map_eq_some_iff.mp h
  obtain ⟨hmem, hs⟩ := List.mem_filter.mp (List.mem_of_getLast? hr)
  rw [← (of_decide_eq_true hs : r.1 = s)]
  exact hmem

/-- A table has no types but those that were stored. -/
theorem nestsAtMost_of_steps {steps : List Insertion} {n : Nat} (h : ∀ step ∈ steps, step.nesting ≤ n) :
    (ofInsertions steps).NestsAtMost n := by
  have hs := ofInsertions_stores steps
  constructor
  case symbol =>
    intro s info ty hfound hty
    rw [hs.symbol] at hfound
    split at hfound
    · cases hfound
    · obtain ⟨step, hstep, hrecord⟩ := List.mem_filterMap.mp (mem_of_lastFor hfound)
      cases step with
      | symbol s' info' =>
        cases hrecord
        simpa [Insertion.nesting, hty] using h _ hstep
      | type s' ty' => cases hrecord
  case type =>
    intro s ty hfound
    rw [hs.type] at hfound
    split at hfound
    · cases hfound
    · obtain ⟨step, hstep, hrecord⟩ := List.mem_filterMap.mp (mem_of_lastFor hfound)
      cases step with
      | symbol s' info' => cases hrecord
      | type s' ty' =>
        cases hrecord
        exact h _ hstep

/-- A symbol that is replaced, one without a place, and a type with an argument. -/
def itemsSteps : List Insertion := [
  .symbol ⟨4, 9⟩ ⟨"Items", .field, none, none⟩,
  .symbol Span.dummy ⟨"Lost", .local_, none, none⟩,
  .type ⟨4, 9⟩ ⟨"List", [.named "Item"], ["IEnumerable"]⟩,
  .symbol ⟨4, 9⟩ ⟨"Items", .property, some "Cart", some (.named "List")⟩]

/-- The file has the later symbol and nothing for the dummy span. -/
theorem table_store_and_file_items : (ofInsertions itemsSteps).NestsAtMost 60 ∧ (ofInsertions itemsSteps).size = 2 ∧
    ∃ t, ofText (ofInsertions itemsSteps).toText = .ok t ∧
      t.symbol ⟨4, 9⟩ = some ⟨"Items", .property, some "Cart", some (.named "List")⟩ ∧ t.symbol Span.dummy = none := by
  have hn : (ofInsertions itemsSteps).NestsAtMost 60 := nestsAtMost_of_steps (by decide)
  obtain ⟨hstores, hfile, -⟩ := table_store_and_file itemsSteps
  obtain ⟨t, ht, hsame⟩ := hfile hn
  refine ⟨hn, hstores.size.trans (by decide +kernel), t, ht, ?_, ?_⟩
  · rw [(hsame _).1, hstores.symbol]
    rfl
  · rw [(hsame _).1, hstores.symbol]
    rfl

end SemanticTable

end ComponentScript
