/-
  ComponentScript.Proofs.Json.Reads — when reading a value gives back what was written.

  `Reads read j a`: wherever the value `j` comes from, the reader gives `a`. The value may be at
  hand or set aside, or stand in a text that has room for it (`Origin.Holds`).
  `Fields.Gives f fields a` says the same for the fields of an object. The lemmas follow the
  readers: a list from its items, an option from its value or null, a record from its fields
  (`reads_record`), a tagged record from its tag and the fields of that variant (`Tagged`,
  `reads_tagged`), a node from its own fields beside a tagged record (`reads_node`).
-/

import ComponentScript.Json.Fields

namespace ComponentScript.Json

theorem readable_of_mem_items {room : Nat} {items : List Json} (h : readableItems room items = true) {j : Json}
    (hj : j ∈ items) : j.readable room = true := by
  induction items with
  | nil => cases hj
  | cons i items ih =>
    rw [readableItems, Bool.and_eq_true] at h
    rcases List.mem_cons.mp hj with rfl | hj
    · exact h.1
    · exact ih h.2 hj

theorem readable_of_mem_fields {room : Nat} {fields : List (String × Json)}
    (h : readableFields room fields = true) {f : String × Json} (hf : f ∈ fields) : f.2.readable room = true := by
  induction fields with
  | nil => cases hf
  | cons g fields ih =>
    obtain ⟨key, j⟩ := g
    rw [readableFields, Bool.and_eq_true] at h
    rcases List.mem_cons.mp hf with rfl | hf
    · exact h.1
    · exact ih h.2 hf

mutual
/-- What can be read can be passed over. -/
theorem skippable_of_readable {room : Nat} : ∀ {j : Json}, j.readable room = true → j.skippable = true
  | .null, _ | .bool _, _ | .int _, _ | .real _, _ | .str _, _ => rfl
  | .arr _, h => by
    cases room with
    | zero => cases h
    | succ room => exact skippableItems_of_readable h
  | .obj _, h => by
    cases room with
    | zero => cases h
    | succ room => exact skippableFields_of_readable h
theorem skippableItems_of_readable {room : Nat} :
    ∀ {items : List Json}, readableItems room items = true → skippableItems items = true
  | [], _ => rfl
  | j :: items, h => by
    rw [readableItems, Bool.and_eq_true] at h
    rw [skippableItems, skippable_of_readable h.1, skippableItems_of_readable h.2, Bool.and_self]
theorem skippableFields_of_readable {room : Nat} :
    ∀ {fields : List (String × Json)}, readableFields room fields = true → skippableFields fields = true
  | [], _ => rfl
  | (key, j) :: fields, h => by
    rw [readableFields, Bool.and_eq_true] at h
    rw [skippableFields, skippable_of_readable h.1, skippableFields_of_readable h.2, Bool.and_self]
end

/-- The value is complete where it comes from: a text has room for it and does not go wrong
    inside it. -/
def Origin.Holds : Origin → Json → Prop
  | .text room, j => j.readable room = true
  | .value, _ => True
  | .aside, _ => True

theorem Origin.holds_str (o : Origin) (s : String) : o.Holds (.str s) := by
  cases o with
  | text room => rfl
  | value => trivial
  | aside => trivial

namespace Origin.Holds

variable {o : Origin}

theorem skips {j : Json} (h : o.Holds j) : o.skips j = true := by
  cases o with
  | text room => exact skippable_of_readable h
  | value => rfl
  | aside => rfl

theorem keeps {j : Json} (h : o.Holds j) : o.keeps j = true := by
  cases o with
  | text room => exact h
  | value => rfl
  | aside => rfl

theorem items {items : List Json} (h : o.Holds (.arr items)) :
    ∃ o', o.enter = .ok o' ∧ ∀ j ∈ items, o'.Holds j := by
  cases o with
  | text room =>
    cases room with
    | zero => cases h
    | succ room => exact ⟨.text room, rfl, fun j hj => readable_of_mem_items h hj⟩
  | value => exact ⟨.value, rfl, fun _ _ => trivial⟩
  | aside => exact ⟨.aside, rfl, fun _ _ => trivial⟩

theorem fields {fields : List (String × Json)} (h : o.Holds (.obj fields)) :
    ∃ o', o.enter = .ok o' ∧ ∀ f ∈ fields, o'.Holds f.2 := by
  cases o with
  | text room =>
    cases room with
    | zero => cases h
    | succ room => exact ⟨.text room, rfl, fun f hf => readable_of_mem_fields h hf⟩
  | value => exact ⟨.value, rfl, fun _ _ => trivial⟩
  | aside => exact ⟨.aside, rfl, fun _ _ => trivial⟩

end Origin.Holds

/-- The reader takes the complete value `j` to `a`, and `j` is no field without a name. -/
structure Reads {α : Type} (read : Reader α) (j : Json) (a : α) : Prop where
  named : j.isMisnamed = false
  ok {o : Origin} : o.Holds j → read o j = .ok a

/-! ## Plain values -/

theorem reads_string (s : String) : Reads readString (.str s) s := ⟨rfl, fun _ => rfl⟩

theorem reads_bool (b : Bool) : Reads readBool (.bool b) b := ⟨rfl, fun _ => rfl⟩

theorem reads_uint32 (n : UInt32) : Reads readUInt32 (.int n.toNat) n := by
  refine ⟨rfl, fun _ => ?_⟩
  have hlt : (n.toNat : Int) < 4294967296 := by have := n.toNat_lt; omega
  have hle : (0 : Int) ≤ n.toNat := Int.natCast_nonneg _
  simp only [readUInt32, hlt, hle, decide_true, Bool.and_self, if_true, Int.toNat_natCast, UInt32.ofNat_toNat]

theorem reads_char (c : Char) : Reads readChar (.str (String.ofList [c])) c := by
  refine ⟨rfl, fun _ => ?_⟩
  simp only [readChar, String.toList_ofList]

/-- A word of an enumeration, where the words tell its members apart. -/
theorem reads_word {α : Type} {all : List α} {word : α → String} {a : α}
    (h : all.find? (fun b => word b = word a) = some a) : Reads (readWord all word) (.str (word a)) a := by
  refine ⟨rfl, fun _ => ?_⟩
  simp only [readWord, h]

theorem reads_list {α : Type} {read : Reader α} {encode : α → Json} {as : List α}
    (h : ∀ a ∈ as, Reads read (encode a) a) : Reads (readList read) (.arr (as.map encode)) as := by
  refine ⟨rfl, fun {o} ho => ?_⟩
  obtain ⟨o', henter, hparts⟩ := ho.items
  have hitems : (as.map encode).mapM (read o') = .ok as := by
    clear ho
    induction as with
    | nil => rfl
    | cons a as ih =>
      have ha := (h a (List.mem_cons_self ..)).ok (hparts _ (List.mem_cons_self ..))
      have hrest := ih (fun b hb => h b (List.mem_cons_of_mem _ hb)) fun j hj => hparts j (List.mem_cons_of_mem _ hj)
      rw [List.map_cons, List.mapM_cons, ha, hrest]
      rfl
  simp only [readList, henter]
  exact hitems

theorem reads_null {α : Type} (read : Reader α) : Reads (readOption read) .null none := ⟨rfl, fun _ => rfl⟩

theorem reads_some {α : Type} {read : Reader α} {j : Json} {a : α} (hj : j ≠ .null) (h : Reads read j a) :
    Reads (readOption read) j (some a) := by
  refine ⟨h.named, fun {o} ho => ?_⟩
  have hread : readOption read o j = some <$> read o j := by
    cases j with
    | null => exact absurd rfl hj
    | _ => rfl
  rw [hread, h.ok ho]
  rfl

/-! ## Fields -/

theorem findField_of_lookup {key : String} {j : Json} {fields : List (String × Json)}
    (h : fields.lookup key = some j) (place : Nat) : ∃ p, findField key place fields = some (p, j) := by
  induction fields generalizing place with
  | nil => cases h
  | cons f fields ih =>
    obtain ⟨name, value⟩ := f
    unfold findField
    rw [List.lookup_cons] at h
    by_cases heq : name = key
    · subst heq
      rw [beq_self_eq_true] at h
      cases h
      exact ⟨place, if_pos rfl⟩
    · rw [beq_false_of_ne (Ne.symm heq)] at h
      rw [if_neg heq]
      exact ih h (place + 1)

theorem findField_of_lookup_none {key : String} {fields : List (String × Json)}
    (h : fields.lookup key = none) (place : Nat) : findField key place fields = none := by
  induction fields generalizing place with
  | nil => rfl
  | cons f fields ih =>
    obtain ⟨name, value⟩ := f
    unfold findField
    rw [List.lookup_cons] at h
    by_cases heq : name = key
    · subst heq
      rw [beq_self_eq_true] at h
      cases h
    · rw [beq_false_of_ne (Ne.symm heq)] at h
      rw [if_neg heq]
      exact ih h (place + 1)

/-- The fields of an object are read as `a`, and those that are asked for have names. -/
structure Fields.Gives {α : Type} (f : Fields α) (fields : List (String × Json)) (a : α) : Prop where
  named : ∀ key ∈ f.names, ∀ j, fields.lookup key = some j → j.isMisnamed = false
  ok {o : Origin} : (∀ p ∈ fields, o.Holds p.2) → f.read o fields = .ok a

namespace Fields

variable {α β : Type} {fields : List (String × Json)} {key : String} {read : Reader α} {j : Json} {a : α}

theorem gives_pure (a : α) : (Pure.pure a : Fields α).Gives fields a := ⟨nofun, fun _ => rfl⟩

theorem Gives.map {f : Fields α} (h : f.Gives fields a) (g : α → β) : (g <$> f).Gives fields (g a) := by
  refine ⟨h.named, fun {o} ho => ?_⟩
  show (Located.ok g).both (f.read o fields) = _
  rw [h.ok ho]
  rfl

theorem Gives.seq {f : Fields (α → β)} {x : Fields α} {g : α → β} (hf : f.Gives fields g)
    (hx : x.Gives fields a) : (f <*> x).Gives fields (g a) := by
  refine ⟨fun key hk => ?_, fun {o} ho => ?_⟩
  · rcases List.mem_append.mp hk with hk | hk
    · exact hf.named key hk
    · exact hx.named key hk
  · show (f.read o fields).both (x.read o fields) = _
    rw [hf.ok ho, hx.ok ho]
    rfl

theorem mem_of_lookup (hl : fields.lookup key = some j) : (key, j) ∈ fields := by
  obtain ⟨before, after, heq, -⟩ := List.lookup_eq_some_iff.mp hl
  rw [heq]
  exact List.mem_append_right _ (List.mem_cons_self ..)

theorem named_of_lookup (hl : fields.lookup key = some j) (hj : j.isMisnamed = false) :
    ∀ name ∈ [key], ∀ i, fields.lookup name = some i → i.isMisnamed = false := by
  intro name hn i hi
  rw [List.mem_singleton.mp hn, hl] at hi
  cases hi
  exact hj

theorem gives_required (hl : fields.lookup key = some j) (h : Reads read j a) :
    (required key read).Gives fields a := by
  refine ⟨named_of_lookup hl h.named, fun {o} ho => ?_⟩
  obtain ⟨p, hp⟩ := findField_of_lookup hl 0
  simp only [required, hp, h.ok (ho _ (mem_of_lookup hl)), Located.ofReading]

theorem gives_defaulted {default : α} (hl : fields.lookup key = some j) (h : Reads read j a) :
    (defaulted key default read).Gives fields a := by
  refine ⟨named_of_lookup hl h.named, fun {o} ho => ?_⟩
  obtain ⟨p, hp⟩ := findField_of_lookup hl 0
  simp only [defaulted, hp, h.ok (ho _ (mem_of_lookup hl)), Located.ofReading]

theorem gives_default (default : α) (hl : fields.lookup key = none) :
    (defaulted key default read).Gives fields default := by
  refine ⟨fun name hn i hi => ?_, fun {o} _ => ?_⟩
  · rw [List.mem_singleton.mp hn, hl] at hi
    cases hi
  · simp only [defaulted, findField_of_lookup_none hl]

theorem gives_nullable {a? : Option α} (hl : fields.lookup key = some j) (h : Reads (readOption read) j a?) :
    (nullable key read).Gives fields a? :=
  gives_defaulted hl h

end Fields

/-! ## Objects -/

/-- Whether no name occurs twice. -/
def distinct : List String → Bool
  | [] => true
  | name :: names => !names.contains name && distinct names

theorem nodup_of_distinct {names : List String} (h : distinct names = true) : names.Nodup := by
  induction names with
  | nil => exact List.nodup_nil
  | cons name names ih =>
    rw [distinct, Bool.and_eq_true, Bool.not_eq_true', List.contains_eq_mem, decide_eq_false_iff_not] at h
    exact List.nodup_cons.mpr ⟨h.1, ih h.2⟩

theorem lookup_of_mem {fields : List (String × Json)} (hd : (fields.map (·.1)).Nodup) {key : String} {j : Json}
    (h : (key, j) ∈ fields) : fields.lookup key = some j := by
  induction fields with
  | nil => cases h
  | cons f fields ih =>
    obtain ⟨name, value⟩ := f
    rw [List.map_cons, List.nodup_cons] at hd
    rw [List.lookup_cons]
    rcases List.mem_cons.mp h with heq | h
    · cases heq
      rw [beq_self_eq_true]
    · have hmem : key ∈ fields.map (·.1) := List.mem_map.mpr ⟨(key, j), h, rfl⟩
      have hne : key ≠ name := fun heq => hd.1 (heq ▸ hmem)
      rw [beq_false_of_ne hne]
      exact ih hd.2 h

/-- Fields whose names can be read and differ, all of which can be passed over. -/
theorem obstacle_ok {names : List String} {pass : Json → Bool} {fields : List (String × Json)}
    (hpass : ∀ f ∈ fields, pass f.2 = true) (hn : ∀ f ∈ fields, f.2.isMisnamed = false)
    (hd : (fields.map (·.1)).Nodup) :
    ∀ {seen : List String} {place : Nat}, (∀ key ∈ fields.map (·.1), key ∉ seen) →
      obstacle names pass place seen fields = .ok () := by
  induction fields with
  | nil => intros; rfl
  | cons f fields ih =>
    intro seen place hseen
    obtain ⟨key, j⟩ := f
    rw [List.map_cons, List.nodup_cons] at hd
    have hj : j.isMisnamed = false := hn _ (List.mem_cons_self ..)
    have hpassj : pass j = true := hpass _ (List.mem_cons_self ..)
    have hkey : seen.contains key = false := by
      rw [List.contains_eq_mem, decide_eq_false_iff_not]
      exact hseen key (List.mem_cons_self ..)
    have hrest := @ih (fun f hf => hpass f (List.mem_cons_of_mem _ hf))
      (fun f hf => hn f (List.mem_cons_of_mem _ hf)) hd.2
    have hold : ∀ name ∈ fields.map (·.1), name ∉ seen := fun name hm => hseen name (List.mem_cons_of_mem _ hm)
    have hnew : ∀ name ∈ fields.map (·.1), name ∉ key :: seen := by
      intro name hm hc
      rcases List.mem_cons.mp hc with rfl | hc
      · exact hd.1 hm
      · exact hold name hm hc
    unfold obstacle
    simp only [hj, hkey, hpassj, if_true, Bool.false_eq_true, if_false]
    by_cases hasked : names.contains key
    · rw [if_pos hasked]; exact hrest hnew
    · rw [if_neg hasked]; exact hrest hold

namespace Fields

variable {α : Type} {f : Fields α} {fields : List (String × Json)} {a : α}

theorem Gives.ofObject (h : f.Gives fields a) (hn : ∀ p ∈ fields, p.2.isMisnamed = false)
    (hd : (fields.map (·.1)).Nodup) {pass : Json → Bool} (hpass : ∀ p ∈ fields, pass p.2 = true) {o : Origin}
    (ho : ∀ p ∈ fields, o.Holds p.2) : f.ofObject pass o fields = .ok a := by
  unfold Fields.ofObject
  rw [h.ok ho, obstacle_ok hpass hn hd fun _ _ => List.not_mem_nil]
  rfl

/-- If nothing else is there, the fields that are asked for are all that need names. -/
theorem Gives.named_all (h : f.Gives fields a) (hd : f.names.Nodup)
    (hk : (fields.map (·.1)).isSublist f.names = true) : ∀ p ∈ fields, p.2.isMisnamed = false := by
  have hsub := List.isSublist_iff_sublist.mp hk
  intro p hp
  exact h.named p.1 (hsub.subset (List.mem_map_of_mem hp)) p.2 (lookup_of_mem (hd.sublist hsub) hp)

end Fields

/-- A record whose fields are among those that are asked for, in their order. -/
theorem reads_record {α : Type} {f : Fields α} {fields : List (String × Json)} {a : α} (h : f.Gives fields a)
    (hd : distinct f.names = true) (hk : (fields.map (·.1)).isSublist f.names = true) :
    Reads (readRecord f) (.obj fields) a := by
  have hnodup := nodup_of_distinct hd
  refine ⟨rfl, fun {o} ho => ?_⟩
  obtain ⟨o', henter, hparts⟩ := ho.fields
  simp only [readRecord, henter]
  exact h.ofObject (h.named_all hnodup hk) (hnodup.sublist (List.isSublist_iff_sublist.mp hk))
    (fun p hp => (hparts p hp).skips) hparts

/-! ## Tagged records -/

/-- The fields are a tag and the fields of its variant, which stands for `a`. Neither they
    nor the `reserved` names clash. -/
inductive Tagged {α : Type} (reserved : List String) (tag : String) (variants : Variants α) :
    List (String × Json) → α → Prop
  | intro {word : String} {f : Fields α} {rest : List (String × Json)} {a : α} :
      variants.lookup word = some f → f.Gives rest a → distinct (reserved ++ tag :: f.names) = true →
      (rest.map (·.1)).isSublist f.names = true → Tagged reserved tag variants ((tag, .str word) :: rest) a

theorem reads_tag {α : Type} {variants : Variants α} {word : String} {f : Fields α}
    (h : variants.lookup word = some f) : Reads (readTag variants) (.str word) f := by
  refine ⟨rfl, fun {o} _ => ?_⟩
  simp only [readTag, h]

/-- Fields that do not have the given names are left as they are. -/
theorem without_eq_self {names : List String} {fields : List (String × Json)}
    (h : ∀ key ∈ fields.map (·.1), key ∉ names) : without names fields = fields := by
  refine List.filter_eq_self.mpr fun p hp => ?_
  rw [Bool.not_eq_true', List.contains_eq_mem, decide_eq_false_iff_not]
  exact h p.1 (List.mem_map_of_mem hp)

/-- What follows from the parts of a tagged record about its fields. -/
structure TaggedFields {α : Type} (variants : Variants α) (reserved : List String) (tag : String)
    (fields : List (String × Json)) (f : Fields α) (rest : List (String × Json)) : Prop where
  tag_gives : (required tag (readTag variants)).Gives fields f
  named : ∀ p ∈ fields, p.2.isMisnamed = false
  nodup : (reserved ++ fields.map (·.1)).Nodup
  without_tag : without [tag] fields = rest

theorem Tagged.fields {α : Type} {reserved : List String} {tag : String} {variants : Variants α}
    {fields : List (String × Json)} {a : α} (h : Tagged reserved tag variants fields a) :
    ∃ f rest, TaggedFields variants reserved tag fields f rest ∧ f.ofAside rest = .ok a := by
  obtain ⟨hv, hf, hd, hk⟩ := h
  rename_i word f rest
  have hsub := List.isSublist_iff_sublist.mp hk
  have hnames : (reserved ++ tag :: rest.map (·.1)).Nodup :=
    (nodup_of_distinct hd).sublist (List.Sublist.append_left (hsub.cons_cons tag) _)
  have htag : tag ∉ rest.map (·.1) := (List.nodup_cons.mp (List.nodup_append.mp hnames).2.1).1
  have hrest : (rest.map (·.1)).Nodup := (List.nodup_cons.mp (List.nodup_append.mp hnames).2.1).2
  have hfn : f.names.Nodup := (List.nodup_cons.mp (List.nodup_append.mp (nodup_of_distinct hd)).2.1).2
  have hnamed := hf.named_all hfn hk
  refine ⟨f, rest, ⟨?_, fun p hp => ?_, hnames, ?_⟩, ?_⟩
  · exact Fields.gives_required (by rw [List.lookup_cons, beq_self_eq_true]) (reads_tag hv)
  · rcases List.mem_cons.mp hp with rfl | hp
    · rfl
    · exact hnamed p hp
  · have hdrop : without [tag] ((tag, Json.str word) :: rest) = without [tag] rest := by
      unfold without
      rw [List.filter_cons_of_neg]
      simp
    rw [hdrop]
    refine without_eq_self fun key hkey heq => htag ?_
    rw [← List.mem_singleton.mp heq]
    exact hkey
  · exact hf.ofObject hnamed hrest (fun _ _ => rfl) fun _ _ => trivial

theorem reads_tagged {α : Type} {tag : String} {variants : Variants α} {fields : List (String × Json)} {a : α}
    (h : Tagged [] tag variants fields a) : Reads (readTagged tag variants) (.obj fields) a := by
  obtain ⟨f, rest, hfields, ha⟩ := h.fields
  refine ⟨rfl, fun {o} ho => ?_⟩
  obtain ⟨o', henter, hparts⟩ := ho.fields
  have htag := hfields.tag_gives.ofObject hfields.named hfields.nodup (fun p hp => (hparts p hp).keeps) hparts
  simp only [readTagged, henter, hfields.without_tag, bind, Except.bind, htag]
  exact ha

/-- A node: fields of its own, which the tagged record does not know, and that record. -/
theorem reads_node {α β γ : Type} {own : Fields α} {tag : String} {variants : Variants β} {make : α → β → γ}
    {ownFields fields : List (String × Json)} {a : α} {b : β} (ha : own.Gives (ownFields ++ fields) a)
    (hn : ∀ p ∈ ownFields, p.2.isMisnamed = false) (hk : (ownFields.map (·.1)).isSublist own.names = true)
    (h : Tagged own.names tag variants fields b) :
    Reads (readNode own tag variants make) (.obj (ownFields ++ fields)) (make a b) := by
  obtain ⟨f, rest, hfields, hb⟩ := h.fields
  have hsub := List.isSublist_iff_sublist.mp hk
  obtain ⟨_, hnodup, hapart⟩ := List.nodup_append.mp hfields.nodup
  have hall : ∀ p ∈ ownFields ++ fields, p.2.isMisnamed = false := by
    intro p hp
    rcases List.mem_append.mp hp with hp | hp
    · exact hn p hp
    · exact hfields.named p hp
  have hnames : ((ownFields ++ fields).map (·.1)).Nodup := by
    rw [List.map_append]
    exact hfields.nodup.sublist (hsub.append_right _)
  have hothers : without own.names (ownFields ++ fields) = fields := by
    have hown : without own.names ownFields = [] := by
      refine List.filter_eq_nil_iff.mpr fun p hp => ?_
      have hmem : p.1 ∈ own.names := hsub.subset (List.mem_map_of_mem hp)
      simp [hmem]
    have hrest : without own.names fields = fields :=
      without_eq_self fun key hkey hmem => hapart key hmem key hkey rfl
    unfold without at hown hrest ⊢
    rw [List.filter_append, hown, hrest, List.nil_append]
  refine ⟨rfl, fun {o} ho => ?_⟩
  obtain ⟨o', henter, hparts⟩ := ho.fields
  have hself := ha.ofObject hall hnames (fun p hp => (hparts p hp).keeps) hparts
  have htag : (required tag (readTag variants)).ofAside fields = .ok f :=
    hfields.tag_gives.ofObject hfields.named hnodup (fun _ _ => rfl) fun _ _ => trivial
  simp only [readNode, henter, bind, Except.bind, hself, hothers, htag, hfields.without_tag, hb]
  rfl

end ComponentScript.Json
