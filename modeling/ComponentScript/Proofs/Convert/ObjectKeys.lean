/-
  ComponentScript.Proofs.Convert.ObjectKeys — the keys of object literals.

  A property name of an object literal is an identifier name, which stands for itself, or a
  string literal, which stands for its value (`propertyKey?`). Keys are left bare by the classes
  of letters and numbers, which are not those of identifier names: a key that is left bare
  though it is no name (`MistakenKey`) has a letter in front that no name begins with, or a
  stray letter or number further on, as `a²` does.
  - `propertyKey_objectKey_of_not_mistaken`: all other keys stand for themselves.
  - `propertyKey_objectKey_of_mistaken`: a mistaken key is no property name at all.
  - `dictionary_keys_kept`: the entries of a map have the keys they are given exactly if none is
    mistaken and none is `__proto__`, which names the prototype of the object instead.
-/

import ComponentScript.Proofs.Convert.NodeCalls
import ComponentScript.Proofs.Script.StringLiteral
import ComponentScript.Proofs.Text.NameClasses

namespace ComponentScript

namespace Script

open Text

/-! ## Property names -/

def startsName (c : Char) : Bool := isIdStart c || c = '_' || c = '$'

def continuesName (c : Char) : Bool := isIdContinue c || c = '$'

def isIdentifierName : List Char → Bool
  | [] => false
  | c :: cs => startsName c && cs.all continuesName

/-- The key that a property name stands for, in code units. -/
def propertyKey? (name : String) : Option (List Nat) :=
  if isIdentifierName name.toList then some (unitsOf name.toList) else stringValue? name

/-- The key of the property that an entry of this name makes. The name `__proto__`, bare or
    quoted, makes none: it sets the prototype. -/
def ownKey? (name : String) : Option (List Nat) := (propertyKey? name).filter (· ≠ unitsOf "__proto__".toList)

/-- A key that is taken for an identifier and is no identifier name. -/
def MistakenKey (key : String) : Prop :=
  isIdentifier key = true ∧ ∃ c cs, key.toList = c :: cs ∧
    ((isAlphabetic c = true ∧ isIdStart c = false) ∨ ∃ d ∈ cs, isStray d = true)

/-! ## Letters and names -/

theorem startsName_iff {c : Char} (h : startsIdentifier c = true) :
    startsName c = true ↔ ¬ (isAlphabetic c = true ∧ isIdStart c = false) := by
  simp only [startsIdentifier, Bool.or_eq_true, decide_eq_true_eq] at h
  rcases h with (h | rfl) | rfl
  · constructor
    · rintro hname ⟨-, hstart⟩
      simp only [startsName, hstart, Bool.false_or, Bool.or_eq_true, decide_eq_true_eq] at hname
      rcases hname with rfl | rfl
      · exact absurd h (by decide)
      · exact absurd h (by decide)
    · intro hno
      have hstart : isIdStart c = true := Bool.of_not_eq_false fun hf => hno ⟨h, hf⟩
      rw [startsName, hstart]
      rfl
  · exact iff_of_true (by simp [startsName]) fun hno => absurd hno.1 (by decide)
  · exact iff_of_true (by simp [startsName]) fun hno => absurd hno.1 (by decide)

theorem continuesName_iff {c : Char} (h : continuesIdentifier c = true) :
    continuesName c = true ↔ isStray c = false := by
  simp only [continuesIdentifier, Bool.or_eq_true, decide_eq_true_eq] at h
  rcases h with (h | rfl) | rfl
  · constructor
    · intro hname
      refine Bool.of_not_eq_true fun hstray => ?_
      simp only [continuesName, isIdContinue_of_stray hstray, Bool.false_or, decide_eq_true_eq] at hname
      subst hname
      exact absurd h (by decide)
    · intro hstray
      rw [continuesName, isIdContinue_of_isAlphanumeric h hstray]
      rfl
  · exact iff_of_true (by decide +kernel) (by decide +kernel)
  · exact iff_of_true (by simp [continuesName]) (by decide +kernel)

variable {key : String}

theorem isIdentifier_cons (h : isIdentifier key = true) :
    ∃ c cs, key.toList = c :: cs ∧ startsIdentifier c = true ∧ ∀ d ∈ cs, continuesIdentifier d = true := by
  unfold isIdentifier at h
  split at h
  · cases h
  · next c cs hkey =>
    obtain ⟨hc, hcs⟩ := Bool.and_eq_true_iff.mp h
    exact ⟨c, cs, hkey, hc, List.all_eq_true.mp hcs⟩

/-- Of the keys that are left bare, the mistaken ones are those that are no names. -/
theorem isIdentifierName_iff (h : isIdentifier key = true) :
    isIdentifierName key.toList = true ↔ ¬ MistakenKey key := by
  obtain ⟨c, cs, hkey, hc, hcs⟩ := isIdentifier_cons h
  have hrest : cs.all continuesName = true ↔ ¬ ∃ d ∈ cs, isStray d = true := by
    rw [List.all_eq_true, not_exists]
    refine forall_congr' fun d => ?_
    rw [not_and, Bool.not_eq_true]
    exact forall_congr' fun hd => continuesName_iff (hcs d hd)
  have hmistaken : MistakenKey key ↔
      (isAlphabetic c = true ∧ isIdStart c = false) ∨ ∃ d ∈ cs, isStray d = true := by
    constructor
    · rintro ⟨-, c', cs', hkey', hor⟩
      obtain ⟨rfl, rfl⟩ := List.cons.inj (hkey.symm.trans hkey')
      exact hor
    · exact fun hor => ⟨h, c, cs, hkey, hor⟩
  rw [hkey, isIdentifierName, Bool.and_eq_true_iff, startsName_iff hc, hrest, hmistaken, not_or]

/-! ## Keys -/

theorem propertyKey_quote (hnul : '\x00' ∉ key.toList) :
    propertyKey? (quote key) = some (unitsOf key.toList) := by
  have hquote : (quote key).toList = '\x22' :: (escape key ++ "\x22").toList := by
    simp [quote, String.toList_append]
  have hname : isIdentifierName (quote key).toList = false := by
    have hstart : startsName '\x22' = false := by decide +kernel
    rw [hquote, isIdentifierName, hstart, Bool.false_and]
  rw [propertyKey?, hname, if_neg Bool.false_ne_true, stringValue_quote_of_notMem hnul]

theorem propertyKey_objectKey_of_not_mistaken (hnul : '\x00' ∉ key.toList) (h : ¬ MistakenKey key) :
    propertyKey? (objectKey key) = some (unitsOf key.toList) := by
  unfold objectKey
  split
  · next hid => rw [propertyKey?, (isIdentifierName_iff hid).mpr h, if_pos rfl]
  · exact propertyKey_quote hnul

/-- A mistaken key is neither a name nor, without a quote in front, a literal. -/
theorem propertyKey_objectKey_of_mistaken (h : MistakenKey key) :
    propertyKey? (objectKey key) = none := by
  have hid := h.1
  have hname : isIdentifierName key.toList = false :=
    Bool.of_not_eq_true fun hname => (isIdentifierName_iff hid).mp hname h
  obtain ⟨c, cs, hkey, hc, -⟩ := isIdentifier_cons hid
  rw [objectKey, if_pos hid, propertyKey?, hname, if_neg Bool.false_ne_true, stringValue?, hkey]
  split
  · next hquote =>
    obtain ⟨rfl, -⟩ := List.cons.inj hquote
    exact absurd hc (by decide)
  · rfl

theorem propertyKey_objectKey_iff (hnul : '\x00' ∉ key.toList) :
    propertyKey? (objectKey key) = some (unitsOf key.toList) ↔ ¬ MistakenKey key := by
  refine ⟨fun hsome h => ?_, propertyKey_objectKey_of_not_mistaken hnul⟩
  rw [propertyKey_objectKey_of_mistaken h] at hsome
  cases hsome

theorem propertyKey_objectKey_eq_none_iff (hnul : '\x00' ∉ key.toList) :
    propertyKey? (objectKey key) = none ↔ MistakenKey key := by
  refine ⟨fun hnone => ?_, propertyKey_objectKey_of_mistaken⟩
  by_contra h
  rw [propertyKey_objectKey_of_not_mistaken hnul h] at hnone
  cases hnone

theorem ownKey_objectKey_iff (hnul : '\x00' ∉ key.toList) :
    ownKey? (objectKey key) = some (unitsOf key.toList) ↔ ¬ MistakenKey key ∧ key ≠ "__proto__" := by
  have hproto : unitsOf key.toList ≠ unitsOf "__proto__".toList ↔ key ≠ "__proto__" :=
    unitsOf_injective.ne_iff.trans (not_congr String.toList_inj)
  rw [ownKey?, Option.filter_eq_some_iff, propertyKey_objectKey_iff hnul, decide_eq_true_iff, hproto]

end Script

/-! ## Entries of a map -/

namespace Converter

variable (k : Converter)

/-- An entry under a key. -/
def keyedEntry (key value : String) : String := Script.objectKey key ++ ": " ++ value

theorem dictEntry_out {d : DictEntry} (hkey : d.key.stringLiteral? = some key) (s : Session) :
    (k.dictEntry d).out s = (keyedEntry key ((k.expr d.value).out s).1, ((k.expr d.value).out s).2) := by
  unfold dictEntry
  simp only [hkey]
  rfl

/-- Entries with literal keys only convert their values, from first to last. -/
theorem mapM_dictEntry_out {ds : List DictEntry} {keys : List String}
    (hkeys : ds.map (·.key.stringLiteral?) = keys.map some) (s : Session) :
    (ds.mapM k.dictEntry).out s =
      (List.zipWith keyedEntry keys ((k.exprs (ds.map (·.value))).out s).1,
        ((k.exprs (ds.map (·.value))).out s).2) := by
  induction ds generalizing keys s with
  | nil =>
    cases keys with
    | nil => rfl
    | cons key keys => cases hkeys
  | cons d ds ih =>
    cases keys with
    | nil => cases hkeys
    | cons key keys =>
      obtain ⟨hkey, hrest⟩ := List.cons.inj hkeys
      simp only [List.mapM_cons, List.map_cons, exprs, Emit.out_bind, Emit.out_pure, k.dictEntry_out hkey, ih hrest,
        List.zipWith_cons_cons]

/-- A map with literal keys is an object literal: what is copied, and then the entries. -/
theorem creation_dictionary_out {e : Expr} {type : TypeRef} {ds : List DictEntry} {keys : List String}
    (hmap : k.creationCategory e type = .map) (hkeys : ds.map (·.key.stringLiteral?) = keys.map some)
    (args : List Argument) (s : Session) :
    let source := (k.copied args).out s
    let values := (k.exprs (ds.map (·.value))).out source.2
    (k.creation e (some type) args (some (.dictionary ds))).out s =
      (objectText (spreadOf source.1 ++ List.zipWith keyedEntry keys values.1), values.2) := by
  dsimp only [creation, entries]
  simp only [hmap, Emit.out_bind, Emit.out_pure, k.mapM_dictEntry_out hkeys]

end Converter

open Script

/-- The keys of object literals, for keys without a NUL. The name of a key stands for the key
    unless the key is mistaken, and then it is no name. A map whose keys are literals is written
    with one entry for each, in order, and the entries make properties of just these keys
    exactly if no key is mistaken or the name of the prototype. -/
theorem dictionary_keys_kept (settings : Settings) (m : Model) :
    (∀ key : String, '\x00' ∉ key.toList →
      (propertyKey? (objectKey key) = some (unitsOf key.toList) ↔ ¬ MistakenKey key) ∧
      (propertyKey? (objectKey key) = none ↔ MistakenKey key)) ∧
    ∀ (expected? type? : Option TypeRef) (type : TypeRef) (span : Span) (args : List Argument) (ds : List DictEntry)
      (keys : List String) (s : Session),
      let k := Engine.converter { settings := settings } m
      let e : Expr := ⟨span, .objectCreation type? args (some (.dictionary ds))⟩
      let source := (k.copied args).out s
      let values := ((k.exprs (ds.map (·.value))).out source.2).1
      (type? <|> expected?) = some type → k.creationCategory e type = .map →
      ds.map (·.key.stringLiteral?) = keys.map some → (∀ key ∈ keys, '\x00' ∉ key.toList) →
        ((k.exprAs expected? e).out s).1 =
          objectText (Converter.spreadOf source.1 ++ List.zipWith Converter.keyedEntry keys values) ∧
        values.length = keys.length ∧
        (keys.map (fun key => ownKey? (objectKey key)) = keys.map (fun key => some (unitsOf key.toList)) ↔
          ∀ key ∈ keys, ¬ MistakenKey key ∧ key ≠ "__proto__") := by
  refine ⟨fun key hnul => ⟨propertyKey_objectKey_iff hnul, propertyKey_objectKey_eq_none_iff hnul⟩, ?_⟩
  intro expected? type? type span args ds keys s k e source values htype hmap hkeys hnul
  refine ⟨?_, ?_, ?_⟩
  · rw [Engine.exprAs_creation, htype, k.creation_dictionary_out hmap hkeys]
  · have hlength := congrArg List.length hkeys
    rw [List.length_map, List.length_map] at hlength
    rw [← hlength]
    exact (Emit.length_mapM _ _ _).trans (List.length_map _)
  · rw [List.map_inj_left]
    exact forall₂_congr fun key hkey => ownKey_objectKey_iff (hnul key hkey)

/-- A superscript is a number and no digit, so `a²` is left bare and is no name. -/
theorem dictionary_keys_kept_superscript :
    let entry : DictEntry := ⟨⟨{}, .literal (.string "a²")⟩, ⟨{}, .literal (.number "1")⟩⟩
    let e : Expr := ⟨{}, .objectCreation (some { name := "Dictionary" }) [] (some (.dictionary [entry]))⟩
    (((({} : Engine).converter .empty).exprAs none e).out {}).1 = "\x7b a²: 1 \x7d" ∧
    MistakenKey "a²" ∧ propertyKey? (objectKey "a²") = none ∧
    ownKey? (objectKey "a²") ≠ some (unitsOf "a²".toList) := by
  intro entry e
  have hkey : MistakenKey "a²" := ⟨by decide +kernel, 'a', ['²'], rfl, .inr ⟨'²', by decide, by decide +kernel⟩⟩
  have hnul : '\x00' ∉ "a²".toList := by decide
  have hvalue (s : Session) :
      ((({} : Engine).converter .empty).expr ⟨{}, .literal (.number "1")⟩).out s = ("1", s) := by
    rw [Converter.expr, Engine.exprAs_eq_defaultExpr {} .empty rfl]
    rfl
  obtain ⟨hnames, hmaps⟩ := dictionary_keys_kept {} .empty
  obtain ⟨htext, -, hown⟩ := hmaps none (some { name := "Dictionary" }) { name := "Dictionary" } {} [] [entry] ["a²"] {}
    rfl (by decide) rfl (List.forall_mem_singleton.mpr hnul)
  refine ⟨htext.trans ?_, hkey, (hnames "a²" hnul).2.mpr hkey, fun h => ?_⟩
  · have hbare : objectKey "a²" = "a²" := if_pos hkey.1
    simp only [entry, Converter.exprs, List.map_cons, List.map_nil, List.mapM_cons, List.mapM_nil, Emit.out_bind,
      Emit.out_pure, hvalue, List.zipWith_cons_cons, List.zipWith_nil_left, Converter.keyedEntry, hbare]
    decide
  · have hkeys : ["a²"].map (fun key => ownKey? (objectKey key)) =
        ["a²"].map (fun key => some (unitsOf key.toList)) := by
      rw [List.map_cons, h]
      rfl
    exact (hown.mp hkeys "a²" (List.mem_singleton_self _)).1 hkey

end ComponentScript
