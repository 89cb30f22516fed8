/-
  ComponentScript.Proofs.Draft.Basic — texts with the places of their parts.

  A draft is a text before it is put together: the converter's own code, names and literals,
  the inner expressions whose texts go into it (`Part`), and the arrow functions that the
  converter makes around some of them (`Made`). Code has no arrow of its own, so an arrow is a
  made function, a function of the source, or stands in a name.

  `Draft.Holds d f p`: the text of the part `p` occurs in `d`, and `f` is the innermost made
  function around it, if there is one. `Tracks`: a step that gives drafts goes with a step that
  gives texts through the same sessions; `Shows`: the draft has the text, and its parts are
  where they may be.
-/

import ComponentScript.Proofs.Convert.Lockstep

namespace ComponentScript

/-- Whether characters have an arrow among them. -/
def Script.hasArrow : List Char → Bool
  | '=' :: '>' :: _ => true
  | _ :: cs => hasArrow cs
  | [] => false

/-- Code as it is written: an arrow in it would lose it. -/
def Script.arrowless (t : String) : String := if hasArrow t.toList then "" else t

/-- An inner expression as it is converted: with the type expected of it, and in the session. -/
structure Part where
  expected? : Option TypeRef
  expr : Expr
  session : Session

/-- What the converter makes an arrow function for. -/
inductive Maker where
  /-- To choose a value by patterns. -/
  | choice
  /-- To evaluate operands once that are mentioned more than once. -/
  | sharing
  /-- To evaluate the operand of a pattern test once. -/
  | test
  /-- To fill a new object. -/
  | population
  /-- To start a timer. -/
  | delay
  /-- To number a range. -/
  | range
  /-- To compare two elements by sort keys. -/
  | comparison
  | sum
  | average
  /-- To delete the entries of a map. -/
  | deletion
  /-- To remove an item at its index. -/
  | removal
  deriving DecidableEq

/-- An arrow function that the converter makes. -/
structure Made where
  maker : Maker
  isAsync : Bool
  params : List String

/-- An arrow function up to its body. -/
def Made.head (f : Made) : String := (if f.isAsync then "async (" else "(") ++ Text.commaList f.params ++ ") => "

inductive Draft where
  /-- A piece of the converter's own code. -/
  | code (text : String)
  /-- A name, a literal or an operator. -/
  | name (text : String)
  /-- A function of the source, as a whole. -/
  | lambda (text : String)
  | part (p : Part)
  /-- In parentheses where an operand needs them. -/
  | operand (d : Draft)
  | append (l r : Draft)
  | joined (separator : String) (ds : List Draft)
  | block (lines : List Draft) (indent : String)
  | made (f : Made) (body : Draft)

namespace Draft

instance : Append Draft := ⟨append⟩

instance : Inhabited Draft := ⟨code ""⟩

/-! ## Texts -/

mutual
/-- The text, with a converter for the parts. -/
def text (k : Converter) : Draft → String
  | code text => Script.arrowless text
  | name text => text
  | lambda text => text
  | part p => ((k.exprAs p.expected? p.expr).out p.session).1
  | operand d => Script.operand (d.text k)
  | append l r => l.text k ++ r.text k
  | joined separator ds => separator.intercalate (texts k ds)
  | block lines indent => Script.block (texts k lines) indent
  | made f body => f.head ++ body.text k
def texts (k : Converter) : List Draft → List String
  | [] => []
  | d :: ds => d.text k :: texts k ds
end

section

variable (k : Converter)

theorem texts_eq (ds : List Draft) : texts k ds = ds.map (text k) := by
  induction ds with
  | nil => rfl
  | cons d ds ih => rw [texts, ih, List.map_cons]

@[simp] theorem text_code {t : String} (h : Script.hasArrow t.toList = false) : (code t).text k = t := by
  simp [text, Script.arrowless, h]

@[simp] theorem text_name (t : String) : (name t).text k = t := rfl
@[simp] theorem text_lambda (t : String) : (lambda t).text k = t := rfl
@[simp] theorem text_part (p : Part) : (part p).text k = ((k.exprAs p.expected? p.expr).out p.session).1 := rfl
@[simp] theorem text_operand (d : Draft) : (operand d).text k = Script.operand (d.text k) := rfl
@[simp] theorem text_append (l r : Draft) : (l ++ r).text k = l.text k ++ r.text k := rfl
@[simp] theorem text_made (f : Made) (body : Draft) : (made f body).text k = f.head ++ body.text k := rfl

@[simp] theorem text_joined (separator : String) (ds : List Draft) :
    (joined separator ds).text k = separator.intercalate (ds.map (text k)) := by
  rw [text, texts_eq]

@[simp] theorem text_block (lines : List Draft) (indent : String) :
    (block lines indent).text k = Script.block (lines.map (text k)) indent := by
  rw [text, texts_eq]

end

/-! ## Where parts are -/

/-- The part occurs in the draft, with the innermost made function around it. -/
inductive Holds : Draft → Option Made → Part → Prop
  | part (p : Part) : Holds (part p) none p
  | operand {d : Draft} {f? : Option Made} {p : Part} : Holds d f? p → Holds (operand d) f? p
  | left {l r : Draft} {f? : Option Made} {p : Part} : Holds l f? p → Holds (append l r) f? p
  | right {l r : Draft} {f? : Option Made} {p : Part} : Holds r f? p → Holds (append l r) f? p
  | joined {separator : String} {ds : List Draft} {d : Draft} {f? : Option Made} {p : Part} : d ∈ ds →
      Holds d f? p → Holds (joined separator ds) f? p
  | block {lines : List Draft} {indent : String} {d : Draft} {f? : Option Made} {p : Part} : d ∈ lines →
      Holds d f? p → Holds (block lines indent) f? p
  | made {f : Made} {body : Draft} {f? : Option Made} {p : Part} : Holds body f? p →
      Holds (made f body) (f? <|> some f) p

/-- Which parts may be where. -/
abbrev Placement := Option Made → Part → Prop

/-- The placement for the body of a made function. -/
def Placement.inside (A : Placement) (f : Made) : Placement := fun f? p => A (f? <|> some f) p

/-- All parts of the draft are where they may be. -/
def Fits (A : Placement) (d : Draft) : Prop := ∀ f? p, d.Holds f? p → A f? p

section

variable {A : Placement}

@[simp] theorem fits_code (t : String) : (code t).Fits A := nofun
@[simp] theorem fits_name (t : String) : (name t).Fits A := nofun
@[simp] theorem fits_lambda (t : String) : (lambda t).Fits A := nofun

@[simp] theorem fits_part {p : Part} : (part p).Fits A ↔ A none p :=
  ⟨fun h => h none p (.part p), fun h _ _ hp => by cases hp; exact h⟩

@[simp] theorem fits_operand {d : Draft} : (operand d).Fits A ↔ d.Fits A :=
  ⟨fun h f? p hp => h f? p (.operand hp), fun h f? p hp => by cases hp with | operand hp => exact h f? p hp⟩

@[simp] theorem fits_append {l r : Draft} : (l ++ r).Fits A ↔ l.Fits A ∧ r.Fits A := by
  refine ⟨fun h => ⟨fun f? p hp => h f? p (.left hp), fun f? p hp => h f? p (.right hp)⟩, fun h f? p hp => ?_⟩
  cases hp with
  | left hp => exact h.1 f? p hp
  | right hp => exact h.2 f? p hp

@[simp] theorem fits_joined {separator : String} {ds : List Draft} :
    (joined separator ds).Fits A ↔ ∀ d ∈ ds, d.Fits A := by
  refine ⟨fun h d hd f? p hp => h f? p (.joined hd hp), fun h f? p hp => ?_⟩
  cases hp with
  | joined hd hp => exact h _ hd f? p hp

@[simp] theorem fits_block {lines : List Draft} {indent : String} :
    (block lines indent).Fits A ↔ ∀ d ∈ lines, d.Fits A := by
  refine ⟨fun h d hd f? p hp => h f? p (.block hd hp), fun h f? p hp => ?_⟩
  cases hp with
  | block hd hp => exact h _ hd f? p hp

@[simp] theorem fits_made {f : Made} {body : Draft} : (made f body).Fits A ↔ body.Fits (A.inside f) := by
  refine ⟨fun h f? p hp => h _ p (.made hp), fun h f? p hp => ?_⟩
  cases hp with
  | made hp => exact h _ p hp

theorem Fits.mono {B : Placement} {d : Draft} (h : d.Fits A) (hAB : ∀ f? p, A f? p → B f? p) : d.Fits B :=
  fun f? p hp => hAB f? p (h f? p hp)

end

/-! ## Calls of made functions -/

/-- A made function that is called at once. -/
def call (f : Made) (body : Draft) (values : List Draft) : Draft :=
  code "(" ++ made f body ++ code ")(" ++ joined ", " values ++ code ")"

theorem text_call (k : Converter) (f : Made) (body : Draft) (values : List Draft) :
    (call f body values).text k =
      "(" ++ f.head ++ body.text k ++ ")(" ++ Text.commaList (values.map (text k)) ++ ")" := by
  simp (disch := decide) only [call, text_append, text_code, text_made, text_joined, String.append_assoc]
  rfl

theorem text_call_nil (k : Converter) (f : Made) (body : Draft) :
    (call f body []).text k = "(" ++ f.head ++ body.text k ++ ")()" := by
  have hend : ")(" ++ (Text.commaList [] ++ ")") = ")()" := rfl
  rw [text_call, List.map_nil, String.append_assoc, String.append_assoc, hend]

@[simp] theorem fits_call {A : Placement} {f : Made} {body : Draft} {values : List Draft} :
    (call f body values).Fits A ↔ body.Fits (A.inside f) ∧ ∀ d ∈ values, d.Fits A := by
  simp [call]

theorem Holds.inCall {f : Made} {body : Draft} {values : List Draft} {p : Part} (h : body.Holds none p) :
    (call f body values).Holds (some f) p :=
  .left (.left (.left (.right (.made h))))

end Draft

/-! ## Drafts beside texts -/

/-- The draft has the text, and its parts are where they may be. -/
structure Shows (k : Converter) (A : Draft.Placement) (d : Draft) (t : String) : Prop where
  text : d.text k = t
  fits : d.Fits A

@[inherit_doc Shows]
structure ShowsAll (k : Converter) (A : Draft.Placement) (ds : List Draft) (ts : List String) : Prop where
  texts : ds.map (Draft.text k) = ts
  fits : ∀ d ∈ ds, d.Fits A

section

variable {k : Converter} {A : Draft.Placement} {d : Draft} {t : String} {ds ds' : List Draft} {ts ts' : List String}

/-- A draft between two pieces of code. -/
theorem Shows.between {opening closing : String} (h : Shows k A d t) (ho : Script.hasArrow opening.toList = false)
    (hc : Script.hasArrow closing.toList = false) :
    Shows k A (.code opening ++ d ++ .code closing) (opening ++ t ++ closing) :=
  ⟨by simp only [Draft.text_append, Draft.text_code k ho, Draft.text_code k hc, h.text], by simp [h.fits]⟩

theorem ShowsAll.nil : ShowsAll k A [] [] := ⟨rfl, nofun⟩

theorem ShowsAll.cons (h : Shows k A d t) (hs : ShowsAll k A ds ts) : ShowsAll k A (d :: ds) (t :: ts) :=
  ⟨by rw [List.map_cons, h.text, hs.texts], List.forall_mem_cons.mpr ⟨h.fits, hs.fits⟩⟩

theorem ShowsAll.append (h : ShowsAll k A ds ts) (h' : ShowsAll k A ds' ts') : ShowsAll k A (ds ++ ds') (ts ++ ts') :=
  ⟨by rw [List.map_append, h.texts, h'.texts], List.forall_mem_append.mpr ⟨h.fits, h'.fits⟩⟩

theorem ShowsAll.map {f : Draft → Draft} {g : String → String} (h : ShowsAll k A ds ts)
    (hf : ∀ {d t}, Shows k A d t → Shows k A (f d) (g t)) : ShowsAll k A (ds.map f) (ts.map g) := by
  obtain ⟨rfl, hds⟩ := h
  refine ⟨?_, List.forall_mem_map.mpr fun d hd => (hf ⟨rfl, hds d hd⟩).fits⟩
  rw [List.map_map, List.map_map]
  exact List.map_congr_left fun d hd => (hf ⟨rfl, hds d hd⟩).text

end

@[inherit_doc Shows]
structure ShowsAny (k : Converter) (A : Draft.Placement) (d? : Option Draft) (t? : Option String) : Prop where
  texts : d?.map (Draft.text k) = t?
  fits : ∀ d ∈ d?, d.Fits A

/-- Both steps go through the same sessions, and their results are related. -/
def Tracks {α β : Type} (R : α → β → Prop) (d : Emit α) (m : Emit β) : Prop :=
  ∀ s, R (d.out s).1 (m.out s).1 ∧ (d.out s).2 = (m.out s).2

namespace Tracks

variable {α β γ δ ε : Type} {R : α → β → Prop} {Q : γ → δ → Prop}

theorem pure {a : α} {b : β} (h : R a b) : Tracks R (Pure.pure a) (Pure.pure b) := fun _ => ⟨h, rfl⟩

theorem bind {d : Emit α} {m : Emit β} {f : α → Emit γ} {g : β → Emit δ} (hm : Tracks R d m)
    (hf : ∀ a b, R a b → Tracks Q (f a) (g b)) : Tracks Q (d >>= f) (m >>= g) := by
  intro s
  obtain ⟨hr, hs⟩ := hm s
  rw [Emit.out_bind, Emit.out_bind, ← hs]
  exact hf _ _ hr _

/-- A step that both take. -/
theorem same (m : Emit α) {f : α → Emit γ} {g : α → Emit δ} (hf : ∀ a, Tracks Q (f a) (g a)) :
    Tracks Q (m >>= f) (m >>= g) := fun _ => hf _ _

theorem ite {c : Prop} [Decidable c] {d d' : Emit α} {m m' : Emit β} (h : c → Tracks R d m)
    (h' : ¬ c → Tracks R d' m') :
    Tracks R (if c then d else d') (if c then m else m') := by
  by_cases hc : c
  · rw [if_pos hc, if_pos hc]; exact h hc
  · rw [if_neg hc, if_neg hc]; exact h' hc

theorem mapM {k : Converter} {A : Draft.Placement} {f : ε → Emit Draft} {g : ε → Emit String} {as : List ε}
    (h : ∀ a ∈ as, Tracks (Shows k A) (f a) (g a)) : Tracks (ShowsAll k A) (as.mapM f) (as.mapM g) := by
  induction as with
  | nil => exact .pure .nil
  | cons a as ih =>
    rw [List.mapM_cons, List.mapM_cons]
    refine .bind (h a (List.mem_cons_self ..)) fun d t hd => ?_
    exact .bind (ih fun x hx => h x (List.mem_cons_of_mem _ hx)) fun ds ts hs => .pure (.cons hd hs)

theorem optionMapM {k : Converter} {A : Draft.Placement} {f : ε → Emit Draft} {g : ε → Emit String} {a? : Option ε}
    (h : ∀ a ∈ a?, Tracks (Shows k A) (f a) (g a)) : Tracks (ShowsAny k A) (a?.mapM f) (a?.mapM g) := by
  cases a? with
  | none => exact .pure ⟨rfl, nofun⟩
  | some a =>
    refine .bind (h a rfl) fun d t ⟨ht, hd⟩ => .pure ⟨congrArg some ht, fun _ hm => ?_⟩
    cases hm
    exact hd

end Tracks

end ComponentScript
