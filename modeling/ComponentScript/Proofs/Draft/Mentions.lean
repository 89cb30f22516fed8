/-
  ComponentScript.Proofs.Draft.Mentions — the inner expressions that a draft mentions.

  `Draft.mentions` lists them from left to right, with the made functions around each. In which
  order and how often they are evaluated can be read off this list: outside of functions once
  for each mention, inside of a function as often as it is called.

  `Mention.Straight operands ms` is the good case: what is not plain is mentioned in the order
  of the operands, each at most once and outside of functions, and the functions around plain
  operands bind synthetic names only, so they capture nothing. An operand that a text needs more
  than once is shared, which keeps this (`DraftSharing.Binds.wrap`); the arguments of a format
  string are mentioned where its holes are (`Converter.draftFormat_yields`).
-/

import Mathlib.Data.List.Forall2
import ComponentScript.Proofs.Draft.Query

namespace ComponentScript

open Text Draft

/-! ## Mentions -/

/-- A name that a program does not spell: it starts with two underscores. -/
def Script.isSynthetic (name : String) : Bool := ['_', '_'].isPrefixOf name.toList

/-- All parameters have synthetic names. -/
def Made.Synthetic (f : Made) : Prop := ∀ p ∈ f.params, Script.isSynthetic p = true

/-- An inner expression in a draft, with the made functions around it from the outside in. -/
structure Mention where
  within : List Made
  expr : Expr

namespace Mention

/-- Outside of all made functions. -/
def free (e : Expr) : Mention := ⟨[], e⟩

/-- With one more function around it. -/
def inside (f : Made) (m : Mention) : Mention := ⟨f :: m.within, m.expr⟩

@[simp] theorem expr_free (e : Expr) : (free e).expr = e := rfl
@[simp] theorem within_free (e : Expr) : (free e).within = [] := rfl
@[simp] theorem expr_inside (f : Made) (m : Mention) : (m.inside f).expr = m.expr := rfl
@[simp] theorem within_inside (f : Made) (m : Mention) : (m.inside f).within = f :: m.within := rfl

/-! ## In source order, once, and outside of functions -/

/-- What is not plain is mentioned in the order of the operands, each at most once and outside
    of functions; no function captures a name of an operand. -/
structure Straight (operands : List Expr) (ms : List Mention) : Prop where
  order : ((ms.filter fun m => !m.expr.isPlain).map (·.expr)).Sublist operands
  outside : ∀ m ∈ ms, m.expr.isPlain = false → m.within = []
  hygienic : ∀ m ∈ ms, ∀ f ∈ m.within, f.Synthetic

theorem map_filter_free (p : Expr → Bool) (es : List Expr) :
    ((es.map free).filter fun m => p m.expr).map (·.expr) = es.filter p := by
  rw [List.filter_map, List.map_map]
  exact List.map_id _

theorem Straight.nil {operands : List Expr} : Straight operands [] := ⟨List.nil_sublist operands, nofun, nofun⟩

/-- Mentions outside of functions, of which those count that are not plain. -/
theorem Straight.ofFree {operands es : List Expr} (h : (es.filter (!·.isPlain)).Sublist operands) :
    Straight operands (es.map free) where
  order := by rwa [map_filter_free (fun e => !e.isPlain)]
  outside := List.forall_mem_map.mpr fun _ _ _ => rfl
  hygienic := List.forall_mem_map.mpr fun _ _ => nofun

/-- Plain operands may be mentioned more than once. -/
theorem Straight.ofFilter {operands es : List Expr} (h : es.filter (!·.isPlain) = operands.filter (!·.isPlain)) :
    Straight operands (es.map free) := .ofFree (h ▸ List.filter_sublist)

theorem Straight.mono {es operands : List Expr} {ms : List Mention} (h : Straight es ms) (hes : es.Sublist operands) :
    Straight operands ms := ⟨h.order.trans hes, h.outside, h.hygienic⟩

/-- Only plain operands are mentioned, in functions that capture nothing. -/
def Harmless (ms : List Mention) : Prop := ∀ m ∈ ms, m.expr.isPlain = true ∧ ∀ f ∈ m.within, f.Synthetic

section

variable {ms ms' : List Mention}

@[simp] theorem harmless_append : Harmless (ms ++ ms') ↔ Harmless ms ∧ Harmless ms' := List.forall_mem_append

theorem Harmless.inside (h : Harmless ms) {f : Made} (hf : f.Synthetic) : Harmless (ms.map (Mention.inside f)) :=
  List.forall_mem_map.mpr fun m hm => ⟨(h m hm).1, List.forall_mem_cons.mpr ⟨hf, (h m hm).2⟩⟩

/-- Harmless mentions in front change nothing. -/
theorem Harmless.straight_append (h : Harmless ms) {operands : List Expr} (h' : Straight operands ms') :
    Straight operands (ms ++ ms') where
  order := by
    have hnone : ms.filter (fun m => !m.expr.isPlain) = [] :=
      List.filter_eq_nil_iff.mpr fun m hm => by simp [(h m hm).1]
    rw [List.filter_append, hnone, List.nil_append]
    exact h'.order
  outside := List.forall_mem_append.mpr ⟨fun m hm hplain => absurd hplain (by simp [(h m hm).1]), h'.outside⟩
  hygienic := List.forall_mem_append.mpr ⟨fun m hm => (h m hm).2, h'.hygienic⟩

end

end Mention

namespace Draft

mutual
/-- The inner expressions of a draft from left to right. -/
def mentions : Draft → List Mention
  | code _ | name _ | lambda _ => []
  | part p => [.free p.expr]
  | operand d => d.mentions
  | append l r => l.mentions ++ r.mentions
  | joined _ ds => mentionsAll ds
  | block lines _ => mentionsAll lines
  | made f body => body.mentions.map (Mention.inside f)
def mentionsAll : List Draft → List Mention
  | [] => []
  | d :: ds => d.mentions ++ mentionsAll ds
end

theorem mentionsAll_eq (ds : List Draft) : mentionsAll ds = ds.flatMap mentions := by
  induction ds with
  | nil => rfl
  | cons d ds ih => rw [mentionsAll, ih, List.flatMap_cons]

@[simp] theorem mentions_code (t : String) : (code t).mentions = [] := rfl
@[simp] theorem mentions_name (t : String) : (name t).mentions = [] := rfl
@[simp] theorem mentions_part (p : Part) : (part p).mentions = [.free p.expr] := rfl
@[simp] theorem mentions_operand (d : Draft) : (operand d).mentions = d.mentions := rfl
@[simp] theorem mentions_append (l r : Draft) : (l ++ r).mentions = l.mentions ++ r.mentions := rfl
@[simp] theorem mentions_made (f : Made) (body : Draft) :
    (made f body).mentions = body.mentions.map (Mention.inside f) := rfl

@[simp] theorem mentions_joined (separator : String) (ds : List Draft) :
    (joined separator ds).mentions = ds.flatMap mentions := by
  rw [mentions, mentionsAll_eq]

@[simp] theorem mentions_block (lines : List Draft) (indent : String) :
    (block lines indent).mentions = lines.flatMap mentions := by
  rw [mentions, mentionsAll_eq]

@[simp] theorem mentions_call (f : Made) (body : Draft) (values : List Draft) :
    (call f body values).mentions = body.mentions.map (Mention.inside f) ++ values.flatMap mentions := by
  simp [call]

/-- The draft mentions one expression, outside of functions. -/
abbrev Mentions (d : Draft) (e : Expr) : Prop := d.mentions = [.free e]

theorem flatMap_mentions {ds : List Draft} {es : List Expr} (h : List.Forall₂ Mentions ds es) :
    ds.flatMap mentions = es.map .free := by
  induction h with
  | nil => rfl
  | cons hd _ ih => rw [List.flatMap_cons, hd, ih]; rfl

theorem mentions_nth {ds : List Draft} {es : List Expr} (h : List.Forall₂ Mentions ds es) (i : Nat) :
    (nth ds i).mentions = es[i]?.toList.map .free := by
  induction h generalizing i with
  | nil => rfl
  | cons hd _ ih =>
    cases i with
    | zero => exact hd
    | succ i => exact ih i

end Draft

/-! ## What steps give -/

/-- From every session the step gives a result with the property. -/
def Emit.Yields {α : Type} (P : α → Prop) (m : Emit α) : Prop := ∀ s, P (m.out s).1

namespace Emit.Yields

variable {α β : Type} {P : α → Prop} {Q : β → Prop}

theorem pure {a : α} (h : P a) : Yields P (Pure.pure a) := fun _ => h

theorem bind {m : Emit α} {f : α → Emit β} (hm : Yields P m) (hf : ∀ a, P a → Yields Q (f a)) :
    Yields Q (m >>= f) := fun s => hf _ (hm s) _

/-- A step of which nothing is asked. -/
theorem after (m : Emit α) {f : α → Emit β} (hf : ∀ a, Yields Q (f a)) : Yields Q (m >>= f) := fun _ => hf _ _

theorem ite {c : Prop} [Decidable c] {m m' : Emit α} (h : c → Yields P m) (h' : ¬ c → Yields P m') :
    Yields P (if c then m else m') := by
  by_cases hc : c
  · rw [if_pos hc]; exact h hc
  · rw [if_neg hc]; exact h' hc

theorem mapM {γ : Type} {R : α → γ → Prop} {f : γ → Emit α} (h : ∀ c, Yields (R · c) (f c)) (cs : List γ) :
    Yields (List.Forall₂ R · cs) (cs.mapM f) := by
  induction cs with
  | nil => exact .pure .nil
  | cons c cs ih =>
    rw [List.mapM_cons]
    exact (h c).bind fun _ ha => ih.bind fun _ has => .pure (.cons ha has)

theorem freshName (stem : String) : Yields (Script.isSynthetic · = true) (Emit.freshName stem) := by
  intro s
  have hname : ((Emit.freshName stem).out s).1 = "__" ++ stem ++ toString s.counter := rfl
  rw [hname, String.append_assoc, Script.isSynthetic, String.toList_append]
  rfl

end Emit.Yields

open Emit (Yields)

variable {k : Converter}

namespace Converter

theorem draft_yields (e : Expr) : Yields (Mentions · e) (k.draft e) := fun _ => rfl

theorem draftOperand_yields (e : Expr) : Yields (Mentions · e) (k.draftOperand e) := fun _ => rfl

theorem draftArguments_yields (args : List Argument) :
    Yields (List.Forall₂ Mentions · (args.map (·.expr))) (k.draftArguments args) := by
  have h := Yields.mapM (fun a : Argument => k.draft_yields a.expr) args
  exact fun s => List.forall₂_map_right_iff.mpr (h s)

theorem draftArgument_yields (call : Call) (i : Nat) :
    Yields (fun d => d.mentions = (call.arg? i).toList.map .free) (k.draftArgument call i) := by
  unfold draftArgument
  cases call.arg? i with
  | none => exact .pure rfl
  | some e => exact draft_yields e

theorem draftArgumentOperand_yields (call : Call) (i : Nat) :
    Yields (fun d => d.mentions = (call.arg? i).toList.map .free) (k.draftArgumentOperand call i) := by
  unfold draftArgumentOperand
  cases call.arg? i with
  | none => exact .pure rfl
  | some e => exact draftOperand_yields e

end Converter

/-! ## Shared operands -/

/-- The draft stands for an operand: a plain one is mentioned, of any other only its name. -/
def Draft.StandsFor (d : Draft) (e : Expr) : Prop := d.mentions = if e.isPlain then [.free e] else []

/-- The values bound are the operands that are not plain, in order, under synthetic names. -/
structure DraftSharing.Binds (sh : DraftSharing) (es : List Expr) : Prop where
  values : (sh.bindings.flatMap fun b => b.2.mentions) = (es.filter (!·.isPlain)).map .free
  synthetic : ∀ b ∈ sh.bindings, Script.isSynthetic b.1 = true

theorem DraftSharing.Binds.empty : DraftSharing.Binds {} [] := ⟨rfl, nofun⟩

theorem share_yields {sh : DraftSharing} {es : List Expr} (hsh : sh.Binds es) {e : Expr} {d : Draft}
    (hd : d.Mentions e) :
    Yields (fun r => r.1.StandsFor e ∧ r.2.Binds (es ++ [e])) (sh.share e d) := by
  obtain ⟨hvalues, hnames⟩ := hsh
  refine .ite (fun hplain => ?_) fun hplain => ?_
  · refine .pure ⟨?_, ?_, hnames⟩
    · rw [StandsFor, if_pos hplain, mentions_operand, hd]
    · simpa [hplain] using hvalues
  · refine (Yields.freshName "v").bind fun n hn => .pure ⟨?_, ?_, ?_⟩
    · rw [StandsFor, if_neg hplain, mentions_name]
    · simp [List.filter_append, hvalues, hplain, hd]
    · exact List.forall_mem_append.mpr ⟨hnames, List.forall_mem_singleton.mpr hn⟩

theorem Converter.draftShared_yields {sh : DraftSharing} {es : List Expr} (hsh : sh.Binds es) (e : Expr) :
    Yields (fun r => r.1.StandsFor e ∧ r.2.Binds (es ++ [e])) (k.draftShared sh e) :=
  (draft_yields e).bind fun _ hd => share_yields hsh hd

theorem Draft.StandsFor.harmless {d : Draft} {e : Expr} (h : d.StandsFor e) : Mention.Harmless d.mentions := by
  intro m hm
  rw [h] at hm
  split at hm
  case isTrue hplain =>
    cases List.mem_singleton.mp hm
    exact ⟨hplain, nofun⟩
  case isFalse => cases hm

/-- A body with plain operands only, called with the values bound. -/
theorem DraftSharing.Binds.wrap {sh : DraftSharing} {es operands : List Expr} (hsh : sh.Binds es) {d : Draft}
    (hd : Mention.Harmless d.mentions) (hes : es.Sublist operands) :
    Mention.Straight operands (sh.wrap d).mentions := by
  unfold DraftSharing.wrap
  split
  · rw [← List.append_nil d.mentions]
    exact hd.straight_append .nil
  · have hf : Made.Synthetic ⟨.sharing, false, sh.bindings.map (·.1)⟩ := List.forall_mem_map.mpr hsh.synthetic
    rw [mentions_call, List.flatMap_map, hsh.values]
    refine (hd.inside hf).straight_append (.ofFree ?_)
    exact List.filter_sublist.trans (List.filter_sublist.trans hes)

/-! ## Format strings -/

/-- The argument that a piece refers to. -/
def FormatPiece.argument? (args : List Expr) : FormatPiece → Option Expr
  | .text _ => none
  | .hole index _ => args[index]?

/-- The arguments of a format string in the order of its holes, where it is one. -/
def Expr.filled? (template : Expr) (args : List Expr) : Option (List Expr) :=
  match template.stringLiteral?.bind fun s => FormatPiece.parse? s.toList with
  | none => none
  | some pieces =>
    if pieces.all (FormatPiece.fits args.length) then some (pieces.filterMap (FormatPiece.argument? args)) else none

theorem FormatPiece.mentions_draft {ds : List Draft} {es : List Expr} (h : List.Forall₂ Mentions ds es)
    (p : FormatPiece) :
    (p.draft ds).mentions = (p.argument? es).toList.map .free := by
  cases p with
  | text cs => rfl
  | hole index format => simp [draft, argument?, mentions_nth h]

theorem FormatPiece.mentions_pieces {ds : List Draft} {es : List Expr} (h : List.Forall₂ Mentions ds es)
    (pieces : List FormatPiece) :
    (pieces.map (FormatPiece.draft ds)).flatMap mentions = (pieces.filterMap (FormatPiece.argument? es)).map .free := by
  induction pieces with
  | nil => rfl
  | cons p pieces ih =>
    rw [List.map_cons, List.flatMap_cons, ih, mentions_draft h, List.filterMap_cons]
    cases p.argument? es <;> rfl

/-- A format string is drafted where it is one, with its arguments where the holes are. -/
theorem Converter.draftFormat_yields (template : Expr) (args : List Argument) :
    Yields (fun d? => d?.map mentions = (template.filled? (args.map (·.expr))).map (·.map .free))
      (k.draftFormat? template args) := by
  unfold draftFormat? Expr.filled?
  cases template.stringLiteral?.bind fun s => FormatPiece.parse? s.toList with
  | none => exact .pure rfl
  | some pieces =>
    dsimp only
    rw [List.length_map]
    by_cases hfits : pieces.all (FormatPiece.fits args.length)
    · rw [if_pos hfits, if_pos hfits]
      refine (draftArguments_yields args).bind fun ds hds => ?_
      have hmentions : (code "`" ++ joined "" (pieces.map (FormatPiece.draft ds)) ++ code "`").mentions =
          (pieces.filterMap (FormatPiece.argument? (args.map (·.expr)))).map .free := by
        simp [FormatPiece.mentions_pieces hds]
      have hsome := congrArg some hmentions
      exact .ite (fun _ => .after _ fun _ => .pure hsome) fun _ => .pure hsome
    · rw [if_neg hfits, if_neg hfits]
      exact .pure rfl

end ComponentScript
