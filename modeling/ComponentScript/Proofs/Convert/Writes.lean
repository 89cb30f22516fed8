/-
  ComponentScript.Proofs.Convert.Writes — what the results of conversion steps look like.

  `Provides N P m`: from every session whose catch bindings are names with `N`, the step `m`
  gives a result with the property `P`, and leaves such a session. Steps are taken apart along their
  binds; the property of a result is what the steps behind it may rely on.

  A tree is well named when its names have no quotes and no brackets, type names but for
  arities and array ranks, when no interpolated string has two texts side by side, and when
  it has no node without a structured kind. Being well named is a property of each node by
  itself (`Node.OwnNames`), and so it passes from a node to all nodes inside it
  (`Node.WellNamed.parts`).
-/

import ComponentScript.Proofs.Convert.Lockstep
import ComponentScript.Proofs.Script.Names
import ComponentScript.Proofs.Syntax.Everywhere

namespace ComponentScript

open Script

/-! ## Properties of results -/

/-- The errors that can be thrown again are bound to names. -/
def Session.NamesCatches (s : Session) : Prop := ∀ binding ∈ s.catches, Markless binding

/-- Wherever errors are bound to names with `N`, the step gives a result with `P` and leaves them
    so. -/
def Provides {α : Type} (N : String → Prop) (P : α → Prop) (m : Emit α) : Prop :=
  ∀ s : Session, (∀ binding ∈ s.catches, N binding) → P (m.out s).1 ∧ ∀ binding ∈ (m.out s).2.catches, N binding

/-- The step does so with names that have no marks. -/
abbrev Writes {α : Type} (P : α → Prop) (m : Emit α) : Prop := Provides Markless P m

/-- Every text is closed. -/
abbrev AllClosed (ts : List String) : Prop := ∀ t ∈ ts, Closed t

/-- The text is closed, if there is one. -/
abbrev AnyClosed (t? : Option String) : Prop := ∀ t ∈ t?, Closed t

theorem anyClosed_some {t : String} (h : Closed t) : AnyClosed (some t) := fun _ hm => Option.some.inj hm ▸ h

namespace Provides

variable {α β : Type} {N : String → Prop} {P P' : α → Prop} {Q : β → Prop}

theorem pure {a : α} (h : P a) : Provides N P (Pure.pure a) := fun _ hs => ⟨h, hs⟩

theorem bind {m : Emit α} {f : α → Emit β} (hm : Provides N P m) (hf : ∀ a, P a → Provides N Q (f a)) :
    Provides N Q (m >>= f) := by
  intro s hs
  obtain ⟨ha, hs'⟩ := hm s hs
  exact hf _ ha _ hs'

theorem mono {m : Emit α} (hm : Provides N P m) (h : ∀ a, P a → P' a) : Provides N P' m :=
  fun s hs => ⟨h _ (hm s hs).1, (hm s hs).2⟩

theorem and {m : Emit α} (hm : Provides N P m) (h : ∀ s, P' (m.out s).1) : Provides N (fun a => P a ∧ P' a) m :=
  fun s hs => ⟨⟨(hm s hs).1, h s⟩, (hm s hs).2⟩

theorem map {m : Emit α} {f : α → β} (hm : Provides N P m) (hf : ∀ a, P a → Q (f a)) : Provides N Q (f <$> m) :=
  hm.bind fun a ha => pure (hf a ha)

/-- A step that looks at its session. -/
theorem get {f : Session → Emit β} (hf : ∀ s, Provides N Q (f s)) : Provides N Q (MonadState.get >>= f) :=
  fun s hs => hf s s hs

theorem report (d : Diagnostic) : Provides N (fun _ => True) (Emit.report d) := fun _ hs => ⟨trivial, hs⟩

theorem bindName (name : String) : Provides N (fun _ => True) (Emit.bindName name) := by
  intro s hs
  refine ⟨trivial, ?_⟩
  rw [Emit.out_bindName]
  unfold Session.bind
  split <;> exact hs

theorem caught : Provides N (fun binding? => ∀ binding ∈ binding?, N binding) Emit.caught :=
  fun _ hs => ⟨fun binding hb => hs binding (List.mem_of_mem_head? hb), hs⟩

theorem verbatim (nodeKind : String) (span : Span) {R : String → Prop} {text : String} (h : R text) :
    Provides N R (Emit.verbatim nodeKind span text) :=
  (report _).bind fun _ _ => pure h

theorem withScope {m : Emit α} (names : List String) (hm : Provides N P m) : Provides N P (Emit.withScope names m) :=
  fun s hs => hm (s.openScope names) hs

theorem withCatch {m : Emit α} {binding : String} (hb : N binding) (hm : Provides N P m) :
    Provides N P (Emit.withCatch binding m) := by
  intro s hs
  have hopen : ∀ b ∈ (s.openCatch binding).catches, N b := List.forall_mem_cons.mpr ⟨hb, hs⟩
  obtain ⟨ha, hs'⟩ := hm _ hopen
  exact ⟨ha, fun b hm => hs' b (List.mem_of_mem_tail hm)⟩

theorem mapM {f : α → Emit β} {as : List α} (hf : ∀ a ∈ as, Provides N Q (f a)) :
    Provides N (fun bs => ∀ b ∈ bs, Q b) (as.mapM f) := by
  induction as with
  | nil => exact pure nofun
  | cons a as ih =>
    rw [List.mapM_cons]
    refine (hf a (List.mem_cons_self ..)).bind fun b hb => ?_
    refine (ih fun x hx => hf x (List.mem_cons_of_mem _ hx)).bind fun bs hbs => ?_
    exact pure (List.forall_mem_cons.mpr ⟨hb, hbs⟩)

theorem optionMapM {f : α → Emit β} {a? : Option α} (hf : ∀ a ∈ a?, Provides N Q (f a)) :
    Provides N (fun b? => ∀ b ∈ b?, Q b) (a?.mapM f) := by
  cases a? with
  | none => exact pure nofun
  | some a => exact (hf a rfl).bind fun b hb => pure fun _ h => Option.some.inj h ▸ hb

theorem ite {c : Prop} [Decidable c] {m n : Emit α} (hm : c → Provides N P m) (hn : ¬ c → Provides N P n) :
    Provides N P (if c then m else n) := by
  split
  · next h => exact hm h
  · next h => exact hn h

end Provides

theorem Writes.freshName {stem : String} (h : Markless stem) : Writes Markless (Emit.freshName stem) := by
  intro s hs
  have hstem : Markless ("__" ++ stem) := .append (by decide) h
  exact ⟨hstem.append (markless_toString s.counter), hs⟩

/-! ## Well-named trees -/

/-- A type that is written has a type name. -/
def TypeNamed (type? : Option TypeRef) : Prop := ∀ type ∈ type?, TypeName type.name

/-- Parameters have names, and their types too. -/
def ParamsNamed (ps : List Param) : Prop := ∀ p ∈ ps, Markless p.name ∧ TypeNamed p.type?

def DeclaratorsNamed (ds : List Declarator) : Prop := ∀ d ∈ ds, Markless d.name

/-- No two texts stand side by side. -/
def Separated {α : Type} (isText : α → Bool) : List α → Prop
  | [] => True
  | a :: rest => (isText a = true → ∀ b ∈ rest.head?, isText b = false) ∧ Separated isText rest

def InterpolationPart.isText : InterpolationPart → Bool
  | .text _ => true
  | .expr .. => false

namespace InterpolationPart

variable {ps : List InterpolationPart}

/-- Text comes first, and it begins with a brace. -/
def braceFirst : List InterpolationPart → Bool
  | .text t :: ps =>
    match t.toList.head? with
    | some c => c = '\x7b'
    | none => braceFirst ps
  | _ => false

/-- Behind a text that ends in a dollar sign, text that begins with a brace. -/
def Straddles (ps : List InterpolationPart) : Prop :=
  ∃ t rest, InterpolationPart.text t :: rest <:+ ps ∧ t.toList.getLast? = some '$' ∧ braceFirst rest = true

theorem not_straddles_nil : ¬ Straddles [] := by
  rintro ⟨t, rest, h, -⟩
  cases List.suffix_nil.mp h

theorem straddles_text (t : String) :
    Straddles (.text t :: ps) ↔ (t.toList.getLast? = some '$' ∧ braceFirst ps = true) ∨ Straddles ps := by
  constructor
  · rintro ⟨u, rest, h, hlast, hbrace⟩
    rcases List.suffix_cons_iff.mp h with heq | h
    · cases heq
      exact .inl ⟨hlast, hbrace⟩
    · exact .inr ⟨u, rest, h, hlast, hbrace⟩
  · rintro (⟨hlast, hbrace⟩ | ⟨u, rest, h, hlast, hbrace⟩)
    · exact ⟨t, ps, List.suffix_rfl, hlast, hbrace⟩
    · exact ⟨u, rest, h.trans (List.suffix_cons ..), hlast, hbrace⟩

theorem straddles_expr (e : Expr) (format? : Option String) : Straddles (.expr e format? :: ps) ↔ Straddles ps := by
  constructor
  · rintro ⟨u, rest, h, hlast, hbrace⟩
    rcases List.suffix_cons_iff.mp h with heq | h
    · cases heq
    · exact ⟨u, rest, h, hlast, hbrace⟩
  · rintro ⟨u, rest, h, hlast, hbrace⟩
    exact ⟨u, rest, h.trans (List.suffix_cons ..), hlast, hbrace⟩

/-- What a text needs that does not straddle anything: it begins with no brace behind a dollar
    sign, and neither does what follows it. -/
theorem text_apart {b : Bool} {t : String} (h : ¬ Straddles (.text t :: ps))
    (hb : b = true → braceFirst (.text t :: ps) = false) :
    (b = true → t.toList.head? ≠ some '\x7b') ∧ (endsInDollar b t.toList = true → braceFirst ps = false) ∧
      ¬ Straddles ps := by
  rw [straddles_text, not_or, not_and, Bool.not_eq_true] at h
  rw [endsInDollar_eq]
  rw [braceFirst] at hb
  cases hcs : t.toList with
  | nil =>
    rw [hcs] at hb
    exact ⟨fun _ => nofun, hb, h.2⟩
  | cons c cs =>
    rw [hcs] at hb h
    refine ⟨fun hdollar hhead => ?_, fun hlast => h.1 ?_, h.2⟩
    · cases hhead
      cases hb hdollar
    · rw [List.getLast?_cons] at hlast ⊢
      exact congrArg some (of_decide_eq_true hlast)

/-- Texts that are not side by side do not straddle anything. -/
theorem not_straddles_of_separated (h : Separated isText ps) : ¬ Straddles ps := by
  induction ps with
  | nil => exact not_straddles_nil
  | cons p ps ih =>
    cases p with
    | expr e format? => exact fun hs => ih h.2 ((straddles_expr e format?).mp hs)
    | text t =>
      rw [straddles_text, not_or]
      refine ⟨fun hopen => ?_, ih h.2⟩
      cases ps with
      | nil => cases hopen.2
      | cons q qs =>
        cases q with
        | text u => cases h.1 rfl _ rfl
        | expr e format? => cases hopen.2

end InterpolationPart

/-- The names that an expression has of its own, outside of the nodes inside it. -/
def Expr.OwnNames (e : Expr) : Prop :=
  match e.kind with
  | .identifier name | .member _ name | .conditionalMember _ name => Markless name
  | .literal (.number text) => Markless text
  | .interpolated parts => Separated InterpolationPart.isText parts
  | .objectCreation type? _ _ => TypeNamed type?
  | .lambda ps _ _ => ParamsNamed ps
  | .other .. => False
  | _ => True

@[inherit_doc Expr.OwnNames]
def Pattern.OwnNames : Pattern → Prop
  | .type t => TypeName t.name
  | .property type? subpatterns => TypeNamed type? ∧ ∀ p ∈ subpatterns, Markless p.name
  | _ => True

@[inherit_doc Expr.OwnNames]
def Stmt.OwnNames (s : Stmt) : Prop :=
  match s.kind with
  | .declaration type? ds _ | .forLoop (some (.declaration type? ds)) _ _ _ => TypeNamed type? ∧ DeclaratorsNamed ds
  | .forEach target _ _ _ => ∀ name ∈ target.names, Markless name
  | .tryCatch _ clauses _ => ∀ c ∈ clauses, TypeNamed c.type? ∧ ∀ name ∈ c.name?, Markless name
  | .resource ds _ _ _ => DeclaratorsNamed ds
  | .localFunction name ps _ _ => Markless name ∧ ParamsNamed ps
  | .other .. => False
  | _ => True

def Node.OwnNames : Node → Prop
  | .expr e => e.OwnNames
  | .stmt s => s.OwnNames
  | .pattern p => p.OwnNames

/-- The names of the node and of all nodes inside it. -/
def Node.WellNamed (x : Node) : Prop := x.OwnNames ∧ ∀ b y, Within x.parts b y → y.OwnNames

def Parts.WellNamed (ps : Parts) : Prop := ∀ p ∈ ps, p.2.WellNamed

theorem Node.WellNamed.parts {x : Node} (h : x.WellNamed) : x.parts.WellNamed := Node.Everywhere.parts h

theorem Node.wellNamed_of_parts {x : Node} (h : x.OwnNames) (hp : x.parts.WellNamed) : x.WellNamed :=
  Node.everywhere_of_parts h hp

namespace Parts

variable {ps qs : Parts}

theorem WellNamed.left (h : WellNamed (ps ++ qs)) : WellNamed ps := Everywhere.left h

theorem WellNamed.right (h : WellNamed (ps ++ qs)) : WellNamed qs := Everywhere.right h

theorem WellNamed.head {p : Scopes × Node} (h : WellNamed (p :: ps)) : p.2.WellNamed := Everywhere.head h

theorem WellNamed.tail {p : Scopes × Node} (h : WellNamed (p :: ps)) : WellNamed ps := Everywhere.tail h

theorem WellNamed.flatMap {α : Type} {f : α → Parts} {as : List α} (h : WellNamed (as.flatMap f)) {a : α}
    (ha : a ∈ as) : WellNamed (f a) :=
  Everywhere.flatMap h ha

theorem WellNamed.exprs {b : Scopes} {es : List Expr} (h : WellNamed (exprs b es)) {e : Expr} (he : e ∈ es) :
    (Node.expr e).WellNamed :=
  Everywhere.exprs h he

theorem WellNamed.sequence {ss : List Stmt} {b : Scopes} (h : WellNamed (sequence b ss)) :
    ∀ s ∈ ss, (Node.stmt s).WellNamed :=
  Everywhere.sequence h

theorem WellNamed.acquired {ds : List Declarator} {seen : List String} (h : WellNamed (acquired seen ds)) :
    ∀ d ∈ ds, ∀ e ∈ d.init?, (Node.expr e).WellNamed :=
  Everywhere.acquired h

end Parts

theorem Node.WellNamed.body {b : Scopes} {s : Stmt} (h : (Parts.body b s).2.WellNamed) :
    (Node.stmt s).WellNamed :=
  Node.Everywhere.body h

theorem Node.WellNamed.statements {s : Stmt} (h : (Node.stmt s).WellNamed) :
    ∀ x ∈ s.statements, (Node.stmt x).WellNamed :=
  Node.Everywhere.statements h

end ComponentScript
