/-
  ComponentScript.Proofs.Convert.Calls — which nodes a conversion step goes to, in which order
  and under which scopes.

  Two runs are followed side by side (`Runs`), the second with a converter of its own and over
  nodes with other texts. `Calls P ps m m'`: the step `m` of the first run converts the parts
  `ps`, some of them perhaps not, in this order and each under its scopes, and does nothing
  else to its session that the step would not do for any other texts of them; `m'` is the same
  step of the second run. A step may go into a node instead of converting it, and to some nodes
  more than once (`Draws`).

  A derivation of `Calls` holds everything that is needed to keep two runs in lockstep, to
  follow them until they part, or to follow one run and collect what it reports.
-/

import ComponentScript.Proofs.Convert.Lockstep
import ComponentScript.Proofs.Syntax.Nodes
import ComponentScript.Proofs.Syntax.Retext

namespace ComponentScript

/-! ## Parts drawn from parts -/

namespace Parts

/-- The parts, with the scopes `b` around them. -/
def under (b : Scopes) (ps : Parts) : Parts := ps.map fun p => (p.1 ++ b, p.2)

@[simp] theorem under_nil (ps : Parts) : ps.under [] = ps := by simp [under]

@[simp] theorem under_append (b : Scopes) (ps qs : Parts) : (ps ++ qs).under b = ps.under b ++ qs.under b :=
  List.map_append

@[simp] theorem under_under (b c : Scopes) (ps : Parts) : (ps.under b).under c = ps.under (b ++ c) := by
  simp [under, Function.comp_def]

@[simp] theorem under_exprs (b c : Scopes) (es : List Expr) : (exprs c es).under b = exprs (c ++ b) es := by
  simp [under, exprs, expr, Function.comp_def]

theorem mem_inner_of_under {b : Scopes} {x : Node} {p : Scopes × Node} (hp : p ∈ x.parts.under b) : p.2 ∈ x.inner := by
  obtain ⟨q, hq, rfl⟩ := List.mem_map.mp hp
  exact List.mem_map_of_mem (f := (·.2)) hq

end Parts

/-- The parts `xs` are drawn from `ps` in order: a part is left out, taken, or replaced by the
    parts inside it; a node in `R` may be drawn from again. -/
inductive Draws (R : Node → Prop) : Parts → Parts → Prop
  | none (ps : Parts) : Draws R [] ps
  | skip (p : Scopes × Node) {xs ps : Parts} : Draws R xs ps → Draws R xs (p :: ps)
  | take (p : Scopes × Node) {xs ps : Parts} : Draws R xs ps → Draws R (p :: xs) (p :: ps)
  | enter (b : Scopes) (x : Node) {xs ps : Parts} : Draws R xs (x.parts.under b ++ ps) → Draws R xs ((b, x) :: ps)
  | again (p : Scopes × Node) {xs ps : Parts} : R p.2 → Draws R xs (p :: p :: ps) → Draws R xs (p :: ps)

namespace Draws

variable {R : Node → Prop} {xs ys ps qs : Parts}

theorem refl : ∀ ps : Parts, Draws R ps ps
  | [] => .none []
  | p :: ps => .take p (refl ps)

theorem left (h : Draws R xs ps) : Draws R xs (ps ++ qs) := by
  induction h with
  | none => exact .none _
  | skip p _ ih => exact .skip p ih
  | take p _ ih => exact .take p ih
  | enter b x _ ih => exact .enter b x (by rwa [List.append_assoc] at ih)
  | again p hp _ ih => exact .again p hp ih

theorem append (h : Draws R xs ps) (h' : Draws R ys qs) : Draws R (xs ++ ys) (ps ++ qs) := by
  induction h with
  | none ps =>
    induction ps with
    | nil => exact h'
    | cons p ps ih => exact .skip p ih
  | skip p _ ih => exact .skip p ih
  | take p _ ih => exact .take p ih
  | enter b x _ ih => exact .enter b x (by rwa [List.append_assoc] at ih)
  | again p hp _ ih => exact .again p hp ih

theorem right (h : Draws R ys qs) : Draws R ys (ps ++ qs) := (Draws.none ps).append h

theorem under (h : Draws R xs ps) (c : Scopes) : Draws R (xs.under c) (ps.under c) := by
  induction h with
  | none => exact .none _
  | skip p _ ih => exact .skip _ ih
  | take p _ ih => exact .take _ ih
  | enter b x _ ih => exact .enter _ x (by rwa [Parts.under_append, Parts.under_under] at ih)
  | again p hp _ ih => exact .again _ hp ih

/-- What passes from parts to the parts inside them holds of the parts that are drawn. -/
theorem forall_mem {Q : Scopes × Node → Prop} (hQ : ∀ b x, Q (b, x) → ∀ q ∈ x.parts.under b, Q q) (h : Draws R xs ps)
    (hps : ∀ p ∈ ps, Q p) : ∀ x ∈ xs, Q x := by
  induction h with
  | none => exact fun x hx => absurd hx List.not_mem_nil
  | skip p _ ih => exact ih fun q hq => hps q (List.mem_cons_of_mem _ hq)
  | take p _ ih =>
    exact List.forall_mem_cons.mpr ⟨hps p (List.mem_cons_self ..), ih fun q hq => hps q (List.mem_cons_of_mem _ hq)⟩
  | enter b x _ ih =>
    refine ih fun q hq => ?_
    rcases List.mem_append.mp hq with hq | hq
    · exact hQ b x (hps _ (List.mem_cons_self ..)) q hq
    · exact hps q (List.mem_cons_of_mem _ hq)
  | again p _ _ ih => exact ih (List.forall_mem_cons.mpr ⟨hps p (List.mem_cons_self ..), hps⟩)

/-- The same for a property of nodes. -/
theorem forall_nodes {Q : Node → Prop} (hQ : ∀ x, Q x → ∀ y ∈ x.inner, Q y) (h : Draws R xs ps)
    (hps : ∀ p ∈ ps, Q p.2) : ∀ x ∈ xs, Q x.2 :=
  h.forall_mem (Q := fun p => Q p.2) (fun _ x hx _ hq => hQ x hx _ (Parts.mem_inner_of_under hq)) hps

end Draws

/-! ## Derivations -/

/-- What a diagnostic says of a node that is not supported: the name of its kind and its
    span. -/
def Diagnostic.unsupported? (d : Diagnostic) : Option (String × Span) :=
  if d.kind = .unsupported then some (d.nodeKind, d.span) else none

/-- Whether a stem ends in a digit: the number behind it can then not be told from it. -/
def Script.endsInDigit (stem : String) : Bool := stem.toList.getLast?.any Char.isDigit

/-- Two runs under the same settings: one by `k`, the other by `k'` over the nodes retexted by
    `φ`. A step may go to the nodes in `again` more than once, and may catch errors only if it is
    `catching`. -/
structure Runs where
  k : Converter
  k' : Converter
  settings : k.settings = k'.settings
  φ : Retexting
  again : Node → Prop
  catching : Prop

/-- One converter over two trees. -/
abbrev Runs.self (k : Converter) (φ : Retexting) (again : Node → Prop) : Runs := ⟨k, k, rfl, φ, again, True⟩

/-- The steps lead from the scopes `b` to the scopes `c`; the innermost may gain names. -/
inductive CallsFrom (P : Runs) : Scopes → Scopes → Parts → {α : Type} → Emit α → Emit α → Prop
  | pure {b : Scopes} {α : Type} (a : α) : CallsFrom P b b [] (pure a) (pure a)
  | bind {b c d : Scopes} {α β : Type} {ps qs : Parts} {m m' : Emit α} {f f' : α → Emit β} : CallsFrom P b c ps m m' →
      (∀ a, CallsFrom P c d qs (f a) (f' a)) → CallsFrom P b d (ps ++ qs) (m >>= f) (m' >>= f')
  | expr {b : Scopes} (expected? : Option TypeRef) (e : Expr) :
      CallsFrom P b b [(b, .expr e)] (P.k.exprAs expected? e) (P.k'.exprAs expected? (e.retext P.φ))
  | stmt {b : Scopes} (x : Stmt) : CallsFrom P b b [(b, .stmt x)] (P.k.stmt x) (P.k'.stmt (x.retext P.φ))
  | look {b c : Scopes} {α : Type} {ps : Parts} {f f' : Session → Emit α} :
      (∀ s s' : Session, s.isBound = s'.isBound → CallsFrom P b c ps (f s) (f' s')) →
      CallsFrom P b c ps (get >>= f) (get >>= f')
  | freshName {b : Scopes} {stem : String} : Script.endsInDigit stem = false →
      CallsFrom P b b [] (Emit.freshName stem) (Emit.freshName stem)
  | bindName {b : Scopes} {names : List String} (name : String) :
      CallsFrom P (names :: b) ((names ++ [name]) :: b) [] (Emit.bindName name) (Emit.bindName name)
  | report {b : Scopes} (d : Diagnostic) : d.unsupported? = none →
      CallsFrom P b b [] (Emit.report d) (Emit.report d)
  | withScope {b : Scopes} {α : Type} {ps : Parts} {m m' : Emit α} (names : List String) {names' : List String} :
      CallsFrom P (names :: b) (names' :: b) ps m m' →
      CallsFrom P b b ps (Emit.withScope names m) (Emit.withScope names m')
  | withCatch {b : Scopes} {α : Type} {ps : Parts} {m m' : Emit α} (binding : String) : P.catching →
      CallsFrom P b b ps m m' → CallsFrom P b b ps (Emit.withCatch binding m) (Emit.withCatch binding m')
  | draws {b c : Scopes} {α : Type} {xs ps : Parts} {m m' : Emit α} : Draws P.again xs ps →
      CallsFrom P b c xs m m' → CallsFrom P b c ps m m'

/-- The steps start and end under the scopes that the parts are seen from. -/
abbrev Calls (P : Runs) (ps : Parts) {α : Type} (m m' : Emit α) : Prop := CallsFrom P [] [] ps m m'

namespace CallsFrom

variable {P : Runs} {b c : Scopes} {α β γ : Type} {ps : Parts}

/-- A step that goes to no node can stand for one that may go to any. -/
theorem any {m m' : Emit α} (h : CallsFrom P b c [] m m') : CallsFrom P b c ps m m' := .draws (.none ps) h

theorem under {m m' : Emit α} (h : CallsFrom P b c ps m m') (d : Scopes) :
    CallsFrom P (b ++ d) (c ++ d) (ps.under d) m m' := by
  induction h with
  | pure a => exact .pure a
  | bind _ _ ihm ihf => rw [Parts.under_append]; exact .bind ihm ihf
  | expr expected? e => exact .expr expected? e
  | stmt x => exact .stmt x
  | look _ ih => exact .look ih
  | freshName h => exact .freshName h
  | bindName name => exact .bindName name
  | report d h => exact .report d h
  | withScope names _ ih => exact .withScope names ih
  | withCatch binding h _ ih => exact .withCatch binding h ih
  | draws h _ ih => exact .draws (h.under d) ih

/-- A step that goes to the nodes inside a node. -/
theorem inside {x : Node} {m m' : Emit α} (h : Calls P x.parts m m') : CallsFrom P b b [(b, x)] m m' := by
  refine .draws (.enter b x ?_) (h.under b)
  rw [List.append_nil]
  exact .refl _

theorem thenPure {m m' : Emit α} (h : CallsFrom P b c ps m m') (f : α → β) :
    CallsFrom P b c ps (m >>= fun a => Pure.pure (f a)) (m' >>= fun a => Pure.pure (f a)) := by
  rw [← List.append_nil ps]
  exact .bind h fun a => .pure (f a)

theorem map {m m' : Emit α} (h : CallsFrom P b c ps m m') (f : α → β) : CallsFrom P b c ps (f <$> m) (f <$> m') := by
  rw [map_eq_pure_bind, map_eq_pure_bind]
  exact h.thenPure f

theorem ite {p : Prop} [Decidable p] {m m' n n' : Emit α} (hm : p → CallsFrom P b c ps m m')
    (hn : ¬ p → CallsFrom P b c ps n n') : CallsFrom P b c ps (if p then m else n) (if p then m' else n') := by
  by_cases h : p
  · rw [if_pos h, if_pos h]; exact hm h
  · rw [if_neg h, if_neg h]; exact hn h

/-- A list is gone through in order; the other run goes through the retexted list. -/
theorem mapM {f : α → Emit β} {f' : γ → Emit β} {retext : α → γ} {parts : α → Parts} :
    ∀ {as : List α}, (∀ a ∈ as, CallsFrom P b b (parts a) (f a) (f' (retext a))) →
      CallsFrom P b b (as.flatMap parts) (as.mapM f) ((as.map retext).mapM f') := by
  intro as
  induction as with
  | nil => intro _; exact .pure []
  | cons a as ih =>
    intro h
    rw [List.map_cons, List.mapM_cons, List.mapM_cons, List.flatMap_cons]
    refine .bind (h a (List.mem_cons_self ..)) fun b => ?_
    exact (ih fun x hx => h x (List.mem_cons_of_mem _ hx)).thenPure fun bs => b :: bs

theorem optionMapM {f : α → Emit β} {f' : γ → Emit β} {retext : α → γ} {parts : α → Parts} {a? : Option α}
    (h : ∀ a ∈ a?, CallsFrom P b b (parts a) (f a) (f' (retext a))) :
    CallsFrom P b b (a?.toList.flatMap parts) (a?.mapM f) ((a?.map retext).mapM f') := by
  cases a? with
  | none => exact .pure none
  | some a =>
    rw [Option.toList_some, List.flatMap_singleton]
    exact (h a rfl).thenPure some

end CallsFrom

end ComponentScript
