/-
  ComponentScript.Proofs.Convert.Lockstep — two runs side by side.

  A session stands at a place: its open scopes and its catch bindings. What it has counted
  and reported is its ledger. `Lockstep L π ρ m m'`: from sessions at the places `π` whose
  ledgers are related by `L`, the steps `m` and `m'` give the same result and end at the
  places `ρ`, with related ledgers. Most steps end where they start; only a resource that is
  bound on the way moves its place.

  Every fact about what conversions keep, or about what they depend on, is an instance: one
  run beside itself, a run at another place, with another model, or with other inner
  conversions.
-/

import ComponentScript.Proofs.Syntax.Parts

namespace ComponentScript

/-! ## The outcome of a step -/

namespace Emit

variable {α β : Type}

/-- The result of a step and the session after it. -/
def out (m : Emit α) (s : Session) : α × Session := m.run s

theorem ext_out {m m' : Emit α} (h : ∀ s, m.out s = m'.out s) : m = m' := funext h

@[simp] theorem out_pure (a : α) (s : Session) : (pure a : Emit α).out s = (a, s) := rfl

@[simp] theorem out_bind (m : Emit α) (f : α → Emit β) (s : Session) :
    (m >>= f).out s = (f (m.out s).1).out (m.out s).2 := rfl

@[simp] theorem out_map (m : Emit α) (f : α → β) (s : Session) :
    (f <$> m).out s = (f (m.out s).1, (m.out s).2) := rfl

@[simp] theorem out_get (s : Session) : (get : Emit Session).out s = (s, s) := rfl

@[simp] theorem out_report (d : Diagnostic) (s : Session) : (report d).out s = ((), s.report d) := rfl

@[simp] theorem out_bindName (name : String) (s : Session) : (bindName name).out s = ((), s.bind name) := rfl

@[simp] theorem out_freshName (stem : String) (s : Session) :
    (freshName stem).out s = (s!"__{stem}{s.counter}", { s with counter := s.counter + 1 }) := rfl

@[simp] theorem out_withScope (names : List String) (m : Emit α) (s : Session) :
    (withScope names m).out s =
      ((m.out (s.openScope names)).1, (m.out (s.openScope names)).2.closeScope) := rfl

@[simp] theorem out_withCatch (binding : String) (m : Emit α) (s : Session) :
    (withCatch binding m).out s =
      ((m.out (s.openCatch binding)).1, (m.out (s.openCatch binding)).2.closeCatch) := rfl

theorem length_mapM (f : α → Emit β) (as : List α) (s : Session) :
    ((as.mapM f).out s).1.length = as.length := by
  induction as generalizing s with
  | nil => rfl
  | cons a as ih =>
    simp only [List.mapM_cons, out_bind, out_pure, List.length_cons, ih]

end Emit

/-! ## Places -/

/-- Where a session stands. -/
structure Place where
  scopes : Scopes
  catches : List String

def Session.place (s : Session) : Place := ⟨s.scopes, s.catches⟩

namespace Place

def isBound (p : Place) (name : String) : Bool := p.scopes.any fun scope => scope.contains name

/-- The place under more scopes and catch bindings. -/
def enter (p : Place) (b : Scopes) (c : List String) : Place := ⟨b ++ p.scopes, c ++ p.catches⟩

end Place

theorem Session.isBound_eq (s : Session) (name : String) : s.isBound name = s.place.isBound name := rfl

/-- The places of two runs. -/
structure Places where
  left : Place
  right : Place

namespace Places

def enter (π : Places) (b : Scopes) (c : List String) : Places := ⟨π.left.enter b c, π.right.enter b c⟩

/-- The same names are bound at both places, and the same error is caught. -/
structure Alike (π : Places) : Prop where
  bound : ∀ name, π.left.isBound name = π.right.isBound name
  caught : π.left.catches.head? = π.right.catches.head?

theorem enter_enter (π : Places) (b b' : Scopes) (c c' : List String) :
    (π.enter b c).enter b' c' = π.enter (b' ++ b) (c' ++ c) := by
  simp only [enter, Place.enter, List.append_assoc]

theorem Alike.enter {π : Places} (h : π.Alike) (b : Scopes) (c : List String) : (π.enter b c).Alike where
  bound name := by
    have := h.bound name
    simp only [Place.isBound] at this
    simp only [Places.enter, Place.enter, Place.isBound, List.any_append, this]
  caught := by
    cases c with
    | nil => exact h.caught
    | cons => rfl

theorem Alike.refl (p : Place) : (Places.mk p p).Alike := ⟨fun _ => rfl, rfl⟩

end Places

/-! ## Ledgers -/

/-- How the counters and the diagnostics of two runs are related: drawing a name and
    reporting keep the relation, and the next names are the same. -/
structure Ledger where
  rel : Nat → List Diagnostic → Nat → List Diagnostic → Prop
  counter_eq {n n' : Nat} {ds ds' : List Diagnostic} : rel n ds n' ds' → n = n'
  draw {n n' : Nat} {ds ds' : List Diagnostic} : rel n ds n' ds' → rel (n + 1) ds (n' + 1) ds'
  report {n n' : Nat} {ds ds' : List Diagnostic} (d : Diagnostic) :
    rel n ds n' ds' → rel n (ds ++ [d]) n' (ds' ++ [d])

/-- Two sessions at the places `π` with related ledgers. -/
structure Linked (L : Ledger) (π : Places) (s s' : Session) : Prop where
  left : s.place = π.left
  right : s'.place = π.right
  ledger : L.rel s.counter s.diagnostics s'.counter s'.diagnostics

namespace Linked

variable {L : Ledger} {π : Places} {s s' : Session}

theorem isBound_eq (h : Linked L π s s') (hπ : π.Alike) (name : String) : s.isBound name = s'.isBound name := by
  rw [Session.isBound_eq, Session.isBound_eq, h.left, h.right]
  exact hπ.bound name

theorem caught_eq (h : Linked L π s s') (hπ : π.Alike) : s.catches.head? = s'.catches.head? := by
  have hl : s.catches = π.left.catches := congrArg Place.catches h.left
  have hr : s'.catches = π.right.catches := congrArg Place.catches h.right
  rw [hl, hr]
  exact hπ.caught

theorem openScope (h : Linked L π s s') (names : List String) :
    Linked L (π.enter [names] []) (s.openScope names) (s'.openScope names) where
  left := congrArg (fun p : Place => p.enter [names] []) h.left
  right := congrArg (fun p : Place => p.enter [names] []) h.right
  ledger := h.ledger

theorem closeScope {names : List String} (h : Linked L (π.enter [names] []) s s') :
    Linked L π s.closeScope s'.closeScope where
  left := congrArg (fun p : Place => (⟨p.scopes.tail, p.catches⟩ : Place)) h.left
  right := congrArg (fun p : Place => (⟨p.scopes.tail, p.catches⟩ : Place)) h.right
  ledger := h.ledger

theorem openCatch (h : Linked L π s s') (binding : String) :
    Linked L (π.enter [] [binding]) (s.openCatch binding) (s'.openCatch binding) where
  left := congrArg (fun p : Place => p.enter [] [binding]) h.left
  right := congrArg (fun p : Place => p.enter [] [binding]) h.right
  ledger := h.ledger

theorem closeCatch {binding : String} (h : Linked L (π.enter [] [binding]) s s') :
    Linked L π s.closeCatch s'.closeCatch where
  left := congrArg (fun p : Place => (⟨p.scopes, p.catches.tail⟩ : Place)) h.left
  right := congrArg (fun p : Place => (⟨p.scopes, p.catches.tail⟩ : Place)) h.right
  ledger := h.ledger

theorem bind_place {s : Session} {p : Place} {names : List String} (h : s.place = p.enter [names] [])
    (name : String) : (s.bind name).place = p.enter [names ++ [name]] [] := by
  obtain ⟨scopes, catches, counter, diagnostics⟩ := s
  cases h
  rfl

theorem bind {names : List String} (h : Linked L (π.enter [names] []) s s') (name : String) :
    Linked L (π.enter [names ++ [name]] []) (s.bind name) (s'.bind name) := by
  have hl : (s.bind name).counter = s.counter ∧ (s.bind name).diagnostics = s.diagnostics := by
    unfold Session.bind; split <;> exact ⟨rfl, rfl⟩
  have hr : (s'.bind name).counter = s'.counter ∧ (s'.bind name).diagnostics = s'.diagnostics := by
    unfold Session.bind; split <;> exact ⟨rfl, rfl⟩
  refine ⟨bind_place h.left name, bind_place h.right name, ?_⟩
  rw [hl.1, hl.2, hr.1, hr.2]
  exact h.ledger

theorem report (h : Linked L π s s') (d : Diagnostic) : Linked L π (s.report d) (s'.report d) :=
  ⟨h.left, h.right, L.report d h.ledger⟩

theorem draw (h : Linked L π s s') :
    Linked L π { s with counter := s.counter + 1 } { s' with counter := s'.counter + 1 } :=
  ⟨h.left, h.right, L.draw h.ledger⟩

end Linked

/-! ## Steps in lockstep -/

/-- The steps give the same result and lead from linked sessions at `π` to linked sessions
    at `ρ`. -/
def Lockstep {α : Type} (L : Ledger) (π ρ : Places) (m m' : Emit α) : Prop :=
  ∀ s s', Linked L π s s' → (m.out s).1 = (m'.out s').1 ∧ Linked L ρ (m.out s).2 (m'.out s').2

namespace Lockstep

variable {α β : Type} {L : Ledger} {π ρ τ : Places}

theorem pure (a : α) : Lockstep L π π (Pure.pure a) (Pure.pure a) := fun _ _ h => ⟨rfl, h⟩

theorem bind {m m' : Emit α} {f f' : α → Emit β} (hm : Lockstep L π ρ m m')
    (hf : ∀ a, Lockstep L ρ τ (f a) (f' a)) : Lockstep L π τ (m >>= f) (m' >>= f') := by
  intro s s' h
  obtain ⟨ha, hs⟩ := hm s s' h
  rw [Emit.out_bind, Emit.out_bind, ha]
  exact hf _ _ _ hs

theorem map {m m' : Emit α} (hm : Lockstep L π ρ m m') (f : α → β) : Lockstep L π ρ (f <$> m) (f <$> m') := by
  intro s s' h
  obtain ⟨ha, hs⟩ := hm s s' h
  exact ⟨congrArg f ha, hs⟩

/-- A step that looks at its session. -/
theorem get {f f' : Session → Emit β} (hf : ∀ s s', Linked L π s s' → Lockstep L π ρ (f s) (f' s')) :
    Lockstep L π ρ (MonadState.get >>= f) (MonadState.get >>= f') :=
  fun s s' h => hf s s' h s s' h

theorem report (d : Diagnostic) : Lockstep L π π (Emit.report d) (Emit.report d) :=
  fun _ _ h => ⟨rfl, h.report d⟩

theorem freshName (stem : String) : Lockstep L π π (Emit.freshName stem) (Emit.freshName stem) := by
  intro s s' h
  refine ⟨?_, h.draw⟩
  rw [Emit.out_freshName, Emit.out_freshName, L.counter_eq h.ledger]

theorem bindName (names : List String) (name : String) :
    Lockstep L (π.enter [names] []) (π.enter [names ++ [name]] []) (Emit.bindName name) (Emit.bindName name) :=
  fun _ _ h => ⟨rfl, h.bind name⟩

theorem caught (hπ : π.Alike) : Lockstep L π π Emit.caught Emit.caught :=
  fun _ _ h => ⟨h.caught_eq hπ, h⟩

theorem verbatim (nodeKind : String) (span : Span) (text : String) :
    Lockstep L π π (Emit.verbatim nodeKind span text) (Emit.verbatim nodeKind span text) :=
  bind (report _) fun _ => pure _

/-- The scope that is open at the end may hold more names than the one that was opened. -/
theorem withScope {m m' : Emit α} (names names' : List String)
    (hm : Lockstep L (π.enter [names] []) (π.enter [names'] []) m m') :
    Lockstep L π π (Emit.withScope names m) (Emit.withScope names m') := by
  intro s s' h
  obtain ⟨ha, hs⟩ := hm _ _ (h.openScope names)
  exact ⟨ha, hs.closeScope⟩

theorem withCatch {m m' : Emit α} (binding : String)
    (hm : Lockstep L (π.enter [] [binding]) (π.enter [] [binding]) m m') :
    Lockstep L π π (Emit.withCatch binding m) (Emit.withCatch binding m') := by
  intro s s' h
  obtain ⟨ha, hs⟩ := hm _ _ (h.openCatch binding)
  exact ⟨ha, hs.closeCatch⟩

end Lockstep

end ComponentScript
