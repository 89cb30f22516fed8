/-
  ComponentScript.Proofs.Convert.ResourceNesting — a declaration of many resources, and many
  declarations of one.

  `resource_list_splits`: at the head of a statement list, one declaration of the resources
  `d₁, …, dₙ` and `n` declarations of one resource each give the same joined text, the same
  diagnostics and the same counter. The one is a loop that nests the texts from the inside
  out; the others nest a statement list in a statement list, each with a scope of its own and
  with the functions of the rest bound once more. The text is that of a tree (`Guarded`): the
  resources are acquired in order, each guards all that follows it, and they are released in
  the opposite order.

  The induction is on the resources. What it carries: the loop is at a place where the same
  names are bound as in the nested list once that has bound its functions.
-/

import ComponentScript.Proofs.Convert.Dependence
import ComponentScript.Syntax.Build

namespace ComponentScript

open Text

/-! ## Steps at places that differ -/

namespace Lockstep

variable {α : Type} {L : Ledger} {p p' q q' : Place} {m m' : Emit α}

/-- A scope that only the first run opens. -/
theorem withScope_left (names names' : List String)
    (hm : Lockstep L ⟨p.enter [names] [], q⟩ ⟨p.enter [names'] [], q'⟩ m m') :
    Lockstep L ⟨p, q⟩ ⟨p, q'⟩ (Emit.withScope names m) m' := by
  intro s s' h
  have hopen : (s.openScope names).place = p.enter [names] [] :=
    congrArg (fun p : Place => p.enter [names] []) h.left
  obtain ⟨ha, hs⟩ := hm _ _ ⟨hopen, h.right, h.ledger⟩
  have hclose : ((m.out (s.openScope names)).2.closeScope).place = p :=
    congrArg (fun p : Place => (⟨p.scopes.tail, p.catches⟩ : Place)) hs.left
  exact ⟨ha, hclose, hs.right, hs.ledger⟩

/-- A scope that only the second run opens. -/
theorem withScope_right (names names' : List String)
    (hm : Lockstep L ⟨p, q.enter [names] []⟩ ⟨p', q.enter [names'] []⟩ m m') :
    Lockstep L ⟨p, q⟩ ⟨p', q⟩ m (Emit.withScope names m') := by
  intro s s' h
  have hopen : (s'.openScope names).place = q.enter [names] [] :=
    congrArg (fun p : Place => p.enter [names] []) h.right
  obtain ⟨ha, hs⟩ := hm _ _ ⟨h.left, hopen, h.ledger⟩
  have hclose : ((m'.out (s'.openScope names)).2.closeScope).place = q :=
    congrArg (fun p : Place => (⟨p.scopes.tail, p.catches⟩ : Place)) hs.right
  exact ⟨ha, hs.left, hclose, hs.ledger⟩

theorem withFunctions_left {ss : List Stmt}
    (hm : Lockstep L ⟨p.enter (Parts.functionScope ss) [], q⟩ ⟨p.enter (Parts.functionScope ss) [], q'⟩ m m') :
    Lockstep L ⟨p, q⟩ ⟨p, q'⟩ (Converter.withFunctions ss m) m' := by
  unfold Converter.withFunctions
  unfold Parts.functionScope at hm
  by_cases hf : (Converter.localFunctions ss).isEmpty
  · rw [if_pos hf] at hm ⊢
    exact hm
  · rw [if_neg hf] at hm ⊢
    exact .withScope_left _ _ hm

theorem withFunctions_right {ss : List Stmt}
    (hm : Lockstep L ⟨p, q.enter (Parts.functionScope ss) []⟩ ⟨p', q.enter (Parts.functionScope ss) []⟩ m m') :
    Lockstep L ⟨p, q⟩ ⟨p', q⟩ m (Converter.withFunctions ss m') := by
  unfold Converter.withFunctions
  unfold Parts.functionScope at hm
  by_cases hf : (Converter.localFunctions ss).isEmpty
  · rw [if_pos hf] at hm ⊢
    exact hm
  · rw [if_neg hf] at hm ⊢
    exact .withScope_right _ _ hm

/-- Both runs bind a name, each in its own scope. -/
theorem bindName_apart (names names' : List String) (name : String) :
    Lockstep L ⟨p.enter [names] [], q.enter [names'] []⟩ ⟨p.enter [names ++ [name]] [], q.enter [names' ++ [name]] []⟩
      (Emit.bindName name) (Emit.bindName name) := by
  intro s s' h
  have hkeep : ∀ s : Session, (s.bind name).counter = s.counter ∧ (s.bind name).diagnostics = s.diagnostics := by
    intro s
    unfold Session.bind
    split <;> exact ⟨rfl, rfl⟩
  refine ⟨rfl, Linked.bind_place h.left name, Linked.bind_place h.right name, ?_⟩
  rw [Emit.out_bindName, Emit.out_bindName, (hkeep s).1, (hkeep s).2, (hkeep s').1, (hkeep s').2]
  exact h.ledger

end Lockstep

/-! ## Places that are alike once the functions of the list are bound -/

namespace Places

variable {p q : Place} {b : Scopes}

theorem isBound_enter (p : Place) (b : Scopes) (c : List String) (name : String) :
    (p.enter b c).isBound name = (b.any (·.contains name) || p.isBound name) := List.any_append ..

/-- Scopes that one place has already are entered on both. -/
theorem Alike.enter_again (h : (Places.mk p (q.enter b [])).Alike) : ((Places.mk p q).enter b []).Alike where
  bound name := by
    have hname := h.bound name
    rw [isBound_enter] at hname
    simp only [Places.enter, isBound_enter, hname, Bool.or_self_left]
  caught := h.caught

theorem Alike.symm (h : (Places.mk p q).Alike) : (Places.mk q p).Alike :=
  ⟨fun name => (h.bound name).symm, h.caught.symm⟩

theorem Alike.enter_empty (h : (Places.mk p q).Alike) : (Places.mk p (q.enter [[]] [])).Alike :=
  ⟨fun name => (h.bound name).trans (isBound_enter q [[]] [] name).symm, h.caught⟩

/-- A name bound on both sides: in the open scope of the one, in a new scope of the other,
    where the scopes `b` are entered once more. -/
theorem Alike.bind_apart {names : List String} (h : (Places.mk (p.enter [names] []) (q.enter b [])).Alike)
    (name : String) :
    (Places.mk (p.enter [names ++ [name]] []) (((q.enter b []).enter [[name]] []).enter b [])).Alike where
  bound x := by
    have hx := h.bound x
    simp only [isBound_enter, List.any_cons, List.any_nil, Bool.or_false] at hx ⊢
    simp only [List.contains_append, List.contains_cons, List.contains_nil, Bool.or_false]
    grind
  caught := h.caught

end Places

/-! ## The text of guarded lines -/

theorem joinLines_singleton (t : String) : joinLines [t] = t := by
  unfold joinLines
  rw [String.intercalate_singleton]

namespace Converter

variable (k : Converter)

/-- What is seen of a list of texts: joined, and in braces. -/
def shown (lines : List String) : String × String := (joinLines lines, Script.block lines k.indent)

/-- Two texts that are not empty are seen like one text. -/
theorem shown_pair {a b : String} (ha : a ≠ "") (hb : b ≠ "") : k.shown [joinLines [a, b]] = k.shown [a, b] := by
  have hjoin : joinLines [a, b] ≠ "" := by
    intro h
    unfold joinLines at h
    rw [String.intercalate_cons_cons] at h
    exact ha (String.append_eq_empty_iff.mp (String.append_eq_empty_iff.mp h).1).1
  unfold shown Script.block
  rw [joinLines_singleton]
  simp only [List.filter_cons, List.filter_nil, decide_not, ha, hb, hjoin, decide_false, Bool.not_false, if_true,
    joinLines_singleton, List.isEmpty_cons]

theorem shown_guardLines (isAwait : Bool) (binding : String × String) (lines : List String) :
    k.shown [joinLines (k.guardLines isAwait binding lines)] = k.shown (k.guardLines isAwait binding lines) :=
  k.shown_pair (by simp [toString]) (by simp [toString])

/-- Lines that look alike look alike when they are guarded, as only their block is seen. -/
theorem shown_guardLines_lockstep {L : Ledger} {π ρ : Places} {m m' : Emit (List String)}
    (h : Lockstep L π ρ (k.shown <$> m) (k.shown <$> m')) (isAwait : Bool) (binding : String × String) :
    Lockstep L π ρ (do return k.shown (k.guardLines isAwait binding (← m)))
      (do return k.shown (k.guardLines isAwait binding (← m'))) := by
  intro s s' hs
  obtain ⟨hlines, hends⟩ := h s s' hs
  have hblock : Script.block (m.out s).1 k.indent = Script.block (m'.out s').1 k.indent := congrArg Prod.snd hlines
  refine ⟨?_, hends⟩
  simp only [Emit.out_bind, Emit.out_pure, guardLines, hblock]

/-! ## Resources in a list -/

/-- The value of a declared resource. -/
def initial (d : Declarator) : Emit String :=
  match d.init? with
  | some e => k.expr e
  | none => pure "undefined"

theorem initial_lockstep {L : Ledger} {π : Places} {k k' : Converter} {d : Declarator}
    (h : ∀ e ∈ d.init?, ExprInStep L π k k' e) : Lockstep L π π (k.initial d) (k'.initial d) := by
  obtain ⟨name, init?⟩ := d
  cases init? with
  | none => exact .pure _
  | some e => exact (h e rfl).exprAs none

theorem acquire_nil : k.acquire [] = pure [] := rfl

theorem acquire_cons (d : Declarator) (ds : List Declarator) :
    k.acquire (d :: ds) = do
      let value ← k.initial d
      Emit.bindName d.name
      return (d.name, value) :: (← k.acquire ds) := by
  unfold initial
  rw [acquire]
  cases d.init? <;> rfl

theorem acquire_names (ds : List Declarator) (s : Session) :
    ((k.acquire ds).out s).1.map (·.1) = ds.map (·.name) := by
  induction ds generalizing s with
  | nil => rfl
  | cons d ds ih => simp only [acquire_cons, Emit.out_bind, Emit.out_pure, List.map_cons, ih]

/-- The statements after the resources, guarded by them, in the scope the resources are in. -/
def guardedRest (isAwait : Bool) (ds : List Declarator) (rest : List Stmt) : Emit (List String) := do
  let bindings ← k.acquire ds
  let lines ← k.statements rest
  return bindings.foldr (k.guardLines isAwait) lines

theorem shown_guardedRest_cons (isAwait : Bool) (d : Declarator) (ds : List Declarator) (rest : List Stmt) :
    k.shown <$> k.guardedRest isAwait (d :: ds) rest = do
      let value ← k.initial d
      Emit.bindName d.name
      return k.shown (k.guardLines isAwait (d.name, value) (← k.guardedRest isAwait ds rest)) := by
  refine Emit.ext_out fun s => ?_
  simp only [guardedRest, acquire_cons, Emit.out_map, Emit.out_bind, Emit.out_pure, List.foldr_cons]

theorem withFunctions_congr {α : Type} {ss ss' : List Stmt} (h : localFunctions ss = localFunctions ss')
    (step : Emit α) :
    withFunctions ss step = withFunctions ss' step := by
  unfold withFunctions
  rw [h]

theorem map_withFunctions {α β : Type} (f : α → β) (ss : List Stmt) (step : Emit α) :
    f <$> withFunctions ss step = withFunctions ss (f <$> step) := by
  unfold withFunctions
  split <;> rfl

end Converter

/-- One declaration for each resource. -/
def Stmt.eachResource (isAwait : Bool) (ds : List (Span × Declarator)) : List Stmt :=
  ds.map fun d => ⟨d.1, .resource [d.2] none none isAwait⟩

/-- One declaration for all resources. -/
def Stmt.allResources (span : Span) (isAwait : Bool) (ds : List (Span × Declarator)) : Stmt :=
  ⟨span, .resource (ds.map (·.2)) none none isAwait⟩

namespace Converter

variable (k : Converter)

theorem localFunctions_eachResource (isAwait : Bool) (ds : List (Span × Declarator)) (rest : List Stmt) :
    localFunctions (Stmt.eachResource isAwait ds ++ rest) = localFunctions rest := by
  induction ds with
  | nil => rfl
  | cons d ds ih => exact ih

/-- One declaration of all resources: their scope is around the guarded statements. -/
theorem statements_allResources (span : Span) (isAwait : Bool) (ds : List (Span × Declarator)) (rest : List Stmt) :
    joinLines <$> k.statements (Stmt.allResources span isAwait ds :: rest) =
      withFunctions rest (Emit.withScope [] (joinLines <$> k.guardedRest isAwait (ds.map (·.2)) rest)) := by
  have hfunctions : localFunctions (Stmt.allResources span isAwait ds :: rest) = localFunctions rest := rfl
  unfold statements
  rw [map_withFunctions, withFunctions_congr hfunctions]
  refine congrArg (withFunctions rest) (Emit.ext_out fun s => ?_)
  simp only [Stmt.allResources, sequence, resourceScope, acquireUnnamed, guardedRest, statements, Emit.out_map,
    Emit.out_bind, Emit.out_pure, Emit.out_withScope, List.append_nil, joinLines_singleton]

/-- A declaration of one resource: the statements after it are a list again. -/
theorem statements_eachResource (isAwait : Bool) (d : Span × Declarator) (ds : List (Span × Declarator))
    (rest : List Stmt) :
    k.shown <$> k.statements (Stmt.eachResource isAwait (d :: ds) ++ rest) =
      withFunctions rest (Emit.withScope [] do
        let value ← k.initial d.2
        Emit.bindName d.2.name
        return k.shown (k.guardLines isAwait (d.2.name, value)
          (← k.statements (Stmt.eachResource isAwait ds ++ rest)))) := by
  unfold statements
  rw [map_withFunctions, withFunctions_congr (localFunctions_eachResource isAwait (d :: ds) rest)]
  refine congrArg (withFunctions rest) (Emit.ext_out fun s => ?_)
  simp only [Stmt.eachResource, List.map_cons, List.cons_append, sequence, resourceScope, acquire_cons, acquire_nil,
    acquireUnnamed, Emit.out_map, Emit.out_bind, Emit.out_pure, Emit.out_withScope, List.append_nil,
    List.foldr_cons, List.foldr_nil, shown_guardLines]

end Converter

namespace Engine

variable {g : Engine} {m : Model} {L : Ledger}

/-- The loop over the resources and the nested lists run in lockstep. -/
theorem guardedRest_lockstep (hg : g.Local) (isAwait : Bool) (rest : List Stmt) (ds : List (Span × Declarator)) :
    ∀ {p q : Place} {seen : List String},
    (Places.mk (p.enter [seen] []) (q.enter (Parts.functionScope rest) [])).Alike →
    Lockstep L ⟨p.enter [seen] [], q⟩ ⟨p.enter [seen ++ ds.map (·.2.name)] [], q⟩
      ((g.converter m).shown <$> (g.converter m).guardedRest isAwait (ds.map (·.2)) rest)
      ((g.converter m).shown <$> (g.converter m).statements (Stmt.eachResource isAwait ds ++ rest)) := by
  induction ds with
  | nil =>
    intro p q seen h
    rw [List.map_nil, List.append_nil]
    have hrest : Lockstep L ⟨p.enter [seen] [], q⟩ ⟨p.enter [seen] [], q⟩ ((g.converter m).statements rest)
        ((g.converter m).statements rest) := by
      have hcalls := Converter.sequence_calls (P := Runs.same (k := g.converter m) rfl True) rest (b := [])
      simp only [Stmt.retext_same, List.map_id'] at hcalls
      refine .withFunctions_left (.withFunctions_right ?_)
      exact hcalls.lockstep rfl h.enter_again ((converter_covered hg (.refl m _) h.enter_again).covers rfl)
    exact .map hrest _
  | cons d ds ih =>
    intro p q seen h
    have hvalue : Lockstep L ⟨p.enter [seen] [], (q.enter (Parts.functionScope rest) []).enter [[]] []⟩
        ⟨p.enter [seen] [], (q.enter (Parts.functionScope rest) []).enter [[]] []⟩
        ((g.converter m).initial d.2) ((g.converter m).initial d.2) := by
      refine Converter.initial_lockstep fun e _ => ?_
      exact converter_covered hg (.refl m [Parts.expr [] e]) h.enter_empty [] (.expr e) (.self _) []
    have hrest := ih (h.bind_apart d.2.name)
    rw [List.append_assoc] at hrest
    rw [Converter.statements_eachResource, List.map_cons, List.map_cons, Converter.shown_guardedRest_cons]
    refine .withFunctions_right (.withScope_right [] [d.2.name] ?_)
    refine .bind hvalue fun value => .bind (.bindName_apart seen [] _) fun _ => ?_
    exact (g.converter m).shown_guardLines_lockstep hrest isAwait _

end Engine

/-! ## Resources around what uses them -/

/-- Lines that run while resources are held: the outermost is acquired first. -/
inductive Guarded where
  | body (lines : List String)
  | resource (name value : String) (inner : Guarded)

/-- What running guarded lines does. -/
inductive ResourceEvent where
  | acquire (name value : String)
  | run (lines : List String)
  | release (name : String)

namespace Guarded

/-- A resource is acquired, all that it guards runs, and it is released. -/
def events : Guarded → List ResourceEvent
  | body lines => [.run lines]
  | resource name value inner => .acquire name value :: inner.events ++ [.release name]

/-- The lines of the tree: what a resource guards is in the braces of its `try`. -/
def lines (k : Converter) (isAwait : Bool) : Guarded → List String
  | body lines => lines
  | resource name value inner =>
    let body := Script.block (inner.lines k isAwait) k.indent
    let release := Script.block [k.releaseLine name isAwait] k.indent
    [s!"const {name} = {value};", s!"try {body} finally {release}"]

def of (bindings : List (String × String)) (lines : List String) : Guarded :=
  bindings.foldr (fun binding inner => resource binding.1 binding.2 inner) (body lines)

theorem lines_of (k : Converter) (isAwait : Bool) (bindings : List (String × String)) (lines : List String) :
    (of bindings lines).lines k isAwait = bindings.foldr (k.guardLines isAwait) lines := by
  induction bindings with
  | nil => rfl
  | cons binding bindings ih =>
    rw [List.foldr_cons, ← ih]
    rfl

theorem events_of (bindings : List (String × String)) (lines : List String) :
    (of bindings lines).events = bindings.map (fun b => .acquire b.1 b.2) ++
      .run lines :: bindings.reverse.map (fun b => .release b.1) := by
  induction bindings with
  | nil => rfl
  | cons binding bindings ih =>
    have hcons : (of (binding :: bindings) lines).events =
        .acquire binding.1 binding.2 :: (of bindings lines).events ++ [.release binding.1] := rfl
    rw [hcons, ih]
    simp only [List.map_cons, List.reverse_cons, List.map_append, List.map_nil, List.cons_append, List.append_assoc]

end Guarded

/-- The session in which the resources at the head of a list are acquired: the functions of
    the list are bound, and a scope is open for the resources. -/
def Session.before (s : Session) (rest : List Stmt) : Session :=
  { s with scopes := [] :: (Parts.functionScope rest ++ s.scopes) }

theorem Converter.out_withFunctions {α : Type} (ss : List Stmt) (step : Emit α) (s : Session) :
    ((withFunctions ss (Emit.withScope [] step)).out s).1 = (step.out (s.before ss)).1 := by
  unfold withFunctions Session.before Parts.functionScope
  split <;> rfl

/-- Splitting a declaration of resources. With rules that only look inside a node, in every
    model and session, for any number of resources: one declaration of all of them and one
    declaration of each, in front of the same statements, are converted to the same joined
    text with the same session after it. The text is that of the resources, each acquired
    with those before it in scope, around the statements: they are acquired in order, all that
    follows a resource is guarded by it, and they are released in the opposite order. -/
theorem resource_list_splits (g : Engine) (hg : g.Local) (m : Model) (s : Session) (span : Span) (isAwait : Bool)
    (ds : List (Span × Declarator)) (rest : List Stmt) :
    let k := g.converter m
    let together := joinLines <$> k.statements (Stmt.allResources span isAwait ds :: rest)
    let apart := joinLines <$> k.statements (Stmt.eachResource isAwait ds ++ rest)
    let acquired := (k.acquire (ds.map (·.2))).out (s.before rest)
    let body := (k.statements rest).out acquired.2
    together.out s = apart.out s ∧
      acquired.1.map (·.1) = ds.map (·.2.name) ∧
      ∃ tree : Guarded, (apart.out s).1 = joinLines (tree.lines k isAwait) ∧
        tree.events = acquired.1.map (fun b => .acquire b.1 b.2) ++
          .run body.1 :: acquired.1.reverse.map (fun b => .release b.1) := by
  intro k together apart acquired body
  have hsplit : together.out s = apart.out s := by
    have halike := ((Places.Alike.refl (s.place.enter (Parts.functionScope rest) [])).enter_empty).symm
    have hloop := (Engine.guardedRest_lockstep (L := .same) (m := m) hg isAwait rest ds halike).map Prod.fst
    have hrun : Lockstep Ledger.same (.both s.place) (.both s.place) together apart := by
      show Lockstep _ _ _ (joinLines <$> k.statements (Stmt.allResources span isAwait ds :: rest)) _
      rw [k.statements_allResources]
      exact .withFunctions_left (.withScope_left [] _ hloop)
    exact hrun.out_eq rfl
  have htext : (together.out s).1 = joinLines ((Guarded.of acquired.1 body.1).lines k isAwait) := by
    rw [Guarded.lines_of]
    show ((joinLines <$> k.statements (Stmt.allResources span isAwait ds :: rest)).out s).1 = _
    rw [k.statements_allResources, Converter.out_withFunctions]
    rfl
  refine ⟨hsplit, ?_, Guarded.of acquired.1 body.1, ?_, Guarded.events_of _ _⟩
  · rw [k.acquire_names, List.map_map]
    rfl
  · rw [← hsplit]
    exact htext

/-- Two resources, the second made from the first by a function that is declared behind both. -/
theorem resource_list_splits_copy :
    let k := ({} : Engine).converter .empty
    let ds : List (Span × Declarator) :=
      [(⟨0, 4⟩, ⟨"Input", some (.call (.ident "Open") [])⟩),
        (⟨5, 9⟩, ⟨"Copy", some (.call (.ident "Twice") [.ident "Input"])⟩)]
    let rest : List Stmt :=
      [.of .empty, .expr (.call (.ident "Send") [.ident "Copy"]),
        .of (.localFunction "Twice" [.named "x"] (.block [.ret (some (.ident "x"))]) false)]
    Engine.Local {} ∧
      (joinLines <$> k.statements (Stmt.allResources {} true ds :: rest)).out {} =
        (joinLines <$> k.statements (Stmt.eachResource true ds ++ rest)).out {} ∧
      ((joinLines <$> k.statements (Stmt.eachResource true ds ++ rest)).out {}).1 =
        "const Input = this.open();\n" ++
        "try \x7b\n" ++
        "  const Copy = Twice(Input);\n" ++
        "  try \x7b\n" ++
        "    ;\n" ++
        "    this.send(Copy);\n" ++
        "    function Twice(x) \x7b\n" ++
        "      return x;\n" ++
        "    \x7d\n" ++
        "  \x7d finally \x7b\n" ++
        "    if (Copy && typeof Copy.disposeAsync === \"function\") await Copy.disposeAsync();\n" ++
        "  \x7d\n" ++
        "\x7d finally \x7b\n" ++
        "  if (Input && typeof Input.disposeAsync === \"function\") await Input.disposeAsync();\n" ++
        "\x7d" := by
  intro k ds rest
  have hlocal := Engine.builtin_local {}
  have hsplit := (resource_list_splits {} hlocal .empty {} {} true ds rest).1
  refine ⟨hlocal, hsplit, ?_⟩
  rw [← hsplit]
  show (((joinLines <$> (({} : Engine).converter .empty).statements
    (Stmt.allResources {} true ds :: rest)).out {}).1) = _
  rw [Engine.builtin_eq]
  decide +kernel

end ComponentScript
