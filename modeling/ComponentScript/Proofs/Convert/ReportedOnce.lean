/-
  ComponentScript.Proofs.Convert.ReportedOnce — no node is converted twice, but for the
  argument of a constructor.

  A conversion that went to a node twice would report what is unsupported in it twice.
  `Node.reports` lists what a tree has to report, in the order of the source: its nodes without
  a structured kind, and the bare `throw` statements. By its derivation in `Calls` a step
  reports a sublist of what its nodes have to report (`Calls.reporting`), so all reports of a
  conversion are a sublist of those of its tree (`unsupported_reportedOnce`).

  The exception is the only argument of a constructor: it is first converted as the contents
  of a collection, and a type that turns out to be none is then constructed from the same
  argument, converted again. What is unsupported in it is reported twice (`creation_reports_twice`).
-/

import ComponentScript.Proofs.Convert.NodeCalls

namespace ComponentScript

/-! ## What a tree has to report -/

namespace Node

/-- What a tree has to report as unsupported: the kinds and the spans, in the order of the
    source. -/
def reports (x : Node) : List (String × Span) := x.nodes.filterMap ownReport?

theorem reports_eq (x : Node) : x.reports = x.ownReport?.toList ++ x.inner.flatMap reports := by
  rw [reports, nodes_eq, List.filterMap_cons, List.filterMap_flatMap]
  cases x.ownReport? <;> rfl

end Node

/-- What the nodes of the parts have to report. -/
def Parts.reports (ps : Parts) : List (String × Span) := ps.flatMap fun p => p.2.reports

theorem Parts.reports_cons (p : Scopes × Node) (ps : Parts) : reports (p :: ps) = p.2.reports ++ ps.reports := rfl

theorem Parts.reports_append (ps qs : Parts) : (ps ++ qs).reports = ps.reports ++ qs.reports := List.flatMap_append

theorem Parts.reports_under (b : Scopes) (x : Node) : (x.parts.under b).reports = x.inner.flatMap Node.reports := by
  simp only [Parts.reports, Parts.under, Node.inner, List.flatMap_map]

theorem Draws.reports_sublist {R : Node → Prop} (hR : ∀ x, R x → x.reports = []) {xs ps : Parts}
    (h : Draws R xs ps) : xs.reports.Sublist ps.reports := by
  induction h with
  | none => exact List.nil_sublist _
  | skip p _ ih => exact ih.trans (List.sublist_append_right _ _)
  | take p _ ih => exact ih.append_left _
  | enter b x _ ih =>
    rw [Parts.reports_append, Parts.reports_under] at ih
    rw [Parts.reports_cons, Node.reports_eq, List.append_assoc]
    exact ih.trans (List.sublist_append_right _ _)
  | again p hp _ ih => rwa [Parts.reports_cons, hR p.2 hp, List.nil_append] at ih

/-! ## What a run reports -/

/-- The kinds and the spans of the nodes reported as unsupported, in the order of the reports. -/
def Session.unsupported (s : Session) : List (String × Span) := s.diagnostics.filterMap Diagnostic.unsupported?

/-- The step reports nothing as unsupported but some of `rs`, each at most once and in this
    order. -/
def Reporting {α : Type} (rs : List (String × Span)) (m : Emit α) : Prop :=
  ∀ s, ∃ new, (m.out s).2.unsupported = s.unsupported ++ new ∧ new.Sublist rs

namespace Reporting

variable {α β : Type} {rs rs' : List (String × Span)}

theorem silent {m : Emit α} (h : ∀ s, (m.out s).2.unsupported = s.unsupported) : Reporting rs m :=
  fun s => ⟨[], by rw [h, List.append_nil], List.nil_sublist _⟩

theorem mono {m : Emit α} (h : Reporting rs m) (hrs : rs.Sublist rs') : Reporting rs' m := by
  intro s
  obtain ⟨new, heq, hnew⟩ := h s
  exact ⟨new, heq, hnew.trans hrs⟩

theorem bind {m : Emit α} {f : α → Emit β} (hm : Reporting rs m) (hf : ∀ a, Reporting rs' (f a)) :
    Reporting (rs ++ rs') (m >>= f) := by
  intro s
  obtain ⟨new, heq, hnew⟩ := hm s
  obtain ⟨new', heq', hnew'⟩ := hf (m.out s).1 (m.out s).2
  exact ⟨new ++ new', by rw [Emit.out_bind, heq', heq, List.append_assoc], hnew.append hnew'⟩

theorem look {f : Session → Emit α} (hf : ∀ s, Reporting rs (f s)) : Reporting rs (get >>= f) := fun s => hf s s

theorem bindName (name : String) : Reporting rs (Emit.bindName name) := by
  refine silent fun s => ?_
  rw [Emit.out_bindName, Session.bind]
  cases s.scopes <;> rfl

theorem withScope {m : Emit α} (names : List String) (h : Reporting rs m) : Reporting rs (Emit.withScope names m) :=
  fun s => h (s.openScope names)

theorem withCatch {m : Emit α} (binding : String) (h : Reporting rs m) : Reporting rs (Emit.withCatch binding m) :=
  fun s => h (s.openCatch binding)

theorem report (d : Diagnostic) : Reporting d.unsupported?.toList (Emit.report d) := by
  intro s
  refine ⟨_, ?_, List.Sublist.refl _⟩
  rw [Emit.out_report, Session.unsupported, Session.report, List.filterMap_append]
  cases h : d.unsupported? <;> simp [Session.unsupported, h]

theorem verbatim (nodeKind : String) (span : Span) (text : String) :
    Reporting [(nodeKind, span)] (Emit.verbatim nodeKind span text) := by
  have hreport : Reporting [(nodeKind, span)] (Emit.report (.unsupported nodeKind span)) := report _
  rw [← List.append_nil [(nodeKind, span)]]
  exact hreport.bind fun _ => silent fun _ => rfl

end Reporting

/-- The converter reports what the node has to report. -/
def Node.Reporting (k : Converter) (x : Node) : Prop :=
  match x with
  | .expr e => ∀ expected?, ComponentScript.Reporting x.reports (k.exprAs expected? e)
  | .stmt s => ComponentScript.Reporting x.reports (k.stmt s)
  | .pattern _ => True

/-- A step reports what its nodes have to report, if the converter does so for the nodes with
    a property that passes to inner nodes. -/
theorem CallsFrom.reporting {Q : Runs} (hR : ∀ x, Q.again x → x.reports = []) {P : Node → Prop}
    (hP : ∀ x, P x → ∀ y ∈ x.inner, P y) (hk : ∀ x, P x → x.Reporting Q.k) {b c : Scopes} {α : Type} {ps : Parts}
    {m m' : Emit α} (h : CallsFrom Q b c ps m m') : (∀ p ∈ ps, P p.2) → Reporting ps.reports m := by
  induction h with
  | pure a => exact fun _ => .silent fun _ => rfl
  | bind _ _ ihm ihf =>
    intro hxs
    rw [Parts.reports_append]
    exact .bind (ihm fun x hx => hxs x (List.mem_append_left _ hx)) fun a =>
      ihf a fun x hx => hxs x (List.mem_append_right _ hx)
  | expr expected? e =>
    intro hxs
    rw [Parts.reports, List.flatMap_singleton]
    exact hk (.expr e) (hxs _ (List.mem_singleton.mpr rfl)) expected?
  | stmt x =>
    intro hxs
    rw [Parts.reports, List.flatMap_singleton]
    exact hk (.stmt x) (hxs _ (List.mem_singleton.mpr rfl))
  | look _ ih => exact fun hxs => .look fun s => ih s s rfl hxs
  | freshName _ => exact fun _ => .silent fun _ => rfl
  | bindName name => exact fun _ => .bindName name
  | report d hd =>
    intro _
    have hreport := Reporting.report d
    rwa [hd] at hreport
  | withScope names _ ih => exact fun hxs => .withScope names (ih hxs)
  | withCatch binding _ _ ih => exact fun hxs => .withCatch binding (ih hxs)
  | draws hdraws _ ih => exact fun hps => (ih (hdraws.forall_nodes hP hps)).mono (hdraws.reports_sublist hR)

/-! ## Constructor arguments -/

namespace Node

/-- The node is the call of a constructor that, for some expected type, first takes its
    argument for a collection to copy. -/
def CopiesInVain (k : Converter) (x : Node) (arg : Expr) : Prop :=
  ∃ e type? args initializer? expected?, x = .expr e ∧ e.kind = .objectCreation type? args initializer? ∧
    k.CopiedInVain e (type? <|> expected?) args arg

/-- No constructor in the tree takes an argument in which something is unsupported for a
    collection to copy. -/
def CopiesSupported (k : Converter) (x : Node) : Prop :=
  ∀ y ∈ x.nodes, ∀ arg, y.CopiesInVain k arg → (Node.expr arg).reports = []

theorem CopiesSupported.inner {k : Converter} {x y : Node} (h : x.CopiesSupported k) (hy : y ∈ x.inner) :
    y.CopiesSupported k := fun z hz => h z (nodes_subset_of_inner hy z hz)

theorem CopiesSupported.argument {k : Converter} {e : Expr} (h : (Node.expr e).CopiesSupported k)
    {expected? type? : Option TypeRef} {args : List Argument} {initializer? : Option Initializer} {arg : Expr}
    (hkind : e.kind = .objectCreation type? args initializer?)
    (hcopied : k.CopiedInVain e (type? <|> expected?) args arg) :
    (Node.expr arg).reports = [] := by
  refine h (.expr e) ?_ arg ⟨e, type?, args, initializer?, expected?, rfl, hkind, hcopied⟩
  rw [nodes_eq]
  exact List.mem_cons_self ..

end Node

/-- A step over the inner nodes of a node reports what the node has to report. -/
theorem Calls.reporting_inner {k : Converter} {x : Node} (hinner : ∀ y ∈ x.inner, y.depth < x.depth)
    (ih : ∀ y : Node, y.depth < x.depth → y.CopiesSupported k → y.Reporting k) (h : x.CopiesSupported k) {φ : Retexting}
    {m m' : Emit String} (hcalls : Calls (Runs.self k φ fun y => y.reports = []) x.parts m m') :
    Reporting x.reports m := by
  have hreporting := hcalls.reporting (fun _ hy => hy) (P := fun y => y.depth < x.depth ∧ y.CopiesSupported k)
    (fun y hy z hz => ⟨Node.depth_lt_inner y hy.1 z hz, hy.2.inner hz⟩) (fun y hy => ih y hy.1 hy.2)
    fun p hp => ⟨hinner p.2 (List.mem_map_of_mem hp), h.inner (List.mem_map_of_mem hp)⟩
  rw [Node.reports_eq, ← Parts.reports_under [], Parts.under_nil]
  exact hreporting.mono (List.sublist_append_right _ _)

namespace Engine

variable (settings : Settings) (m : Model)

theorem expr_reporting {e : Expr}
    (ih : ∀ y : Node, y.depth < e.depth → y.CopiesSupported (converter { settings := settings } m) →
      y.Reporting (converter { settings := settings } m))
    (h : (Node.expr e).CopiesSupported (converter { settings := settings } m)) :
    (Node.expr e).Reporting (converter { settings := settings } m) := by
  intro expected?
  cases he : e.ownReport? with
  | none =>
    have hcalls := exprAs_calls (φ := .same) (R := fun y => y.reports = []) settings m expected? he
      fun _ _ _ _ hkind hcopied => h.argument hkind hcopied
    exact Calls.reporting_inner (fun _ hy => Expr.depth_lt_of_inner hy) ih h hcalls
  | some r =>
    obtain ⟨span, kind⟩ := e
    cases kind <;> try cases he
    rw [exprAs_other, Node.reports_eq]
    exact (Reporting.verbatim _ _ _).mono (List.sublist_append_left _ _)

theorem stmt_reporting {x : Stmt}
    (ih : ∀ y : Node, y.depth < x.depth → y.CopiesSupported (converter { settings := settings } m) →
      y.Reporting (converter { settings := settings } m))
    (h : (Node.stmt x).CopiesSupported (converter { settings := settings } m)) :
    (Node.stmt x).Reporting (converter { settings := settings } m) := by
  show Reporting _ _
  cases hx : x.ownReport? with
  | none =>
    exact Calls.reporting_inner (φ := .same) (fun _ hy => Stmt.depth_lt_of_inner hy) ih h (stmt_calls settings m hx)
  | some r =>
    rw [Node.reports_eq]
    obtain ⟨span, kind⟩ := x
    cases kind with
    | other nodeKind text =>
      rw [stmt_other]
      exact (Reporting.verbatim _ _ _).mono (List.sublist_append_left _ _)
    | throws value? =>
      cases value? with
      | some value => cases hx
      | none =>
        rw [stmt_rethrow]
        refine .look fun s => ?_
        -- where an error is caught, a bare `throw` has something to throw and is not reported
        cases s.catches.head? with
        | some binding => exact .silent fun _ => rfl
        | none => exact (Reporting.verbatim _ _ _).mono (List.sublist_append_left _ _)
    | _ => cases hx

/-- Every node reports what it has to report at most once. -/
theorem converter_reporting (x : Node) : x.CopiesSupported (converter { settings := settings } m) →
    x.Reporting (converter { settings := settings } m) :=
  Node.induction_depth (fun _ => expr_reporting settings m) (fun _ => stmt_reporting settings m)
    (fun _ _ => trivial) x

/-- An unsupported argument that is copied in vain is reported twice. -/
theorem creation_reports_twice {expected? type? : Option TypeRef} {a : Argument} {span span' : Span}
    {nodeKind text : String}
    (h : (converter { settings := settings } m).CopiedInVain ⟨span, .objectCreation type? [a] none⟩
      (type? <|> expected?) [a] ⟨span', .other nodeKind text⟩) :
    (convertExpr { settings := settings } m expected? ⟨span, .objectCreation type? [a] none⟩).diagnostics =
      [.unsupported nodeKind span', .unsupported nodeKind span'] := by
  obtain ⟨type, b, htype, hb, harg, hcap, hseq, hmap⟩ := h
  obtain rfl := List.singleton_inj.mp hb
  have hargument : (converter { settings := settings } m).expr a.expr = Emit.verbatim nodeKind span' text := by
    rw [harg]
    exact exprAs_other settings m none span' nodeKind text
  rw [convertExpr, exprAs_creation, htype, Converter.creation_eq_newInstance hseq hmap]
  rw [← harg] at hcap
  simp only [Converter.copied, Converter.newInstance, Converter.arguments, hcap, Bool.false_eq_true, if_false,
    List.mapM_cons, List.mapM_nil, hargument]
  rfl

end Engine

/-! ## Whole conversions -/

/-- The conversion reports as unsupported only some of `rs`, in this order: where these have
    distinct spans, no span is in two reports. -/
structure Conversion.ReportsOnce (rs : List (String × Span)) (c : Conversion) : Prop where
  inOrder : (c.diagnostics.filterMap Diagnostic.unsupported?).Sublist rs
  distinct : (rs.map (·.2)).Nodup → ((c.diagnostics.filterMap Diagnostic.unsupported?).map (·.2)).Nodup

theorem Reporting.ofEmit {rs : List (String × Span)} {m : Emit String} (h : Reporting rs m) :
    (Conversion.ofEmit m).ReportsOnce rs := by
  obtain ⟨new, heq, hnew⟩ := h {}
  have hreports : (Conversion.ofEmit m).diagnostics.filterMap Diagnostic.unsupported? = new := heq
  rw [← hreports] at hnew
  exact ⟨hnew, fun hdistinct => hdistinct.sublist (hnew.map _)⟩

/-- With the built-in rules, any settings and any model: what is unsupported is reported at
    most once, unless it is in an argument copied in vain; such an argument is reported twice. -/
theorem unsupported_reportedOnce (settings : Settings) (m : Model) :
    (∀ expected? e, (Node.expr e).CopiesSupported (Engine.converter { settings := settings } m) →
      (Engine.convertExpr { settings := settings } m expected? e).ReportsOnce (Node.expr e).reports) ∧
    (∀ x, (Node.stmt x).CopiesSupported (Engine.converter { settings := settings } m) →
      (Engine.convertStmt { settings := settings } m x).ReportsOnce (Node.stmt x).reports) ∧
    (∀ xs : List Stmt, (∀ x ∈ xs, (Node.stmt x).CopiesSupported (Engine.converter { settings := settings } m)) →
      (Engine.convertBody { settings := settings } m xs).ReportsOnce (xs.flatMap fun x => (Node.stmt x).reports)) ∧
    (∀ expected? type? a span span' nodeKind text,
      (Engine.converter { settings := settings } m).CopiedInVain ⟨span, .objectCreation type? [a] none⟩
        (type? <|> expected?) [a] ⟨span', .other nodeKind text⟩ →
      (Engine.convertExpr { settings := settings } m expected? ⟨span, .objectCreation type? [a] none⟩).diagnostics =
        [.unsupported nodeKind span', .unsupported nodeKind span']) := by
  have hk := Engine.converter_reporting settings m
  refine ⟨fun expected? e h => (hk (.expr e) h expected?).ofEmit, fun x h => (hk (.stmt x) h).ofEmit, fun xs h => ?_,
    fun _ _ _ _ _ _ _ => Engine.creation_reports_twice settings m⟩
  have hcalls := Converter.statements_calls (b := [])
    (P := Runs.self (Engine.converter { settings := settings } m) .same fun y => y.reports = []) xs
  have hreporting := (hcalls.thenPure Text.joinLines).reporting (fun _ hy => hy) (fun _ hx _ hy => hx.inner hy) hk ?_
  · rw [Parts.reports, ← List.flatMap_map, Parts.statements_nodes, List.flatMap_map] at hreporting
    exact hreporting.ofEmit
  · refine List.forall_mem_map.mp ?_
    rw [Parts.statements_nodes]
    exact List.forall_mem_map.mpr h

/-- `new Widget(arg)`. -/
def newWidget (arg : Expr) : Expr :=
  .of (.objectCreation (some (.named "Widget")) [.positional arg] none)

/-- `checked(a)`, which has no structured form. -/
def checkedA : Expr := ⟨⟨4, 9⟩, .other "checked_expression" "checked(a)"⟩

/-- A constructor whose argument is plain, beside something unsupported: one report. A
    constructor whose argument is unsupported: two reports. -/
theorem unsupported_reportedOnce_widget :
    (Node.expr (.binary (newWidget (.ident "size")) .add checkedA)).CopiesSupported (Engine.converter {} .empty) ∧
      (Engine.convertExpr {} .empty none (.binary (newWidget (.ident "size")) .add checkedA)).ReportsOnce
        (Node.expr (.binary (newWidget (.ident "size")) .add checkedA)).reports ∧
      (Engine.converter {} .empty).CopiedInVain (newWidget checkedA) (some (.named "Widget")) [.positional checkedA]
        checkedA ∧
      (Engine.convertExpr {} .empty none (newWidget checkedA)).diagnostics =
        [.unsupported "checked_expression" ⟨4, 9⟩, .unsupported "checked_expression" ⟨4, 9⟩] := by
  have hsupported : (Node.expr (.binary (newWidget (.ident "size")) .add checkedA)).CopiesSupported
      (Engine.converter {} .empty) := by
    intro y hy arg hcopies
    obtain ⟨e, type?, args, initializer?, expected?, rfl, hkind, type, a, -, rfl, rfl, -⟩ := hcopies
    simp only [Node.nodes_eq, Node.inner, Node.parts, Expr.parts, Expr.binary, Expr.of, newWidget, checkedA,
      Parts.exprs_nodes, Parts.arguments_nodes, Parts.initializer_nodes, Expr.ident,
      Argument.positional, List.map_append, List.map_cons, List.map_nil, List.flatMap_cons, List.flatMap_nil,
      Option.toList_none, List.append_nil, List.cons_append, List.nil_append, List.mem_cons, List.not_mem_nil,
      or_false, Node.expr.injEq] at hy
    rcases hy with rfl | rfl | rfl | rfl <;> cases hkind
    simp [Node.reports_eq, Node.inner, Node.parts, Expr.parts, Node.ownReport?, Expr.ownReport?]
  have hcopied : (Engine.converter {} .empty).CopiedInVain (newWidget checkedA) (some (.named "Widget"))
      [.positional checkedA] checkedA := ⟨_, _, rfl, rfl, rfl, by decide +kernel⟩
  exact ⟨hsupported, (unsupported_reportedOnce {} .empty).1 none _ hsupported, hcopied,
    (unsupported_reportedOnce {} .empty).2.2.2 none _ _ _ _ _ _ hcopied⟩

end ComponentScript
