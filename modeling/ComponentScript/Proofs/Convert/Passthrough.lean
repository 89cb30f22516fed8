/-
  ComponentScript.Proofs.Convert.Passthrough — source text does not get into the output unseen.

  A node without a structured kind is emitted as it stands in the source. Two runs over trees
  that differ in the texts of such nodes go on alike until one of these nodes is emitted, and
  then both have reported it (`AgreeUntil`); a report is never taken back. Whatever a step
  does besides is the same in both runs, by its derivation in `Calls`.

  `passthrough_reported`: if another text of a node changes the text of the conversion, the
  conversion reports the node; a clean conversion depends on no such text.
-/

import ComponentScript.Proofs.Convert.NodeCalls

namespace ComponentScript

/-- One of the nodes in `S` has been reported as unsupported. -/
def Session.Reported (S : String → Span → Bool) (s : Session) : Prop :=
  ∃ nodeKind span, S nodeKind span = true ∧ Diagnostic.unsupported nodeKind span ∈ s.diagnostics

/-! ## Two runs -/

/-- Both steps have the same outcome, or both have reported a node in `S`. -/
structure AgreeUntil (S : String → Span → Bool) {α : Type} (m m' : Emit α) : Prop where
  keeps : ∀ {s : Session}, s.Reported S → (m.out s).2.Reported S
  keeps' : ∀ {s : Session}, s.Reported S → (m'.out s).2.Reported S
  agree : ∀ s, m.out s = m'.out s ∨ (m.out s).2.Reported S ∧ (m'.out s).2.Reported S

namespace AgreeUntil

variable {S : String → Span → Bool} {α β : Type}

theorem same {m : Emit α} (h : ∀ {s : Session}, s.Reported S → (m.out s).2.Reported S) : AgreeUntil S m m :=
  ⟨h, h, fun _ => .inl rfl⟩

theorem bind {m m' : Emit α} {f f' : α → Emit β} (hm : AgreeUntil S m m') (hf : ∀ a, AgreeUntil S (f a) (f' a)) :
    AgreeUntil S (m >>= f) (m' >>= f') where
  keeps h := (hf _).keeps (hm.keeps h)
  keeps' h := (hf _).keeps' (hm.keeps' h)
  agree s := by
    rw [Emit.out_bind, Emit.out_bind]
    rcases hm.agree s with h | ⟨h, h'⟩
    · rw [h]
      exact (hf _).agree _
    · exact .inr ⟨(hf _).keeps h, (hf _).keeps' h'⟩

theorem look {f f' : Session → Emit α} (hf : ∀ s, AgreeUntil S (f s) (f' s)) : AgreeUntil S (get >>= f) (get >>= f') :=
  .bind (.same fun h => h) hf

theorem report (d : Diagnostic) : AgreeUntil S (Emit.report d) (Emit.report d) :=
  .same fun ⟨nodeKind, span, hS, h⟩ => ⟨nodeKind, span, hS, List.mem_append_left _ h⟩

theorem bindName (name : String) : AgreeUntil S (Emit.bindName name) (Emit.bindName name) := by
  refine .same fun {s} h => ?_
  rw [Emit.out_bindName, Session.bind]
  cases s.scopes <;> exact h

theorem withScope {m m' : Emit α} (names : List String) (h : AgreeUntil S m m') :
    AgreeUntil S (Emit.withScope names m) (Emit.withScope names m') where
  keeps hs := h.keeps (s := Session.openScope _ names) hs
  keeps' hs := h.keeps' (s := Session.openScope _ names) hs
  agree s := by
    rw [Emit.out_withScope, Emit.out_withScope]
    rcases h.agree (s.openScope names) with heq | hs
    · exact .inl (by rw [heq])
    · exact .inr hs

theorem withCatch {m m' : Emit α} (binding : String) (h : AgreeUntil S m m') :
    AgreeUntil S (Emit.withCatch binding m) (Emit.withCatch binding m') where
  keeps hs := h.keeps (s := Session.openCatch _ binding) hs
  keeps' hs := h.keeps' (s := Session.openCatch _ binding) hs
  agree s := by
    rw [Emit.out_withCatch, Emit.out_withCatch]
    rcases h.agree (s.openCatch binding) with heq | hs
    · exact .inl (by rw [heq])
    · exact .inr hs

/-- Where the runs can part: a node in `S` is emitted, and reported by both. -/
theorem verbatim (nodeKind : String) (span : Span) (text : String) :
    AgreeUntil S (Emit.verbatim nodeKind span text) (Emit.verbatim nodeKind span (blank S nodeKind span text)) where
  keeps := (AgreeUntil.report _).keeps
  keeps' := (AgreeUntil.report _).keeps
  agree s := by
    by_cases hS : S nodeKind span = true
    · have hreported : (s.report (.unsupported nodeKind span)).Reported S :=
        ⟨nodeKind, span, hS, List.mem_append_right _ (List.mem_singleton.mpr rfl)⟩
      exact .inr ⟨hreported, hreported⟩
    · rw [blank, if_neg hS]
      exact .inl rfl

end AgreeUntil

/-- The node and the node with the texts of `S` blanked are converted alike until one of `S`
    is reported. -/
def Node.AgreesUntil (S : String → Span → Bool) (k : Converter) : Node → Prop
  | .expr e => ∀ expected?, AgreeUntil S (k.exprAs expected? e) (k.exprAs expected? (e.retext (blank S)))
  | .stmt x => AgreeUntil S (k.stmt x) (k.stmt (x.retext (blank S)))
  | .pattern _ => True

/-- A step agrees until a report if the conversions of the nodes it goes to do, those with a
    property that passes to inner nodes. -/
theorem CallsFrom.agreeUntil {S : String → Span → Bool} {R : Node → Prop} {k : Converter} {P : Node → Prop}
    (hP : ∀ x, P x → ∀ y ∈ x.inner, P y) (hk : ∀ x, P x → x.AgreesUntil S k) {b c : Scopes} {α : Type} {ps : Parts}
    {m m' : Emit α} (h : CallsFrom (Runs.self k (blank S) R) b c ps m m') :
    (∀ p ∈ ps, P p.2) → AgreeUntil S m m' := by
  induction h with
  | pure a => exact fun _ => .same fun h => h
  | bind _ _ ihm ihf =>
    intro hxs
    exact .bind (ihm fun x hx => hxs x (List.mem_append_left _ hx)) fun a =>
      ihf a fun x hx => hxs x (List.mem_append_right _ hx)
  | expr expected? e => exact fun hxs => hk (.expr e) (hxs _ (List.mem_singleton.mpr rfl)) expected?
  | stmt x => exact fun hxs => hk (.stmt x) (hxs _ (List.mem_singleton.mpr rfl))
  | look _ ih => exact fun hxs => .look fun s => ih s s rfl hxs
  | freshName _ => exact fun _ => .same fun h => h
  | bindName name => exact fun _ => .bindName name
  | report d _ => exact fun _ => .report d
  | withScope names _ ih => exact fun hxs => .withScope names (ih hxs)
  | withCatch binding _ _ ih => exact fun hxs => .withCatch binding (ih hxs)
  | draws hdraws _ ih => exact fun hps => ih (hdraws.forall_nodes hP hps)

namespace Engine

variable {S : String → Span → Bool} (settings : Settings) (m : Model)

theorem expr_agreesUntil {e : Expr}
    (ih : ∀ y : Node, y.depth < e.depth → y.AgreesUntil S (converter { settings := settings } m)) :
    (Node.expr e).AgreesUntil S (converter { settings := settings } m) := by
  intro expected?
  cases he : e.ownReport? with
  | none =>
    have hcalls := exprAs_calls (R := fun _ => True) (φ := blank S) settings m expected? he fun _ _ _ _ _ _ => trivial
    exact hcalls.agreeUntil Node.depth_lt_inner ih fun p hp => Expr.depth_lt_of_inner (List.mem_map_of_mem hp)
  | some r =>
    obtain ⟨span, kind⟩ := e
    cases kind <;> try cases he
    rw [exprAs_other, Expr.retext, ExprKind.retext, exprAs_other]
    exact .verbatim _ _ _

theorem stmt_agreesUntil {x : Stmt}
    (ih : ∀ y : Node, y.depth < x.depth → y.AgreesUntil S (converter { settings := settings } m)) :
    (Node.stmt x).AgreesUntil S (converter { settings := settings } m) := by
  show AgreeUntil S _ _
  cases hx : x.ownReport? with
  | none =>
    have hcalls := stmt_calls (R := fun _ => True) (φ := blank S) settings m hx
    exact hcalls.agreeUntil Node.depth_lt_inner ih fun p hp => Stmt.depth_lt_of_inner (List.mem_map_of_mem hp)
  | some r =>
    obtain ⟨span, kind⟩ := x
    cases kind with
    | other nodeKind text =>
      rw [stmt_other, Stmt.retext, StmtKind.retext, stmt_other]
      exact .verbatim _ _ _
    | throws value? =>
      cases value? with
      | some value => cases hx
      | none =>
        -- a bare `throw` has no text of its own to change
        rw [Stmt.retext, StmtKind.retext, retextExpr?_eq, Option.map_none, stmt_rethrow]
        refine .bind (.look fun s => .same fun h => h) fun binding? => ?_
        cases binding? with
        | some binding => exact .same fun h => h
        | none => exact .bind (.report _) fun _ => .same fun h => h
    | _ => cases hx

/-- Every node is converted alike until a node in `S` is reported. -/
theorem converter_agreesUntil (x : Node) : x.AgreesUntil S (converter { settings := settings } m) :=
  Node.induction_depth (fun _ => expr_agreesUntil settings m) (fun _ => stmt_agreesUntil settings m)
    (fun _ => trivial) x

end Engine

/-! ## Whole conversions -/

/-- The nodes of one kind at one span. -/
def onlyAt (nodeKind : String) (span : Span) : String → Span → Bool := fun nodeKind' span' =>
  nodeKind' == nodeKind && span' == span

/-- What a way of converting owes to the reader of its text: a node whose text can change the
    result is reported, and a clean result depends on no text of an unstructured node. -/
structure Discloses {ν : Type} (sameBut : (String → Span → Bool) → ν → ν → Prop) (convert : ν → Conversion) : Prop where
  reported : ∀ nodeKind span x x', sameBut (onlyAt nodeKind span) x x' → (convert x).text ≠ (convert x').text →
    Diagnostic.unsupported nodeKind span ∈ (convert x).diagnostics
  clean : ∀ x x', sameBut (fun _ _ => true) x x' → (convert x).isClean = true → convert x' = convert x

/-- Two trees with one blanked tree: their conversions are the same, or the first reports a
    node in `S`. -/
theorem AgreeUntil.ofEmit {S : String → Span → Bool} {m m' b : Emit String} (h : AgreeUntil S m b)
    (h' : AgreeUntil S m' b) : Conversion.ofEmit m' = Conversion.ofEmit m ∨ (m.out {}).2.Reported S := by
  rcases h.agree {} with heq | hreported
  · rcases h'.agree {} with heq' | hreported'
    · left
      have hout : m'.out {} = m.out {} := heq'.trans heq.symm
      exact congrArg (fun o => Conversion.mk o.1 o.2.diagnostics) hout
    · rw [heq]
      exact .inr hreported'.2
  · exact .inr hreported.1

/-- Steps that agree with the step of the blanked tree disclose what they emit. -/
theorem Discloses.ofAgree {ν : Type} (retext : Retexting → ν → ν) {step : ν → Emit String}
    (h : ∀ S x, AgreeUntil S (step x) (step (retext (blank S) x))) :
    Discloses (fun S x x' => retext (blank S) x = retext (blank S) x') fun x => Conversion.ofEmit (step x) where
  reported nodeKind span x x' hsame hne := by
    have hx := h (onlyAt nodeKind span) x
    rw [hsame] at hx
    rcases hx.ofEmit (h (onlyAt nodeKind span) x') with heq | ⟨nodeKind', span', hS, hd⟩
    · exact absurd (congrArg Conversion.text heq).symm hne
    · simp only [onlyAt, Bool.and_eq_true, beq_iff_eq] at hS
      obtain ⟨rfl, rfl⟩ := hS
      exact hd
  clean x x' hsame hclean := by
    have hx := h (fun _ _ => true) x
    rw [hsame] at hx
    rcases hx.ofEmit (h (fun _ _ => true) x') with heq | ⟨nodeKind, span, -, hd⟩
    · exact heq
    · have hnone : ((step x).out {}).2.diagnostics = [] := List.isEmpty_iff.mp hclean
      rw [hnone] at hd
      cases hd

/-- With the built-in rules, any settings and any model. -/
theorem passthrough_reported (settings : Settings) (m : Model) :
    (∀ expected?, Discloses Expr.SameBut (Engine.convertExpr { settings := settings } m expected?)) ∧
      Discloses Stmt.SameBut (Engine.convertStmt { settings := settings } m) ∧
      Discloses Stmt.AllSameBut (Engine.convertBody { settings := settings } m) := by
  refine ⟨fun expected? => ?_, ?_, ?_⟩
  · exact .ofAgree Expr.retext fun S e => Engine.converter_agreesUntil settings m (.expr e) expected?
  · exact .ofAgree Stmt.retext fun S x => Engine.converter_agreesUntil settings m (.stmt x)
  · refine .ofAgree (fun φ (xs : List Stmt) => xs.map (·.retext φ)) fun S xs => ?_
    have hcalls := Converter.statements_calls (b := [])
      (P := Runs.self (Engine.converter { settings := settings } m) (blank S) fun _ => True) xs
    exact (hcalls.thenPure Text.joinLines).agreeUntil (P := fun _ => True) (fun _ _ _ _ => trivial)
      (fun x _ => Engine.converter_agreesUntil settings m x) fun _ _ => trivial

/-- The sum of two elements, the second without a structured form, in a function. -/
def checkedSum (text : String) : Expr :=
  .lambda "xs" (.binary (.index (.ident "xs") (.int 0)) .add ⟨⟨4, 18⟩, .other "checked_expression" text⟩)

theorem passthrough_reported_checkedSum :
    (checkedSum "checked(xs[1])").SameBut (onlyAt "checked_expression" ⟨4, 18⟩) (checkedSum "xs.Last()") ∧
      (Engine.convertExpr {} .empty none (checkedSum "checked(xs[1])")).text ≠
        (Engine.convertExpr {} .empty none (checkedSum "xs.Last()")).text ∧
      Diagnostic.unsupported "checked_expression" ⟨4, 18⟩ ∈
        (Engine.convertExpr {} .empty none (checkedSum "checked(xs[1])")).diagnostics := by
  have hsame : (checkedSum "checked(xs[1])").SameBut (onlyAt "checked_expression" ⟨4, 18⟩) (checkedSum "xs.Last()") :=
    rfl
  have htexts : (Engine.convertExpr {} .empty none (checkedSum "checked(xs[1])")).text ≠
      (Engine.convertExpr {} .empty none (checkedSum "xs.Last()")).text := by
    rw [Engine.builtin_eq]
    decide +kernel
  exact ⟨hsame, htexts, ((passthrough_reported {} .empty).1 none).reported _ _ _ _ hsame htexts⟩

end ComponentScript
