/-
  ComponentScript.Proofs.Convert.Dependence — what a conversion depends on.

  Of its session a conversion sees which names are bound, which error is caught and which
  number comes next. It does not see how many scopes are open, in which of them a name is
  bound or how often, nor the catch clauses further out, nor what has been reported before
  (`scope_as_set`). Of the model it sees what is said about the expressions of the tree
  (`model_locality`): a tree whose expressions have no place in a file is converted under
  every table as under the model that resolves nothing.

  Both are one statement about two runs, in two models and at two places
  (`converter_covered`): the models agree about the tree, and the places are alike.
-/

import ComponentScript.Model.Table
import ComponentScript.Proofs.Convert.LexicalScope

namespace ComponentScript

/-! ## Models that agree about a tree -/

/-- The models have the same symbol and the same type for every expression among and inside
    the parts. -/
def Model.AgreesOn (m m' : Model) (ps : Parts) : Prop :=
  ∀ b e, Within ps b (.expr e) → m.symbol e.span = m'.symbol e.span ∧ m.type e.span = m'.type e.span

namespace Model.AgreesOn

variable {m m' : Model} {ps : Parts} {b : Scopes} {x : Node} {e : Expr}

theorem refl (m : Model) (ps : Parts) : m.AgreesOn m ps := fun _ _ _ => ⟨rfl, rfl⟩

theorem parts (h : m.AgreesOn m' ps) (hx : Within ps b x) : m.AgreesOn m' x.parts :=
  fun _ _ hy => h _ _ (hx.trans hy)

theorem symbolOf (h : m.AgreesOn m' ps) (he : Within ps b (.expr e)) : m.symbolOf e = m'.symbolOf e := (h _ _ he).1

theorem typeOf (h : m.AgreesOn m' ps) (he : Within ps b (.expr e)) : m.typeOf e = m'.typeOf e := by
  unfold Model.typeOf
  rw [(h _ _ he).2, h.symbolOf he]

end Model.AgreesOn

/-! ## Two models, two places -/

namespace Engine

variable {g : Engine} {m m' : Model} {L : Ledger} {π : Places} {ps : Parts}

/-- As many rounds as are enough for a node treat it alike, where the models agree about it
    and about what lies inside it. -/
theorem ofDepth_inStep_models (hg : g.Local) (h : m.AgreesOn m' ps) : ∀ {n : Nat} {b : Scopes} {x : Node},
    Within ps b x → x.depth ≤ n → ∀ {π : Places}, π.Alike → x.InStep L π (g.ofDepth m n) (g.ofDepth m' n) := by
  intro n
  induction n generalizing ps with
  | zero => intro b x _ hn π _; exact inStep_of_depth_zero hn
  | succ n ih =>
    intro b x hx hn π hπ
    have hset : (g.ofDepth m n).settings = (g.ofDepth m' n).settings := by simp only [ofDepth_toEnv, env]
    have hinside : (∀ {c y}, Within x.parts c y → y.depth < x.depth) →
        Covered L π (g.ofDepth m n) (g.ofDepth m' n) x.parts := by
      intro hless c y hy d
      have hlt := hless hy
      exact ih (h.parts hx) hy (by omega) (hπ.enter c d)
    cases x with
    | pattern p => trivial
    | stmt s => exact step_stmt_lockstep hg ⟨hset, hπ, hinside Stmt.within_depth_lt⟩
    | expr e =>
      have hsymbol : (g.ofDepth m n).model.symbolOf e = (g.ofDepth m' n).model.symbolOf e := by
        simpa only [ofDepth_toEnv, env] using h.symbolOf hx
      have htype : (g.ofDepth m n).model.typeOf e = (g.ofDepth m' n).model.typeOf e := by
        simpa only [ofDepth_toEnv, env] using h.typeOf hx
      have ha : Aligned L π (g.ofDepth m n) (g.ofDepth m' n) e :=
        ⟨hset, hπ, hsymbol, htype, hinside Expr.within_depth_lt⟩
      exact ⟨hsymbol, htype, fun expected? => step_exprAs_lockstep hg expected? ha⟩

/-- The converters of two models treat what the models agree about alike, at places that are
    alike. -/
theorem converter_covered (hg : g.Local) (h : m.AgreesOn m' ps) (hπ : π.Alike) :
    Covered L π (g.converter m) (g.converter m') ps := by
  intro b x hx c
  have hd := ofDepth_inStep_models (L := L) hg h hx (Nat.le_refl _) (hπ.enter b c)
  cases x with
  | pattern p => trivial
  | stmt s => exact hd
  | expr e => exact ⟨h.symbolOf hx, h.typeOf hx, hd.exprAs⟩

end Engine

/-! ## The scope as a set -/

/-- The same names are bound, the same error is caught, and the next synthetic name has the
    same number. -/
structure Session.SameView (s s' : Session) : Prop where
  bound : ∀ name, name ∈ s.scopes.flatten ↔ name ∈ s'.scopes.flatten
  caught : s.catches.head? = s'.catches.head?
  counter : s.counter = s'.counter

theorem Session.SameView.alike {s s' : Session} (h : s.SameView s') : (Places.mk s.place s'.place).Alike where
  bound name := by
    rw [← Session.isBound_eq, ← Session.isBound_eq, Bool.eq_iff_iff, Session.isBound_iff, Session.isBound_iff]
    exact h.bound name
  caught := h.caught

/-- From both sessions the step gives the same result, adds the same diagnostics and ends
    with the same number. -/
structure Emit.SameFrom {α : Type} (m : Emit α) (s s' : Session) : Prop where
  result : (m.out s).1 = (m.out s').1
  diagnostics : ∃ added, (m.out s).2.diagnostics = s.diagnostics ++ added ∧
    (m.out s').2.diagnostics = s'.diagnostics ++ added
  counter : (m.out s).2.counter = (m.out s').2.counter

/-- The two runs have counted the same, and have reported the same beyond `ds` and `ds'`. -/
def Ledger.beyond (ds ds' : List Diagnostic) : Ledger where
  rel i is j js := i = j ∧ ∃ added, is = ds ++ added ∧ js = ds' ++ added
  counter_eq h := h.1
  draw h := ⟨congrArg (· + 1) h.1, h.2⟩
  report d h := by
    obtain ⟨hn, added, rfl, rfl⟩ := h
    exact ⟨hn, added ++ [d], List.append_assoc .., List.append_assoc ..⟩

theorem Lockstep.sameFrom {α : Type} {m : Emit α} {s s' : Session} {ρ : Places}
    (h : Lockstep (.beyond s.diagnostics s'.diagnostics) ⟨s.place, s'.place⟩ ρ m m) (hc : s.counter = s'.counter) :
    m.SameFrom s s' := by
  have hstart : Linked (.beyond s.diagnostics s'.diagnostics) ⟨s.place, s'.place⟩ s s' :=
    ⟨rfl, rfl, hc, [], (List.append_nil _).symm, (List.append_nil _).symm⟩
  obtain ⟨hresult, hl⟩ := h s s' hstart
  exact ⟨hresult, hl.ledger.2, hl.ledger.1⟩

/-- Conversion sees the scope only as a set. With the built-in rules, whatever the settings
    and the model: from two sessions with the same bound names, the same innermost catch
    binding and the same counter, every expression, statement and statement list is converted
    to the same text, with the same new diagnostics and to the same counter. -/
theorem scope_as_set (settings : Settings) (m : Model) (s s' : Session) (h : s.SameView s') :
    (∀ expected? e, ((({ settings := settings } : Engine).converter m).exprAs expected? e).SameFrom s s') ∧
      (∀ x, ((({ settings := settings } : Engine).converter m).stmt x).SameFrom s s') ∧
      ∀ xs, ((({ settings := settings } : Engine).converter m).statements xs).SameFrom s s' := by
  have hcov : ∀ ps, Covered (.beyond s.diagnostics s'.diagnostics) ⟨s.place, s'.place⟩
      (Engine.converter { settings := settings } m) (Engine.converter { settings := settings } m) ps :=
    fun ps => Engine.converter_covered (Engine.builtin_local settings) (.refl m ps) h.alike
  refine ⟨fun expected? e => ?_, fun x => ?_, fun xs => ?_⟩
  · exact ((hcov [Parts.expr [] e] [] (.expr e) (.self _) []).exprAs expected?).sameFrom h.counter
  · exact Lockstep.sameFrom (hcov [([], .stmt x)] [] (.stmt x) (.self _) []) h.counter
  · exact (Tree.convert_lockstep (t := .statements xs) rfl h.alike (hcov _)).sameFrom h.counter

/-- The same names in other scopes, one of them twice, with another catch clause further out
    and another report before. -/
theorem scope_as_set_rearranged :
    let s : Session := { scopes := [["Rate"], ["Total", "Rate"]], catches := ["inner", "outer"], counter := 2 }
    let s' : Session := { scopes := [["Total"], [], ["Rate"]], catches := ["inner"], counter := 2,
                          diagnostics := [.unsupported "goto_statement" ⟨4, 9⟩] }
    s.SameView s' ∧ s.scopes ≠ s'.scopes ∧
      (((({} : Engine).converter Model.empty).stmt ⟨{}, .throws none⟩).SameFrom s s' ∧
        ((({} : Engine).converter Model.empty).exprAs none ⟨{}, .identifier "Total"⟩).SameFrom s s') := by
  intro s s'
  have hview : s.SameView s' := by
    refine ⟨fun name => ?_, rfl, rfl⟩
    simp only [s, s', List.flatten_cons, List.flatten_nil, List.mem_append, List.mem_cons, List.not_mem_nil]
    grind
  obtain ⟨hexpr, hstmt, -⟩ := scope_as_set {} Model.empty s s' hview
  exact ⟨hview, by decide, hstmt _, hexpr _ _⟩

/-! ## The model as far as the tree -/

/-- No expression of the tree has a place in a file. -/
def Tree.Unplaced (t : Tree) : Prop := ∀ b e, Within t.parts b (.expr e) → e.span.isDummy = true

/-- A table knows nothing about a tree without places. -/
theorem Tree.Unplaced.agreesOn {t : Tree} (h : t.Unplaced) (table : SemanticTable) :
    table.toModel.AgreesOn Model.empty t.parts := by
  intro b e he
  have hdummy := h b e he
  exact ⟨if_pos hdummy, if_pos hdummy⟩

/-- The whole tree, in a new session, has the same text and the same diagnostics in both
    models; a method has the same parameters too. -/
def Tree.SameUnder (g : Engine) (m m' : Model) : Tree → Prop
  | expr expected? e => g.convertExpr m expected? e = g.convertExpr m' expected? e
  | stmt x => g.convertStmt m x = g.convertStmt m' x
  | statements xs => g.convertBody m xs = g.convertBody m' xs
  | method d body => g.convertBodyOf m d body = g.convertBodyOf m' d body

theorem Conversion.ofEmit_congr {m m' : Emit String} (h : m.out {} = m'.out {}) : ofEmit m = ofEmit m' :=
  congrArg (fun out : String × Session => Conversion.mk out.1 out.2.diagnostics) h

theorem Tree.sameUnder_of_agreesOn {g : Engine} (hg : g.Local) {m m' : Model} {t : Tree}
    (h : m.AgreesOn m' t.parts) : t.SameUnder g m m' := by
  have hcov : Covered Ledger.same (.both (Session.place {})) (g.converter m) (g.converter m') t.parts :=
    Engine.converter_covered hg h (.refl _)
  have hset : (g.converter m).settings = (g.converter m').settings := rfl
  cases t with
  | expr expected? e =>
    have he : ExprInStep Ledger.same (.both (Session.place {})) (g.converter m) (g.converter m') e :=
      hcov [] (.expr e) (.self _) []
    exact Conversion.ofEmit_congr ((he.exprAs expected?).out_eq rfl)
  | stmt x =>
    have hx : Lockstep Ledger.same (.both (Session.place {})) (.both (Session.place {})) ((g.converter m).stmt x)
      ((g.converter m').stmt x) := hcov [] (.stmt x) (.self _) []
    exact Conversion.ofEmit_congr (hx.out_eq rfl)
  | statements xs =>
    have hlines := Tree.convert_lockstep hset (.refl _) hcov
    exact Conversion.ofEmit_congr ((hlines.bind fun lines => .pure (Text.joinLines lines)).out_eq rfl)
  | method d body =>
    have hout : ((g.converter m).method d body).out {} = ((g.converter m').method d body).out {} :=
      ((Tree.method_calls d body).lockstep rfl (.refl _) (hcov.covers hset)).out_eq rfl
    exact congrArg (fun out : (List String × String) × Session =>
      ConvertedMethod.mk (Script.camelCase d.name) out.1.1 d.isAsync out.1.2 out.2.diagnostics) hout

/-- Model locality. With the built-in rules and any settings: a tree has one conversion in all
    models that agree about its expressions, whatever they say elsewhere. A tree whose
    expressions all have the dummy span is converted under every table as under the model that
    resolves nothing. -/
theorem model_locality (settings : Settings) (t : Tree) :
    (∀ m m' : Model, m.AgreesOn m' t.parts → t.SameUnder { settings := settings } m m') ∧
      (t.Unplaced → ∀ table : SemanticTable, t.SameUnder { settings := settings } table.toModel Model.empty) :=
  ⟨fun _ _ h => Tree.sameUnder_of_agreesOn (Engine.builtin_local settings) h,
    fun h table => Tree.sameUnder_of_agreesOn (Engine.builtin_local settings) (h.agreesOn table)⟩

/-- The number of entries of a variable, with the spans of both nodes. -/
def countOf (whole name : Span) : Expr := ⟨whole, .member ⟨name, .identifier "Scores"⟩ "Count"⟩

theorem within_countOf {whole name : Span} {expected? : Option TypeRef} {b : Scopes} {e : Expr}
    (h : Within (Tree.expr expected? (countOf whole name)).parts b (.expr e)) :
    e.span = whole ∨ e.span = name := by
  cases h with
  | here hm => cases List.mem_singleton.mp hm; exact .inl rfl
  | deeper hm hd =>
    cases List.mem_singleton.mp hm
    cases hd with
    | here hm => cases List.mem_singleton.mp hm; exact .inr rfl
    | deeper hm hd =>
      cases List.mem_singleton.mp hm
      cases hd with
      | here hm => cases hm
      | deeper hm _ => cases hm

/-- What is known of another node does not matter, and a tree without places is converted
    under a table of symbols as under none. -/
theorem model_locality_count :
    let dictionary : Model := ⟨fun _ => none, fun s => if s = ⟨0, 6⟩ then some (.named "Dictionary") else none⟩
    let more : Model := ⟨fun s => if s = ⟨40, 46⟩ then some ⟨"Scores", .type, none, none⟩ else none, dictionary.type⟩
    let table := SemanticTable.empty.insertSymbol ⟨0, 0⟩ ⟨"Scores", .type, none, none⟩
    dictionary.AgreesOn more (Tree.expr none (countOf ⟨0, 12⟩ ⟨0, 6⟩)).parts ∧
      (Tree.expr none (countOf ⟨0, 12⟩ ⟨0, 6⟩)).SameUnder {} dictionary more ∧
      (Tree.expr none (countOf {} {})).Unplaced ∧
      (Tree.expr none (countOf {} {})).SameUnder {} table.toModel .empty := by
  intro dictionary more table
  have hagree : dictionary.AgreesOn more (Tree.expr none (countOf ⟨0, 12⟩ ⟨0, 6⟩)).parts := by
    intro b e he
    rcases within_countOf he with hs | hs <;> rw [hs] <;> exact ⟨rfl, rfl⟩
  have hunplaced : (Tree.expr none (countOf {} {})).Unplaced := by
    intro b e he
    rcases within_countOf he with hs | hs <;> rw [hs] <;> rfl
  exact ⟨hagree, (model_locality {} _).1 _ _ hagree, hunplaced, (model_locality {} _).2 hunplaced table⟩

end ComponentScript
