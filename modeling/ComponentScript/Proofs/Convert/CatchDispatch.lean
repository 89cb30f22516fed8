/-
  ComponentScript.Proofs.Convert.CatchDispatch — which catch clause takes an error.

  The branches behind the word `catch` are read back from their text, with the tests between
  `&&` and `||` in their conditions, and run.

  - `catch_clauses_dispatch`: the block that runs is that of the first clause that accepts, and
    otherwise the error is thrown again, if no condition with two tests comes apart at `||`.
  - Named filters are calls, and an unnamed one with flat templates is a term, so that neither
    comes apart (`Handler.Of.reads`). The necessity of this: an unnamed filter whose operators
    the operand scan misses, as those of `Expr.tickedOr`, is left without parentheses behind
    the type test. Its later alternatives then take errors of every type
    (`Handler.chain_run_loose`).
-/

import ComponentScript.Proofs.Convert.FlatTemplates
import ComponentScript.Proofs.Convert.FreshNames
import ComponentScript.Proofs.Convert.Handlers
import ComponentScript.Proofs.Convert.HiddenOperators
import ComponentScript.Proofs.Convert.LexicallyClosed

namespace ComponentScript

open Script Text

/-! ## Filters -/

namespace CatchClause

variable {c : CatchClause} {error text : String}

theorem filterText_named {name : String} (h : c.name? = some name) :
    c.filterText error text = "(" ++ ("(" ++ name ++ ") => " ++ text) ++ ")" ++ ("(" ++ error ++ ")") := by
  have hopen : "((" = "(" ++ "(" := rfl
  have hcall : ")(" = ")" ++ "(" := rfl
  have htext : c.filterText error text = "((" ++ name ++ ") => " ++ text ++ ")(" ++ error ++ ")" := by
    rw [filterText, h]
    rfl
  rw [htext, hopen, hcall]
  simp only [String.append_assoc]

theorem filterText_unnamed (h : c.name? = none) : c.filterText error text = operand text := by rw [filterText, h]

/-- A call of the filter, or the filter as an operand. -/
theorem filterText_isTerm (herr : Closed error) (hname : ∀ name ∈ c.name?, Markless name) (ht : Closed text)
    (hbare : c.name? = none → operand text = text → IsTerm text) : IsTerm (c.filterText error text) := by
  cases hn : c.name? with
  | none =>
    rw [filterText_unnamed hn]
    exact .operand ht (hbare hn)
  | some name =>
    have harrow : Closed ("(" ++ name ++ ") => " ++ text) :=
      (Leads.start rfl).hole (hname name hn).closed |>.lit rfl |>.hole ht
    rw [filterText_named hn]
    exact (IsTerm.parenthesized harrow).call herr

theorem filterText_closed (herr : Closed error) (hname : ∀ name ∈ c.name?, Markless name) (ht : Closed text) :
    Closed (c.filterText error text) := by
  cases hn : c.name? with
  | none =>
    rw [filterText_unnamed hn]
    exact closed_operand ht
  | some name => exact (filterText_isTerm herr hname ht (by rw [hn]; rintro ⟨⟩)).closed

end CatchClause

/-! ## Handlers in well-named statements -/

namespace Handler

variable {k : Converter} {error : String} {isDirect : Bool} {s : Session} {h : Handler}

section

variable (hof : h.Of k error isDirect s)

include hof

/-- The tests are that of the type and that of the filter. -/
theorem Of.forall_tests {p : CatchTest → Prop}
    (htype : ∀ type ∈ h.clause.errorType?, p (.instanceOf type))
    (hfilter : ∀ e ∈ h.clause.filter?, p (.filter (h.clause.filterText error ((k.expr e).out h.filterAt).1))) :
    ∀ t ∈ h.tests, p t := by
  rw [hof.tests, CatchTest.ofClause]
  refine List.forall_mem_append.mpr ⟨fun t ht => ?_, fun t ht => ?_⟩
  · obtain ⟨type, hmem, rfl⟩ := Option.map_eq_some_iff.mp (Option.mem_toList.mp ht)
    exact htype type hmem
  · obtain ⟨e, hmem, rfl⟩ := Option.map_eq_some_iff.mp (Option.mem_toList.mp ht)
    exact hfilter e hmem

theorem Of.catches : h.filterAt.catches = s.catches := by
  obtain ⟨r, hr, hat⟩ := hof.filterAt
  rw [hat, CatchClause.filterSession, ← hr.catches]
  cases h.clause.name? <;> rfl

variable (hk : k.Closing) (hs : s.NamesCatches) (hc : Converter.ClauseNamed h.clause)

include hk hs hc

theorem Of.filter_closed : ∀ e ∈ h.clause.filter?, Script.Closed ((k.expr e).out h.filterAt).1 := by
  have hnames : h.filterAt.NamesCatches := by
    unfold Session.NamesCatches
    rwa [hof.catches]
  exact fun e he => (Converter.expr_closed hk (hc.filter e he) h.filterAt hnames).1

theorem Of.closed (herr : Markless error) : h.Closed error where
  tests := by
    refine hof.forall_tests (fun type htype => ?_) fun e he => ?_
    · exact (Leads.first herr.closed).lit rfl |>.hole (Converter.errorType_closed hc.type type htype)
    · exact CatchClause.filterText_closed herr.closed hc.name (hof.filter_closed hk hs hc e he)
  lines := by
    obtain ⟨r, hr, hbody⟩ := hof.bodyAt
    have hnames : h.bodyAt.NamesCatches := by
      rw [hbody]
      refine List.forall_mem_cons.mpr ⟨herr, ?_⟩
      rwa [hr.catches]
    rw [hof.lines]
    refine List.forall_mem_append.mpr ⟨?_, (Converter.statements_closed hk hc.body.statements h.bodyAt hnames).1⟩
    cases isDirect with
    | true => exact List.forall_mem_nil _
    | false =>
      intro line hline
      obtain ⟨name, hname, rfl⟩ := Option.map_eq_some_iff.mp (Option.mem_toList.mp hline)
      exact Converter.constLine_closed (hc.name name hname).closed herr.closed

/-- Where the types are terms and unnamed filters that are left as they are, too, each test is one
    test of its condition. -/
theorem Of.reads (herr : IsTerm error) (htypes : ∀ type ∈ h.clause.errorType?, IsTerm type)
    (hbare : h.clause.name? = none → ∀ e ∈ h.clause.filter?,
      let t := ((k.expr e).out h.filterAt).1
      operand t = t → IsTerm t) :
    ∀ t ∈ h.tests, Condition.read (t.text error) = some [[t.text error]] := by
  refine hof.forall_tests (fun type htype => ?_) fun e he => ?_
  · have hmember : "instanceof" ∈ tightOperators := by decide
    exact Condition.read_binary herr (htypes type htype) hmember rfl
  · refine Condition.read_term ?_
    exact CatchClause.filterText_isTerm herr.closed hc.name (hof.filter_closed hk hs hc e he) fun hn => hbare hn e he

end

theorem joinable_of_reads (hreads : ∀ t ∈ h.tests, Condition.read (t.text error) = some [[t.text error]]) :
    h.Joinable error :=
  fun _ t ht => ⟨_, hreads t ht⟩

theorem outcomes_of_reads (hreads : ∀ t ∈ h.tests, Condition.read (t.text error) = some [[t.text error]])
    {v : String → Bool} {isInstance passes : Bool} (hv : ∀ t ∈ h.tests, v (t.text error) = t.holds isInstance passes) :
    h.Outcomes error v isInstance passes := by
  intro t ht
  rw [Condition.value?, hreads t ht, ← hv t ht]
  simp [Condition.holds]

/-! ## A filter that comes apart -/

/-- Behind the type test, only the first alternative of the filter is joined to it. -/
theorem chain_run_loose {indent type text : String} {rest : List Handler} {a : List String} {as : Condition}
    (herr : IsTerm error) (htype : IsTerm type) (htests : h.tests = [.instanceOf type, .filter text])
    (hread : Condition.read text = some (a :: as)) {v : Nat → String → Bool} {i : Nat}
    (hv : Condition.holds (v i) as = true) :
    (chain error indent (h :: rest)).run v i = some (Script.block h.lines indent) := by
  have hmember : "instanceof" ∈ tightOperators := by decide
  have htest : Condition.read s!"{error} instanceof {type}" = some [[s!"{error} instanceof {type}"]] :=
    Condition.read_binary herr htype hmember rfl
  have hcondition : h.condition error = s!"{error} instanceof {type}" ++ " && " ++ text := by
    rw [condition, htests]
    rfl
  have hvalue : Condition.value? (v i) (h.condition error) = some true := by
    unfold Condition.holds at hv
    rw [hcondition, Condition.value?, Condition.read_and htest hread, Option.map_some, Condition.holds, List.any_cons,
      hv, Bool.or_true]
  have hchain : chain error indent (h :: rest) =
      .branch (h.condition error) (Script.block h.lines indent) (chain error indent rest) := by
    rw [chain, htests]
    rfl
  rw [hchain, IfChain.run_branch hvalue]
  rfl

end Handler

/-! ## What a statement binds errors to -/

namespace Converter

variable {k : Converter}

theorem catching_fresh {clauses : List CatchClause} {s : Session}
    (h : ((k.catching clauses).out s).1.isDirect = false) :
    ((k.catching clauses).out s).1.binding = Synthetic.name ⟨"err", s.counter⟩ := by
  unfold catching at h ⊢
  cases hfirst : clauses.head?.filter fun c => c.accepts false false with
  | some c =>
    rw [hfirst] at h
    cases h
  | none => rfl

theorem catching_markless {clauses : List CatchClause} (hc : ∀ c ∈ clauses, ClauseNamed c) {s : Session}
    (hs : s.NamesCatches) : Markless ((k.catching clauses).out s).1.binding := by
  have hstem : Markless "err" := by decide
  have hfresh : Markless ((Emit.freshName "err").out s).1 := (Writes.freshName hstem s hs).1
  unfold catching
  cases hfirst : clauses.head?.filter fun c => c.accepts false false with
  | none => exact hfresh
  | some c =>
    have hclause := hc c (List.mem_of_mem_head? (Option.mem_filter_iff.mp hfirst).1)
    dsimp only
    cases hname : c.name? with
    | none => exact hfresh
    | some name => exact hclause.name name hname

end Converter

namespace Catching

/-- The block that runs, as the text of the branches says. -/
def ran (x : Catching) (indent : String) (v : Nat → String → Bool) : Option String :=
  (IfChain.read? (x.chain indent).text).bind (·.run v 0)

/-- The statement as what is tried, what catches and where each handler comes from. -/
structure OfClauses (k : Converter) (clauses : List CatchClause) (s : Session) (x : Catching) : Prop where
  isDirect : x.isDirect = clauses.head?.any (·.accepts false false)
  clauses : x.handlers.map (·.clause) = CatchClause.upToUnconditional clauses
  handlers : ∀ h ∈ x.handlers, h.Of k x.binding x.isDirect s
  binding : x.isDirect = false → x.binding = Synthetic.name ⟨"err", s.counter⟩

namespace OfClauses

variable {k : Converter} {clauses : List CatchClause} {s : Session} {x : Catching}

theorem catching (hk : k.EntryPointsRestore) (clauses : List CatchClause) (s : Session) :
    OfClauses k clauses s ((k.catching clauses).out s).1 := by
  obtain ⟨hdirect, hclauses, hof⟩ := Converter.catching_handlers hk clauses s
  exact ⟨hdirect, hclauses, hof, Converter.catching_fresh⟩

variable (hx : OfClauses k clauses s x)

include hx

/-- A clause that names the error itself asks nothing. -/
theorem tests_of_isDirect (hd : x.isDirect = true) : ∀ h ∈ x.handlers, h.tests = [] := by
  have hfirst := hx.isDirect.symm.trans hd
  cases clauses with
  | nil => cases hfirst
  | cons c rest =>
    have hc : c.accepts false false = true := hfirst
    have hone := hx.clauses
    rw [CatchClause.upToUnconditional, if_pos hc] at hone
    intro h hm
    have hclause : h.clause = c := List.mem_singleton.mp (hone ▸ List.mem_map_of_mem hm)
    rw [← List.isEmpty_iff, (hx.handlers h hm).tests, CatchTest.isEmpty_ofClause, hclause, hc]

/-- Where something is asked, the binding is a term. -/
theorem isTerm_binding (hd : x.isDirect = false) : IsTerm x.binding := by
  have hstem : isIdentifier "err" = true := by decide +kernel
  rw [hx.binding hd]
  exact Synthetic.isTerm hstem

variable {indent : String} (hne : clauses ≠ []) (hi : Markless indent)
  (hclosed : ∀ h ∈ x.handlers, h.Closed x.binding)

include hne hi hclosed

theorem wellFormed : (x.chain indent).WellFormed := by
  refine Handler.chain_wellFormed hi hclosed ?_
  cases hd : x.isDirect with
  | false => exact .inl (hx.isTerm_binding hd).closed
  | true =>
    obtain ⟨c, rest, rfl⟩ := List.exists_cons_of_ne_nil hne
    obtain ⟨h, hs, hhandlers, -⟩ := Handler.head_of_clauses hx.clauses
    have hm : h ∈ x.handlers := hhandlers ▸ List.mem_cons_self ..
    exact .inr (List.any_eq_true.mpr ⟨h, hm, by rw [hx.tests_of_isDirect hd h hm]; rfl⟩)

theorem ran_eq (v : Nat → String → Bool) : x.ran indent v = (x.chain indent).run v 0 := by
  rw [ran, IfChain.read_text (hx.wellFormed hne hi hclosed)]
  rfl

/-! ## Dispatch -/

/-- By the text, the block of the first clause that takes the error. -/
theorem dispatches (hjoin : ∀ h ∈ x.handlers, h.Joinable x.binding) {isInstance passes : Nat → Bool}
    {v : Nat → String → Bool}
    (hv : ∀ (i : Nat) (h : Handler), x.handlers[i]? = some h → h.Outcomes x.binding (v i) (isInstance i) (passes i)) :
    match CatchClause.first? clauses isInstance passes 0 with
    | some (c, i) => ∃ h, x.handlers[i]? = some h ∧ h.clause = c ∧ x.ran indent v = some (block h.lines indent)
    | none => x.ran indent v = some (block [s!"throw {x.binding};"] indent) := by
  have hrun := Handler.chain_run x.binding indent hx.clauses (fun h hm => ⟨_, (hx.handlers h hm).tests⟩) hjoin 0
    fun h j hm => hv j h (List.mem_zipIdx_iff_getElem?.mp hm)
  rw [hx.ran_eq hne hi hclosed]
  cases hfirst : CatchClause.first? clauses isInstance passes 0 with
  | none =>
    rw [hfirst] at hrun
    exact hrun
  | some found =>
    rw [hfirst] at hrun
    obtain ⟨h, hm, hrun⟩ := hrun
    exact ⟨h, List.mem_zipIdx_iff_getElem?.mp hm, hrun⟩

/-- The later alternatives of an unnamed filter that is left as it is take errors of every type. -/
theorem comes_apart {h : Handler} {rest : List Handler} (hhead : x.handlers = h :: rest) {type : String}
    (htype : h.clause.errorType? = some type) (hterm : IsTerm type) (hname : h.clause.name? = none)
    {e : Expr} (hfilter : h.clause.filter? = some e)
    (hbare : operand ((k.expr e).out h.filterAt).1 = ((k.expr e).out h.filterAt).1) {a : List String} {as : Condition}
    (hread : Condition.read ((k.expr e).out h.filterAt).1 = some (a :: as)) {v : Nat → String → Bool}
    (hv : Condition.holds (v 0) as = true) : x.ran indent v = some (block h.lines indent) := by
  have hm : h ∈ x.handlers := hhead ▸ List.mem_cons_self ..
  have htests : h.tests = [.instanceOf type, .filter ((k.expr e).out h.filterAt).1] := by
    rw [(hx.handlers h hm).tests, CatchTest.ofClause, htype, hfilter, Option.map_some, Option.map_some,
      CatchClause.filterText_unnamed hname, hbare]
    rfl
  have hd : x.isDirect = false := by
    refine Bool.eq_false_iff.mpr fun hd => ?_
    have hnone := hx.tests_of_isDirect hd h hm
    rw [htests] at hnone
    cases hnone
  rw [hx.ran_eq hne hi hclosed, chain, hhead]
  exact Handler.chain_run_loose (hx.isTerm_binding hd) hterm htests hread hv

end OfClauses

end Catching

/-- In a well-named statement with the default settings, what the clauses become ends what it
    starts. Filters with flat templates do not come apart. -/
theorem Engine.handlers_read (m : Model) {s : Session} (hs : s.Tidy) {clauses : List CatchClause}
    (hc : ∀ c ∈ clauses, Converter.ClauseNamed c) :
    let k := ({} : Engine).converter m
    let x := ((k.catching clauses).out s).1
    ∀ h ∈ x.handlers, h.Closed x.binding ∧
      ((∀ type ∈ h.clause.errorType?, IsTerm type) →
        (h.clause.name? = none → ∀ e ∈ h.clause.filter?,
          e.Flat m false ∧ ((k.expr e).out h.filterAt).1 ∉ keywords) →
        ∀ t ∈ h.tests, Condition.read (t.text x.binding) = some [[t.text x.binding]]) := by
  intro k x h hm
  have hk : k.Closing := Engine.converter_closing Engine.builtin_closing m
  have hrestore : k.EntryPointsRestore := (Engine.converter_steady (Engine.builtin_admissible {}) m).entryPoints
  have hx := Catching.OfClauses.catching hrestore clauses s
  have hof := hx.handlers h hm
  have hclause : Converter.ClauseNamed h.clause :=
    hc _ ((CatchClause.upToUnconditional_initial clauses).subset (hx.clauses ▸ List.mem_map_of_mem hm))
  refine ⟨hof.closed hk hs.namesCatches hclause (Converter.catching_markless hc hs.namesCatches),
    fun htypes hflat => ?_⟩
  cases hd : x.isDirect with
  | true =>
    rw [hx.tests_of_isDirect hd h hm]
    exact List.forall_mem_nil _
  | false =>
    refine hof.reads hk hs.namesCatches hclause (hx.isTerm_binding hd) htypes fun hname e he => ?_
    obtain ⟨hflat, hkeyword⟩ := hflat hname e he
    have htidy : h.filterAt.Tidy := by
      unfold Session.Tidy
      rwa [hof.catches]
    intro t hbare
    obtain ⟨hne, htight⟩ := (Engine.flat_reads_plain hflat htidy).1.whole.operand_eq_iff.mp hbare
    exact ⟨hne, htight, hkeyword⟩

/-- Which clause of a statement takes an error. With the built-in rules, whatever the settings,
    the model and the session, `catch` is followed by the binding and the branches of handlers
    for the clauses up to the first that takes every error, and behind such a clause, clauses
    leave no trace. Where the indentation and the texts of the handlers end what they start, the
    branches are read back from the text and run:
    - if no condition with two tests comes apart at `||`, the block that runs is that of the
      first clause that takes the error, whatever the type tests and the filters come to, and if
      there is none the binding is thrown again;
    - but if an unnamed filter stands behind a type test as it is and has later alternatives, the
      first clause also takes errors of every other type for which one of these holds.

    A bare `throw` in the body of a clause throws the binding, wherever it stands, unless it
    stands in a catch clause of a statement in the body. With the default settings, the texts of
    a well-named statement end what they start, and no condition comes apart if the types are
    terms and the unnamed filters have flat templates. The filter `Expr.tickedOr` stands as it is
    and has a later alternative. -/
theorem catch_clauses_dispatch (settings : Settings) (m : Model) (s : Session) (span : Span) (body : Stmt)
    (clauses : List CatchClause) (hne : clauses ≠ []) (finally? : Option Stmt) :
    let g : Engine := { settings := settings }
    let k := g.converter m
    let tried := (k.block body).out s
    let statement : Stmt := ⟨span, .tryCatch body clauses finally?⟩
    (∃ (x : Catching) (after : Session),
      let final := finally?.elim "" fun y => " finally " ++ ((k.block y).out after).1
      ((k.stmt statement).out s).1 = s!"try {tried.1} catch {x.text k.indent}{final}" ∧
      x.OfClauses k clauses tried.2 ∧
      (Markless k.indent → (∀ h ∈ x.handlers, h.Closed x.binding) →
        (∀ (isInstance passes : Nat → Bool) (v : Nat → String → Bool),
          (∀ h ∈ x.handlers, h.Joinable x.binding) →
          (∀ (i : Nat) (h : Handler), x.handlers[i]? = some h → h.Outcomes x.binding (v i) (isInstance i) (passes i)) →
          match CatchClause.first? clauses isInstance passes 0 with
          | some (c, i) => ∃ h, x.handlers[i]? = some h ∧ h.clause = c ∧
            x.ran k.indent v = some (block h.lines k.indent)
          | none => x.ran k.indent v = some (block [s!"throw {x.binding};"] k.indent)) ∧
        ∀ h rest type e, x.handlers = h :: rest → h.clause.errorType? = some type → IsTerm type →
          h.clause.name? = none → h.clause.filter? = some e →
          let t := ((k.expr e).out h.filterAt).1
          operand t = t → ∀ a as, Condition.read t = some (a :: as) →
          (∀ passes, h.clause.accepts false passes = false) ∧
          ∀ v : Nat → String → Bool, Condition.holds (v 0) as = true →
            x.ran k.indent v = some (block h.lines k.indent)) ∧
      (∀ h ∈ x.handlers, ∀ at' s',
        Uncaught g m (.statements h.clause.body.statements) h.bodyAt (.stmt ⟨at', .throws none⟩) s' →
        (k.stmt ⟨at', .throws none⟩).out s' = (s!"throw {x.binding};", s')) ∧
      (settings = {} → s.Tidy → (Node.stmt statement).WellNamed → ∀ h ∈ x.handlers, h.Closed x.binding ∧
        ((∀ type ∈ h.clause.errorType?, IsTerm type) →
          (h.clause.name? = none → ∀ e ∈ h.clause.filter?,
            e.Flat m false ∧ ((k.expr e).out h.filterAt).1 ∉ keywords) →
          ∀ t ∈ h.tests, Condition.read (t.text x.binding) = some [[t.text x.binding]]))) ∧
    (∀ before c rest, clauses = before ++ c :: rest → c.accepts false false →
      (k.stmt statement).out s = (k.stmt ⟨span, .tryCatch body (before ++ [c]) finally?⟩).out s) ∧
    ∀ (r : Session) name other, r.isBound name → r.isBound other → isIdentifier name = true →
      isIdentifier other = true →
      name ∉ keywords → other ∉ keywords →
      let t := ((k.expr (.tickedOr span name other)).out r).1
      operand t = t ∧ Condition.read t = some [[s!"{tickTemplate} === {name}"], [other]] := by
  intro g k tried statement
  have hk : k.EntryPointsRestore := (Engine.converter_steady (Engine.builtin_admissible settings) m).entryPoints
  have hx := Catching.OfClauses.catching hk clauses tried.2
  refine ⟨⟨((k.catching clauses).out tried.2).1, ((k.catching clauses).out tried.2).2,
    Engine.stmt_tryCatch_text settings m span body hne finally? s, hx, ?_, ?_, ?_⟩, ?_, ?_⟩
  · intro hi hclosed
    refine ⟨fun isInstance passes v hjoin hv => hx.dispatches hne hi hclosed hjoin hv, ?_⟩
    intro h rest type e hhead htype hterm hname hfilter t hbare a as hread
    refine ⟨fun passes => ?_, fun v hv => hx.comes_apart hne hi hclosed hhead htype hterm hname hfilter hbare hread hv⟩
    rw [CatchClause.accepts, ← CatchClause.errorType?_isNone, htype]
    rfl
  · intro h hm at' s' hreach
    obtain ⟨r, -, hbody⟩ := (hx.handlers h hm).bodyAt
    refine hreach.rethrows (c := r.catches) ?_
    rw [hbody]
    rfl
  · rintro rfl hs hnamed
    exact Engine.handlers_read m (hs.continues (hk.block body s)) (Converter.clauseNamed hnamed)
  · intro before c rest heq huncond
    have hempty : (before ++ c :: rest).isEmpty = (before ++ [c]).isEmpty := by cases before <;> rfl
    rw [Engine.stmt_tryCatch, Engine.stmt_tryCatch, heq]
    unfold Converter.tryCatch
    rw [hempty, Converter.catchClauses_eq, Converter.catchClauses_eq, Converter.catching_append before rest huncond]
  · intro r name other hn ho hname hother hkn hko t
    have ht : t = tickTemplate ++ " === " ++ name ++ " || " ++ other :=
      congrArg Prod.fst (Engine.tickedOr_out settings m span hn ho)
    rw [ht]
    refine ⟨operand_tickedOr hname hother, read_tickedOr ?_ ?_⟩
    · exact isTerm_of_isIdentifier hname hkn
    · exact isTerm_of_isIdentifier hother hko

/-! ## A statement with a filter -/

/-- For errors of one type that pass a filter; the body throws them again, from inside a lock. -/
def filteredClause (filter : Expr) : CatchClause :=
  ⟨some (.named "IOException"), none, some filter, ⟨{}, .lock (.ident "gate") ⟨{}, .throws none⟩⟩⟩

def otherClause : CatchClause := ⟨none, none, none, ⟨{}, .block []⟩⟩

def filteredTry (filter : Expr) : Stmt :=
  ⟨{}, .tryCatch ⟨{}, .block []⟩ [filteredClause filter, otherClause] none⟩

theorem wellNamed_identifier {name : String} (h : Markless name) (span : Span) :
    (Node.expr ⟨span, .identifier name⟩).WellNamed :=
  Node.wellNamed_of_parts h (List.forall_mem_nil _)

theorem wellNamed_binary {left right : Expr} (hl : (Node.expr left).WellNamed) (hr : (Node.expr right).WellNamed)
    (span : Span) (op : BinaryOp) : (Node.expr ⟨span, .binary op left right⟩).WellNamed :=
  Node.wellNamed_of_parts trivial (List.forall_mem_cons.mpr ⟨hl, List.forall_mem_singleton.mpr hr⟩)

theorem wellNamed_tickedOr {name other : String} (hn : Markless name) (ho : Markless other) (span : Span) :
    (Node.expr (.tickedOr span name other)).WellNamed := by
  have hliteral : (Node.expr ⟨span, .literal (.string "`")⟩).WellNamed :=
    Node.wellNamed_of_parts trivial (List.forall_mem_nil _)
  have hstring : (Node.expr (.tickString span)).WellNamed := by
    refine Node.wellNamed_of_parts ⟨?_, trivial⟩ (List.forall_mem_singleton.mpr hliteral)
    rintro ⟨⟩
  have hequal := wellNamed_binary hstring (wellNamed_identifier hn span) span .eq
  exact wellNamed_binary hequal (wellNamed_identifier ho span) span .or

theorem filteredTry_wellNamed {filter : Expr} (h : (Node.expr filter).WellNamed) :
    (Node.stmt (filteredTry filter)).WellNamed := by
  have hempty : (Node.stmt ⟨{}, .block []⟩).WellNamed := Node.wellNamed_of_parts trivial (List.forall_mem_nil _)
  have hlock : (Node.stmt (filteredClause filter).body).WellNamed := by
    have hgate : (Node.expr (.ident "gate")).WellNamed := wellNamed_identifier (by decide) _
    have hthrow : (Node.stmt ⟨{}, .throws none⟩).WellNamed := Node.wellNamed_of_parts trivial (List.forall_mem_nil _)
    exact Node.wellNamed_of_parts trivial (List.forall_mem_cons.mpr ⟨hgate, List.forall_mem_singleton.mpr hthrow⟩)
  refine Node.wellNamed_of_parts ?_ ?_
  · have htype : TypeNamed (some (.named "IOException")) := by
      rintro _ ⟨⟩
      decide
    refine List.forall_mem_cons.mpr ⟨⟨htype, by rintro _ ⟨⟩⟩, List.forall_mem_singleton.mpr ⟨?_, ?_⟩⟩ <;> rintro _ ⟨⟩
  · exact List.forall_mem_cons.mpr ⟨hempty, List.forall_mem_cons.mpr ⟨h, List.forall_mem_cons.mpr ⟨hlock,
      List.forall_mem_singleton.mpr hempty⟩⟩⟩

/-- A filter whose operator the scan does not miss. -/
def sameName : Expr := ⟨{}, .binary .eq ⟨{}, .identifier "n"⟩ ⟨{}, .identifier "p"⟩⟩

theorem sameName_out {s : Session} (hn : s.isBound "n") (hp : s.isBound "p") :
    ((({} : Engine).converter .empty).expr sameName).out s = ("n === p", s) := by
  rw [Converter.expr, sameName, Engine.exprAs_binary, Engine.binaryOperand_out {} .empty s rfl,
    Engine.bound_out {} .empty {} hn]
  dsimp only
  rw [Engine.binaryOperand_out {} .empty s rfl, Engine.bound_out {} .empty {} hp]
  rfl

theorem sameName_flat : sameName.Flat .empty false := by
  have hname : ∀ name ∈ ["n", "p"], isIdentifier name = true := by decide +kernel
  refine ⟨?_, ?_, by rintro ⟨⟩⟩
  · refine Node.everywhere_of_parts trivial (List.forall_mem_cons.mpr ⟨?_, List.forall_mem_singleton.mpr ?_⟩)
    · exact Node.everywhere_of_parts (hname "n" (by decide)) (List.forall_mem_nil _)
    · exact Node.everywhere_of_parts (hname "p" (by decide)) (List.forall_mem_nil _)
  · refine Node.everywhere_of_parts (.of_plain rfl (by rintro _ ⟨⟩))
      (List.forall_mem_cons.mpr ⟨?_, List.forall_mem_singleton.mpr ?_⟩)
    · exact Node.everywhere_of_parts (.of_plain rfl (by rintro _ ⟨⟩)) (List.forall_mem_nil _)
    · exact Node.everywhere_of_parts (.of_plain rfl (by rintro _ ⟨⟩)) (List.forall_mem_nil _)

theorem filteredTry_handlers {k : Converter} {filter : Expr} {s : Session} {x : Catching}
    (hx : x.OfClauses k [filteredClause filter, otherClause] s) :
    ∃ h h', x.handlers = [h, h'] ∧ h.clause = filteredClause filter ∧ h'.clause = otherClause ∧
      h.filterAt.scopes = s.scopes := by
  obtain ⟨h, hs, hhandlers, hfirst, hrest⟩ := List.map_eq_cons_iff.mp hx.clauses
  obtain ⟨h', hs', rfl, hsecond, hnil⟩ := List.map_eq_cons_iff.mp hrest
  obtain rfl := List.map_eq_nil_iff.mp hnil
  obtain ⟨r, hr, hat⟩ := (hx.handlers h (hhandlers ▸ List.mem_cons_self ..)).filterAt
  refine ⟨h, h', hhandlers, hfirst, hsecond, ?_⟩
  rw [hat, hfirst]
  exact hr.scopes

theorem first?_filtered (filter : Expr) (isInstance passes : Bool) :
    CatchClause.first? [filteredClause filter, otherClause] (fun _ => isInstance) (fun _ => passes) 0 =
      if isInstance && passes then some (filteredClause filter, 0) else some (otherClause, 1) := by
  rw [CatchClause.first?_cons, CatchClause.first?_cons]
  cases isInstance <;> cases passes <;> rfl

theorem filteredClause_rethrows (s : Session) (filter : Expr) :
    Uncaught {} Model.empty (.statements (filteredClause filter).body.statements) s (.stmt ⟨{}, .throws none⟩) s := by
  have houter : Uncaught {} Model.empty (.statements (filteredClause filter).body.statements) s
      (.stmt (filteredClause filter).body) s :=
    .tree (converts_stmt_of_counter fun _ => rfl)
  refine houter.stmt (fun _ _ _ => by rintro ⟨⟩) (converts_stmt_of_counter fun k => ?_)
  rw [Engine.step_stmt_eq_defaultStmt]
  rfl

/-- A filter that compares two names is a test beside that of the type. One that the operand scan
    misses lets an error of another type in, which the clause does not accept. -/
theorem catch_clauses_dispatch_filtered :
    let k := ({} : Engine).converter Model.empty
    let s : Session := ({} : Session).openScope ["n", "p"]
    let tried := ((k.block ⟨{}, .block []⟩).out s).1
    let rethrow : Stmt := ⟨{}, .throws none⟩
    (∃ (x : Catching) (h h' : Handler),
      ((k.stmt (filteredTry sameName)).out s).1 = s!"try {tried} catch {x.text k.indent}" ∧ x.handlers = [h, h'] ∧
      (∀ v : Nat → String → Bool,
        let first := v 0 s!"{x.binding} instanceof IOException" && v 0 "(n === p)"
        x.ran k.indent v = some (block (if first then h.lines else h'.lines) k.indent)) ∧
      (k.stmt rethrow).out h.bodyAt = (s!"throw {x.binding};", h.bodyAt)) ∧
    ∃ (x : Catching) (h h' : Handler),
      ((k.stmt (filteredTry (.tickedOr {} "n" "p"))).out s).1 = s!"try {tried} catch {x.text k.indent}" ∧
      x.handlers = [h, h'] ∧ h.clause.accepts false true = false ∧
      ∀ v : Nat → String → Bool, v 0 "p" = true → x.ran k.indent v = some (block h.lines k.indent) := by
  intro k s tried rethrow
  have hs : s.Tidy := List.forall_mem_nil _
  have hindent : Markless k.indent := by decide
  have hterm : IsTerm "IOException" := by decide +kernel
  have hbound : ∀ {r : Session}, r.scopes = s.scopes → r.isBound "n" = true ∧ r.isBound "p" = true := by
    intro r hr
    unfold Session.isBound
    rw [hr]
    decide
  have hname : ∀ name ∈ ["n", "p"], isIdentifier name = true ∧ name ∉ keywords ∧ Markless name := by decide +kernel
  obtain ⟨⟨hn, hkn, hmn⟩, hp, hkp, hmp⟩ := hname "n" (by decide), hname "p" (by decide)
  constructor
  · obtain ⟨⟨x, after, htext, hx, hrun, hthrow, hsource⟩, -, -⟩ :=
      catch_clauses_dispatch {} .empty s {} ⟨{}, .block []⟩ [filteredClause sameName, otherClause]
        (List.cons_ne_nil _ _) none
    obtain ⟨h, h', hhandlers, hfirst, hsecond, hat⟩ := filteredTry_handlers hx
    obtain ⟨hm, hm'⟩ : h ∈ x.handlers ∧ h' ∈ x.handlers := by simp [hhandlers]
    have hfilter : ((k.expr sameName).out h.filterAt).1 = "n === p" :=
      congrArg Prod.fst (sameName_out (hbound hat).1 (hbound hat).2)
    have htests : h.tests = [.instanceOf "IOException", .filter "(n === p)"] := by
      have hoperand : operand "n === p" = "(n === p)" := by decide +kernel
      have hclause : h.tests = [.instanceOf "IOException", .filter (operand ((k.expr sameName).out h.filterAt).1)] := by
        rw [(hx.handlers h hm).tests, hfirst]
        rfl
      rw [hclause, hfilter, hoperand]
    have htests' : h'.tests = [] := by
      rw [(hx.handlers h' hm').tests, hsecond]
      rfl
    have hnamed := filteredTry_wellNamed
      (wellNamed_binary (wellNamed_identifier hmn {}) (wellNamed_identifier hmp {}) {} .eq)
    have hreads : ∀ g ∈ x.handlers, ∀ t ∈ g.tests, Condition.read (t.text x.binding) = some [[t.text x.binding]] := by
      rw [hhandlers]
      refine List.forall_mem_cons.mpr ⟨?_, List.forall_mem_singleton.mpr (by rw [htests']; exact List.forall_mem_nil _)⟩
      refine (hsource rfl hs hnamed h hm).2 ?_ ?_ <;> rw [hfirst]
      · rintro _ ⟨⟩
        exact hterm
      · rintro - _ ⟨⟩
        rw [hfilter]
        exact ⟨sameName_flat, by decide⟩
    refine ⟨x, h, h', ?_, hhandlers, fun v => ?_, ?_⟩
    · rw [filteredTry, htext]
      exact String.append_empty
    · have hv : ∀ (i : Nat) (g : Handler), x.handlers[i]? = some g → g.Outcomes x.binding (v i)
          (v 0 s!"{x.binding} instanceof IOException") (v 0 "(n === p)") := by
        intro i g hg
        refine Handler.outcomes_of_reads (hreads g (List.mem_of_getElem? hg)) ?_
        rw [hhandlers] at hg
        rcases i with _ | _ | i
        · obtain rfl : h = g := Option.some.inj hg
          have hinstance : CatchTest.text x.binding (.instanceOf "IOException") =
              s!"{x.binding} instanceof IOException" := String.append_assoc
          rw [htests]
          exact List.forall_mem_cons.mpr ⟨congrArg (v 0) hinstance, List.forall_mem_singleton.mpr rfl⟩
        · obtain rfl : h' = g := Option.some.inj hg
          rw [htests']
          exact List.forall_mem_nil _
        · cases hg
      have hdispatch := (hrun hindent fun h hm => (hsource rfl hs hnamed h hm).1).1
        (fun _ => v 0 s!"{x.binding} instanceof IOException") (fun _ => v 0 "(n === p)") v
        (fun h hm => Handler.joinable_of_reads (hreads h hm)) hv
      rw [first?_filtered, hhandlers] at hdispatch
      cases hboth : v 0 s!"{x.binding} instanceof IOException" && v 0 "(n === p)" with
      | true =>
        rw [hboth] at hdispatch
        obtain ⟨_, ⟨⟩, -, hran⟩ := hdispatch
        exact hran
      | false =>
        rw [hboth] at hdispatch
        obtain ⟨_, ⟨⟩, -, hran⟩ := hdispatch
        exact hran
    · refine hthrow h hm {} h.bodyAt ?_
      rw [hfirst]
      exact filteredClause_rethrows h.bodyAt sameName
  · obtain ⟨⟨x, after, htext, hx, hrun, -, hsource⟩, -, hticked⟩ :=
      catch_clauses_dispatch {} .empty s {} ⟨{}, .block []⟩ [filteredClause (.tickedOr {} "n" "p"), otherClause]
        (List.cons_ne_nil _ _) none
    obtain ⟨h, h', hhandlers, hfirst, -, hat⟩ := filteredTry_handlers hx
    have hnamed := filteredTry_wellNamed (wellNamed_tickedOr hmn hmp {})
    obtain ⟨hbare, hread⟩ := hticked h.filterAt "n" "p" (hbound hat).1 (hbound hat).2 hn hp hkn hkp
    have hclosed := fun h hm => (hsource rfl hs hnamed h hm).1
    obtain ⟨haccepts, hloose⟩ := (hrun hindent hclosed).2 h [h'] "IOException" _ hhandlers
      (by rw [hfirst]; rfl) hterm (by rw [hfirst]; rfl) (by rw [hfirst]; rfl) hbare _ _ hread
    refine ⟨x, h, h', ?_, hhandlers, haccepts true, fun v hv => hloose v ?_⟩
    · rw [filteredTry, htext]
      exact String.append_empty
    · simpa [Condition.holds] using hv

end ComponentScript
