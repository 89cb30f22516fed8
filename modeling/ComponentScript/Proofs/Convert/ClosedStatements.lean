/-
  ComponentScript.Proofs.Convert.ClosedStatements — well-named statements become closed text.

  With a converter that gives closed text for the nodes inside, each kind of statement
  becomes closed text: `stmtByKind_closed`, and with the variables that its arguments
  declare in front of it `defaultStmt_closed`. An error is thrown again by the name it is
  bound to, which is a name of the tree or a fresh one.
-/

import ComponentScript.Convert.Statement
import ComponentScript.Proofs.Convert.ClosedText

namespace ComponentScript

open Script Text

namespace Converter

variable {k : Converter} {e : Expr}

/-! ## Loops and choices -/

theorem binding_closed {target : LoopTarget} (h : ∀ name ∈ target.names, Markless name) :
    Closed target.binding := by
  cases target with
  | name n => exact (h n (List.mem_singleton.mpr rfl)).closed
  | tuple ns => exact (Leads.start rfl).hole (closed_commaList fun n hn => (h n hn).closed) |>.lit rfl

variable (hk : k.Closing)
include hk

theorem forEach_closed {target : LoopTarget} (ht : ∀ name ∈ target.names, Markless name)
    {body : Stmt} (isAwait : Bool) (he : (Node.expr e).WellNamed) (hb : (Node.stmt body).WellNamed) :
    Writes Closed (k.forEach target e body isAwait) := by
  refine (expr_closed hk he).bind fun text htext => ?_
  refine ((block_closed hk hb).withScope target.names).bind fun body hbody => .pure ?_
  have hentries : Closed (target.entriesOf text) := by
    cases target <;> exact (Leads.start rfl).hole htext |>.lit rfl
  have hkeyword : Closed (if isAwait then "for await" else "for") := closed_ite (by decide) (by decide)
  exact (Leads.first hkeyword).lit rfl |>.hole (binding_closed ht) |>.lit rfl |>.hole (closed_ite hentries htext)
    |>.lit rfl |>.hole hbody

theorem elseBranch_closed {s : Stmt} (h : (Node.stmt s).WellNamed) :
    Writes Closed (k.elseBranch s) :=
  .ite (fun _ => hk.stmt h) fun _ => block_closed hk h

theorem forInit_closed {i? : Option ForInit}
    (hn : ∀ type? ds, i? = some (.declaration type? ds) → TypeNamed type? ∧ DeclaratorsNamed ds)
    (h : Parts.WellNamed (Parts.forInit i?)) : Writes Closed (k.forInit i?) := by
  rcases i? with _ | ⟨type?, ds⟩ | es
  · exact .pure (by decide)
  · obtain ⟨ht, hd⟩ := hn type? ds rfl
    exact (declarators_closed hk ht hd (declarators_named h)).bind fun _ ht => .pure ((Leads.start rfl).hole ht)
  · exact (exprs_closed hk fun _ he => h.exprs he).bind fun _ ht => .pure (closed_commaList ht)

theorem forLoop_closed {i? : Option ForInit} {c? : Option Expr} {updates : List Expr} {body : Stmt}
    (hn : ∀ type? ds, i? = some (.declaration type? ds) → TypeNamed type? ∧ DeclaratorsNamed ds)
    (h : Parts.WellNamed (Parts.forInit i? ++ Parts.exprs [] (c?.toList ++ updates) ++ [Parts.body [] body])) :
    Writes Closed (k.forLoop i? c? updates body) := by
  have hexprs : ∀ x ∈ c?.toList ++ updates, (Node.expr x).WellNamed := fun _ he => h.left.right.exprs he
  refine (forInit_closed hk hn h.left.left).bind fun init hinit => ?_
  refine .bind (.optionMapM fun c hc => expr_closed hk (hexprs c ?_)) fun condition? hc => ?_
  · exact List.mem_append_left _ (Option.mem_toList.mpr hc)
  refine (exprs_closed hk fun x hx => hexprs x (List.mem_append_right _ hx)).bind fun updates hupdates => ?_
  refine (block_closed hk h.right.head.body).bind fun body hbody => .pure ?_
  have hcondition : Closed (condition?.getD "") := closed_getD hc (by decide)
  have hheader : Closed ("; ".intercalate [init, condition?.getD "", commaList updates]) :=
    closed_intercalate (by decide) (List.forall_mem_cons.mpr ⟨hinit,
      List.forall_mem_cons.mpr ⟨hcondition, List.forall_mem_singleton.mpr (closed_commaList hupdates)⟩⟩)
  exact (Leads.start rfl).hole (closed_trimEnd hheader) |>.lit rfl |>.hole hbody

theorem localFunction_closed {name : String} (hn : Markless name) {ps : List Param}
    (hp : ParamsNamed ps) {body : Stmt} (isAsync : Bool) {b : Scopes}
    (h : Parts.WellNamed (Parts.params b ps ++ [Parts.body b body])) :
    Writes Closed (k.localFunction name ps body isAsync) := by
  have hbody := block_closed hk h.right.head.body
  refine (function_closed hk hp h.left hbody).bind fun ⟨params, body⟩ ⟨hp, hb⟩ => .pure ?_
  have hasync : Closed (if isAsync then "async " else "") := closed_ite (by decide) (by decide)
  exact (Leads.first hasync).lit rfl |>.hole hn.closed |>.lit rfl |>.hole hp |>.lit rfl |>.hole hb

/-! ## Errors -/

/-- The names of a catch clause, and the nodes inside it. -/
structure ClauseNamed (c : CatchClause) : Prop where
  type : TypeNamed c.type?
  name : ∀ name ∈ c.name?, Markless name
  filter : ∀ e ∈ c.filter?, (Node.expr e).WellNamed
  body : (Node.stmt c.body).WellNamed

omit hk in
theorem clauseNamed {span : Span} {body : Stmt} {clauses : List CatchClause} {finally? : Option Stmt}
    (h : (Node.stmt ⟨span, .tryCatch body clauses finally?⟩).WellNamed) : ∀ c ∈ clauses, ClauseNamed c := by
  intro c hc
  have hp := h.parts
  have hclause := hp.tail.left.flatMap hc
  exact ⟨(h.1 c hc).1, (h.1 c hc).2, fun _ he => hclause.left.exprs (Option.mem_toList.mpr he), hclause.right.head.body⟩

omit hk in
theorem errorType_closed {c : CatchClause} (h : TypeNamed c.type?) : AnyClosed c.errorType? := by
  intro name hname
  obtain ⟨hname, -⟩ := Option.mem_filter_iff.mp hname
  obtain ⟨type, htype, rfl⟩ := Option.map_eq_some_iff.mp hname
  exact closed_simpleTypeName (h type htype)

theorem catchFilter_closed {error : String} (herr : Closed error) {name? : Option String}
    (hn : ∀ name ∈ name?, Markless name) (he : (Node.expr e).WellNamed) :
    Writes Closed (k.catchFilter error name? e) := by
  cases name? with
  | none => exact operand_closed hk he
  | some name =>
    refine ((expr_closed hk he).withScope [name]).bind fun _ hc => .pure ?_
    exact (Leads.start rfl).hole (hn name rfl).closed |>.lit rfl |>.hole hc |>.lit rfl |>.hole herr |>.lit rfl

theorem catchTests_closed {error : String} (herr : Closed error) {c : CatchClause}
    (hc : ClauseNamed c) : Writes AllClosed (k.catchTests error c) := by
  refine .bind (.optionMapM fun f hf => catchFilter_closed hk herr hc.name (hc.filter f hf)) fun filter? hf => ?_
  refine .pure (List.forall_mem_append.mpr ⟨fun t ht => ?_, fun t ht => hf t (Option.mem_toList.mp ht)⟩)
  obtain ⟨name, hname, rfl⟩ := Option.map_eq_some_iff.mp (Option.mem_toList.mp ht)
  exact (Leads.first herr).lit rfl |>.hole (errorType_closed hc.type name hname)

theorem catchBody_closed {error : String} (herr : Markless error) {c : CatchClause}
    (hc : ClauseNamed c) : Writes Closed (k.catchBody error c) := by
  refine ((statements_closed hk hc.body.statements).withCatch herr).bind fun lines hlines => .pure ?_
  refine closed_block hk.indent (List.forall_mem_append.mpr ⟨fun t ht => ?_, hlines⟩)
  obtain ⟨name, hname, rfl⟩ := Option.map_eq_some_iff.mp (Option.mem_toList.mp ht)
  exact constLine_closed (hc.name name hname).closed herr.closed

theorem catchChain_closed {error : String} (herr : Markless error) {clauses : List CatchClause}
    (h : ∀ c ∈ clauses, ClauseNamed c) : Writes Closed (k.catchChain error clauses) := by
  induction clauses with
  | nil =>
    have hthrow : Closed s!"throw {error};" := (Leads.start rfl).hole herr.closed |>.lit rfl
    exact .pure (closed_block hk.indent (List.forall_mem_singleton.mpr hthrow))
  | cons c rest ih =>
    obtain ⟨hc, hrest⟩ := List.forall_mem_cons.mp h
    refine (catchTests_closed hk herr.closed hc).bind fun tests htests => ?_
    refine (catchBody_closed hk herr hc).bind fun body hbody => .ite (fun _ => .pure hbody) fun _ => ?_
    refine (ih hrest).bind fun otherwise hother => .pure ?_
    exact (Leads.start rfl).hole (conjunction_closed htests) |>.lit rfl |>.hole hbody |>.lit rfl |>.hole hother

theorem catchClauses_closed {clauses : List CatchClause} (h : ∀ c ∈ clauses, ClauseNamed c) :
    Writes Closed (k.catchClauses clauses) := by
  unfold catchClauses
  cases hfirst : clauses.head?.filter CatchClause.isCatchAll with
  | some c =>
    have hc : ClauseNamed c := h c (List.mem_of_mem_head? (Option.mem_filter_iff.mp hfirst).1)
    have hrest : ∀ binding, Markless binding → Writes Closed (do
        let body ← Emit.withCatch binding (k.block c.body)
        return s!"({binding}) {body}") := fun binding hb =>
      ((block_closed hk hc.body).withCatch hb).bind fun _ hbody =>
        .pure ((Leads.start rfl).hole hb.closed |>.lit rfl |>.hole hbody)
    have hname := hc.name
    dsimp only
    cases hn : c.name? with
    | some name => exact (Provides.pure (hname name hn)).bind hrest
    | none => exact (Writes.freshName (by decide)).bind hrest
  | none =>
    refine (Writes.freshName (by decide)).bind fun error herr => ?_
    refine (catchChain_closed hk herr h).bind fun chain hchain => .pure ?_
    have hblock := closed_block hk.indent (List.forall_mem_singleton.mpr hchain)
    exact (Leads.start rfl).hole herr.closed |>.lit rfl |>.hole hblock

theorem tryCatch_closed {body : Stmt} {clauses : List CatchClause} {finally? : Option Stmt}
    (hb : (Node.stmt body).WellNamed) (hc : ∀ c ∈ clauses, ClauseNamed c)
    (hf : ∀ s ∈ finally?, (Node.stmt s).WellNamed) : Writes Closed (k.tryCatch body clauses finally?) := by
  refine (block_closed hk hb).bind fun body hbody => ?_
  have hcatch : ∀ {text}, Closed text → Closed (" catch " ++ text) := fun ht => (Leads.start rfl).hole ht
  have hfinally : ∀ {text}, Closed text → Closed (" finally " ++ text) := fun ht => (Leads.start rfl).hole ht
  have htext : ∀ {handler final}, Closed handler → Closed final → Closed s!"try {body}{handler}{final}" :=
    fun hhandler hfinal => (Leads.start rfl).hole hbody |>.hole hhandler |>.hole hfinal
  refine .ite (fun _ => (Provides.pure (P := Closed) (by decide)).bind fun handler hhandler => ?_) fun _ =>
    (catchClauses_closed hk hc).bind fun _ ht => (Provides.pure (hcatch ht)).bind fun handler hhandler => ?_
  all_goals
    cases finally? with
    | none => exact (Provides.pure (P := Closed) (by decide)).bind fun _ hfinal => .pure (htext hhandler hfinal)
    | some s =>
      refine (block_closed hk (hf s rfl)).bind fun _ ht => ?_
      exact (Provides.pure (hfinally ht)).bind fun _ hfinal => .pure (htext hhandler hfinal)

theorem resource_closed {span : Span} {ds : List Declarator} {e? : Option Expr}
    {body? : Option Stmt} {isAwait : Bool} (h : (Node.stmt ⟨span, .resource ds e? body? isAwait⟩).WellNamed) :
    Writes Closed (k.resource ds e? body? isAwait) := by
  have hp := h.parts
  have hscope : ∀ {body : Emit (List String)}, Writes AllClosed body →
      Writes AllClosed (k.resourceScope ds e? isAwait body) :=
    resourceScope_closed hk h.1 hp.left.left.acquired
      (fun _ he => hp.left.right.exprs (Option.mem_toList.mpr he)) isAwait
  cases body? with
  | some body =>
    have hbody : (Node.stmt body).WellNamed := hp.right.head.body
    exact (hscope (statements_closed hk hbody.statements)).bind fun _ hl => .pure (closed_block hk.indent hl)
  | none => exact (hscope (statements_closed hk (List.forall_mem_nil _))).bind fun _ hl => .pure (closed_joinLines hl)

/-! ## Choices by labels -/

theorem directLabel_closed {l : SwitchLabel} (h : Parts.WellNamed (Parts.label l)) :
    Writes AnyClosed (k.directLabel l) := by
  cases l with
  | constant value => exact (expr_closed hk h.head).map fun _ => anyClosed_some
  | pattern pattern guard? =>
    cases pattern with
    | constant value => exact (expr_closed hk h.head.parts.head).map fun _ => anyClosed_some
    | _ => exact .pure nofun
  | otherwise => exact .pure nofun

theorem testLabel_closed {subject : String} (hs : Closed subject) {l : SwitchLabel}
    (h : Parts.WellNamed (Parts.label l)) :
    Writes AnyClosed (k.testLabel subject l) := by
  cases l with
  | constant value =>
    refine (expr_closed hk h.head).bind fun text ht => .pure (anyClosed_some ?_)
    exact (Leads.first hs).lit rfl |>.hole ht
  | pattern pattern guard? =>
    refine (patternTest_closed hk pattern hs h.head).bind fun test ht => ?_
    refine .bind (.optionMapM fun g hg => expr_closed hk (h.tail.exprs (Option.mem_toList.mpr hg))) fun _ hg => ?_
    exact .pure (anyClosed_some (guarded_closed ht hg))
  | otherwise => exact .pure nofun

omit hk in
theorem labelLine_closed {value? : Option String} (h : AnyClosed value?) : Closed (labelLine value?) := by
  cases value? with
  | none => decide
  | some value => exact (Leads.start rfl).hole (h value rfl) |>.lit rfl

theorem sectionsBlock_closed {label : SwitchLabel → Emit (Option String)}
    (hl : ∀ l, Parts.WellNamed (Parts.label l) → Writes AnyClosed (label l))
    {sections : List SwitchSection} (h : Parts.WellNamed (sections.flatMap Parts.switchSection)) :
    Writes Closed (k.sectionsBlock label sections) := by
  have hlines : ∀ s ∈ sections, Writes AllClosed (k.sectionLines label s) := by
    intro s hs
    have hsection := h.flatMap hs
    refine .bind (.mapM fun l hm => hl l (hsection.left.flatMap hm)) fun labels hlabels => ?_
    refine (statements_closed hk hsection.right.sequence).bind fun texts htexts => .pure ?_
    refine List.forall_mem_append.mpr ⟨fun t ht => ?_, fun t ht => ?_⟩
    · obtain ⟨value?, hv, rfl⟩ := List.mem_map.mp ht
      exact labelLine_closed (hlabels value? hv)
    · obtain ⟨text, htext, rfl⟩ := List.mem_map.mp ht
      exact closed_indentLines hk.indent (htexts text (List.mem_filter.mp htext).1)
  refine .bind (.mapM hlines) fun lines hall => .pure (closed_block hk.indent fun t ht => ?_)
  obtain ⟨ts, hts, ht⟩ := List.mem_flatten.mp ht
  exact hall ts hts t ht

theorem switchStmt_closed {scrutinee : Expr} {sections : List SwitchSection}
    (he : (Node.expr scrutinee).WellNamed) (h : Parts.WellNamed (sections.flatMap Parts.switchSection)) :
    Writes Closed (k.switchStmt scrutinee sections) := by
  refine .ite (fun _ => ?_) fun _ => ?_
  · refine (expr_closed hk he).bind fun subject hs => ?_
    refine (sectionsBlock_closed hk (fun _ => directLabel_closed hk) h).bind fun body hbody => .pure ?_
    exact (Leads.start rfl).hole hs |>.lit rfl |>.hole hbody
  · refine (Writes.freshName (by decide)).bind fun subject hs => (expr_closed hk he).bind fun value hv => ?_
    refine (sectionsBlock_closed hk (fun _ => testLabel_closed hk hs.closed) h).bind fun body hbody => .pure ?_
    refine closed_block hk.indent (List.forall_mem_cons.mpr ⟨constLine_closed hs.closed hv, ?_⟩)
    exact List.forall_mem_singleton.mpr ((Leads.start rfl).hole hbody)

/-! ## Statements by kind -/

/-- A word, an expression and a semicolon. -/
theorem keyword_closed {word : String} (hw : Closed word) (he : (Node.expr e).WellNamed) :
    Writes Closed (do return word ++ (← k.expr e) ++ ";") :=
  (expr_closed hk he).bind fun _ ht => .pure ((Leads.first hw).hole ht |>.lit rfl)

theorem stmtByKind_closed {s : Stmt} (h : (Node.stmt s).WellNamed) :
    Writes Closed (k.stmtByKind s) := by
  obtain ⟨span, kind⟩ := s
  have hp := h.parts
  cases kind with
  | block ss => exact block_closed hk h
  | declaration type? ds isConst =>
    refine (declarators_closed hk h.1.1 h.1.2 (declarators_named hp)).bind fun _ ht => .pure ?_
    have hkeyword : Closed (if isConst then "const" else "let") := closed_ite (by decide) (by decide)
    exact (Leads.first hkeyword).lit rfl |>.hole ht |>.lit rfl
  | expression x => exact (expr_closed hk hp.head).bind fun _ ht => .pure ((Leads.first ht).lit rfl)
  | branch condition thenBranch elseBranch? =>
    refine (expr_closed hk hp.head).bind fun _ hc => (block_closed hk hp.tail.head.body).bind fun _ hb => ?_
    cases elseBranch? with
    | none => exact .pure ((Leads.start rfl).hole hc |>.lit rfl |>.hole hb)
    | some other =>
      refine (elseBranch_closed hk hp.tail.tail.head.body).bind fun _ ho => .pure ?_
      exact (Leads.start rfl).hole hc |>.lit rfl |>.hole hb |>.lit rfl |>.hole ho
  | whileLoop condition body =>
    refine (expr_closed hk hp.head).bind fun _ hc => (block_closed hk hp.tail.head.body).bind fun _ hb => .pure ?_
    exact (Leads.start rfl).hole hc |>.lit rfl |>.hole hb
  | doLoop body condition =>
    refine (block_closed hk hp.head.body).bind fun _ hb => (expr_closed hk hp.tail.head).bind fun _ hc => .pure ?_
    exact (Leads.start rfl).hole hb |>.lit rfl |>.hole hc |>.lit rfl
  | forLoop init? condition? updates body =>
    refine forLoop_closed hk (fun type? ds hi => ?_) hp
    subst hi
    exact h.1
  | forEach target iterable body isAwait => exact forEach_closed hk h.1 isAwait hp.head hp.tail.head.body
  | returns value? =>
    cases value? with
    | none => exact .pure (by decide)
    | some value => exact keyword_closed hk (by decide) hp.head
  | breaks => exact .pure (by decide)
  | continues => exact .pure (by decide)
  | throws value? =>
    cases value? with
    | some value => exact keyword_closed hk (by decide) hp.head
    | none =>
      refine Provides.caught.bind fun binding? hb => ?_
      cases binding? with
      | some binding => exact .pure ((Leads.start rfl).hole (hb binding rfl).closed |>.lit rfl)
      | none => exact .verbatim _ _ (by decide)
  | tryCatch body clauses finally? =>
    refine tryCatch_closed hk hp.head.body (clauseNamed h) fun s hs => ?_
    exact (hp.tail.right _ (List.mem_map_of_mem (Option.mem_toList.mpr hs))).body
  | resource ds resource? body? isAwait => exact resource_closed hk h
  | switchStmt scrutinee sections => exact switchStmt_closed hk hp.head hp.tail
  | lock target body => exact block_closed hk hp.tail.head.body
  | localFunction name params body isAsync => exact localFunction_closed hk h.1.1 h.1.2 isAsync hp
  | yields value? =>
    cases value? with
    | none => exact .pure (by decide)
    | some value => exact keyword_closed hk (by decide) hp.head
  | empty => exact .pure (by decide)
  | other nodeKind text => exact h.1.elim

/-- A statement behind the declarations it needs. -/
theorem defaultStmt_closed {s : Stmt} (h : (Node.stmt s).WellNamed) :
    Writes Closed (k.defaultStmt s) := by
  refine (stmtByKind_closed hk h).bind fun text ht => .pure (closed_joinLines ?_)
  refine List.forall_mem_append.mpr ⟨fun line hline => ?_, List.forall_mem_singleton.mpr ht⟩
  obtain ⟨name, hname, rfl⟩ := List.mem_map.mp hline
  obtain ⟨_, hnamed⟩ := Node.Everywhere.hoisted h name hname
  have hmarkless : Markless name := hnamed
  exact (Leads.start rfl).hole hmarkless.closed |>.lit rfl

end Converter

end ComponentScript
