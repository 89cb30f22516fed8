/-
  ComponentScript.Proofs.Convert.LegibleStatements — statements become texts that end their
  chains.

  With a converter that gives legible text for the nodes inside, each kind of statement can
  be read where a chain begins and leaves none open behind it: `stmtByKind_stated`, and with
  the variables that its arguments declare in front of it `defaultStmt_stated`.
-/

import ComponentScript.Convert.Statement
import ComponentScript.Proofs.Convert.Legible

namespace ComponentScript

open Script Text

namespace Converter

variable {w : Watch} {hole : Expr → Prop} {k : Converter}

/-! ## Loops -/

theorem binding_neutral {target : LoopTarget} (h : ∀ name ∈ target.names, Inert name) : w.Neutral target.binding := by
  cases target with
  | name n => exact Watch.neutral_of_inert (h n (List.mem_singleton.mpr rfl))
  | tuple ns => exact arrayText_neutral fun n hn => (Watch.neutral_of_inert (h n hn)).whole

theorem entriesOf_neutral (target : LoopTarget) {map : String} (hm : w.Whole map) :
    w.Neutral (target.entriesOf map) := by
  cases target with
  | name n =>
    intro link? fs
    have hentries : w.Leads (w.code link? fs)
        s!"Object.entries({map}).map(([key, value]) => (\x7b key, value \x7d))" _ :=
      (Watch.Leads.start rfl rfl).inner hm |>.lit rfl rfl
    exact hentries
  | tuple ns => exact fun _ _ => (Watch.Leads.start rfl rfl).inner hm |>.lit rfl rfl

variable (hk : k.Legible w hole)
include hk

theorem forEach_neutral {target : LoopTarget} (ht : ∀ name ∈ target.names, Inert name)
    (e : Expr) {body : Stmt} (isAwait : Bool) (hb : (Node.stmt body).Fit k.model w) :
    Emits w.Neutral (k.forEach target e body isAwait) := by
  refine (expr_whole hk e).bind fun text htext => ?_
  refine ((block_neutral hk hb).withScope target.names).bind fun body hbody => .pure fun _ _ => ?_
  have hkeyword : w.Neutral (if isAwait then "for await" else "for") :=
    Watch.neutral_of_inert (by cases isAwait <;> decide)
  have hsource : w.Whole (if k.model.category e = some .map then target.entriesOf text else text) := by
    split
    · exact (entriesOf_neutral target htext).whole
    · exact htext
  exact (Watch.Leads.first hkeyword).lit rfl rfl |>.stated (binding_neutral ht).stated |>.lit rfl rfl
    |>.inner hsource |>.lit rfl rfl |>.hole hbody

theorem elseBranch_stated {s : Stmt} (h : (Node.stmt s).Fit k.model w) :
    Emits w.Stated (k.elseBranch s) :=
  .ite (fun _ => hk.stmt s) fun _ => (block_neutral hk h).mono fun _ => Watch.Neutral.stated

theorem forInit_whole {i? : Option ForInit}
    (hn : ∀ type? ds, i? = some (.declaration type? ds) → TypeInert type? ∧ DeclaratorsInert ds) :
    Emits w.Whole (k.forInit i?) := by
  rcases i? with _ | ⟨type?, ds⟩ | es
  · exact .pure Watch.neutral_empty.whole
  · obtain ⟨ht, hd⟩ := hn type? ds rfl
    refine (declarators_whole hk ht hd).bind fun _ ht => .pure (.intro fun _ => ?_)
    exact ⟨_, (Watch.Leads.start rfl rfl).inner ht⟩
  · exact (exprs_whole hk es).bind fun _ ht => .pure (Watch.whole_commaList ht)

theorem forLoop_neutral {i? : Option ForInit} (c? : Option Expr) (updates : List Expr)
    {body : Stmt} (hn : ∀ type? ds, i? = some (.declaration type? ds) → TypeInert type? ∧ DeclaratorsInert ds)
    (hb : (Node.stmt body).Fit k.model w) : Emits w.Neutral (k.forLoop i? c? updates body) := by
  refine (forInit_whole hk hn).bind fun init hinit => ?_
  refine .bind (.optionMapM fun c _ => expr_whole hk c) fun condition? hc => ?_
  refine (exprs_whole hk updates).bind fun updates hupdates => ?_
  refine (block_neutral hk hb).bind fun body hbody => .pure ?_
  have hcondition : w.Whole (condition?.getD "") := by
    cases condition? with
    | none => exact Watch.neutral_empty.whole
    | some c => exact hc c rfl
  have hparts : ∀ {t u : String}, w.Whole t → w.Whole u → w.Whole (t ++ "; " ++ u) :=
    fun ht hu => .intro fun fs => ⟨_, (ht fs).lit rfl rfl |>.inner hu⟩
  have hheader : w.Whole ("; ".intercalate [init, condition?.getD "", commaList updates]) := by
    rw [String.intercalate_cons_cons, String.intercalate_cons_cons, String.intercalate_singleton]
    exact hparts hinit (hparts hcondition (Watch.whole_commaList hupdates))
  have htext : w.Neutral ("for " ++ _ ++ " " ++ body) := fun _ _ =>
    (Watch.Leads.start rfl rfl).hole hheader.trimmed |>.lit rfl rfl |>.hole hbody
  simp only [String.append_assoc] at htext ⊢
  exact htext

theorem localFunction_neutral {name : String} (hn : Inert name) {ps : List Param}
    (hp : ParamsInert ps) {body : Stmt} (isAsync : Bool) (hb : (Node.stmt body).Fit k.model w) :
    Emits w.Neutral (k.localFunction name ps body isAsync) := by
  refine (function_whole hk hp (block_neutral hk hb)).bind fun ⟨params, body⟩ ⟨hp, hb⟩ => .pure fun _ _ => ?_
  have hasync : w.Neutral (if isAsync then "async " else "") := Watch.neutral_of_inert (by cases isAsync <;> decide)
  exact (Watch.Leads.first hasync).lit rfl rfl |>.hole (Watch.neutral_of_inert hn) |>.lit rfl rfl |>.inner hp
    |>.lit rfl rfl |>.hole hb

/-! ## Errors -/

/-- The names of a catch clause, and the statements inside it. -/
structure ClauseFit (m : Model) (w : Watch) (c : CatchClause) : Prop where
  type : TypeInert c.type?
  name : ∀ name ∈ c.name?, Inert name
  body : (Node.stmt c.body).Fit m w

omit hk in
theorem errorType_inert {c : CatchClause} (h : TypeInert c.type?) : ∀ name ∈ c.errorType?, Inert name := by
  intro name hname
  obtain ⟨hname, -⟩ := Option.mem_filter_iff.mp hname
  obtain ⟨type, htype, rfl⟩ := Option.map_eq_some_iff.mp hname
  exact h type htype

theorem catchFilter_neutral {error : String} (herr : Inert error) {name? : Option String}
    (hn : ∀ name ∈ name?, Inert name) (e : Expr) : Emits w.Neutral (k.catchFilter error name? e) := by
  cases name? with
  | none => exact operand_neutral hk e
  | some name =>
    refine ((expr_whole hk e).withScope [name]).bind fun _ hc => .pure ?_
    exact called_neutral (Watch.neutral_of_inert (hn name rfl)).whole hc (Watch.neutral_of_inert herr).whole

theorem catchTests_neutral {error : String} (herr : Inert error) {c : CatchClause}
    (hc : ClauseFit k.model w c) : Emits (fun ts => ∀ t ∈ ts, w.Neutral t) (k.catchTests error c) := by
  refine .bind (.optionMapM fun f _ => catchFilter_neutral hk herr hc.name f) fun filter? hf => ?_
  refine .pure (List.forall_mem_append.mpr ⟨fun t ht => ?_, fun t ht => hf t (Option.mem_toList.mp ht)⟩)
  obtain ⟨name, hname, rfl⟩ := Option.map_eq_some_iff.mp (Option.mem_toList.mp ht)
  have hname := errorType_inert hc.type name hname
  exact fun _ _ => (Watch.Leads.first (Watch.neutral_of_inert herr)).lit rfl rfl |>.hole (Watch.neutral_of_inert hname)

theorem catchBody_neutral {error : String} (herr : Inert error) {c : CatchClause}
    (hc : ClauseFit k.model w c) : Emits w.Neutral (k.catchBody error c) := by
  have hown := fun x hx => (hc.body.statements x hx).1.spelled
  refine ((statements_stated hk hown).withCatch herr).bind fun lines hlines => .pure ?_
  refine Watch.neutral_block hk.indent (List.forall_mem_append.mpr ⟨fun t ht => ?_, hlines⟩)
  obtain ⟨name, hname, rfl⟩ := Option.map_eq_some_iff.mp (Option.mem_toList.mp ht)
  exact constLine_stated (hc.name name hname) (Watch.neutral_of_inert herr).whole

omit hk in
theorem throwLine_stated {error : String} (herr : Inert error) : w.Stated s!"throw {error};" :=
  fun _ => (Watch.Leads.start rfl rfl).inner (Watch.neutral_of_inert herr).whole |>.lit rfl rfl

theorem catchChain_neutral {error : String} (herr : Inert error) {clauses : List CatchClause}
    (h : ∀ c ∈ clauses, ClauseFit k.model w c) : Emits w.Neutral (k.catchChain error clauses) := by
  induction clauses with
  | nil => exact .pure (Watch.neutral_block hk.indent (List.forall_mem_singleton.mpr (throwLine_stated herr)))
  | cons c rest ih =>
    obtain ⟨hc, hrest⟩ := List.forall_mem_cons.mp h
    refine (catchTests_neutral hk herr hc).bind fun tests htests => ?_
    refine (catchBody_neutral hk herr hc).bind fun body hbody => .ite (fun _ => .pure hbody) fun _ => ?_
    refine (ih hrest).bind fun otherwise hother => .pure fun _ _ => ?_
    have hcondition := (Watch.bounded_conjunction fun t ht => (htests t ht).bounded).whole
    exact (Watch.Leads.start rfl rfl).inner hcondition |>.lit rfl rfl |>.hole hbody |>.lit rfl rfl |>.hole hother

theorem catchClauses_neutral {clauses : List CatchClause}
    (h : ∀ c ∈ clauses, ClauseFit k.model w c) :
    Emits w.Neutral (k.catchClauses clauses) := by
  have htext : ∀ {binding body}, Inert binding → w.Neutral body → w.Neutral s!"({binding}) {body}" :=
    fun hbinding hbody _ _ => (Watch.Leads.start rfl rfl).inner (Watch.neutral_of_inert hbinding).whole
      |>.lit rfl rfl |>.hole hbody
  unfold catchClauses
  cases hfirst : clauses.head?.filter CatchClause.isCatchAll with
  | some c =>
    have hc : ClauseFit k.model w c := h c (List.mem_of_mem_head? (Option.mem_filter_iff.mp hfirst).1)
    have hrest : ∀ binding, Inert binding → Emits w.Neutral (do
        let body ← Emit.withCatch binding (k.block c.body)
        return s!"({binding}) {body}") := fun binding hb =>
      ((block_neutral hk hc.body).withCatch hb).bind fun _ hbody => .pure (htext hb hbody)
    have hname := hc.name
    dsimp only
    cases hn : c.name? with
    | some name => exact (Provides.pure (hname name hn)).bind hrest
    | none => exact (Emits.freshName (by decide)).bind hrest
  | none =>
    refine (Emits.freshName (by decide)).bind fun error herr => ?_
    refine (catchChain_neutral hk herr h).bind fun chain hchain => .pure ?_
    exact htext herr (Watch.neutral_block hk.indent (List.forall_mem_singleton.mpr hchain.stated))

theorem tryCatch_neutral {body : Stmt} {clauses : List CatchClause} {finally? : Option Stmt}
    (hb : (Node.stmt body).Fit k.model w) (hc : ∀ c ∈ clauses, ClauseFit k.model w c)
    (hf : ∀ s ∈ finally?, (Node.stmt s).Fit k.model w) :
    Emits w.Neutral (k.tryCatch body clauses finally?) := by
  refine (block_neutral hk hb).bind fun body hbody => ?_
  have hcatch : ∀ {text}, w.Neutral text → w.Neutral (" catch " ++ text) :=
    fun ht _ _ => (Watch.Leads.start rfl rfl).hole ht
  have hfinally : ∀ {text}, w.Neutral text → w.Neutral (" finally " ++ text) :=
    fun ht _ _ => (Watch.Leads.start rfl rfl).hole ht
  have htext : ∀ {handler final}, w.Neutral handler → w.Neutral final → w.Neutral s!"try {body}{handler}{final}" :=
    fun hhandler hfinal _ _ => (Watch.Leads.start rfl rfl).hole hbody |>.hole hhandler |>.hole hfinal
  refine .ite (fun _ => (Provides.pure (P := w.Neutral) Watch.neutral_empty).bind fun handler hhandler => ?_) fun _ =>
    (catchClauses_neutral hk hc).bind fun _ ht => (Provides.pure (hcatch ht)).bind fun handler hhandler => ?_
  all_goals
    cases finally? with
    | none =>
      exact (Provides.pure (P := w.Neutral) Watch.neutral_empty).bind fun _ hfinal => .pure (htext hhandler hfinal)
    | some s =>
      refine (block_neutral hk (hf s rfl)).bind fun _ ht => ?_
      exact (Provides.pure (hfinally ht)).bind fun _ hfinal => .pure (htext hhandler hfinal)

theorem resource_stated {span : Span} {ds : List Declarator} {e? : Option Expr}
    {body? : Option Stmt} {isAwait : Bool} (h : (Node.stmt ⟨span, .resource ds e? body? isAwait⟩).Fit k.model w) :
    Emits w.Stated (k.resource ds e? body? isAwait) := by
  have hscope : ∀ {body : Emit (List String)}, Emits (fun ts => ∀ t ∈ ts, w.Stated t) body →
      Emits (fun ts => ∀ t ∈ ts, w.Stated t) (k.resourceScope ds e? isAwait body) :=
        resourceScope_stated hk h.1.spelled e? isAwait
  cases body? with
  | some body =>
    have hbody : (Node.stmt body).Fit k.model w := h.parts.right.head.body
    refine (hscope (statements_stated hk fun x hx => (hbody.statements x hx).1.spelled)).bind fun _ hl => .pure ?_
    exact (Watch.neutral_block hk.indent hl).stated
  | none =>
    exact (hscope (statements_stated hk (List.forall_mem_nil _))).bind fun _ hl => .pure (Watch.stated_joinLines hl)

/-! ## Choices by labels -/

theorem directLabel_whole (l : SwitchLabel) :
    Emits (fun t? => ∀ t ∈ t?, w.Whole t) (k.directLabel l) := by
  have hvalue : ∀ value, Emits (fun t? => ∀ t ∈ t?, w.Whole t) (some <$> k.expr value) :=
    fun value => (expr_whole hk value).map fun _ ht _ h => Option.some.inj h ▸ ht
  cases l with
  | constant value => exact hvalue value
  | pattern pattern guard? =>
    cases pattern with
    | constant value => exact hvalue value
    | _ => exact .pure nofun
  | otherwise => exact .pure nofun

theorem testLabel_whole {subject : String} (hs : w.Neutral subject) {l : SwitchLabel}
    (h : Parts.Everywhere (Node.Own k.model w) (Parts.label l)) :
    Emits (fun t? => ∀ t ∈ t?, w.Whole t) (k.testLabel subject l) := by
  cases l with
  | constant value =>
    refine (expr_whole hk value).bind fun text ht => .pure fun _ h => Option.some.inj h ▸ .intro fun _ => ?_
    exact ⟨_, (Watch.Leads.first hs).lit rfl rfl |>.inner ht⟩
  | pattern pattern guard? =>
    refine (patternTest_shaped hk pattern hs h.head).bind fun test ht => ?_
    refine .bind (.optionMapM fun g _ => expr_whole hk g) fun _ hg => .pure fun _ h => Option.some.inj h ▸ ?_
    exact guarded_whole (ht.bounded fun _ => outer_le_logical pattern) hg
  | otherwise => exact .pure nofun

omit hk in
theorem labelLine_stated {value? : Option String} (h : ∀ t ∈ value?, w.Whole t) : w.Stated (labelLine value?) := by
  cases value? with
  | none => exact fun _ => .start rfl rfl
  | some value => exact fun _ => (Watch.Leads.start rfl rfl).inner (h value rfl) |>.lit rfl rfl

theorem sectionsBlock_neutral {label : SwitchLabel → Emit (Option String)}
    (hl : ∀ l, Parts.Everywhere (Node.Own k.model w) (Parts.label l) → Emits (fun t? => ∀ t ∈ t?, w.Whole t) (label l))
    {sections : List SwitchSection} (h : Parts.Everywhere (Node.Own k.model w) (sections.flatMap Parts.switchSection)) :
    Emits w.Neutral (k.sectionsBlock label sections) := by
  have hlines : ∀ s ∈ sections, Emits (fun ts => ∀ t ∈ ts, w.Stated t) (k.sectionLines label s) := by
    intro s hs
    have hsection := h.flatMap hs
    refine .bind (.mapM fun l hm => hl l (hsection.left.flatMap hm)) fun labels hlabels => ?_
    refine (statements_stated hk fun x hx => (hsection.right.sequence x hx).1.spelled).bind fun texts htexts => .pure ?_
    refine List.forall_mem_append.mpr ⟨fun t ht => ?_, fun t ht => ?_⟩
    · obtain ⟨value?, hv, rfl⟩ := List.mem_map.mp ht
      exact labelLine_stated (hlabels value? hv)
    · obtain ⟨text, htext, rfl⟩ := List.mem_map.mp ht
      exact (htexts text (List.mem_filter.mp htext).1).indentLines hk.indent
  refine .bind (.mapM hlines) fun lines hall => .pure (Watch.neutral_block hk.indent fun t ht => ?_)
  obtain ⟨ts, hts, ht⟩ := List.mem_flatten.mp ht
  exact hall ts hts t ht

theorem switchStmt_neutral (scrutinee : Expr) {sections : List SwitchSection}
    (h : Parts.Everywhere (Node.Own k.model w) (sections.flatMap Parts.switchSection)) :
    Emits w.Neutral (k.switchStmt scrutinee sections) := by
  refine .ite (fun _ => ?_) fun _ => ?_
  · refine (expr_whole hk scrutinee).bind fun subject hs => ?_
    refine (sectionsBlock_neutral hk (fun l _ => directLabel_whole hk l) h).bind fun body hbody => .pure fun _ _ => ?_
    exact (Watch.Leads.start rfl rfl).inner hs |>.lit rfl rfl |>.hole hbody
  · refine (Emits.freshName (by decide)).bind fun subject hs => (expr_whole hk scrutinee).bind fun value hv => ?_
    have hlabel := fun l => testLabel_whole hk (Watch.neutral_of_inert hs) (l := l)
    refine (sectionsBlock_neutral hk hlabel h).bind fun body hbody => .pure ?_
    refine Watch.neutral_block hk.indent (List.forall_mem_cons.mpr ⟨constLine_stated hs hv, ?_⟩)
    exact List.forall_mem_singleton.mpr fun _ => (Watch.Leads.start rfl rfl).stated hbody.stated

/-! ## Statements by kind -/

/-- A word, an expression and a semicolon. -/
theorem keyword_stated {word : String} (hw : Inert word) (e : Expr) :
    Emits w.Stated (do return word ++ (← k.expr e) ++ ";") :=
  (expr_whole hk e).bind fun _ ht => .pure fun _ =>
    (Watch.Leads.first (Watch.neutral_of_inert hw)).inner ht |>.lit rfl rfl

theorem stmtByKind_stated {s : Stmt} (h : (Node.stmt s).Fit k.model w) :
    Emits w.Stated (k.stmtByKind s) := by
  obtain ⟨span, kind⟩ := s
  have hp := h.parts
  have hneutral : ∀ {m : Emit String}, Emits w.Neutral m → Emits w.Stated m :=
    fun hm => hm.mono fun _ => Watch.Neutral.stated
  cases kind with
  | block ss => exact hneutral (block_neutral hk h)
  | declaration type? ds isConst =>
    refine (declarators_whole hk h.1.spelled.1 h.1.spelled.2).bind fun _ ht => .pure fun _ => ?_
    have hkeyword : w.Neutral (if isConst then "const" else "let") :=
      Watch.neutral_of_inert (by cases isConst <;> decide)
    exact (Watch.Leads.first hkeyword).lit rfl rfl |>.inner ht |>.lit rfl rfl
  | expression x => exact (expr_whole hk x).bind fun _ ht => .pure fun fs => (ht fs).lit rfl rfl
  | branch condition thenBranch elseBranch? =>
    refine (expr_whole hk condition).bind fun _ hc => (block_neutral hk hp.tail.head.body).bind fun _ hb => ?_
    cases elseBranch? with
    | none => exact .pure fun _ => (Watch.Leads.start rfl rfl).inner hc |>.lit rfl rfl |>.stated hb.stated
    | some other =>
      refine (elseBranch_stated hk hp.tail.tail.head.body).bind fun _ ho => .pure fun _ => ?_
      exact (Watch.Leads.start rfl rfl).inner hc |>.lit rfl rfl |>.stated hb.stated |>.lit rfl rfl |>.stated ho
  | whileLoop condition body =>
    refine (expr_whole hk condition).bind fun _ hc => ?_
    refine (block_neutral hk hp.tail.head.body).bind fun _ hb => .pure fun _ => ?_
    exact (Watch.Leads.start rfl rfl).inner hc |>.lit rfl rfl |>.stated hb.stated
  | doLoop body condition =>
    refine (block_neutral hk hp.head.body).bind fun _ hb => (expr_whole hk condition).bind fun _ hc => .pure fun _ => ?_
    exact (Watch.Leads.start rfl rfl).stated hb.stated |>.lit rfl rfl |>.inner hc |>.lit rfl rfl
  | forLoop init? condition? updates body =>
    refine hneutral (forLoop_neutral hk condition? updates (fun type? ds hi => ?_) hp.right.head.body)
    subst hi
    exact h.1.spelled
  | forEach target iterable body isAwait =>
    exact hneutral (forEach_neutral hk h.1.spelled iterable isAwait hp.tail.head.body)
  | returns value? =>
    cases value? with
    | none => exact .pure fun _ => .start rfl rfl
    | some value => exact keyword_stated hk (by decide) value
  | breaks => exact .pure fun _ => .start rfl rfl
  | continues => exact .pure fun _ => .start rfl rfl
  | throws value? =>
    cases value? with
    | some value => exact keyword_stated hk (by decide) value
    | none =>
      refine Provides.caught.bind fun binding? hb => ?_
      cases binding? with
      | some binding => exact .pure (throwLine_stated (hb binding rfl))
      | none => exact (Provides.report _).bind fun _ _ => .pure fun _ => .start rfl rfl
  | tryCatch body clauses finally? =>
    refine hneutral (tryCatch_neutral hk hp.head.body (fun c hc => ?_) fun s hs => ?_)
    · exact ⟨(h.1.spelled c hc).1, (h.1.spelled c hc).2, (hp.tail.left.flatMap hc).right.head.body⟩
    · exact (hp.tail.right _ (List.mem_map_of_mem (Option.mem_toList.mpr hs))).body
  | resource ds resource? body? isAwait => exact resource_stated hk h
  | switchStmt scrutinee sections => exact hneutral (switchStmt_neutral hk scrutinee hp.tail)
  | lock target body => exact hneutral (block_neutral hk hp.tail.head.body)
  | localFunction name params body isAsync =>
    exact hneutral (localFunction_neutral hk h.1.spelled.1 h.1.spelled.2 isAsync hp.right.head.body)
  | yields value? =>
    cases value? with
    | none => exact .pure fun _ => .start rfl rfl
    | some value => exact keyword_stated hk (by decide) value
  | empty => exact .pure fun _ => .start rfl rfl
  | other nodeKind text => exact h.1.spelled.elim

/-- A statement behind the declarations it needs. -/
theorem defaultStmt_stated {s : Stmt} (h : (Node.stmt s).Fit k.model w) :
    Emits w.Stated (k.defaultStmt s) := by
  refine (stmtByKind_stated hk h).bind fun text ht => .pure (Watch.stated_joinLines ?_)
  refine List.forall_mem_append.mpr ⟨fun line hline => ?_, List.forall_mem_singleton.mpr ht⟩
  obtain ⟨name, hname, rfl⟩ := List.mem_map.mp hline
  obtain ⟨_, hinert⟩ := h.hoisted name hname
  have hneutral : w.Neutral name := Watch.neutral_of_inert hinert.spelled
  exact fun _ => (Watch.Leads.start rfl rfl).inner hneutral.whole |>.lit rfl rfl

end Converter

end ComponentScript
