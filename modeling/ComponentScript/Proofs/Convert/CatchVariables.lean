/-
  ComponentScript.Proofs.Convert.CatchVariables — the name that a catch clause gives the error.

  The name is bound while the filter of the clause is converted, so there it always stays as
  it is. While the body is converted it is not: nothing but the caught error is entered. An
  unresolved use of it in the body is then read like any bare name. It stays as it is if a
  scope in the body or around the statement binds it, or if names of its form are left alone
  (`Settings.leavesName`); a name with an underscore or a capital in front becomes a member of
  the instance (`Settings.memberText`), which is never the name itself (`memberText_ne`).
-/

import ComponentScript.Proofs.Convert.Handlers

namespace ComponentScript

open Text

/-! ## Names that nothing binds -/

/-- Whether an unresolved name that nothing binds stays as it is. -/
def Settings.leavesName (settings : Settings) (name : String) : Bool :=
  settings.isWellKnownType name || name.toList.head?.all fun c => c ≠ '_' && !isUppercase c

/-- A name as a member of the instance; behind an underscore it keeps its form. -/
def Settings.memberText (settings : Settings) (name : String) : String :=
  settings.instanceReceiver ++ "." ++ if name.toList.head? = some '_' then name else Script.camelCase name

theorem Env.identifier_unresolved (env : Env) (s : Session) {e : Expr} (h : env.model.symbolOf e = none)
    (name : String) :
    env.identifier s e name =
      if s.isBound name ∨ env.settings.leavesName name then name else env.settings.memberText name := by
  unfold Env.identifier Settings.leavesName Settings.memberText
  rw [h]
  by_cases hbound : s.isBound name = true
  · simp [hbound]
  by_cases hknown : env.settings.isWellKnownType name = true
  · simp [hknown]
  cases name.toList.head? with
  | none => simp
  | some c =>
    by_cases hunderscore : c = '_'
    · simp [hbound, hknown, hunderscore]
    by_cases hcapital : isUppercase c = true
    · simp [hbound, hknown, hunderscore, hcapital]
    · simp [hbound, hknown, hunderscore, hcapital]

theorem one_le_length_toLowercase (c : Char) : 1 ≤ (toLowercase c).length := by
  unfold toLowercase
  repeat' split
  all_goals simp

theorem length_le_flatMap_toLowercase (cs : List Char) : cs.length ≤ (cs.flatMap toLowercase).length := by
  induction cs with
  | nil => exact Nat.le_refl _
  | cons c cs ih =>
    have hc := one_le_length_toLowercase c
    rw [List.flatMap_cons, List.length_append, List.length_cons]
    omega

theorem length_le_camelChars (cs : List Char) : cs.length ≤ (Script.camelChars cs).length := by
  unfold Script.camelChars
  dsimp only
  split
  · exact Nat.le_refl _
  · have hcut := congrArg List.length (List.takeWhile_append_dropWhile (p := (· = '_')) (l := cs))
    generalize Script.smallCount _ _ = n
    have hrest := congrArg List.length (List.take_append_drop n (cs.dropWhile (· = '_')))
    have hsmall := length_le_flatMap_toLowercase ((cs.dropWhile (· = '_')).take n)
    rw [List.length_append] at hcut hrest
    rw [List.length_append, List.length_append]
    omega

/-- A member is longer than its name. -/
theorem memberText_ne (settings : Settings) (name : String) : settings.memberText name ≠ name := by
  intro heq
  have hsuffix : name.toList.length ≤
      (if name.toList.head? = some '_' then name else Script.camelCase name).toList.length := by
    split
    · exact Nat.le_refl _
    · rw [Script.camelCase, String.toList_ofList]
      exact length_le_camelChars _
  have hdot : ".".toList.length = 1 := rfl
  have hlength : (settings.memberText name).toList.length = name.toList.length := by rw [heq]
  unfold Settings.memberText at hlength
  rw [String.toList_append, String.toList_append, List.length_append, List.length_append] at hlength
  omega

/-! ## The error under its name -/

/-- A clause that has the catch to itself gives the binding its name. -/
theorem Converter.catching_binding {k : Converter} {clauses : List CatchClause} {s : Session}
    (hdirect : ((k.catching clauses).out s).1.isDirect = true) {h : Handler}
    (hm : h ∈ ((k.catching clauses).out s).1.handlers) {name : String} (hname : h.clause.name? = some name) :
    ((k.catching clauses).out s).1.binding = name := by
  unfold catching at hdirect hm ⊢
  cases hhead : clauses.head?.filter fun c => c.accepts false false with
  | none =>
    rw [hhead] at hdirect
    cases hdirect
  | some c =>
    rw [hhead] at hm
    obtain rfl := List.mem_singleton.mp hm
    have hc : c.name? = some name := hname
    dsimp only
    rw [hc]
    rfl

namespace Handler.Of

variable {k : Converter} {error : String} {isDirect : Bool} {s : Session} {h : Handler}

theorem bodyAt_scopes (hof : h.Of k error isDirect s) : h.bodyAt.scopes = s.scopes := by
  obtain ⟨r, hr, hbody⟩ := hof.bodyAt
  rw [hbody]
  exact hr.scopes

/-- Among other clauses, the first line of the body declares the name. -/
theorem declares (hof : h.Of k error false s) {name : String} (hname : h.clause.name? = some name) :
    h.lines.head? = some s!"const {name} = {error};" := by
  rw [hof.lines]
  unfold CatchClause.declaration
  rw [hname]
  rfl

end Handler.Of

section Names

variable {settings : Settings} {m : Model} {t : Tree} {s s' : Session} {span : Span} {name : String}

/-- A name that the innermost scope of the start binds stays as it is. -/
theorem Reaches.own_name
    (h : Reaches { settings := settings } m t (s.openScope [name]) (.expr ⟨span, .identifier name⟩) s')
    (expected? : Option TypeRef) :
    ((({ settings := settings } : Engine).converter m).exprAs expected? ⟨span, .identifier name⟩).out s' =
      (name, s') := by
  have hk := (Engine.converter_steady (Engine.builtin_admissible settings) m).entryPoints
  obtain ⟨b, -, hscopes⟩ := h.within (Engine.builtin_local settings) hk
  have hbound : s'.isBound name = true := by
    rw [Session.isBound_iff, hscopes]
    simp [Session.openScope]
  rw [Engine.converter_identifier, Env.identifier_bound _ _ hbound]

/-- An unresolved name that is reached stays as it is if and only if it is bound at its
    position, or names like it are left alone. -/
theorem Reaches.unresolved_name
    (h : Reaches { settings := settings } m t s (.expr ⟨span, .identifier name⟩) s') :
    ∃ b, Within t.parts b (.expr ⟨span, .identifier name⟩) ∧ s'.scopes = b ++ s.scopes ∧
      (m.symbolOf ⟨span, .identifier name⟩ = none → ∀ expected?,
        ((({ settings := settings } : Engine).converter m).exprAs expected? ⟨span, .identifier name⟩).out s' =
          (if name ∈ b.flatten ∨ s.isBound name ∨ settings.leavesName name then name
            else settings.memberText name, s')) := by
  have hk := (Engine.converter_steady (Engine.builtin_admissible settings) m).entryPoints
  obtain ⟨b, hwithin, hscopes⟩ := h.within (Engine.builtin_local settings) hk
  refine ⟨b, hwithin, hscopes, fun hsym expected? => ?_⟩
  have hbound : (s'.isBound name = true ∨ settings.leavesName name = true) =
      (name ∈ b.flatten ∨ s.isBound name = true ∨ settings.leavesName name = true) := by
    rw [Session.isBound_iff, Session.isBound_iff, hscopes, List.flatten_append, List.mem_append, or_assoc]
  rw [Engine.converter_identifier, Env.identifier_unresolved ⟨settings, m⟩ s' hsym]
  simp only [hbound]

end Names

/-- With the built-in rules, whatever the settings, the model and the session, of a clause
    that names the error, in a statement with catch clauses:
    - the script binds the error to the name, as the binding of its `catch` or in the first
      line of what becomes of the clause;
    - in the filter, every use of the name stays as it is;
    - in the body, an unresolved use of it stays as it is if and only if a scope on the way
      to its position or around the statement binds it, or names of its form are left alone
      anyway. Any other becomes a member of the instance. -/
theorem catch_variable_texts (settings : Settings) (m : Model) (s : Session) (span : Span) (body : Stmt)
    (clauses : List CatchClause) (hne : clauses ≠ []) (finally? : Option Stmt) :
    let g : Engine := { settings := settings }
    let k := g.converter m
    let tried := (k.block body).out s
    ∃ (x : Catching) (after : Session),
      let final := finally?.elim "" fun y => " finally " ++ ((k.block y).out after).1
      ((k.stmt ⟨span, .tryCatch body clauses finally?⟩).out s).1 = s!"try {tried.1} catch {x.text k.indent}{final}" ∧
      x.handlers.map (·.clause) = CatchClause.upToUnconditional clauses ∧
      ∀ h ∈ x.handlers, h.Of k x.binding x.isDirect tried.2 ∧ ∀ name, h.clause.name? = some name →
        (if x.isDirect then x.binding = name else h.lines.head? = some s!"const {name} = {x.binding};") ∧
        (∀ filter ∈ h.clause.filter?,
          let condition := ((k.expr filter).out h.filterAt).1
          CatchTest.filter s!"(({name}) => {condition})({x.binding})" ∈ h.tests ∧
          ∀ at' s', Reaches g m (.expr none filter) h.filterAt (.expr ⟨at', .identifier name⟩) s' →
            ∀ expected?, (k.exprAs expected? ⟨at', .identifier name⟩).out s' = (name, s')) ∧
        ∀ at' s', Reaches g m (.statements h.clause.body.statements) h.bodyAt (.expr ⟨at', .identifier name⟩) s' →
          ∃ b, Within (Parts.statements [] h.clause.body.statements) b (.expr ⟨at', .identifier name⟩) ∧
            s'.scopes = b ++ s.scopes ∧
            (m.symbolOf ⟨at', .identifier name⟩ = none → ∀ expected?,
              let text := ((k.exprAs expected? ⟨at', .identifier name⟩).out s').1
              (text = name ↔ name ∈ b.flatten ∨ s.isBound name ∨ settings.leavesName name) ∧
              (text ≠ name → text = settings.memberText name)) := by
  intro g k tried
  have hk : k.EntryPointsRestore := (Engine.converter_steady (Engine.builtin_admissible settings) m).entryPoints
  obtain ⟨-, hclauses, hof⟩ := Converter.catching_handlers hk clauses tried.2
  refine ⟨((k.catching clauses).out tried.2).1, ((k.catching clauses).out tried.2).2,
    Engine.stmt_tryCatch_text settings m span body hne finally? s, hclauses, fun h hm => ⟨hof h hm, ?_⟩⟩
  intro name hname
  refine ⟨?_, ?_, ?_⟩
  · split
    · next hdirect => exact Converter.catching_binding hdirect hm hname
    · next hdirect =>
      have hshared := hof h hm
      rw [Bool.eq_false_iff.mpr hdirect] at hshared
      exact hshared.declares hname
  · intro filter hfilter condition
    refine ⟨?_, fun at' s' hreach => ?_⟩
    · have hfilter' : h.clause.filter? = some filter := hfilter
      rw [(hof h hm).tests, CatchTest.ofClause, hfilter']
      refine List.mem_append_right _ (List.mem_singleton.mpr (congrArg CatchTest.filter ?_))
      unfold CatchClause.filterText
      rw [hname]
    · obtain ⟨r, -, hfilterAt⟩ := (hof h hm).filterAt
      rw [hfilterAt, CatchClause.filterSession, hname] at hreach
      exact hreach.own_name
  · intro at' s' hreach
    have hscopes : h.bodyAt.scopes = s.scopes := (hof h hm).bodyAt_scopes.trans (hk.block body s).scopes
    obtain ⟨b, hwithin, hb, htext⟩ := hreach.unresolved_name
    have hbound : h.bodyAt.isBound name = s.isBound name := by
      unfold Session.isBound
      rw [hscopes]
    rw [hscopes] at hb
    refine ⟨b, hwithin, hb, fun hsym expected? => ?_⟩
    have hout := htext hsym expected?
    rw [hbound] at hout
    dsimp only
    rw [hout]
    have hne := memberText_ne settings name
    split
    · next hleft => exact ⟨⟨fun _ => hleft, fun _ => rfl⟩, fun h => absurd rfl h⟩
    · next hleft => exact ⟨⟨fun heq => absurd heq hne, fun h => absurd h hleft⟩, fun _ => rfl⟩

/-- A step that counts as far as the conversion of the expression does converts it. -/
theorem converts_expr_of_counter {α : Type} {k : Converter} {f : Converter → Emit α} {e : Expr} {s s' : Session}
    (hend : ∀ k : Converter, ((f k).out s).2.counter = ((k.exprAs none e).out s').2.counter) :
    Converts k f s (.expr e) s' := by
  refine converts_of_mark fun heq => ?_
  have hmark : ((k.markedAt e s').exprAs none e).out s' = _ := if_pos ⟨rfl, rfl⟩
  have hcount : ((f k).out s).2.counter = ((f (k.markedAt e s')).out s).2.counter := by rw [heq]
  rw [hend, hend, hmark] at hcount
  exact Nat.succ_ne_self _ hcount.symm

/-- `catch (Exception _ex) { return _ex; }`: the error is bound to `_ex`, and `this._ex` is returned. -/
theorem catch_variable_texts_underscore :
    let k := ({} : Engine).converter Model.empty
    let returned : Stmt := ⟨{}, .returns (some (.ident "_ex"))⟩
    let clause : CatchClause := ⟨some (.named "Exception"), some "_ex", none, ⟨{}, .block [returned]⟩⟩
    let empty : Stmt := ⟨{}, .block []⟩
    let tried := ((k.block empty).out {}).1
    [clause] ≠ [] ∧
    ∃ (x : Catching) (h : Handler),
      ((k.stmt ⟨{}, .tryCatch empty [clause] none⟩).out {}).1 = s!"try {tried} catch {x.text k.indent}" ∧
      x.handlers = [h] ∧ h.clause = clause ∧
      (if x.isDirect then x.binding = "_ex" else h.lines.head? = some s!"const _ex = {x.binding};") ∧
      Reaches {} Model.empty (.statements [returned]) h.bodyAt (.expr (.ident "_ex")) h.bodyAt ∧
      ((k.exprAs none (.ident "_ex")).out h.bodyAt).1 = "this._ex" := by
  intro k returned clause empty tried
  refine ⟨List.cons_ne_nil _ _, ?_⟩
  obtain ⟨x, after, htext, hclauses, hhandlers⟩ :=
    catch_variable_texts {} Model.empty {} {} empty [clause] (List.cons_ne_nil _ _) none
  obtain ⟨h, hs, hx, hclause, hnil⟩ := List.map_eq_cons_iff.mp hclauses
  obtain rfl := List.map_eq_nil_iff.mp hnil
  have hmem : h ∈ x.handlers := by rw [hx]; exact List.mem_cons_self ..
  obtain ⟨hof, hnames⟩ := hhandlers h hmem
  obtain ⟨hbinds, -, hbody⟩ := hnames "_ex" (by rw [hclause])
  have hreach : Reaches {} Model.empty (.statements [returned]) h.bodyAt (.expr (.ident "_ex")) h.bodyAt := by
    have houter : Reaches {} Model.empty (.statements [returned]) h.bodyAt (.stmt returned) h.bodyAt :=
      .tree (converts_stmt_of_counter fun _ => rfl)
    refine houter.stmt (converts_expr_of_counter fun k => ?_)
    rw [Engine.step_stmt_eq_defaultStmt]
    rfl
  have hreturned : h.clause.body.statements = [returned] := by rw [hclause]; rfl
  rw [hreturned] at hbody
  obtain ⟨b, -, hb, hname⟩ := hbody {} h.bodyAt hreach
  obtain ⟨hiff, hmember⟩ := hname rfl none
  -- nothing is bound at the use
  have hnone : b = [] := by
    have hscopes : h.bodyAt.scopes = [] := hof.bodyAt_scopes
    rw [hscopes] at hb
    exact (List.append_eq_nil_iff.mp hb.symm).1
  refine ⟨x, h, ?_, hx, hclause, hbinds, hreach, ?_⟩
  · rw [htext]
    exact String.append_empty
  · rw [hnone] at hiff
    have hunbound : ¬ ("_ex" ∈ List.flatten ([] : Scopes) ∨ ({} : Session).isBound "_ex" = true ∨
        Settings.leavesName {} "_ex" = true) := by decide +kernel
    exact hmember fun heq => hunbound (hiff.mp heq)

end ComponentScript
