/-
  ComponentScript.Proofs.Convert.StatementCalls — the nodes that the conversion of a
  statement goes to.

  `defaultStmt_calls`: its direct inner nodes, in the order of the source. The statements that
  emit text of their own are left out: those without a structured kind, and a bare `throw`.
-/

import ComponentScript.Proofs.Convert.PartCalls

namespace ComponentScript

open Text

namespace Converter

variable {P : Runs}

/-! ## Loops and functions -/

theorem forEach_calls (target : LoopTarget) {iterable : Expr} (h : P.Knows (.expr iterable)) (body : Stmt)
    (isAwait : Bool) :
    Calls P [Parts.expr [] iterable, Parts.body [target.names] body] (P.k.forEach target iterable body isAwait)
      (P.k'.forEach target (iterable.retext P.φ) (body.retext P.φ) isAwait) := by
  simp only [forEach, h.category]
  exact .bind (expr_calls iterable) fun _ => CallsFrom.thenPure (.withScope _ (block_calls body)) _

theorem elseBranch_calls (s : Stmt) :
    Calls P [Parts.body [] s] (P.k.elseBranch s) (P.k'.elseBranch (s.retext P.φ)) := by
  simp only [elseBranch, Stmt.isBranch_retext, Stmt.hoisted_retext]
  refine .ite (fun hs => ?_) fun _ => block_calls s
  obtain ⟨span, kind⟩ := s
  cases kind with
  | branch condition thenBranch elseBranch? => exact .stmt _
  | _ => simp [Stmt.isBranch] at hs

theorem forInit_calls (i? : Option ForInit) :
    Calls P (Parts.forInit i?) (P.k.forInit i?) (P.k'.forInit (i?.map (·.retext P.φ))) := by
  rcases i? with _ | ⟨type?, ds⟩ | es
  · exact .pure _
  · simp only [Option.map_some, ForInit.retext, retextDeclarators_eq]
    exact (declarators_calls type? ds).thenPure _
  · simp only [Option.map_some, ForInit.retext, retextExprs_eq]
    exact (exprs_calls es).thenPure _

theorem forLoop_calls (init? : Option ForInit) (condition? : Option Expr) (updates : List Expr) (body : Stmt) :
    Calls P (Parts.forInit init? ++ Parts.exprs [] (condition?.toList ++ updates) ++ [Parts.body [] body])
      (P.k.forLoop init? condition? updates body)
      (P.k'.forLoop (init?.map (·.retext P.φ)) (condition?.map (·.retext P.φ)) (updates.map (·.retext P.φ))
        (body.retext P.φ)) := by
  rw [Parts.exprs, List.map_append, List.append_assoc, List.append_assoc]
  refine .bind (forInit_calls init?) fun _ => .bind (guard_calls condition?) fun _ => ?_
  exact .bind (exprs_calls updates) fun _ => (block_calls body).thenPure _

theorem localFunction_calls (name : String) (ps : List Param) (body : Stmt) (isAsync : Bool) :
    Calls P (Parts.params [ps.map (·.name)] ps ++ [Parts.body [ps.map (·.name)] body])
      (P.k.localFunction name ps body isAsync)
      (P.k'.localFunction name (ps.map (·.retext P.φ)) (body.retext P.φ) isAsync) := by
  simp only [localFunction, List.map_map, Function.comp_def, Param.retext_name]
  exact CallsFrom.thenPure (.withScope _ (.bind (params_calls ps) fun _ => (block_calls body).thenPure _)) _

/-! ## Caught errors -/

theorem catchTests_calls (error : String) (c : CatchClause) :
    Calls P (Parts.exprs (c.name?.toList.map fun name => [name]) c.filter?.toList) (P.k.catchTests error c)
      (P.k'.catchTests error (c.retext P.φ)) := by
  simp only [catchTests, CatchClause.errorType?_retext]
  obtain ⟨type?, name?, filter?, body⟩ := c
  simp only [CatchClause.retext, retextExpr?_eq]
  rw [Parts.exprs, List.map_eq_flatMap]
  refine (CallsFrom.optionMapM fun filter _ => ?_).thenPure _
  cases name? with
  | none => exact operand_calls filter
  | some name => exact CallsFrom.thenPure (.withScope _ (expr_calls filter)) _

theorem catchBody_calls (hcatching : P.catching) (error : String) (c : CatchClause) :
    Calls P [Parts.body [] c.body] (P.k.catchBody error c) (P.k'.catchBody error (c.retext P.φ)) := by
  obtain ⟨type?, name?, filter?, body⟩ := c
  unfold catchBody
  rw [indent_eq]
  exact CallsFrom.thenPure (.withCatch error hcatching (bodyStatements_calls body)) _

theorem catchChain_calls (hcatching : P.catching) (error : String) (cs : List CatchClause) :
    Calls P (cs.flatMap Parts.clause) (P.k.catchChain error cs)
      (P.k'.catchChain error (cs.map (·.retext P.φ))) := by
  induction cs with
  | nil => simp only [List.map_nil, catchChain, indent_eq]; exact .pure _
  | cons c cs ih =>
    rw [List.flatMap_cons, Parts.clause, List.append_assoc]
    refine .bind (catchTests_calls error c) fun tests => .bind (catchBody_calls hcatching error c) fun body => ?_
    exact .ite (fun _ => .any (.pure _)) fun _ => ih.thenPure _

theorem catchClauses_calls (hcatching : P.catching) (cs : List CatchClause) :
    Calls P (cs.flatMap Parts.clause) (P.k.catchClauses cs) (P.k'.catchClauses (cs.map (·.retext P.φ))) := by
  have hchain : Calls P (cs.flatMap Parts.clause)
      (do let error ← Emit.freshName "err"
          let chain ← P.k.catchChain error cs
          return s!"({error}) {Script.block [chain] P.k.indent}")
      (do let error ← Emit.freshName "err"
          let chain ← P.k'.catchChain error (cs.map (·.retext P.φ))
          return s!"({error}) {Script.block [chain] P.k.indent}") :=
    .bind (.freshName rfl) fun error => (catchChain_calls hcatching error cs).thenPure _
  unfold catchClauses
  rw [indent_eq]
  cases cs with
  | nil => exact hchain
  | cons c cs =>
    simp only [List.map_cons, List.head?_cons, Option.filter_some, CatchClause.isCatchAll_retext]
    cases c.isCatchAll with
    | false => exact hchain
    | true =>
      -- only the body of the clause that accepts every error is converted
      obtain ⟨type?, name?, filter?, body⟩ := c
      have hbody (binding : String) : Calls P [Parts.body [] body]
          (do let body ← Emit.withCatch binding (P.k.block body); return s!"({binding}) {body}")
          (do let body ← Emit.withCatch binding (P.k'.block (body.retext P.φ)); return s!"({binding}) {body}") :=
        CallsFrom.thenPure (.withCatch binding hcatching (block_calls body)) _
      refine .draws (.left (.right (.refl [Parts.body [] body]))) ?_
      cases name? with
      | some name => exact .bind (.pure name) hbody
      | none => exact .bind (.freshName rfl) hbody

theorem tryCatch_calls (hcatching : P.catching) (body : Stmt) (cs : List CatchClause) (finally? : Option Stmt) :
    Calls P (Parts.body [] body :: cs.flatMap Parts.clause ++ finally?.toList.map (Parts.body []))
      (P.k.tryCatch body cs finally?)
      (P.k'.tryCatch (body.retext P.φ) (cs.map (·.retext P.φ)) (finally?.map (·.retext P.φ))) := by
  simp only [tryCatch, List.isEmpty_map]
  rw [List.cons_append]
  cases finally? with
  | none =>
    refine .bind (block_calls body) fun body => .ite (fun _ => .any (.pure _)) fun _ => ?_
    exact .bind (catchClauses_calls hcatching cs) fun _ => .pure _
  | some s =>
    refine .bind (block_calls body) fun body => .ite (fun _ => ?_) fun _ => ?_
    · refine .draws (.right (.refl [Parts.body [] s])) ?_
      exact .bind (.pure "") fun _ => .bind (block_calls s) fun _ => .pure _
    · refine .bind (catchClauses_calls hcatching cs) fun handler => .bind (.pure (" catch " ++ handler)) fun _ => ?_
      exact .bind (block_calls s) fun _ => .pure _

/-! ## Resources -/

theorem resource_calls (ds : List Declarator) (e? : Option Expr) (body? : Option Stmt) (isAwait : Bool) :
    Calls P (Parts.acquired [] ds ++ Parts.exprs [ds.map (·.name)] e?.toList ++
        body?.toList.map (Parts.body [ds.map (·.name)]))
      (P.k.resource ds e? body? isAwait)
      (P.k'.resource (ds.map (·.retext P.φ)) (e?.map (·.retext P.φ)) (body?.map (·.retext P.φ)) isAwait) := by
  rw [List.append_assoc, ← Parts.under_nil (Parts.acquired [] ds)]
  unfold resource
  rw [indent_eq]
  cases body? with
  | none => exact (resourceScope_calls ds e? isAwait (statements_calls [])).thenPure _
  | some body => exact (resourceScope_calls ds e? isAwait (bodyStatements_calls body)).thenPure _

/-! ## Switches -/

theorem directLabel_calls (l : SwitchLabel) :
    Calls P (Parts.label l) (P.k.directLabel l) (P.k'.directLabel (l.retext P.φ)) := by
  cases l with
  | constant value => exact (expr_calls value).map _
  | otherwise => exact .pure _
  | pattern pattern guard? =>
    cases pattern with
    | constant value =>
      refine .draws (.left (.refl [([], .pattern (.constant value))])) ?_
      exact .inside ((expr_calls value).map _)
    | _ => exact .any (.pure _)

theorem testLabel_calls (subject : String) (l : SwitchLabel) :
    Calls P (Parts.label l) (P.k.testLabel subject l) (P.k'.testLabel subject (l.retext P.φ)) := by
  cases l with
  | constant value => exact (expr_calls value).thenPure _
  | otherwise => exact .pure _
  | pattern pattern guard? =>
    simp only [SwitchLabel.retext, retextExpr?_eq]
    exact .bind (patternTest_calls pattern subject) fun _ => (guard_calls guard?).thenPure _

theorem sectionsBlock_calls {label label' : SwitchLabel → Emit (Option String)}
    (h : ∀ l, Calls P (Parts.label l) (label l) (label' (l.retext P.φ))) (sections : List SwitchSection) :
    Calls P (sections.flatMap Parts.switchSection) (P.k.sectionsBlock label sections)
      (P.k'.sectionsBlock label' (sections.map (·.retext P.φ))) := by
  unfold sectionsBlock sectionLines
  rw [indent_eq]
  refine (CallsFrom.mapM fun s _ => ?_).thenPure _
  obtain ⟨labels, statements⟩ := s
  simp only [SwitchSection.retext, retextLabels_eq, retextStmts_eq]
  exact .bind (.mapM fun l _ => h l) fun _ => (statements_calls statements).thenPure _

theorem switchStmt_calls (scrutinee : Expr) (sections : List SwitchSection) :
    Calls P (Parts.expr [] scrutinee :: sections.flatMap Parts.switchSection) (P.k.switchStmt scrutinee sections)
      (P.k'.switchStmt (scrutinee.retext P.φ) (sections.map (·.retext P.φ))) := by
  have hlabels : (sections.map (·.retext P.φ)).flatMap (·.labels) =
      (sections.flatMap (·.labels)).map (·.retext P.φ) := by
    rw [List.flatMap_map, List.map_flatMap]
    congr 1
    funext s
    cases s
    exact retextLabels_eq P.φ _
  simp only [switchStmt, hlabels, List.all_map, Function.comp_def, SwitchLabel.isDirect_retext, indent_eq]
  refine .ite (fun _ => ?_) fun _ => ?_
  · exact .bind (expr_calls scrutinee) fun _ => (sectionsBlock_calls directLabel_calls sections).thenPure _
  · refine .bind (.freshName rfl) fun subject => .bind (expr_calls scrutinee) fun _ => ?_
    exact (sectionsBlock_calls (testLabel_calls subject) sections).thenPure _

/-! ## Statements by kind -/

/-- Only a `try` catches. -/
theorem stmtByKind_calls {s : Stmt} (h : P.Knows (.stmt s)) (hs : ∀ nodeKind text, s.kind ≠ .other nodeKind text)
    (hthrow : s.kind ≠ .throws none) (htry : ∀ body cs finally?, s.kind = .tryCatch body cs finally? → P.catching) :
    Calls P s.parts (P.k.stmtByKind s) (P.k'.stmtByKind (s.retext P.φ)) := by
  obtain ⟨span, kind⟩ := s
  cases kind with
  | other nodeKind text => exact absurd rfl (hs nodeKind text)
  | breaks | continues | empty => exact .pure _
  | block ss =>
    simp only [Stmt.retext, StmtKind.retext, retextStmts_eq, stmtByKind, block, indent_eq]
    exact (statements_calls ss).thenPure _
  | declaration type? ds isConst =>
    simp only [Stmt.retext, StmtKind.retext, retextDeclarators_eq]
    exact (declarators_calls type? ds).thenPure _
  | expression e => exact (expr_calls e).thenPure _
  | branch condition thenBranch elseBranch? =>
    simp only [Stmt.retext, StmtKind.retext, retextStmt?_eq]
    refine .bind (expr_calls condition) fun _ => .bind (block_calls thenBranch) fun _ => ?_
    cases elseBranch? with
    | none => exact .pure _
    | some other => exact (elseBranch_calls other).thenPure _
  | whileLoop condition body => exact .bind (expr_calls condition) fun _ => (block_calls body).thenPure _
  | doLoop body condition => exact .bind (block_calls body) fun _ => (expr_calls condition).thenPure _
  | forLoop init? condition? updates body =>
    simp only [Stmt.retext, StmtKind.retext, retextForInit?_eq, retextExpr?_eq, retextExprs_eq]
    exact forLoop_calls init? condition? updates body
  | forEach target iterable body isAwait =>
    exact forEach_calls target (h.inner (List.mem_cons_self ..)) body isAwait
  | returns value? =>
    cases value? with
    | none => exact .pure _
    | some value => exact (expr_calls value).thenPure _
  | throws value? =>
    cases value? with
    | none => exact absurd rfl hthrow
    | some value => exact (expr_calls value).thenPure _
  | tryCatch body cs finally? =>
    simp only [Stmt.retext, StmtKind.retext, retextClauses_eq, retextStmt?_eq]
    exact tryCatch_calls (htry body cs finally? rfl) body cs finally?
  | resource ds e? body? isAwait =>
    simp only [Stmt.retext, StmtKind.retext, retextDeclarators_eq, retextExpr?_eq, retextStmt?_eq]
    exact resource_calls ds e? body? isAwait
  | switchStmt scrutinee sections =>
    simp only [Stmt.retext, StmtKind.retext, retextSections_eq]
    exact switchStmt_calls scrutinee sections
  | lock target body => exact .draws (.skip _ (.refl [Parts.body [] body])) (block_calls body)
  | localFunction name ps body isAsync =>
    simp only [Stmt.retext, StmtKind.retext, retextParams_eq]
    exact localFunction_calls name ps body isAsync
  | yields value? =>
    cases value? with
    | none => exact .pure _
    | some value => exact (expr_calls value).thenPure _

theorem defaultStmt_calls {s : Stmt} (h : P.Knows (.stmt s)) (hs : ∀ nodeKind text, s.kind ≠ .other nodeKind text)
    (hthrow : s.kind ≠ .throws none) (htry : ∀ body cs finally?, s.kind = .tryCatch body cs finally? → P.catching) :
    Calls P s.parts (P.k.defaultStmt s) (P.k'.defaultStmt (s.retext P.φ)) := by
  simp only [defaultStmt, Stmt.hoisted_retext]
  exact (stmtByKind_calls h hs hthrow htry).thenPure _

end Converter

end ComponentScript
