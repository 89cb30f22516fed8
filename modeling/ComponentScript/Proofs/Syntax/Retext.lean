/-
  ComponentScript.Proofs.Syntax.Retext — trees with other texts in their unstructured nodes.

  A node without a structured kind is the name of its kind and its source text.
  `Expr.retext φ`, `Stmt.retext φ` replace the text of every such node by what `φ` says for
  its kind, its span and its text, and leave everything else as it is. `blank S` empties the
  texts of the nodes in `S`: two trees with the same blanked tree differ at most in the texts
  of those nodes.
-/

import ComponentScript.Proofs.Syntax.Parts

namespace ComponentScript

/-- A new text for an unstructured node, by its kind, its span and its text. -/
abbrev Retexting := String → Span → String → String

mutual
def Expr.retext (φ : Retexting) : Expr → Expr
  | ⟨span, kind⟩ => ⟨span, kind.retext φ span⟩
def ExprKind.retext (φ : Retexting) (span : Span) : ExprKind → ExprKind
  | .identifier name => .identifier name
  | .this => .this
  | .base => .base
  | .literal value => .literal value
  | .interpolated parts => .interpolated (retextParts φ parts)
  | .binary op left right => .binary op (left.retext φ) (right.retext φ)
  | .unary op operand => .unary op (operand.retext φ)
  | .assignment op target value => .assignment op (target.retext φ) (value.retext φ)
  | .member receiver name => .member (receiver.retext φ) name
  | .conditionalMember receiver name => .conditionalMember (receiver.retext φ) name
  | .elementAccess receiver index => .elementAccess (receiver.retext φ) (index.retext φ)
  | .invocation callee typeArgs args => .invocation (callee.retext φ) typeArgs (retextArguments φ args)
  | .objectCreation type? args initializer? =>
    .objectCreation type? (retextArguments φ args) (retextInitializer? φ initializer?)
  | .anonymousObject members => .anonymousObject (retextMembers φ members)
  | .arrayCreation elementType? size? elements =>
    .arrayCreation elementType? (retextExpr? φ size?) (retextExprs φ elements)
  | .conditional condition whenTrue whenFalse =>
    .conditional (condition.retext φ) (whenTrue.retext φ) (whenFalse.retext φ)
  | .lambda params body isAsync => .lambda (retextParams φ params) (body.retext φ) isAsync
  | .await operand => .await (operand.retext φ)
  | .cast type operand => .cast type (operand.retext φ)
  | .patternTest operand pattern => .patternTest (operand.retext φ) (pattern.retext φ)
  | .nameOf name => .nameOf name
  | .defaultOf type? => .defaultOf type?
  | .parenthesized inner => .parenthesized (inner.retext φ)
  | .switchExpr scrutinee arms => .switchExpr (scrutinee.retext φ) (retextArms φ arms)
  | .other nodeKind text => .other nodeKind (φ nodeKind span text)
def InterpolationPart.retext (φ : Retexting) : InterpolationPart → InterpolationPart
  | .text text => .text text
  | .expr expr format? => .expr (expr.retext φ) format?
def retextParts (φ : Retexting) : List InterpolationPart → List InterpolationPart
  | [] => []
  | p :: ps => p.retext φ :: retextParts φ ps
def Argument.retext (φ : Retexting) : Argument → Argument
  | ⟨expr, modifier?, declares, name?⟩ => ⟨expr.retext φ, modifier?, declares, name?⟩
def retextArguments (φ : Retexting) : List Argument → List Argument
  | [] => []
  | a :: as => a.retext φ :: retextArguments φ as
def Initializer.retext (φ : Retexting) : Initializer → Initializer
  | .object members => .object (retextMembers φ members)
  | .collection elements => .collection (retextExprs φ elements)
  | .dictionary entries => .dictionary (retextEntries φ entries)
def retextInitializer? (φ : Retexting) : Option Initializer → Option Initializer
  | none => none
  | some i => some (i.retext φ)
def MemberInit.retext (φ : Retexting) : MemberInit → MemberInit
  | ⟨name, value⟩ => ⟨name, value.retext φ⟩
def retextMembers (φ : Retexting) : List MemberInit → List MemberInit
  | [] => []
  | m :: ms => m.retext φ :: retextMembers φ ms
def DictEntry.retext (φ : Retexting) : DictEntry → DictEntry
  | ⟨key, value⟩ => ⟨key.retext φ, value.retext φ⟩
def retextEntries (φ : Retexting) : List DictEntry → List DictEntry
  | [] => []
  | e :: es => e.retext φ :: retextEntries φ es
def Param.retext (φ : Retexting) : Param → Param
  | ⟨name, type?, default?, isRest⟩ => ⟨name, type?, retextExpr? φ default?, isRest⟩
def retextParams (φ : Retexting) : List Param → List Param
  | [] => []
  | p :: ps => p.retext φ :: retextParams φ ps
def LambdaBody.retext (φ : Retexting) : LambdaBody → LambdaBody
  | .expr expr => .expr (expr.retext φ)
  | .block block => .block (block.retext φ)
def SwitchArm.retext (φ : Retexting) : SwitchArm → SwitchArm
  | ⟨pattern, guard?, value⟩ => ⟨pattern.retext φ, retextExpr? φ guard?, value.retext φ⟩
def retextArms (φ : Retexting) : List SwitchArm → List SwitchArm
  | [] => []
  | a :: as => a.retext φ :: retextArms φ as
def Pattern.retext (φ : Retexting) : Pattern → Pattern
  | .discard => .discard
  | .constant value => .constant (value.retext φ)
  | .relational op value => .relational op (value.retext φ)
  | .property type? subpatterns => .property type? (retextSubpatterns φ subpatterns)
  | .type type => .type type
  | .not pattern => .not (pattern.retext φ)
  | .and left right => .and (left.retext φ) (right.retext φ)
  | .or left right => .or (left.retext φ) (right.retext φ)
def Subpattern.retext (φ : Retexting) : Subpattern → Subpattern
  | ⟨name, pattern⟩ => ⟨name, pattern.retext φ⟩
def retextSubpatterns (φ : Retexting) : List Subpattern → List Subpattern
  | [] => []
  | s :: ss => s.retext φ :: retextSubpatterns φ ss
def retextExprs (φ : Retexting) : List Expr → List Expr
  | [] => []
  | e :: es => e.retext φ :: retextExprs φ es
def retextExpr? (φ : Retexting) : Option Expr → Option Expr
  | none => none
  | some e => some (e.retext φ)
def Stmt.retext (φ : Retexting) : Stmt → Stmt
  | ⟨span, kind⟩ => ⟨span, kind.retext φ span⟩
def StmtKind.retext (φ : Retexting) (span : Span) : StmtKind → StmtKind
  | .block statements => .block (retextStmts φ statements)
  | .declaration type? declarators isConst => .declaration type? (retextDeclarators φ declarators) isConst
  | .expression expr => .expression (expr.retext φ)
  | .branch condition thenBranch elseBranch? =>
    .branch (condition.retext φ) (thenBranch.retext φ) (retextStmt? φ elseBranch?)
  | .whileLoop condition body => .whileLoop (condition.retext φ) (body.retext φ)
  | .doLoop body condition => .doLoop (body.retext φ) (condition.retext φ)
  | .forLoop init? condition? updates body =>
    .forLoop (retextForInit? φ init?) (retextExpr? φ condition?) (retextExprs φ updates) (body.retext φ)
  | .forEach target iterable body isAwait => .forEach target (iterable.retext φ) (body.retext φ) isAwait
  | .returns value? => .returns (retextExpr? φ value?)
  | .breaks => .breaks
  | .continues => .continues
  | .throws value? => .throws (retextExpr? φ value?)
  | .tryCatch body catches finally? =>
    .tryCatch (body.retext φ) (retextClauses φ catches) (retextStmt? φ finally?)
  | .resource declarators resource? body? isAwait =>
    .resource (retextDeclarators φ declarators) (retextExpr? φ resource?) (retextStmt? φ body?) isAwait
  | .switchStmt scrutinee sections => .switchStmt (scrutinee.retext φ) (retextSections φ sections)
  | .lock target body => .lock (target.retext φ) (body.retext φ)
  | .localFunction name params body isAsync =>
    .localFunction name (retextParams φ params) (body.retext φ) isAsync
  | .yields value? => .yields (retextExpr? φ value?)
  | .empty => .empty
  | .other nodeKind text => .other nodeKind (φ nodeKind span text)
def Declarator.retext (φ : Retexting) : Declarator → Declarator
  | ⟨name, init?⟩ => ⟨name, retextExpr? φ init?⟩
def retextDeclarators (φ : Retexting) : List Declarator → List Declarator
  | [] => []
  | d :: ds => d.retext φ :: retextDeclarators φ ds
def ForInit.retext (φ : Retexting) : ForInit → ForInit
  | .declaration type? declarators => .declaration type? (retextDeclarators φ declarators)
  | .expressions exprs => .expressions (retextExprs φ exprs)
def retextForInit? (φ : Retexting) : Option ForInit → Option ForInit
  | none => none
  | some i => some (i.retext φ)
def CatchClause.retext (φ : Retexting) : CatchClause → CatchClause
  | ⟨type?, name?, filter?, body⟩ => ⟨type?, name?, retextExpr? φ filter?, body.retext φ⟩
def retextClauses (φ : Retexting) : List CatchClause → List CatchClause
  | [] => []
  | c :: cs => c.retext φ :: retextClauses φ cs
def SwitchSection.retext (φ : Retexting) : SwitchSection → SwitchSection
  | ⟨labels, statements⟩ => ⟨retextLabels φ labels, retextStmts φ statements⟩
def retextSections (φ : Retexting) : List SwitchSection → List SwitchSection
  | [] => []
  | s :: ss => s.retext φ :: retextSections φ ss
def SwitchLabel.retext (φ : Retexting) : SwitchLabel → SwitchLabel
  | .constant value => .constant (value.retext φ)
  | .pattern pattern guard? => .pattern (pattern.retext φ) (retextExpr? φ guard?)
  | .otherwise => .otherwise
def retextLabels (φ : Retexting) : List SwitchLabel → List SwitchLabel
  | [] => []
  | l :: ls => l.retext φ :: retextLabels φ ls
def retextStmts (φ : Retexting) : List Stmt → List Stmt
  | [] => []
  | s :: ss => s.retext φ :: retextStmts φ ss
def retextStmt? (φ : Retexting) : Option Stmt → Option Stmt
  | none => none
  | some s => some (s.retext φ)
end

variable (φ : Retexting)

/-! ## Lists and optional parts -/

theorem eq_map_of_retext {α : Type} {retext : α → α} {retextAll : List α → List α} (hnil : retextAll [] = [])
    (hcons : ∀ a as, retextAll (a :: as) = retext a :: retextAll as) (as : List α) : retextAll as = as.map retext := by
  induction as with
  | nil => exact hnil
  | cons a as ih => rw [hcons, ih, List.map_cons]

@[simp] theorem retextParts_eq : ∀ ps, retextParts φ ps = ps.map (·.retext φ) := eq_map_of_retext rfl fun _ _ => rfl
@[simp] theorem retextArguments_eq : ∀ as, retextArguments φ as = as.map (·.retext φ) :=
    eq_map_of_retext rfl fun _ _ => rfl
@[simp] theorem retextMembers_eq : ∀ ms, retextMembers φ ms = ms.map (·.retext φ) := eq_map_of_retext rfl fun _ _ => rfl
@[simp] theorem retextEntries_eq : ∀ ds, retextEntries φ ds = ds.map (·.retext φ) := eq_map_of_retext rfl fun _ _ => rfl
@[simp] theorem retextParams_eq : ∀ ps, retextParams φ ps = ps.map (·.retext φ) := eq_map_of_retext rfl fun _ _ => rfl
@[simp] theorem retextArms_eq : ∀ as, retextArms φ as = as.map (·.retext φ) := eq_map_of_retext rfl fun _ _ => rfl
@[simp] theorem retextExprs_eq : ∀ es, retextExprs φ es = es.map (·.retext φ) := eq_map_of_retext rfl fun _ _ => rfl
@[simp] theorem retextDeclarators_eq : ∀ ds, retextDeclarators φ ds = ds.map (·.retext φ) :=
    eq_map_of_retext rfl fun _ _ => rfl
@[simp] theorem retextClauses_eq : ∀ cs, retextClauses φ cs = cs.map (·.retext φ) := eq_map_of_retext rfl fun _ _ => rfl
@[simp] theorem retextSections_eq : ∀ ss, retextSections φ ss = ss.map (·.retext φ) :=
    eq_map_of_retext rfl fun _ _ => rfl
@[simp] theorem retextLabels_eq : ∀ ls, retextLabels φ ls = ls.map (·.retext φ) := eq_map_of_retext rfl fun _ _ => rfl
@[simp] theorem retextStmts_eq : ∀ ss, retextStmts φ ss = ss.map (·.retext φ) := eq_map_of_retext rfl fun _ _ => rfl

@[simp] theorem retextExpr?_eq (e? : Option Expr) : retextExpr? φ e? = e?.map (·.retext φ) := by cases e? <;> rfl
@[simp] theorem retextStmt?_eq (s? : Option Stmt) : retextStmt? φ s? = s?.map (·.retext φ) := by cases s? <;> rfl
@[simp] theorem retextForInit?_eq (i? : Option ForInit) : retextForInit? φ i? = i?.map (·.retext φ) := by
  cases i? <;> rfl
@[simp] theorem retextInitializer?_eq (i? : Option Initializer) : retextInitializer? φ i? = i?.map (·.retext φ) := by
  cases i? <;> rfl

/-! ## What stays the same -/

@[simp] theorem Expr.retext_span (e : Expr) : (e.retext φ).span = e.span := by cases e; rfl
@[simp] theorem Argument.retext_expr (a : Argument) : (a.retext φ).expr = a.expr.retext φ := by cases a; rfl
@[simp] theorem MemberInit.retext_value (m : MemberInit) : (m.retext φ).value = m.value.retext φ := by cases m; rfl
@[simp] theorem Param.retext_name (p : Param) : (p.retext φ).name = p.name := by cases p; rfl

/-! ## Texts as they are -/

/-- Every text as it is. -/
def Retexting.same : Retexting := fun _ _ text => text

mutual
theorem Expr.retext_same : ∀ e : Expr, e.retext .same = e
  | ⟨span, kind⟩ => congrArg (Expr.mk span) (kind.retext_same span)
theorem ExprKind.retext_same (kind : ExprKind) (span : Span) : kind.retext .same span = kind := by
  cases kind <;> simp only [ExprKind.retext, Expr.retext_same, retextParts_same, retextArguments_same,
    retextInitializer?_same, retextMembers_same, retextExpr?_same, retextExprs_same, retextParams_same,
    LambdaBody.retext_same, Pattern.retext_same, retextArms_same, Retexting.same]
theorem retextParts_same : ∀ ps, retextParts .same ps = ps
  | [] => rfl
  | .text _ :: ps => congrArg (List.cons _) (retextParts_same ps)
  | .expr e _ :: ps => by rw [retextParts, InterpolationPart.retext, e.retext_same, retextParts_same ps]
theorem retextArguments_same : ∀ as, retextArguments .same as = as
  | [] => rfl
  | ⟨e, _, _, _⟩ :: as => by rw [retextArguments, Argument.retext, e.retext_same, retextArguments_same as]
theorem retextInitializer?_same : ∀ i?, retextInitializer? .same i? = i?
  | none => rfl
  | some (.object ms) => congrArg (some ∘ Initializer.object) (retextMembers_same ms)
  | some (.collection es) => congrArg (some ∘ Initializer.collection) (retextExprs_same es)
  | some (.dictionary ds) => congrArg (some ∘ Initializer.dictionary) (retextEntries_same ds)
theorem retextMembers_same : ∀ ms, retextMembers .same ms = ms
  | [] => rfl
  | ⟨_, e⟩ :: ms => by rw [retextMembers, MemberInit.retext, e.retext_same, retextMembers_same ms]
theorem retextEntries_same : ∀ ds, retextEntries .same ds = ds
  | [] => rfl
  | ⟨key, e⟩ :: ds => by rw [retextEntries, DictEntry.retext, key.retext_same, e.retext_same, retextEntries_same ds]
theorem retextParams_same : ∀ ps, retextParams .same ps = ps
  | [] => rfl
  | ⟨_, _, e?, _⟩ :: ps => by rw [retextParams, Param.retext, retextExpr?_same e?, retextParams_same ps]
theorem LambdaBody.retext_same : ∀ b : LambdaBody, b.retext .same = b
  | .expr e => congrArg _ e.retext_same
  | .block x => congrArg _ x.retext_same
theorem retextArms_same : ∀ as, retextArms .same as = as
  | [] => rfl
  | ⟨p, e?, e⟩ :: as => by
    rw [retextArms, SwitchArm.retext, p.retext_same, retextExpr?_same e?, e.retext_same, retextArms_same as]
theorem Pattern.retext_same : ∀ p : Pattern, p.retext .same = p
  | .discard | .type _ => rfl
  | .constant e => congrArg _ e.retext_same
  | .relational _ e => congrArg _ e.retext_same
  | .property _ ps => congrArg _ (retextSubpatterns_same ps)
  | .not p => congrArg _ p.retext_same
  | .and p q => by rw [Pattern.retext, p.retext_same, q.retext_same]
  | .or p q => by rw [Pattern.retext, p.retext_same, q.retext_same]
theorem retextSubpatterns_same : ∀ ps, retextSubpatterns .same ps = ps
  | [] => rfl
  | ⟨_, p⟩ :: ps => by rw [retextSubpatterns, Subpattern.retext, p.retext_same, retextSubpatterns_same ps]
theorem retextExprs_same : ∀ es, retextExprs .same es = es
  | [] => rfl
  | e :: es => by rw [retextExprs, e.retext_same, retextExprs_same es]
theorem retextExpr?_same : ∀ e?, retextExpr? .same e? = e?
  | none => rfl
  | some e => congrArg _ e.retext_same
theorem Stmt.retext_same : ∀ x : Stmt, x.retext .same = x
  | ⟨span, kind⟩ => congrArg (Stmt.mk span) (kind.retext_same span)
theorem StmtKind.retext_same (kind : StmtKind) (span : Span) : kind.retext .same span = kind := by
  cases kind <;> simp only [StmtKind.retext, Expr.retext_same, Stmt.retext_same, retextStmts_same,
    retextDeclarators_same, retextStmt?_same, retextForInit?_same, retextExpr?_same, retextExprs_same,
    retextClauses_same, retextSections_same, retextParams_same, Retexting.same]
theorem retextDeclarators_same : ∀ ds, retextDeclarators .same ds = ds
  | [] => rfl
  | ⟨_, e?⟩ :: ds => by rw [retextDeclarators, Declarator.retext, retextExpr?_same e?, retextDeclarators_same ds]
theorem retextForInit?_same : ∀ i?, retextForInit? .same i? = i?
  | none => rfl
  | some (.declaration _ ds) => by rw [retextForInit?, ForInit.retext, retextDeclarators_same ds]
  | some (.expressions es) => by rw [retextForInit?, ForInit.retext, retextExprs_same es]
theorem retextClauses_same : ∀ cs, retextClauses .same cs = cs
  | [] => rfl
  | ⟨_, _, e?, x⟩ :: cs => by
    rw [retextClauses, CatchClause.retext, retextExpr?_same e?, x.retext_same, retextClauses_same cs]
theorem retextSections_same : ∀ ss, retextSections .same ss = ss
  | [] => rfl
  | ⟨ls, xs⟩ :: ss => by
    rw [retextSections, SwitchSection.retext, retextLabels_same ls, retextStmts_same xs, retextSections_same ss]
theorem retextLabels_same : ∀ ls, retextLabels .same ls = ls
  | [] => rfl
  | .otherwise :: ls => congrArg _ (retextLabels_same ls)
  | .constant e :: ls => by rw [retextLabels, SwitchLabel.retext, e.retext_same, retextLabels_same ls]
  | .pattern p e? :: ls => by
    rw [retextLabels, SwitchLabel.retext, p.retext_same, retextExpr?_same e?, retextLabels_same ls]
theorem retextStmts_same : ∀ xs, retextStmts .same xs = xs
  | [] => rfl
  | x :: xs => by rw [retextStmts, x.retext_same, retextStmts_same xs]
theorem retextStmt?_same : ∀ x?, retextStmt? .same x? = x?
  | none => rfl
  | some x => congrArg _ x.retext_same
end

/-! ## Trees that differ in texts -/

/-- Empties the texts of the unstructured nodes in `S`, which tells them by kind and span. -/
def blank (S : String → Span → Bool) : Retexting := fun nodeKind span text => if S nodeKind span then "" else text

/-- The trees differ at most in the texts of the unstructured nodes in `S`. -/
def Expr.SameBut (S : String → Span → Bool) (e e' : Expr) : Prop := e.retext (blank S) = e'.retext (blank S)

@[inherit_doc Expr.SameBut]
def Stmt.SameBut (S : String → Span → Bool) (x x' : Stmt) : Prop := x.retext (blank S) = x'.retext (blank S)

@[inherit_doc Expr.SameBut]
def Stmt.AllSameBut (S : String → Span → Bool) (xs xs' : List Stmt) : Prop :=
  xs.map (·.retext (blank S)) = xs'.map (·.retext (blank S))

end ComponentScript
