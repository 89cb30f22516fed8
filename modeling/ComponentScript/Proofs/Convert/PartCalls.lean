/-
  ComponentScript.Proofs.Convert.PartCalls — the nodes that the conversion of a construct goes
  to: its parts, in the order of the source and under the scopes of their positions.
-/

import ComponentScript.Proofs.Convert.Calls
import ComponentScript.Proofs.Convert.Retexted
import Mathlib.Data.List.Basic

namespace ComponentScript

open Text

namespace Converter

variable {P : Runs} {b : Scopes}

/-! ## Expressions and lists of them -/

theorem expr_calls (e : Expr) : CallsFrom P b b [Parts.expr b e] (P.k.expr e) (P.k'.expr (e.retext P.φ)) :=
  .expr none e

theorem operand_calls (e : Expr) : CallsFrom P b b [Parts.expr b e] (P.k.operand e) (P.k'.operand (e.retext P.φ)) :=
  (expr_calls e).thenPure _

theorem mapExprs_calls {α : Type} {f f' : Expr → Emit α}
    (h : ∀ e, CallsFrom P b b [Parts.expr b e] (f e) (f' (e.retext P.φ))) (es : List Expr) :
    CallsFrom P b b (Parts.exprs b es) (es.mapM f) ((es.map (·.retext P.φ)).mapM f') := by
  rw [Parts.exprs, List.map_eq_flatMap]
  exact .mapM fun e _ => h e

theorem exprs_calls (es : List Expr) :
    CallsFrom P b b (Parts.exprs b es) (P.k.exprs es) (P.k'.exprs (es.map (·.retext P.φ))) :=
  mapExprs_calls expr_calls es

theorem arguments_calls (args : List Argument) :
    Calls P (Parts.arguments args) (P.k.arguments args) (P.k'.arguments (args.map (·.retext P.φ))) := by
  rw [Parts.arguments, Parts.exprs, List.map_map, List.map_eq_flatMap]
  refine .mapM fun a _ => ?_
  rw [Argument.retext_expr]
  exact expr_calls a.expr

theorem param_calls (p : Param) :
    CallsFrom P b b (Parts.exprs b p.default?.toList) (P.k.param p) (P.k'.param (p.retext P.φ)) := by
  obtain ⟨name, type?, default?, isRest⟩ := p
  cases isRest with
  | true => exact .any (.pure _)
  | false =>
    cases default? with
    | none => exact .pure _
    | some e => exact (CallsFrom.expr type? e).thenPure _

theorem eachParam_calls (ps : List Param) :
    CallsFrom P b b (Parts.params b ps) (ps.mapM P.k.param) ((ps.map (·.retext P.φ)).mapM P.k'.param) := by
  rw [Parts.params, Parts.exprs, List.filterMap_eq_flatMap_toList, List.map_flatMap]
  exact .mapM fun p _ => param_calls p

theorem params_calls (ps : List Param) :
    CallsFrom P b b (Parts.params b ps) (P.k.params ps) (P.k'.params (ps.map (·.retext P.φ))) :=
  (eachParam_calls ps).thenPure _

theorem declarators_calls (type? : Option TypeRef) (ds : List Declarator) :
    Calls P (Parts.declarators ds) (P.k.declarators type? ds)
      (P.k'.declarators type? (ds.map (·.retext P.φ))) := by
  rw [Parts.declarators, Parts.exprs, List.filterMap_eq_flatMap_toList, List.map_flatMap]
  refine (CallsFrom.mapM fun d _ => ?_).thenPure _
  obtain ⟨name, init?⟩ := d
  cases init? with
  | none => exact .pure _
  | some e => exact (CallsFrom.expr type? e).thenPure _

/-! ## Resources and statement lists -/

theorem indent_eq (P : Runs) : P.k'.indent = P.k.indent := by
  unfold indent; rw [P.settings]

theorem guardLines_eq (P : Runs) : P.k'.guardLines = P.k.guardLines := by
  funext isAwait binding lines
  unfold guardLines releaseLine
  rw [indent_eq, P.settings]

theorem acquire_calls (ds : List Declarator) : ∀ seen : List String,
    CallsFrom P (seen :: b) ((seen ++ ds.map (·.name)) :: b) ((Parts.acquired seen ds).under b) (P.k.acquire ds)
      (P.k'.acquire (ds.map (·.retext P.φ))) := by
  induction ds with
  | nil => intro seen; rw [List.map_nil, List.append_nil]; exact .pure []
  | cons d ds ih =>
    intro seen
    obtain ⟨name, init?⟩ := d
    have hrest (value : String) :
        CallsFrom P (seen :: b) ((seen ++ name :: ds.map (·.name)) :: b) ((Parts.acquired (seen ++ [name]) ds).under b)
          (do Emit.bindName name; return (name, value) :: (← P.k.acquire ds))
          (do Emit.bindName name; return (name, value) :: (← P.k'.acquire (ds.map (·.retext P.φ)))) := by
      have hlast := ih (seen ++ [name])
      rw [List.append_assoc] at hlast
      exact .bind (.bindName name) fun _ => hlast.thenPure _
    cases init? with
    | none => exact hrest "undefined"
    | some e => exact .bind (expr_calls e) hrest

theorem acquireUnnamed_calls (e? : Option Expr) :
    CallsFrom P b b (Parts.exprs b e?.toList) (P.k.acquireUnnamed e?)
      (P.k'.acquireUnnamed (e?.map (·.retext P.φ))) := by
  cases e? with
  | none => exact .pure _
  | some e => exact .bind (expr_calls e) fun _ => .bind (.freshName rfl) fun _ => .pure _

theorem resourceScope_calls (ds : List Declarator) (e? : Option Expr) (isAwait : Bool) {ps : Parts}
    {body body' : Emit (List String)} (h : CallsFrom P (ds.map (·.name) :: b) (ds.map (·.name) :: b) ps body body') :
    CallsFrom P b b ((Parts.acquired [] ds).under b ++ (Parts.exprs (ds.map (·.name) :: b) e?.toList ++ ps))
      (P.k.resourceScope ds e? isAwait body)
      (P.k'.resourceScope (ds.map (·.retext P.φ)) (e?.map (·.retext P.φ)) isAwait body') := by
  unfold resourceScope
  rw [guardLines_eq]
  exact CallsFrom.thenPure (.withScope [] (.bind (acquire_calls ds []) fun declared =>
    .bind (acquireUnnamed_calls e?) fun unnamed => h.thenPure _)) _

theorem withFunctions_calls {α : Type} (ss : List Stmt) {ps : Parts} {m m' : Emit α}
    (h : CallsFrom P (Parts.functionScope ss ++ b) (Parts.functionScope ss ++ b) ps m m') :
    CallsFrom P b b ps (withFunctions ss m) (withFunctions (ss.map (·.retext P.φ)) m') := by
  unfold withFunctions
  unfold Parts.functionScope at h
  rw [localFunctions_retext]
  by_cases hf : (localFunctions ss).isEmpty
  · rw [if_pos hf] at h ⊢
    rw [if_pos hf]
    exact h
  · rw [if_neg hf] at h ⊢
    rw [if_neg hf]
    exact .withScope _ h

theorem sequence_calls (ss : List Stmt) : ∀ {b : Scopes},
    CallsFrom P b b (Parts.sequence b ss) (P.k.sequence ss) (P.k'.sequence (ss.map (·.retext P.φ))) := by
  induction ss with
  | nil => intro b; exact .pure []
  | cons s rest ih =>
    intro b
    have hplain : CallsFrom P b b ((b, .stmt s) :: Parts.sequence b rest)
        (do return (← P.k.stmt s) :: (← P.k.sequence rest))
        (do return (← P.k'.stmt (s.retext P.φ)) :: (← P.k'.sequence (rest.map (·.retext P.φ)))) :=
      .bind (.stmt s) fun _ => ih.thenPure _
    obtain ⟨span, kind⟩ := s
    cases kind with
    | resource ds e? body? isAwait =>
      cases body? with
      | some body => exact hplain
      | none =>
        simp only [List.map_cons, Stmt.retext, StmtKind.retext, retextDeclarators_eq, retextExpr?_eq]
        -- the resource itself is not converted: its values are, and then the statements it owns
        refine .draws (.enter b _ ?_) (CallsFrom.thenPure (resourceScope_calls ds e? isAwait
          (withFunctions_calls rest ih)) _)
        simp only [Node.parts, Stmt.parts, Parts.under_append, Parts.under_exprs, Option.toList_none, List.map_nil,
          List.append_nil, List.append_assoc]
        exact .refl _
    | _ => exact hplain

theorem statements_calls (ss : List Stmt) :
    CallsFrom P b b (Parts.statements b ss) (P.k.statements ss) (P.k'.statements (ss.map (·.retext P.φ))) :=
  withFunctions_calls ss (sequence_calls ss)

/-- A statement in the place of a block: the statements of a block, or it alone. -/
theorem bodyStatements_calls (s : Stmt) :
    CallsFrom P b b [Parts.body b s] (P.k.statements s.statements) (P.k'.statements (s.retext P.φ).statements) := by
  obtain ⟨span, kind⟩ := s
  cases kind with
  | block ss =>
    simp only [Stmt.retext, StmtKind.retext, retextStmts_eq]
    exact .inside (statements_calls ss)
  | resource ds e? body? isAwait => cases body? <;> exact statements_calls [_]
  | _ => exact statements_calls [_]

theorem block_calls (s : Stmt) : CallsFrom P b b [Parts.body b s] (P.k.block s) (P.k'.block (s.retext P.φ)) := by
  unfold block
  rw [indent_eq]
  exact (bodyStatements_calls s).thenPure _

/-! ## Patterns -/

mutual
theorem patternTest_calls : ∀ (p : Pattern) (subject : String),
    Calls P [([], .pattern p)] (P.k.patternTest subject p) (P.k'.patternTest subject (p.retext P.φ))
  | .discard, _ => .any (.pure _)
  | .type _, _ => .any (.pure _)
  | .constant value, subject => by
    simp only [Pattern.retext, patternTest, Expr.isNull_retext]
    exact .ite (fun _ => .any (.pure _)) fun _ => .inside ((expr_calls value).thenPure _)
  | .relational op value, subject => .inside ((expr_calls value).thenPure _)
  | .property type? subpatterns, subject => .inside ((memberTests_calls subpatterns subject).thenPure _)
  | .not pattern, subject => by
    simp only [Pattern.retext, patternTest, Pattern.isNull_retext]
    exact .ite (fun _ => .any (.pure _)) fun _ => .inside ((patternTest_calls pattern subject).thenPure _)
  | .and left right, subject =>
    .inside (.bind (patternTest_calls left subject) fun _ => (patternTest_calls right subject).thenPure _)
  | .or left right, subject =>
    .inside (.bind (patternTest_calls left subject) fun _ => (patternTest_calls right subject).thenPure _)
theorem memberTest_calls : ∀ (p : Subpattern) (subject : String),
    Calls P [([], .pattern p.pattern)] (P.k.memberTest subject p) (P.k'.memberTest subject (p.retext P.φ))
  | ⟨name, pattern⟩, subject => patternTest_calls pattern (memberPath subject name)
theorem memberTests_calls : ∀ (ps : List Subpattern) (subject : String),
    Calls P (ps.map fun p => ([], .pattern p.pattern)) (P.k.memberTests subject ps)
      (P.k'.memberTests subject (retextSubpatterns P.φ ps))
  | [], _ => .pure []
  | p :: ps, subject => .bind (memberTest_calls p subject) fun _ => (memberTests_calls ps subject).thenPure _
end

theorem isTest_calls (operand : Expr) (pattern : Pattern) :
    Calls P [Parts.expr [] operand, ([], .pattern pattern)] (P.k.isTest operand pattern)
      (P.k'.isTest (operand.retext P.φ) (pattern.retext P.φ)) := by
  simp only [isTest, Expr.isPlain_retext, Pattern.subjectUses_retext]
  refine .ite (fun _ => ?_) fun _ => ?_
  · exact .bind (operand_calls operand) fun subject => patternTest_calls pattern subject
  · refine .bind (expr_calls operand) fun value => .bind (.freshName rfl) fun subject => ?_
    exact (patternTest_calls pattern subject).thenPure _

/-! ## Choices of values -/

theorem guard_calls (guard? : Option Expr) :
    Calls P (Parts.exprs [] guard?.toList) (guard?.mapM P.k.expr) ((guard?.map (·.retext P.φ)).mapM P.k'.expr) := by
  rw [Parts.exprs, List.map_eq_flatMap]
  exact .optionMapM fun e _ => expr_calls e

theorem armLines_calls (subject : String) (arms : List SwitchArm) :
    Calls P (arms.flatMap Parts.arm) (P.k.armLines subject arms)
      (P.k'.armLines subject (arms.map (·.retext P.φ))) := by
  induction arms with
  | nil => exact .pure _
  | cons arm arms ih =>
    obtain ⟨pattern, guard?, value⟩ := arm
    rw [List.flatMap_cons, Parts.arm, SwitchArm.exprs, Parts.exprs, List.map_append, List.cons_append,
      List.append_assoc]
    simp only [List.map_cons, SwitchArm.retext, retextExpr?_eq]
    refine .bind (patternTest_calls pattern subject) fun test => .bind (guard_calls guard?) fun guard? => ?_
    refine .bind (expr_calls value) fun value => .ite (fun _ => .any (.pure _)) fun _ => ?_
    exact ih.thenPure _

theorem switchExpr_calls (scrutinee : Expr) (arms : List SwitchArm) :
    Calls P (Parts.expr [] scrutinee :: arms.flatMap Parts.arm) (P.k.switchExpr scrutinee arms)
      (P.k'.switchExpr (scrutinee.retext P.φ) (arms.map (·.retext P.φ))) := by
  simp only [switchExpr, Expr.containsAwait_retext, List.any_map, Function.comp_def, SwitchArm.containsAwait_retext,
    indent_eq]
  refine .bind (.freshName rfl) fun subject => .bind (expr_calls scrutinee) fun value => ?_
  exact (armLines_calls subject arms).thenPure _

/-! ## New objects -/

theorem memberEntries_calls (rename : String → String) (ms : List MemberInit) :
    Calls P (Parts.exprs [] (ms.map (·.value))) (ms.mapM (P.k.memberEntry rename))
      ((ms.map (·.retext P.φ)).mapM (P.k'.memberEntry rename)) := by
  rw [Parts.exprs, List.map_map, List.map_eq_flatMap]
  refine .mapM fun m _ => ?_
  obtain ⟨name, value⟩ := m
  exact (expr_calls value).thenPure _

theorem objectLiteral_calls (ms : List MemberInit) :
    Calls P (Parts.exprs [] (ms.map (·.value))) (P.k.objectLiteral ms)
      (P.k'.objectLiteral (ms.map (·.retext P.φ))) :=
  (memberEntries_calls _ ms).thenPure _

theorem dictEntry_calls (d : DictEntry) :
    Calls P (Parts.exprs [] [d.key, d.value]) (P.k.dictEntry d) (P.k'.dictEntry (d.retext P.φ)) := by
  obtain ⟨key, value⟩ := d
  simp only [DictEntry.retext, dictEntry, Expr.stringLiteral?_retext]
  cases key.stringLiteral? with
  | some s => exact .draws (.skip _ (.refl _)) ((expr_calls value).thenPure _)
  | none => exact .bind (expr_calls key) fun _ => .bind (.pure _) fun _ => (expr_calls value).thenPure _

theorem entryAssignment_calls (d : DictEntry) :
    Calls P (Parts.exprs [] [d.key, d.value]) (P.k.entryAssignment d) (P.k'.entryAssignment (d.retext P.φ)) := by
  obtain ⟨key, value⟩ := d
  exact .bind (expr_calls key) fun _ => (expr_calls value).thenPure _

theorem populated_calls (created : String) (lines : String → List String) :
    Calls P [] (P.k.populated created lines) (P.k'.populated created lines) := by
  unfold populated
  rw [indent_eq]
  exact .bind (.freshName rfl) fun _ => .pure _

/-- The values between the braces of a dictionary, entry by entry. -/
theorem parts_dictionary (ds : List DictEntry) :
    Parts.initializer (some (.dictionary ds)) = ds.flatMap fun d => Parts.exprs [] [d.key, d.value] := by
  simp only [Parts.initializer, Option.toList_some, List.flatMap_singleton, Initializer.exprs, Parts.exprs,
    List.map_flatMap]

theorem parts_some (i : Initializer) : Parts.initializer (some i) = Parts.exprs [] i.exprs := by
  simp only [Parts.initializer, Option.toList_some, List.flatMap_singleton]

theorem elements_calls (i? : Option Initializer) :
    Calls P (Parts.initializer i?) (P.k.elements i?) (P.k'.elements (i?.map (·.retext P.φ))) := by
  rcases i? with _ | ms | es | ds
  · exact .pure _
  · exact .any (.pure _)
  · rw [parts_some]
    simp only [Option.map_some, Initializer.retext, retextExprs_eq]
    exact exprs_calls es
  · exact .any (.pure _)

theorem entries_calls (i? : Option Initializer) :
    Calls P (Parts.initializer i?) (P.k.entries i?) (P.k'.entries (i?.map (·.retext P.φ))) := by
  rcases i? with _ | ms | es | ds
  · exact .pure _
  · rw [parts_some]
    simp only [Option.map_some, Initializer.retext, retextMembers_eq]
    exact memberEntries_calls id ms
  · exact .any (.pure _)
  · rw [parts_dictionary]
    simp only [Option.map_some, Initializer.retext, retextEntries_eq]
    exact .mapM fun d _ => dictEntry_calls d

theorem newInstance_calls (name : String) (args : List Argument) (i? : Option Initializer) :
    Calls P (Parts.arguments args ++ Parts.initializer i?) (P.k.newInstance name args i?)
      (P.k'.newInstance name (args.map (·.retext P.φ)) (i?.map (·.retext P.φ))) := by
  refine .bind (arguments_calls args) fun args => ?_
  rcases i? with _ | ms | es | ds
  · exact .pure _
  · rw [parts_some]
    simp only [Option.map_some, Initializer.retext, retextMembers_eq, List.isEmpty_map]
    exact .ite (fun _ => .any (.pure _)) fun _ => (objectLiteral_calls ms).thenPure _
  · rw [parts_some]
    simp only [Option.map_some, Initializer.retext, retextExprs_eq]
    rw [← List.append_nil (Parts.exprs _ _)]
    exact .bind (exprs_calls es) fun values => populated_calls _ _
  · rw [parts_dictionary]
    simp only [Option.map_some, Initializer.retext, retextEntries_eq]
    rw [← List.append_nil (List.flatMap _ _)]
    exact .bind (.mapM fun d _ => entryAssignment_calls d) fun assignments => populated_calls _ _

theorem knows_arguments {e : Expr} {args : List Argument} {ps : Parts} (h : P.Knows (.expr e))
    (hparts : e.parts = Parts.arguments args ++ ps) : ∀ a ∈ args, P.Knows (.expr a.expr) := by
  intro a ha
  refine h.inner (b := []) ?_
  show _ ∈ e.parts
  rw [hparts]
  exact List.mem_append_left _ (List.mem_map_of_mem (List.mem_map_of_mem ha))

theorem copied_calls {args : List Argument} (h : ∀ a ∈ args, P.Knows (.expr a.expr)) :
    Calls P (Parts.arguments args) (P.k.copied args) (P.k'.copied (args.map (·.retext P.φ))) := by
  rcases args with _ | ⟨arg, _ | ⟨arg', args⟩⟩
  · exact .pure _
  · simp only [List.map_cons, List.map_nil, copied, Argument.retext_expr, (h arg (List.mem_cons_self ..)).isCapacity]
    exact .ite (fun _ => .any (.pure _)) fun _ => (expr_calls arg.expr).thenPure _
  · exact .any (.pure _)

/-- The argument of a constructor that is converted as if a collection were copied from it,
    though an instance of the type is made. -/
def CopiedInVain (k : Converter) (e : Expr) (type? : Option TypeRef) (args : List Argument) (arg : Expr) : Prop :=
  ∃ type a, type? = some type ∧ args = [a] ∧ a.expr = arg ∧ k.isCapacity arg = false ∧
    (k.creationCategory e type).isSequenceLike = false ∧ k.creationCategory e type ≠ .map

/-- The argument is converted for its contents, which are not used, and for the instance. -/
theorem creation_eq_newInstance {k : Converter} {e : Expr} {type : TypeRef}
    (hseq : (k.creationCategory e type).isSequenceLike = false) (hmap : k.creationCategory e type ≠ .map)
    (args : List Argument) (i? : Option Initializer) :
    k.creation e (some type) args i? = (do let _ ← k.copied args; k.newInstance type.simpleName args i?) := by
  simp only [creation]
  cases hc : k.creationCategory e type with
  | list | sequence | set => rw [hc] at hseq; cases hseq
  | map => exact absurd hc hmap
  | _ => rfl

/-- A constructor that makes an instance may go to its only argument twice. -/
theorem copied_newInstance_calls (e : Expr) (type : TypeRef) {args : List Argument} (i? : Option Initializer)
    (h : ∀ a ∈ args, P.Knows (.expr a.expr))
    (hc : (P.k.creationCategory e type).isSequenceLike = false ∧ P.k.creationCategory e type ≠ .map)
    (hR : ∀ arg, P.k.CopiedInVain e (some type) args arg → P.again (.expr arg)) :
    Calls P (Parts.arguments args ++ Parts.initializer i?)
      (do let _ ← P.k.copied args; P.k.newInstance type.simpleName args i?)
      (do let _ ← P.k'.copied (args.map (·.retext P.φ))
          P.k'.newInstance type.simpleName (args.map (·.retext P.φ)) (i?.map (·.retext P.φ))) := by
  have hnew := newInstance_calls (P := P) type.simpleName args i?
  rcases args with _ | ⟨arg, _ | ⟨arg', args⟩⟩
  · exact hnew
  · have hcapacity := (h arg (List.mem_cons_self ..)).isCapacity
    simp only [List.map_cons, List.map_nil, copied, Argument.retext_expr, hcapacity] at hnew ⊢
    cases hcap : P.k.isCapacity arg.expr with
    | true => exact hnew
    | false =>
      refine .draws (.again _ (hR arg.expr ⟨type, arg, rfl, rfl, rfl, hcap, hc⟩) (.refl _)) ?_
      exact .bind ((expr_calls arg.expr).thenPure _) fun _ => hnew
  · exact hnew

theorem creation_calls {e : Expr} (he : P.Knows (.expr e)) (type? : Option TypeRef) {args : List Argument}
    (i? : Option Initializer) (h : ∀ a ∈ args, P.Knows (.expr a.expr))
    (hR : ∀ arg, P.k.CopiedInVain e type? args arg → P.again (.expr arg)) :
    Calls P (Parts.arguments args ++ Parts.initializer i?) (P.k.creation e type? args i?)
      (P.k'.creation (e.retext P.φ) type? (args.map (·.retext P.φ)) (i?.map (·.retext P.φ))) := by
  cases type? with
  | none =>
    simp only [creation, Expr.retext_span]
    refine .draws (Draws.right (Draws.refl (Parts.initializer i?))) (.bind (.report _ rfl) fun _ => ?_)
    rcases i? with _ | ms | es | ds
    · exact .pure _
    · show Calls P (Parts.initializer (some (.object ms))) _ _
      rw [parts_some]
      simp only [Option.map_some, Initializer.retext, retextMembers_eq]
      exact objectLiteral_calls ms
    · exact .any (.pure _)
    · exact .any (.pure _)
  | some type =>
    have hcategory : P.k'.creationCategory (e.retext P.φ) type = P.k.creationCategory e type := by
      simp only [creationCategory, he.category]
    simp only [creation, hcategory]
    cases hc : P.k.creationCategory e type with
    | list | sequence | set => exact .bind (copied_calls h) fun _ => (elements_calls i?).thenPure _
    | map => exact .bind (copied_calls h) fun _ => (entries_calls i?).thenPure _
    | _ => exact copied_newInstance_calls e type i? h (by rw [hc]; decide) hR

theorem newArray_calls (elementType? : Option TypeRef) (size? : Option Expr) (elements : List Expr) :
    Calls P (Parts.exprs [] (size?.toList ++ elements)) (P.k.newArray elementType? size? elements)
      (P.k'.newArray elementType? (size?.map (·.retext P.φ)) (elements.map (·.retext P.φ))) := by
  rw [Parts.exprs, List.map_append]
  have hitems : Calls P (size?.toList.map (Parts.expr []) ++ elements.map (Parts.expr []))
      (do let items ← P.k.exprs elements; return s!"[{commaList items}]")
      (do let items ← P.k'.exprs (elements.map (·.retext P.φ)); return s!"[{commaList items}]") :=
    .draws (.right (.refl _)) ((exprs_calls elements).thenPure _)
  cases size? with
  | none => exact hitems
  | some size =>
    cases elements with
    | nil => exact (expr_calls size).thenPure _
    | cons e es => exact hitems

/-! ## Expressions by kind -/

theorem interpolatedString_calls (span : Span) (ps : List InterpolationPart) :
    Calls P (Parts.exprs [] (ps.filterMap InterpolationPart.expr?)) (P.k.interpolatedString span ps)
      (P.k'.interpolatedString span (ps.map (·.retext P.φ))) := by
  rw [Parts.exprs, List.filterMap_eq_flatMap_toList, List.map_flatMap]
  refine (CallsFrom.mapM fun p _ => ?_).thenPure _
  cases p with
  | text text => exact .pure _
  | expr e format? =>
    cases format? with
    | none => exact .bind (.pure ()) fun _ => (expr_calls e).thenPure _
    | some format => exact .bind (.report _ rfl) fun _ => (expr_calls e).thenPure _

theorem binaryOperand_calls (op : BinaryOp) (e : Expr) :
    Calls P [Parts.expr [] e] (P.k.binaryOperand op e) (P.k'.binaryOperand op (e.retext P.φ)) := by
  have hmixes : mixesCoalesce op (e.retext P.φ) = mixesCoalesce op e := by
    obtain ⟨span, kind⟩ := e
    cases kind <;> rfl
  simp only [binaryOperand, hmixes]
  exact (expr_calls e).thenPure _

theorem lambda_calls (span : Span) (ps : List Param) (body : LambdaBody) (isAsync : Bool) :
    Calls P (Expr.parts ⟨span, .lambda ps body isAsync⟩) (P.k.lambda ps body isAsync)
      (P.k'.lambda (ps.map (·.retext P.φ)) (body.retext P.φ) isAsync) := by
  simp only [lambda, List.map_map, Function.comp_def, Param.retext_name]
  cases body with
  | expr e =>
    have hbody {b : Scopes} : CallsFrom P b b [Parts.expr b e] (P.k.lambdaBody (.expr e))
        (P.k'.lambdaBody (.expr (e.retext P.φ))) := (expr_calls e).thenPure _
    exact CallsFrom.thenPure (.withScope _ (.bind (params_calls ps) fun params => hbody.thenPure _)) _
  | block s =>
    exact CallsFrom.thenPure (.withScope _ (.bind (params_calls ps) fun params => (block_calls s).thenPure _)) _

theorem defaultExpr_calls (expected? : Option TypeRef) {e : Expr} (h : P.Knows (.expr e))
    (he : ∀ nodeKind text, e.kind ≠ .other nodeKind text)
    (hR : ∀ type? args i? arg, e.kind = .objectCreation type? args i? →
      P.k.CopiedInVain e (type? <|> expected?) args arg → P.again (.expr arg)) :
    Calls P e.parts (P.k.defaultExpr expected? e) (P.k'.defaultExpr expected? (e.retext P.φ)) := by
  obtain ⟨span, kind⟩ := e
  cases kind with
  | identifier name =>
    refine .look fun s s' hs => ?_
    have hname : P.k'.identifier s' (Expr.retext P.φ ⟨span, .identifier name⟩) name =
        P.k.identifier s ⟨span, .identifier name⟩ name := by
      simp only [Env.identifier, h.symbolOf, hs, P.settings]
    rw [hname]
    exact .pure _
  | this => simp only [defaultExpr, P.settings, Expr.retext, ExprKind.retext]; exact .pure _
  | base | literal | nameOf | defaultOf => exact .pure _
  | other nodeKind text => exact absurd rfl (he nodeKind text)
  | interpolated ps =>
    simp only [Expr.retext, ExprKind.retext, retextParts_eq]
    exact interpolatedString_calls span ps
  | binary op left right =>
    exact .bind (binaryOperand_calls op left) fun _ => (binaryOperand_calls op right).thenPure _
  | unary op operand => exact (operand_calls operand).thenPure _
  | assignment op target value => exact .bind (expr_calls target) fun _ => (expr_calls value).thenPure _
  | member receiver name => exact (operand_calls receiver).thenPure _
  | conditionalMember receiver name => exact (operand_calls receiver).thenPure _
  | elementAccess receiver index => exact .bind (operand_calls receiver) fun _ => (expr_calls index).thenPure _
  | invocation callee typeArgs args =>
    simp only [Expr.retext, ExprKind.retext, retextArguments_eq]
    exact .bind (operand_calls callee) fun _ => (arguments_calls args).thenPure _
  | objectCreation type? args i? =>
    have hcreation := creation_calls h (type? <|> expected?) i? (knows_arguments h rfl)
      fun arg => hR type? args i? arg rfl
    simp only [Expr.retext, ExprKind.retext, retextArguments_eq, retextInitializer?_eq] at hcreation ⊢
    exact hcreation
  | anonymousObject ms =>
    simp only [Expr.retext, ExprKind.retext, retextMembers_eq]
    exact objectLiteral_calls ms
  | arrayCreation elementType? size? elements =>
    simp only [Expr.retext, ExprKind.retext, retextExpr?_eq, retextExprs_eq]
    exact newArray_calls elementType? size? elements
  | conditional condition whenTrue whenFalse =>
    refine .bind (expr_calls condition) fun _ => ?_
    exact .bind (expr_calls whenTrue) fun _ => (expr_calls whenFalse).thenPure _
  | lambda ps body isAsync =>
    simp only [Expr.retext, ExprKind.retext, retextParams_eq]
    exact lambda_calls span ps body isAsync
  | await operand => exact (operand_calls operand).thenPure _
  | cast type operand => exact expr_calls operand
  | patternTest operand pattern => exact isTest_calls operand pattern
  | parenthesized inner => exact (expr_calls inner).thenPure _
  | switchExpr scrutinee arms =>
    simp only [Expr.retext, ExprKind.retext, retextArms_eq]
    exact switchExpr_calls scrutinee arms

end Converter

end ComponentScript
