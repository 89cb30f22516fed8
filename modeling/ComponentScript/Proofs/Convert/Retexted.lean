/-
  ComponentScript.Proofs.Convert.Retexted — what a conversion asks about a node before it
  converts it does not depend on the texts of unstructured nodes.

  Calls, members, literals and plain operands are known by their shape; so are the awaits, the
  declared variables, the labels and the sort keys of a node. The model answers by span: two
  runs get the same answers where their models say the same (`Runs.Knows`).
-/

import ComponentScript.Convert.Expression
import ComponentScript.Convert.Statement
import ComponentScript.Proofs.Convert.Calls
import ComponentScript.Rules.Builtin

namespace ComponentScript

variable (φ : Retexting)

/-! ## Shapes -/

def Call.retext (c : Call) : Call := ⟨c.receiver?.map (·.retext φ), c.name, c.typeArgs, c.args.map (·.retext φ)⟩

namespace Call

variable (c : Call)

@[simp] theorem retext_receiver : (c.retext φ).receiver? = c.receiver?.map (·.retext φ) := rfl
@[simp] theorem retext_name : (c.retext φ).name = c.name := rfl
@[simp] theorem retext_typeArgs : (c.retext φ).typeArgs = c.typeArgs := rfl
@[simp] theorem retext_args : (c.retext φ).args = c.args.map (·.retext φ) := rfl
@[simp] theorem retext_arity : (c.retext φ).arity = c.arity := List.length_map _

@[simp] theorem retext_arg (i : Nat) : (c.retext φ).arg? i = (c.arg? i).map (·.retext φ) := by
  simp [arg?, Function.comp_def]

end Call

namespace Expr

@[simp] theorem call?_retext (e : Expr) : (e.retext φ).call? = e.call?.map (·.retext φ) := by
  obtain ⟨span, kind⟩ := e
  cases kind with
  | invocation callee typeArgs args =>
    obtain ⟨calleeSpan, callee⟩ := callee
    cases callee <;> simp [call?, retext, ExprKind.retext, Call.retext]
  | _ => rfl

@[simp] theorem memberAccess?_retext (e : Expr) :
    (e.retext φ).memberAccess? = e.memberAccess?.map fun (receiver, name) => (receiver.retext φ, name) := by
  obtain ⟨span, kind⟩ := e
  cases kind <;> rfl

@[simp] theorem isNull_retext (e : Expr) : (e.retext φ).isNull = e.isNull := by
  obtain ⟨span, kind⟩ := e
  cases kind <;> rfl

@[simp] theorem stringLiteral?_retext (e : Expr) : (e.retext φ).stringLiteral? = e.stringLiteral? := by
  obtain ⟨span, kind⟩ := e
  cases kind <;> rfl

@[simp] theorem isNumber_retext (e : Expr) : (e.retext φ).isNumber = e.isNumber := by
  obtain ⟨span, kind⟩ := e
  cases kind <;> rfl

@[simp] theorem isPlain_retext (e : Expr) : (e.retext φ).isPlain = e.isPlain := by
  fun_induction Expr.isPlain e with
  | case1 | case2 | case3 => rfl
  | case4 _ receiver name ih => exact ih
  | case5 _ inner ih => exact ih
  | case6 e =>
    obtain ⟨span, kind⟩ := e
    cases kind <;> first | rfl | simp_all

@[simp] theorem isAwait_retext (e : Expr) : (e.retext φ).isAwait = e.isAwait := by
  obtain ⟨span, kind⟩ := e
  cases kind <;> rfl

end Expr

@[simp] theorem Pattern.isNull_retext (p : Pattern) : (p.retext φ).isNull = p.isNull := by
  cases p with
  | constant value => exact Expr.isNull_retext φ value
  | _ => rfl

mutual
theorem Pattern.subjectUses_retext : ∀ p : Pattern, (p.retext φ).subjectUses = p.subjectUses
  | .discard | .constant _ | .relational .. | .type _ => rfl
  | .property type? subpatterns => by
    simp only [Pattern.retext, Pattern.subjectUses, subjectUsesList_retext subpatterns]
  | .not pattern => Pattern.subjectUses_retext pattern
  | .and left right => by
    simp only [Pattern.retext, Pattern.subjectUses, Pattern.subjectUses_retext left, Pattern.subjectUses_retext right]
  | .or left right => by
    simp only [Pattern.retext, Pattern.subjectUses, Pattern.subjectUses_retext left, Pattern.subjectUses_retext right]
theorem Subpattern.subjectUses_retext : ∀ p : Subpattern, (p.retext φ).subjectUses = p.subjectUses
  | ⟨_, pattern⟩ => Pattern.subjectUses_retext pattern
theorem subjectUsesList_retext : ∀ ps : List Subpattern, subjectUsesList (retextSubpatterns φ ps) = subjectUsesList ps
  | [] => rfl
  | p :: ps => by
    simp only [retextSubpatterns, subjectUsesList, Subpattern.subjectUses_retext p, subjectUsesList_retext ps]
end

attribute [simp] Pattern.subjectUses_retext

/-! ## The walk -/

@[simp] theorem SwitchArm.exprs_retext (a : SwitchArm) : (a.retext φ).exprs = a.exprs.map (·.retext φ) := by
  obtain ⟨pattern, guard?, value⟩ := a
  cases guard? <;> rfl

@[simp] theorem Initializer.exprs_retext (i : Initializer) : (i.retext φ).exprs = i.exprs.map (·.retext φ) := by
  cases i with
  | object members => simp [Initializer.retext, Initializer.exprs, Function.comp_def]
  | collection elements => simp [Initializer.retext, Initializer.exprs]
  | dictionary entries =>
    have hentry (d : DictEntry) :
        [(d.retext φ).key, (d.retext φ).value] = [d.key, d.value].map (·.retext φ) := by cases d; rfl
    simp only [Initializer.retext, Initializer.exprs, retextEntries_eq, List.flatMap_map, List.map_flatMap, hentry]

theorem Expr.shallowChildren_retext (e : Expr) :
    (e.retext φ).shallowChildren = e.shallowChildren.map (·.retext φ) := by
  obtain ⟨span, kind⟩ := e
  cases kind with
  | interpolated parts =>
    simp only [retext, ExprKind.retext, shallowChildren, retextParts_eq, List.filterMap_map, List.map_filterMap]
    congr 1
    funext p
    cases p <;> rfl
  | invocation callee typeArgs args => simp [retext, ExprKind.retext, shallowChildren, Function.comp_def]
  | objectCreation type? args initializer? =>
    cases initializer? <;> simp [retext, ExprKind.retext, shallowChildren, Function.comp_def]
  | anonymousObject members => simp [retext, ExprKind.retext, shallowChildren, Function.comp_def]
  | arrayCreation elementType? size? elements =>
    cases size? <;> simp [retext, ExprKind.retext, shallowChildren]
  | switchExpr scrutinee arms =>
    simp [retext, ExprKind.retext, shallowChildren, List.flatMap_map, List.map_flatMap]
  | _ => rfl

theorem Expr.walkShallow_eq (e : Expr) : e.walkShallow = e :: e.shallowChildren.flatMap Expr.walkShallow := by
  rw [walkShallow]
  simp

theorem Expr.walkShallow_retext (e : Expr) : (e.retext φ).walkShallow = e.walkShallow.map (·.retext φ) := by
  have hinner : ∀ c ∈ e.shallowChildren, (c.retext φ).walkShallow = c.walkShallow.map (·.retext φ) :=
    fun c _ => walkShallow_retext c
  rw [walkShallow_eq, walkShallow_eq e, shallowChildren_retext, List.flatMap_map, List.map_cons, List.map_flatMap]
  congr 1
  simp only [List.flatMap]
  rw [List.map_congr_left hinner]
termination_by e.depth
decreasing_by exact Expr.depth_lt_of_mem_shallowChildren ‹_›

@[simp] theorem Expr.containsAwait_retext (e : Expr) : (e.retext φ).containsAwait = e.containsAwait := by
  simp [containsAwait, walkShallow_retext, Function.comp_def]

@[simp] theorem SwitchArm.containsAwait_retext (a : SwitchArm) : (a.retext φ).containsAwait = a.containsAwait := by
  simp [SwitchArm.containsAwait, Function.comp_def]

/-! ## Statements -/

@[simp] theorem Argument.declared?_retext (a : Argument) : (a.retext φ).declared? = a.declared? := by
  obtain ⟨⟨span, kind⟩, modifier?, declares, name?⟩ := a
  cases declares <;> cases kind <;> rfl

@[simp] theorem Expr.declaredHere_retext (e : Expr) : (e.retext φ).declaredHere = e.declaredHere := by
  obtain ⟨span, kind⟩ := e
  cases kind with
  | invocation callee typeArgs args =>
    have hdeclared : Argument.declared? ∘ (·.retext φ) = Argument.declared? := funext (Argument.declared?_retext φ)
    show (retextArguments φ args).filterMap Argument.declared? = args.filterMap Argument.declared?
    rw [retextArguments_eq, List.filterMap_map, hdeclared]
  | _ => rfl

namespace Stmt

theorem hoistRoots_retext (s : Stmt) : (s.retext φ).hoistRoots = s.hoistRoots.map (·.retext φ) := by
  obtain ⟨span, kind⟩ := s
  cases kind with
  | declaration type? ds isConst =>
    simp only [retext, StmtKind.retext, hoistRoots, retextDeclarators_eq, List.filterMap_map, List.map_filterMap]
    congr 1
    funext d
    obtain ⟨name, init?⟩ := d
    cases init? <;> rfl
  | returns value? => cases value? <;> rfl
  | _ => rfl

@[simp] theorem hoisted_retext (s : Stmt) : (s.retext φ).hoisted = s.hoisted := by
  simp only [hoisted, hoistRoots_retext, Expr.walkShallow_retext, List.flatMap_map, Expr.declaredHere_retext]

@[simp] theorem isBranch_retext (s : Stmt) : (s.retext φ).isBranch = s.isBranch := by
  obtain ⟨span, kind⟩ := s
  cases kind <;> rfl

end Stmt

@[simp] theorem Converter.localFunctions_retext (ss : List Stmt) :
    localFunctions (ss.map (·.retext φ)) = localFunctions ss := by
  unfold localFunctions
  rw [List.filterMap_map]
  congr 1
  funext s
  obtain ⟨span, kind⟩ := s
  cases kind <;> rfl

@[simp] theorem SwitchLabel.isDirect_retext (l : SwitchLabel) : (l.retext φ).isDirect = l.isDirect := by
  cases l with
  | pattern pattern guard? => cases pattern <;> cases guard? <;> rfl
  | _ => rfl

@[simp] theorem CatchClause.errorType?_retext (c : CatchClause) : (c.retext φ).errorType? = c.errorType? := by
  cases c; rfl

@[simp] theorem CatchClause.isCatchAll_retext (c : CatchClause) : (c.retext φ).isCatchAll = c.isCatchAll := by
  obtain ⟨type?, name?, filter?, body⟩ := c
  cases filter? <;> rfl

/-! ## What both models say -/

/-- The models of the two runs say the same about all expressions of the node. -/
def Runs.Knows (P : Runs) (x : Node) : Prop :=
  ∀ b e, Within [([], x)] b (.expr e) →
    P.k.model.symbolOf e = P.k'.model.symbolOf e ∧ P.k.model.typeOf e = P.k'.model.typeOf e

theorem Runs.knows_self (k : Converter) (φ : Retexting) (again : Node → Prop) {x : Node} :
    (Runs.self k φ again).Knows x := fun _ _ _ => ⟨rfl, rfl⟩

namespace Runs.Knows

variable {P : Runs} {x y : Node} {b : Scopes} {e receiver : Expr} {s s' : Session}

theorem inner (h : P.Knows x) (hy : (b, y) ∈ x.parts) : P.Knows y :=
  fun c e he => h (c ++ b) e (Within.enter (.here hy) he)

theorem symbolOf (h : P.Knows (.expr e)) : P.k'.model.symbolOf (e.retext P.φ) = P.k.model.symbolOf e := by
  rw [(h [] e (.self _)).1]
  simp only [Model.symbolOf, Expr.retext_span]

theorem typeOf (h : P.Knows (.expr e)) : P.k'.model.typeOf (e.retext P.φ) = P.k.model.typeOf e := by
  rw [(h [] e (.self _)).2]
  simp only [Model.typeOf, Model.symbolOf, Expr.retext_span]

theorem category (h : P.Knows (.expr e)) : P.k'.model.category (e.retext P.φ) = P.k.model.category e := by
  simp only [Model.category, h.typeOf]

theorem declaringCategory (h : P.Knows (.expr e)) :
    P.k'.model.declaringCategory (e.retext P.φ) = P.k.model.declaringCategory e := by
  have hown := h.symbolOf
  obtain ⟨span, kind⟩ := e
  unfold Model.declaringCategory Model.declaringType
  rw [hown]
  cases kind with
  | invocation callee typeArgs args =>
    have hcallee : P.Knows (.expr callee) := h.inner (List.mem_cons_self ..)
    simp only [Expr.retext, ExprKind.retext, hcallee.symbolOf]
  | _ => rfl

theorem declaredIn (h : P.Knows (.expr e)) (c : Category) :
    P.k'.model.declaredIn (e.retext P.φ) c = P.k.model.declaredIn e c := by
  simp only [Model.declaredIn, h.declaringCategory]

theorem isTypeName (h : P.Knows (.expr e)) (hs : s.isBound = s'.isBound) (types : List String) :
    P.k'.isTypeName s' types (e.retext P.φ) = P.k.isTypeName s types e := by
  unfold Env.isTypeName
  rw [h.symbolOf, ← hs]
  obtain ⟨span, kind⟩ := e
  cases kind <;> rfl

theorem isMemberOf (h : P.Knows (.expr e)) (hr : P.Knows (.expr receiver)) (hs : s.isBound = s'.isBound) (c : Category)
    (types : List String) :
    P.k'.isMemberOf s' c types (receiver.retext P.φ) (e.retext P.φ) = P.k.isMemberOf s c types receiver e := by
  simp only [Env.isMemberOf, h.declaredIn, hr.isTypeName hs]

theorem isStaticReceiver (h : P.Knows (.expr e)) (hs : s.isBound = s'.isBound) :
    P.k'.isStaticReceiver s' (e.retext P.φ) = P.k.isStaticReceiver s e := by
  unfold Env.isStaticReceiver
  rw [h.symbolOf, ← hs, P.settings]
  obtain ⟨span, kind⟩ := e
  cases kind <;> rfl

theorem receiverCategory {call : Call} (h : P.Knows (.expr e)) (hr : ∀ r ∈ call.receiver?, P.Knows (.expr r)) :
    P.k'.receiverCategory (call.retext P.φ) (e.retext P.φ) = P.k.receiverCategory call e := by
  unfold Env.receiverCategory
  rw [h.declaringCategory, Call.retext_receiver]
  cases hc : call.receiver? with
  | none => rfl
  | some r => simp only [Option.map_some, Option.bind_some, (hr r hc).category]

theorem isCapacity (h : P.Knows (.expr e)) : P.k'.isCapacity (e.retext P.φ) = P.k.isCapacity e := by
  simp only [Env.isCapacity, Expr.isNumber_retext, h.category]

end Runs.Knows

end ComponentScript
