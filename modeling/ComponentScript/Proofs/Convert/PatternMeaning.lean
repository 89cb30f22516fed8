/-
  ComponentScript.Proofs.Convert.PatternMeaning — pattern tests mean the pattern.

  `patternTest_means`: the test of a pattern, read by the precedence of its operators, is a
  boolean formula over comparisons that has the value of the pattern, whatever is known of the
  comparisons. Parentheses stand around `or` and under `not` only. They suffice because every
  other test is a chain of units with `&&` between them (`Chain`), which may stand wherever a
  test is put.

  The constants in the pattern are literals and dotted names. Their texts are operands: the
  rules that apply to members give names, calls or parentheses (`constant_gives`).
-/

import ComponentScript.Proofs.Convert.Rounds
import ComponentScript.Proofs.Convert.SubjectUses
import ComponentScript.Proofs.Script.Operands
import ComponentScript.Syntax.Build

namespace ComponentScript

open Text Script

/-! ## The value of a pattern -/

/-- What tells whether the subject is of a type. -/
def TypeRef.comparison (type : TypeRef) (subject : String) : Comparison :=
  match Category.ofName type.simpleName with
  | .string => ⟨"typeof " ++ subject, "===", "\"string\""⟩
  | .number => ⟨"typeof " ++ subject, "===", "\"number\""⟩
  | .bool => ⟨"typeof " ++ subject, "===", "\"boolean\""⟩
  | _ =>
    if type.simpleName = "object" || type.simpleName = "Object" then ⟨subject, "!=", "null"⟩
    else ⟨subject, "instanceof", type.simpleName⟩

section

variable (text : Expr → String) (v : Valuation)

mutual
/-- The value of a pattern when `v` is known of the comparisons and `text` is how constants
    are written. -/
def Pattern.value (subject : String) : Pattern → Bool
  | .discard => true
  | .constant e => v (if e.isNull then ⟨subject, "==", "null"⟩ else ⟨subject, "===", text e⟩)
  | .relational op e => v ⟨subject, op.symbol, text e⟩
  | .type type => v (type.comparison subject)
  | .property type? subpatterns =>
    if type?.isNone && subpatterns.all (·.pattern.isDiscard) then v ⟨subject, "!=", "null"⟩
    else type?.all (fun type => v (type.comparison subject)) && valueOfAll subject subpatterns
  | .not pattern => if pattern.isNull then v ⟨subject, "!=", "null"⟩ else !pattern.value subject
  | .and left right => left.value subject && right.value subject
  | .or left right => left.value subject || right.value subject
def Subpattern.value (subject : String) : Subpattern → Bool
  | ⟨name, pattern⟩ => pattern.value (memberPath subject name)
def valueOfAll (subject : String) : List Subpattern → Bool
  | [] => true
  | p :: ps => p.value subject && valueOfAll subject ps
end

end

/-! ## Patterns over literals and names -/

/-- A name, or members of one. -/
def Expr.isDottedName : Expr → Bool
  | ⟨_, .identifier name⟩ => isIdentifier name
  | ⟨_, .this⟩ => true
  | ⟨_, .member receiver name⟩ => isDottedName receiver && isIdentifier name
  | _ => false

def Expr.isConstant (e : Expr) : Bool :=
  match e.kind with
  | .literal (.number text) => isNumberText text
  | .literal _ => true
  | _ => e.isDottedName

def BinaryOp.isOrder (op : BinaryOp) : Bool := op = .lt || op = .le || op = .gt || op = .ge

mutual
/-- Relations are orders, constants are literals or dotted names, and types and members have
    names. -/
def Pattern.isSimple : Pattern → Bool
  | .discard => true
  | .constant e => e.isConstant
  | .relational op e => op.isOrder && e.isConstant
  | .type type => isIdentifier type.simpleName
  | .property type? subpatterns => type?.all (fun type => isIdentifier type.simpleName) && areSimple subpatterns
  | .not pattern => pattern.isSimple
  | .and left right => left.isSimple && right.isSimple
  | .or left right => left.isSimple && right.isSimple
def Subpattern.isSimple : Subpattern → Bool
  | ⟨name, pattern⟩ => isDottedPath name && pattern.isSimple
def areSimple : List Subpattern → Bool
  | [] => true
  | p :: ps => p.isSimple && areSimple ps
end

/-! ## Steps that give an operand -/

/-- The step gives an operand and leaves the session as it is. -/
def Emit.GivesOperand (m : Emit String) (s : Session) : Prop := ∃ t, m.out s = (t, s) ∧ IsOperand t

namespace Emit.GivesOperand

variable {m : Emit String} {s : Session} {k : Converter} {e : Expr}

theorem pure {t : String} (h : IsOperand t) : GivesOperand (Pure.pure t) s := ⟨t, rfl, h⟩

theorem map {f : String → String} (hm : GivesOperand m s) (hf : ∀ t, IsOperand t → IsOperand (f t)) :
    GivesOperand (do return f (← m)) s := by
  obtain ⟨t, hout, ht⟩ := hm
  refine ⟨f t, ?_, hf t ht⟩
  rw [out_bind, hout, out_pure]

theorem operand (h : GivesOperand (k.expr e) s) : GivesOperand (k.operand e) s := h.map fun _ ht => ht.operand

end Emit.GivesOperand

/-! ## Constants -/

namespace Rules

open Emit

variable {k : Converter} {s : Session} {span : Span} {receiver : Expr} {name : String}

theorem mathConstant_isOperand (h : Bare name) : IsOperand (mathConstant name) := by
  unfold mathConstant
  split
  · decide
  · decide
  · decide
  · exact IsOperand.append_bare (by decide) h.camelCase

theorem collectionProperty_isOperand {target : String} (h : IsOperand target) (name : String)
    (category? : Option Category) : IsOperand (collectionProperty target name category?) := by
  have hkeys : IsOperand ("Object.keys(" ++ target ++ ")") :=
    IsOperand.call (t := "Object.keys") (by decide) h.closed rfl
  have hvalues : IsOperand ("Object.values(" ++ target ++ ")") :=
    IsOperand.call (t := "Object.values") (by decide) h.closed rfl
  have hlength := hkeys.append_bare (u := ".length") (by decide)
  rw [String.append_assoc] at hlength
  unfold collectionProperty
  split
  · exact hkeys
  · exact hvalues
  · exact hlength
  · exact h.append_bare (u := ".size") (by decide)
  · exact h.append_bare (u := ".length") (by decide)

/-- A rule that applies to a member gives an operand if the receiver is one. -/
theorem member_givesOperand (hname : Bare name) (hreceiver : GivesOperand (k.expr receiver) s) {r : Rule Expr}
    (hr : r ∈ builtinExprs) (h : r.applies k.toEnv s ⟨span, .member receiver name⟩ = true) :
    GivesOperand (r.convert k ⟨span, .member receiver name⟩) s := by
  simp only [builtinExprs, List.mem_cons, List.not_mem_nil, or_false] at hr
  rcases hr with rfl | rfl | rfl | rfl | rfl | rfl | rfl | rfl | rfl | rfl | rfl
  · cases h
  · exact .pure (by decide)
  · cases h
  · exact .pure (mathConstant_isOperand hname)
  · exact .pure (by decide)
  · cases h
  · exact hreceiver.operand.map fun t ht => collectionProperty_isOperand ht _ _
  · cases h
  · cases h
  · cases h
  · cases h

/-- No rule applies to what is neither a call, nor a member, nor a choice. -/
theorem not_applies_plain {env : Env} {s : Session} {e : Expr} (hcall : e.call? = none)
    (hmember : e.memberAccess? = none)
    (hswitch : switchExpression.applies env s e = false) {r : Rule Expr} (hr : r ∈ builtinExprs) :
    r.applies env s e = false := by
  simp only [builtinExprs, List.mem_cons, List.not_mem_nil, or_false] at hr
  rcases hr with rfl | rfl | rfl | rfl | rfl | rfl | rfl | rfl | rfl | rfl | rfl
  all_goals simp [consolePrint, taskHelpers, serviceLookup, numericHelpers, stringHelpers, mapLookup,
    collectionProperties, collectionMethods, materialize, sequenceQuery, hcall, hmember, hswitch]

end Rules

theorem Literal.script_isOperand {value : Literal} (h : ∀ text, value = .number text → isNumberText text = true) :
    IsOperand value.script := by
  cases value with
  | null => decide
  | bool b => cases b <;> decide
  | number text => exact isOperand_numeral (h text rfl)
  | string s => exact isOperand_quote s
  | char c => exact isOperand_quote _

theorem Env.identifier_isOperand {env : Env} (henv : isDottedPath env.settings.instanceReceiver = true) (s : Session)
    (e : Expr) {name : String} (h : isIdentifier name = true) : IsOperand (env.identifier s e name) := by
  have hname : IsOperand name := isOperand_of_isIdentifier h
  have hreceiver := isOperand_of_isDottedPath henv
  have hcamel := hreceiver.member (bare_of_isIdentifier h).camelCase
  unfold Env.identifier
  dsimp only
  split
  · exact hname
  split
  · split
    · exact hcamel
    · exact hname
  split
  · exact hname
  split
  · split
    · exact hreceiver.member (bare_of_isIdentifier h)
    split
    · exact hcamel
    · exact hname
  · exact hname

namespace Engine

variable {settings : Settings} {m : Model}

/-- What the rules that apply and the conversion for the kind give, the converter gives. -/
theorem givesOperand_of_rules {s : Session} {e : Expr}
    (hrules : ∀ r ∈ Rules.builtinExprs, r.applies (env { settings := settings } m) s e = true →
      (r.convert (converter { settings := settings } m) e).GivesOperand s)
    (hdefault : ((converter { settings := settings } m).defaultExpr none e).GivesOperand s) :
    ((converter { settings := settings } m).expr e).GivesOperand s := by
  unfold Emit.GivesOperand
  rw [Converter.expr, converter_exprAs (builtin_local settings), step_exprAs_out]
  cases hfind : RuleSet.find? _ _ s e with
  | none => exact hdefault
  | some r =>
    have happlies := List.find?_some (p := fun r : Rule Expr => r.applies _ s e) hfind
    exact hrules r (RuleSet.mem_ofList.mp (List.mem_of_find?_eq_some hfind)) happlies

/-- Without a rule that applies, the converter gives what the conversion for the kind gives. -/
theorem givesOperand_of_plain {s : Session} {e : Expr} (hcall : e.call? = none) (hmember : e.memberAccess? = none)
    (hswitch : Rules.switchExpression.applies (env { settings := settings } m) s e = false)
    (hdefault : ((converter { settings := settings } m).defaultExpr none e).GivesOperand s) :
    ((converter { settings := settings } m).expr e).GivesOperand s := by
  refine givesOperand_of_rules (fun r hr happlies => ?_) hdefault
  rw [Rules.not_applies_plain hcall hmember hswitch hr] at happlies
  cases happlies

variable (hreceiver : isDottedPath settings.instanceReceiver = true) {s : Session}

include hreceiver

theorem dottedName_gives : ∀ {e : Expr}, e.isDottedName = true →
    ((converter { settings := settings } m).expr e).GivesOperand s
  | ⟨span, .identifier name⟩, h => by
    have henv : isDottedPath (env { settings := settings } m).settings.instanceReceiver = true := hreceiver
    exact givesOperand_of_plain rfl rfl rfl ⟨_, rfl, Env.identifier_isOperand henv s _ h⟩
  | ⟨span, .this⟩, _ => givesOperand_of_plain rfl rfl rfl (.pure (isOperand_of_isDottedPath hreceiver))
  | ⟨span, .member receiver name⟩, h => by
    rw [Expr.isDottedName, Bool.and_eq_true] at h
    have hname := bare_of_isIdentifier h.2
    have hinner := dottedName_gives h.1
    refine givesOperand_of_rules (fun r hr happlies => Rules.member_givesOperand hname hinner hr happlies) ?_
    exact hinner.operand.map fun t ht => ht.member hname.camelCase

theorem constant_gives {e : Expr} (h : e.isConstant = true) :
    ((converter { settings := settings } m).expr e).GivesOperand s := by
  obtain ⟨span, kind⟩ := e
  cases kind with
  | literal value =>
    refine givesOperand_of_plain rfl rfl rfl (.pure (Literal.script_isOperand ?_))
    rintro text rfl
    exact h
  | _ => exact dottedName_gives hreceiver h

end Engine

/-! ## Tests -/

theorem typeTest_chain {subject : String} (hs : IsOperand subject) {type : TypeRef}
    (ht : isIdentifier type.simpleName = true) :
    Chain (typeTest subject type) fun v => v (type.comparison subject) := by
  have hprimitive : ∀ {r behind : String}, IsOperand r → behind = " " ++ "===" ++ " " ++ r →
      Chain ("typeof " ++ subject ++ behind) fun v => v ⟨"typeof " ++ subject, "===", r⟩ :=
    fun hr hb => .typeComparison hs (by decide) hr hb
  have hobject : ∀ {name : String}, isIdentifier name = true →
      Chain (if name = "object" || name = "Object" then subject ++ " != null" else subject ++ " instanceof " ++ name)
        fun v => v (if name = "object" || name = "Object" then ⟨subject, "!=", "null"⟩ else ⟨subject, "instanceof", name⟩) := by
    intro name hname
    split
    · exact .comparison hs (by decide) (by decide) rfl
    · rw [String.append_assoc]
      exact .comparison hs (by decide) (isOperand_of_isIdentifier hname) rfl
  unfold typeTest TypeRef.comparison
  dsimp only
  generalize Category.ofName type.simpleName = category
  cases category with
  | string => exact hprimitive (r := "\"string\"") (by decide) rfl
  | number => exact hprimitive (r := "\"number\"") (by decide) rfl
  | bool => exact hprimitive (r := "\"boolean\"") (by decide) rfl
  | _ => exact hobject ht

theorem notNull_chain {subject : String} (hs : IsOperand subject) :
    Chain (subject ++ " != null") fun v => v ⟨subject, "!=", "null"⟩ :=
  .comparison hs (by decide) (by decide) rfl

/-- The test of a type and the tests of members, without those that always hold. -/
theorem propertyTest_chain {subject : String} (hs : IsOperand subject) {type? : Option TypeRef}
    (htype : type?.all (fun type => isIdentifier type.simpleName) = true) {tests : List (String × (Valuation → Bool))}
    (htests : ∀ x ∈ tests, Chain x.1 x.2) {texts : List String}
    (htexts : texts = (type?.map (typeTest subject)).toList ++ (tests.map (·.1)).filter (· ≠ "true")) :
    Chain (if texts.isEmpty then subject ++ " != null" else " && ".intercalate texts) fun v =>
      if texts.isEmpty then v ⟨subject, "!=", "null"⟩
      else type?.all (fun type => v (type.comparison subject)) && tests.all (·.2 v) := by
  split
  · exact notNull_chain hs
  next hne =>
  let typed : List (String × (Valuation → Bool)) :=
    (type?.map fun type => (typeTest subject type, fun v => v (type.comparison subject))).toList
  have htyped : ∀ x ∈ typed, Chain x.1 x.2 := by
    intro x hx
    obtain ⟨type, rfl, rfl⟩ := Option.map_eq_some_iff.mp (Option.mem_toList.mp hx)
    rw [Option.all_some] at htype
    dsimp only
    exact typeTest_chain hs htype
  have hkept : ∀ x ∈ tests.filter (·.1 ≠ "true"), Chain x.1 x.2 := fun x hx => htests x (List.mem_filter.mp hx).1
  have hall : texts = (typed ++ tests.filter (·.1 ≠ "true")).map (·.1) := by
    have hmap : typed.map (·.1) = (type?.map (typeTest subject)).toList := by cases type? <;> simp [typed]
    rw [htexts, List.map_append, List.filter_map, hmap]
    rfl
  have hvalue : ∀ v, (typed ++ tests.filter (·.1 ≠ "true")).all (·.2 v) =
      (type?.all (fun type => v (type.comparison subject)) && tests.all (·.2 v)) := by
    intro v
    rw [List.all_append, Chain.all_filter htests]
    cases type? <;> simp [typed]
  have hsome : typed ++ tests.filter (·.1 ≠ "true") ≠ [] := by
    intro hnil
    exact hne (by rw [hall, hnil]; rfl)
  have hchain := Chain.all hsome (List.forall_mem_append.mpr ⟨htyped, hkept⟩)
  simpa only [hall, hvalue] using hchain

/-- The text of an expression in a session. -/
def Converter.textIn (k : Converter) (s : Session) (e : Expr) : String := ((k.expr e).out s).1

theorem BinaryOp.symbol_of_isOrder {op : BinaryOp} (h : op.isOrder = true) :
    op.symbol ∈ Formula.comparisonOperators := by
  cases op <;> first | decide | cases h

namespace Converter

variable {k : Converter} {s : Session}

/-- The converter gives operands for constants. -/
def GivesConstants (k : Converter) (s : Session) : Prop :=
  ∀ e : Expr, e.isConstant = true → (k.expr e).GivesOperand s

theorem GivesConstants.out (hk : k.GivesConstants s) {e : Expr} (h : e.isConstant = true) :
    (k.expr e).out s = (k.textIn s e, s) ∧ IsOperand (k.textIn s e) := by
  obtain ⟨t, hout, ht⟩ := hk e h
  rw [textIn, hout]
  exact ⟨rfl, ht⟩

mutual
theorem patternTest_chain (hk : k.GivesConstants s) : ∀ (p : Pattern) (subject : String),
    p.isSimple = true → IsOperand subject →
    ∃ t, (k.patternTest subject p).out s = (t, s) ∧ Chain t fun v => p.value (k.textIn s) v subject
  | .discard, subject => by
    intro _ _
    simp only [Pattern.value]
    exact ⟨"true", by rw [patternTest, Emit.out_pure], .truth⟩
  | .type type, subject => by
    intro hp hs
    rw [Pattern.isSimple] at hp
    refine ⟨typeTest subject type, by rw [patternTest, Emit.out_pure], ?_⟩
    simp only [Pattern.value]
    exact typeTest_chain hs hp
  | .constant e, subject => by
    intro hp hs
    obtain ⟨hout, ht⟩ := hk.out hp
    simp only [Pattern.value]
    by_cases hnull : e.isNull = true
    · simp only [hnull, if_true]
      refine ⟨subject ++ " == null", ?_, .comparison hs (by decide) (by decide) rfl⟩
      rw [patternTest, if_pos hnull]
      rfl
    · simp only [hnull]
      refine ⟨subject ++ (" === " ++ k.textIn s e), ?_, .comparison hs (by decide) ht rfl⟩
      rw [patternTest, if_neg hnull, Emit.out_bind, hout, Emit.out_pure, ← String.append_assoc]
      rfl
  | .relational op e, subject => by
    intro hp hs
    rw [Pattern.isSimple, Bool.and_eq_true] at hp
    obtain ⟨hout, ht⟩ := hk.out hp.2
    refine ⟨subject ++ (" " ++ op.symbol ++ " " ++ k.textIn s e), ?_,
      .comparison hs (BinaryOp.symbol_of_isOrder hp.1) ht rfl⟩
    rw [patternTest, Emit.out_bind, hout, Emit.out_pure]
    simp only [← String.append_assoc]
    rfl
  | .property type? subpatterns, subject => by
    intro hp hs
    rw [Pattern.isSimple, Bool.and_eq_true] at hp
    obtain ⟨tests, hout, htests, hvalue⟩ := memberTests_chain hk subpatterns subject hp.2 hs
    let texts := (type?.map (typeTest subject)).toList ++ (tests.map (·.1)).filter (· ≠ "true")
    have htexts : texts = (type?.map (typeTest subject)).toList ++ (tests.map (·.1)).filter (· ≠ "true") := rfl
    have hempty : texts.isEmpty = (type?.isNone && subpatterns.all (·.pattern.isDiscard)) := by
      have hnil := k.memberTests_eq_nil_iff subject subpatterns s
      rw [hout] at hnil
      rw [Bool.eq_iff_iff, List.isEmpty_iff, List.append_eq_nil_iff, hnil, Bool.and_eq_true]
      cases type? <;> simp
    have hchain := propertyTest_chain hs hp.1 htests htexts
    refine ⟨if texts.isEmpty then subject ++ " != null" else " && ".intercalate texts, ?_, ?_⟩
    · rw [patternTest, Emit.out_bind, hout]
      rfl
    · simpa only [hempty, hvalue, Pattern.value] using hchain
  | .not p, subject => by
    intro hp hs
    simp only [Pattern.value]
    by_cases hnull : p.isNull = true
    · simp only [hnull, if_true]
      refine ⟨subject ++ " != null", ?_, notNull_chain hs⟩
      rw [patternTest, if_pos hnull]
      rfl
    · simp only [hnull]
      obtain ⟨t, hout, ht⟩ := patternTest_chain hk p subject hp hs
      refine ⟨"!(" ++ t ++ ")", ?_, ht.not⟩
      rw [patternTest, if_neg hnull, Emit.out_bind, hout]
      rfl
  | .and l r, subject => by
    intro hp hs
    rw [Pattern.isSimple, Bool.and_eq_true] at hp
    obtain ⟨t, hl, ht⟩ := patternTest_chain hk l subject hp.1 hs
    obtain ⟨u, hr, hu⟩ := patternTest_chain hk r subject hp.2 hs
    refine ⟨t ++ " && " ++ u, ?_, ht.and hu⟩
    rw [patternTest, Emit.out_bind, hl, Emit.out_bind, hr]
    rfl
  | .or l r, subject => by
    intro hp hs
    rw [Pattern.isSimple, Bool.and_eq_true] at hp
    obtain ⟨t, hl, ht⟩ := patternTest_chain hk l subject hp.1 hs
    obtain ⟨u, hr, hu⟩ := patternTest_chain hk r subject hp.2 hs
    refine ⟨"(" ++ t ++ " || " ++ u ++ ")", ?_, ht.or hu⟩
    rw [patternTest, Emit.out_bind, hl, Emit.out_bind, hr]
    rfl
theorem memberTest_chain (hk : k.GivesConstants s) : ∀ (p : Subpattern) (subject : String),
    p.isSimple = true → IsOperand subject →
    ∃ t, (k.memberTest subject p).out s = (t, s) ∧ Chain t fun v => p.value (k.textIn s) v subject
  | ⟨name, p⟩, subject => by
    intro hp hs
    rw [Subpattern.isSimple, Bool.and_eq_true] at hp
    exact patternTest_chain hk p _ hp.2 (isOperand_memberPath hs hp.1)
theorem memberTests_chain (hk : k.GivesConstants s) : ∀ (ps : List Subpattern) (subject : String),
    areSimple ps = true → IsOperand subject →
    ∃ tests : List (String × (Valuation → Bool)), (k.memberTests subject ps).out s = (tests.map (·.1), s) ∧
      (∀ x ∈ tests, Chain x.1 x.2) ∧ ∀ v, tests.all (·.2 v) = valueOfAll (k.textIn s) v subject ps
  | [], _ => fun _ _ => ⟨[], rfl, List.forall_mem_nil _, fun _ => rfl⟩
  | p :: ps, subject => by
    intro hp hs
    rw [areSimple, Bool.and_eq_true] at hp
    obtain ⟨t, hout, ht⟩ := memberTest_chain hk p subject hp.1 hs
    obtain ⟨tests, houts, htests, hvalue⟩ := memberTests_chain hk ps subject hp.2 hs
    refine ⟨(t, fun v => p.value (k.textIn s) v subject) :: tests, ?_, List.forall_mem_cons.mpr ⟨ht, htests⟩,
      fun v => ?_⟩
    · rw [memberTests, Emit.out_bind, hout, Emit.out_bind, houts]
      rfl
    · rw [List.all_cons, hvalue, valueOfAll]
end

end Converter

/-- Pattern tests mean the pattern. With the built-in rules and an instance receiver that is a
    path, in any model and session: the test of a pattern over literals and dotted names, for a
    subject that is a path, leaves the session as it is. Read by the precedence of the
    operators its text is a formula that has the value of the pattern, whatever is known of the
    comparisons. -/
theorem patternTest_means (settings : Settings) (hreceiver : isDottedPath settings.instanceReceiver = true) (m : Model)
    (s : Session) (p : Pattern) (hp : p.isSimple = true) (subject : String) (hs : isDottedPath subject = true) :
    let k := ({ settings := settings } : Engine).converter m
    ∃ text f, (k.patternTest subject p).out s = (text, s) ∧ Formula.read text = some f ∧
      ∀ v, f.eval v = p.value (k.textIn s) v subject := by
  intro k
  have hk : k.GivesConstants s := fun e he => Engine.constant_gives hreceiver he
  obtain ⟨text, hout, hchain⟩ := Converter.patternTest_chain hk p subject hp (isOperand_of_isDottedPath hs)
  obtain ⟨f, hread, hvalue⟩ := hchain.read
  exact ⟨text, f, hout, hread, hvalue⟩

/-- A shape that is neither large nor at the limit, or whose owner has another name: a choice
    inside a conjunction under a negation, with operators in a literal. -/
theorem patternTest_means_shape :
    let size : Pattern := .or (.relational .gt (.number "5L")) (.constant (.member (.ident "Bounds") "Limit"))
    let name : Pattern := .and (.not (.constant .null)) (.constant (.string "a || b"))
    let p : Pattern := .not (.property (some (.named "Shape")) [⟨"Size", size⟩, ⟨"Tag", .discard⟩, ⟨"Owner.Name", name⟩])
    let k := ({} : Engine).converter .empty
    let text := "!(box.item instanceof Shape && (box.item.size > 5 || box.item.size === this.bounds.limit) && " ++
      "box.item.owner.name != null && box.item.owner.name === \"a || b\")"
    isDottedPath ({} : Settings).instanceReceiver = true ∧ p.isSimple = true ∧ isDottedPath "box.item" = true ∧
      (k.patternTest "box.item" p).out {} = (text, {}) ∧
      ∃ f, Formula.read text = some f ∧ ∀ v, f.eval v = p.value (k.textIn {}) v "box.item" := by
  intro size name p k text
  have hreceiver : isDottedPath ({} : Settings).instanceReceiver = true := by decide +kernel
  have hp : p.isSimple = true := by decide +kernel
  have hs : isDottedPath "box.item" = true := by decide +kernel
  obtain ⟨t, f, hout, hread, hvalue⟩ := patternTest_means {} hreceiver .empty {} p hp "box.item" hs
  have htext : (((({} : Engine).converter .empty).patternTest "box.item" p).out {}).1 = text := by
    rw [Engine.builtin_eq]
    decide +kernel
  have ht : t = text := (congrArg Prod.fst hout).symm.trans htext
  rw [ht] at hout hread
  exact ⟨hreceiver, hp, hs, hout, f, hread, hvalue⟩

end ComponentScript
