/-
  ComponentScript.Proofs.Convert.Choice — what a choice of values by patterns returns.

  `Choice` is the body of the function that such an expression becomes: a binding, returns
  with a condition, and one return without. `Converter.choice` gives it arm by arm: a branch
  for each arm before the first default, which is a discard without a guard, and the value of
  that default last. An arm is taken for the default by the text of its test, and only a
  discard has the text that counts (`patternTest_eq_true_iff`), so the arms are cut where the
  source says (`armLines_eq`).

  `switchExpr_returns` puts this together for a node: body, calls, session and names. Nothing
  behind the default has any part in it, but for the word `async` in front of the body.
-/

import ComponentScript.Proofs.Convert.FreshNames
import ComponentScript.Proofs.Convert.Restores
import ComponentScript.Proofs.Convert.SubjectUses

namespace ComponentScript

/-- Whether the arm is taken for every value. -/
def SwitchArm.isDefault (a : SwitchArm) : Bool := a.pattern.isDiscard && a.guard?.isNone

theorem SwitchArm.isDefault_iff {a : SwitchArm} : a.isDefault = true ↔ a.pattern = .discard ∧ a.guard? = none := by
  rw [isDefault, Bool.and_eq_true, Option.isNone_iff_eq_none]
  refine and_congr_left fun _ => ⟨Pattern.eq_discard, fun h => ?_⟩
  rw [h, Pattern.isDiscard]

namespace SwitchArm

/-- The arms up to the first default, with it. -/
def upToDefault (arms : List SwitchArm) : List SwitchArm :=
  arms.takeWhile (!·.isDefault) ++ (arms.find? (·.isDefault)).toList

variable (arms : List SwitchArm)

theorem takeWhile_upToDefault : (upToDefault arms).takeWhile (!·.isDefault) = arms.takeWhile (!·.isDefault) := by
  induction arms with
  | nil => rfl
  | cons arm arms ih => cases h : arm.isDefault <;> simp_all [upToDefault]

theorem find?_upToDefault : (upToDefault arms).find? (·.isDefault) = arms.find? (·.isDefault) := by
  induction arms with
  | nil => rfl
  | cons arm arms ih => cases h : arm.isDefault <;> simp_all [upToDefault]

end SwitchArm

/-! ## Bodies -/

structure Choice where
  /-- The name of the value that is looked at. -/
  subject : String
  scrutinee : String
  /-- Conditions and what is returned under them, the first that holds counts. -/
  branches : List (String × String)
  /-- What is returned if no condition holds. -/
  otherwise : String

namespace Choice

def returns (branches : List (String × String)) (otherwise : String) : List String :=
  branches.map (fun b => s!"if ({b.1}) return {b.2};") ++ [s!"return {otherwise};"]

def lines (c : Choice) : List String := s!"const {c.subject} = {c.scrutinee};" :: returns c.branches c.otherwise

def text (c : Choice) (indent : String) : String :=
  "\x7b\n" ++ Script.indentLines (Text.joinLines c.lines) indent ++ "\n\x7d"

/-- The function of the body, called. -/
def called (c : Choice) (indent : String) (isAsync : Bool) : String :=
  if isAsync then s!"await (async () => {c.text indent})()" else s!"(() => {c.text indent})()"

theorem lines_ne_empty (c : Choice) : ∀ line ∈ c.lines, line ≠ "" := by
  have hblank : ∀ line ∈ c.lines, HasBlank line := by
    simp only [lines, returns, List.forall_mem_cons, List.forall_mem_append, List.forall_mem_map]
    refine ⟨?_, fun b _ => ?_, ?_, List.forall_mem_nil _⟩
    · exact (((HasBlank.left (by decide) _).left _).left _).left _
    · exact (((HasBlank.left (by decide) _).left _).left _).left _
    · exact (HasBlank.left (by decide) _).left _
  rintro line hline rfl
  exact absurd (hblank "" hline) (by decide)

/-- All lines are kept when they are put in braces. -/
theorem block_lines (c : Choice) (indent : String) : Script.block c.lines indent = c.text indent := by
  have hfilter : c.lines.filter (· ≠ "") = c.lines :=
    List.filter_eq_self.mpr fun line hline => decide_eq_true (c.lines_ne_empty line hline)
  rw [Script.block, hfilter]
  rfl

end Choice

/-! ## Arms -/

namespace Converter

variable (k : Converter)

/-- The condition of an arm and its value. -/
def branch (subject : String) (arm : SwitchArm) : Emit (String × String) := do
  let test ← k.patternTest subject arm.pattern
  let guard? ← arm.guard?.mapM k.expr
  return (guarded test guard?, ← k.expr arm.value)

/-- The body for a subject of the given name. -/
def choiceOver (subject : String) (scrutinee : Expr) (arms : List SwitchArm) : Emit Choice := do
  let value ← k.expr scrutinee
  let branches ← (arms.takeWhile (!·.isDefault)).mapM (k.branch subject)
  let otherwise? ← (arms.find? (·.isDefault)).mapM fun arm => k.expr arm.value
  return ⟨subject, value, branches, otherwise?.getD "undefined"⟩

def choice (scrutinee : Expr) (arms : List SwitchArm) : Emit Choice := do
  k.choiceOver (← Emit.freshName "match") scrutinee arms

/-- A guard is left out exactly if there is none. -/
theorem guard_isNone (guard? : Option Expr) (σ : Session) :
    ((guard?.mapM k.expr).out σ).1.isNone = guard?.isNone := by
  cases guard? <;> rfl

theorem armLines_eq (subject : String) (arms : List SwitchArm) : k.armLines subject arms = (do
    let branches ← (arms.takeWhile (!·.isDefault)).mapM (k.branch subject)
    let otherwise? ← (arms.find? (·.isDefault)).mapM fun arm => k.expr arm.value
    return Choice.returns branches (otherwise?.getD "undefined")) := by
  induction arms with
  | nil => rfl
  | cons arm arms ih =>
    cases hdefault : arm.isDefault with
    | true =>
      obtain ⟨hpattern, hguard⟩ := SwitchArm.isDefault_iff.mp hdefault
      simp [armLines, hdefault, hpattern, hguard, patternTest, Choice.returns]
    | false =>
      have hcondition : ∀ σ τ, (decide (((k.patternTest subject arm.pattern).out σ).1 = "true") &&
          ((arm.guard?.mapM k.expr).out τ).1.isNone) = false := by
        intro σ τ
        rw [guard_isNone, ← hdefault, SwitchArm.isDefault, Bool.eq_iff_iff]
        simp only [Bool.and_eq_true, decide_eq_true_eq, patternTest_eq_true_iff]
      refine Emit.ext_out fun s => ?_
      simp only [armLines, ih, branch, List.takeWhile_cons, List.find?_cons, hdefault, Bool.not_false, if_true,
        List.mapM_cons, Emit.out_bind, Emit.out_pure, hcondition, Bool.false_eq_true, if_false]
      rfl

/-- The body in braces, as a function that is called. -/
theorem switchExpr_eq (scrutinee : Expr) (arms : List SwitchArm) : k.switchExpr scrutinee arms =
    (fun c => c.called k.indent (scrutinee.containsAwait || arms.any SwitchArm.containsAwait)) <$>
      k.choice scrutinee arms := by
  rw [switchExpr, choice, map_bind]
  refine bind_congr fun subject => ?_
  rw [choiceOver, map_bind]
  refine bind_congr fun value => ?_
  rw [armLines_eq, bind_assoc, map_bind]
  refine bind_congr fun branches => ?_
  rw [bind_assoc, map_bind]
  refine bind_congr fun otherwise? => ?_
  rw [pure_bind, map_pure, Choice.called, ← Choice.block_lines]
  rfl

/-- The arms behind the default do not matter. -/
theorem choice_upToDefault (scrutinee : Expr) (arms : List SwitchArm) :
    k.choice scrutinee (SwitchArm.upToDefault arms) = k.choice scrutinee arms := by
  simp only [choice, choiceOver, SwitchArm.takeWhile_upToDefault, SwitchArm.find?_upToDefault]

/-- The steps behind the name of the subject take other names. -/
theorem choiceOver_accounted {k : Converter} (hk : k.Accounted) (subject : String) (scrutinee : Expr)
    (arms : List SwitchArm) : (k.choiceOver subject scrutinee arms).Accounted := by
  have hbranch : ∀ arm, (k.branch subject arm).Accounted := by
    intro arm
    have htest := patternTest_calls (P := Runs.self k .same fun _ => True) arm.pattern subject
    have hguard := guard_calls (P := Runs.self k .same fun _ => True) arm.guard?
    refine (Calls.accounted hk htest).bind fun _ => (Calls.accounted hk hguard).bind fun _ => ?_
    exact (hk.exprAs none arm.value).bind fun _ => .pure _
  refine (hk.exprAs none scrutinee).bind fun _ => (Emit.Accounted.mapM fun arm _ => hbranch arm).bind fun _ => ?_
  refine Emit.Accounted.bind ?_ fun _ => .pure _
  cases arms.find? (·.isDefault) with
  | none => exact .pure none
  | some arm => exact (hk.exprAs none arm.value).bind fun _ => .pure _

theorem Steady.branch {k : Converter} (hk : k.Steady) (subject : String) (arm : SwitchArm) :
    (k.branch subject arm).Restores := by
  refine (hk.entryPoints.patternTest subject arm.pattern).bind fun _ => ?_
  refine (Emit.Restores.optionMapM fun e => hk.entryPoints.exprAs none e).bind fun _ => ?_
  exact (hk.entryPoints.exprAs none arm.value).bind fun _ => .pure _

section Steady

variable {k : Converter} (hk : k.Steady) (subject : String) (scrutinee : Expr) (arms : List SwitchArm) (s : Session)
include hk

/-- Branches are the arms before the default, one for one. -/
theorem choiceOver_branches : List.Forall₂ (fun arm b => ∃ σ, s.Continues σ ∧ b = ((k.branch subject arm).out σ).1)
    (arms.takeWhile (!·.isDefault)) ((k.choiceOver subject scrutinee arms).out s).1.branches := by
  have hscrutinee := hk.entryPoints.exprAs none scrutinee s
  refine (Emit.Restores.mapM_each (hk.branch subject) _ ((k.expr scrutinee).out s).2).imp fun arm b h => ?_
  obtain ⟨σ, hσ, hb⟩ := h
  exact ⟨σ, hscrutinee.trans hσ, hb⟩

/-- What is returned last is the value of the default. -/
theorem choiceOver_otherwise : (arms.find? (·.isDefault)).elim
    (((k.choiceOver subject scrutinee arms).out s).1.otherwise = "undefined") fun arm =>
      ∃ σ, s.Continues σ ∧ ((k.choiceOver subject scrutinee arms).out s).1.otherwise =
        ((k.expr arm.value).out σ).1 := by
  have hscrutinee := hk.entryPoints.exprAs none scrutinee s
  have hbranches := Emit.Restores.mapM (hk.branch subject) (arms.takeWhile (!·.isDefault))
    ((k.expr scrutinee).out s).2
  rw [choiceOver]
  cases arms.find? (·.isDefault) with
  | none => rfl
  | some arm => exact ⟨_, hscrutinee.trans hbranches, rfl⟩

end Steady

end Converter

/-! ## Nodes -/

namespace Engine

variable (settings : Settings) (m : Model)

/-- The rule for choices and the conversion for their kind are the same. -/
theorem exprAs_switchExpr (expected? : Option TypeRef) (span : Span) (scrutinee : Expr) (arms : List SwitchArm) :
    (converter { settings := settings } m).exprAs expected? ⟨span, .switchExpr scrutinee arms⟩ =
      (converter { settings := settings } m).switchExpr scrutinee arms := by
  refine Emit.ext_out fun s => ?_
  rw [converter_exprAs (builtin_local settings), step_exprAs_out]
  cases hfind : RuleSet.find? _ _ s _ with
  | none => rfl
  | some r =>
    have happlies := List.find?_some (p := fun r : Rule Expr => r.applies _ s _) hfind
    have hr := RuleSet.mem_ofList.mp (List.mem_of_find?_eq_some hfind)
    simp only [Rules.builtinExprs, List.mem_cons, List.not_mem_nil, or_false] at hr
    rcases hr with rfl | rfl | rfl | rfl | rfl | rfl | rfl | rfl | rfl | rfl | rfl
    all_goals first | rfl | cases happlies

end Engine

/-- A choice of values by patterns is a function that binds the scrutinee to a name of its own
    and returns: under a condition for each arm before the default, then the default's value
    without one, or `undefined`. The arms behind the default are as good as not there, and no
    pattern but a discard goes without a test. -/
theorem switchExpr_returns (settings : Settings) (m : Model) (expected? : Option TypeRef) (span : Span)
    (scrutinee : Expr) (arms : List SwitchArm) (s : Session) :
    let k := Engine.converter { settings := settings } m
    let c := ((k.choice scrutinee arms).out s).1
    (k.exprAs expected? ⟨span, .switchExpr scrutinee arms⟩).out s =
      (c.called settings.indent (scrutinee.containsAwait || arms.any SwitchArm.containsAwait),
        ((k.choice scrutinee arms).out s).2) ∧
    c.subject = Synthetic.name ⟨"match", s.counter⟩ ∧
    (∃ ns, (k.choiceOver c.subject scrutinee arms).Takes { s with counter := s.counter + 1 } ns ∧
      c.subject ∉ ns.map Synthetic.name) ∧
    c.scrutinee = ((k.expr scrutinee).out { s with counter := s.counter + 1 }).1 ∧
    List.Forall₂ (fun arm b => ∃ σ, s.Continues σ ∧ b = ((k.branch c.subject arm).out σ).1)
      (arms.takeWhile (!·.isDefault)) c.branches ∧
    ((arms.find? (·.isDefault)).elim (c.otherwise = "undefined") fun arm =>
      ∃ σ, s.Continues σ ∧ c.otherwise = ((k.expr arm.value).out σ).1) ∧
    k.choice scrutinee (SwitchArm.upToDefault arms) = k.choice scrutinee arms ∧
    ∀ subject p σ, ((k.patternTest subject p).out σ).1 = "true" ↔ p = .discard := by
  intro k c
  have hk : k.Steady := Engine.converter_steady (Engine.builtin_admissible settings) m
  have hnext : s.Continues { s with counter := s.counter + 1 } := Emit.Restores.freshName "match" s
  refine ⟨?_, rfl, ?_, rfl, ?_, ?_, k.choice_upToDefault scrutinee arms, fun subject p σ => ?_⟩
  · rw [Engine.exprAs_switchExpr, Converter.switchExpr_eq]
    rfl
  · have haccounted := Engine.converter_accounted (Engine.builtin_accounted settings) m
    obtain ⟨ns, htakes, hreadable⟩ := Converter.choiceOver_accounted haccounted c.subject scrutinee arms
      { s with counter := s.counter + 1 }
    refine ⟨ns, htakes, ?_⟩
    have hmatch : Script.endsInDigit "match" = false := by decide
    have hall : Emit.Takes (k.choice scrutinee arms) s (⟨"match", s.counter⟩ :: ns) :=
      .bind (.freshName "match" s) htakes
    exact (List.nodup_cons.mp (hall.nodup (List.forall_mem_cons.mpr ⟨hmatch, hreadable⟩))).1
  · refine (Converter.choiceOver_branches hk c.subject scrutinee arms _).imp fun arm b h => ?_
    obtain ⟨σ, hσ, hb⟩ := h
    exact ⟨σ, hnext.trans hσ, hb⟩
  · have hotherwise := Converter.choiceOver_otherwise hk c.subject scrutinee arms { s with counter := s.counter + 1 }
    revert hotherwise
    cases arms.find? (·.isDefault) with
    | none => exact id
    | some arm =>
      rintro ⟨σ, hσ, hvalue⟩
      exact ⟨σ, hnext.trans hσ, hvalue⟩
  · rw [Converter.patternTest_eq_true_iff]
    exact ⟨Pattern.eq_discard, fun h => by rw [h, Pattern.isDiscard]⟩

end ComponentScript
