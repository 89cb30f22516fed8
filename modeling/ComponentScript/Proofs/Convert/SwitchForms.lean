/-
  ComponentScript.Proofs.Convert.SwitchForms — the two forms of a statement that chooses by
  labels.

  Where all labels are constants or none, they stay labels. One real pattern more, and all of
  them become tests under `switch (true)`. `switch_forms_choose` tells for both forms which
  section a value goes to, and that it is the same section under `SwitchForms.Agree`. What
  keeps the forms apart is what that asks:

  - a pattern for null takes `undefined` only as a test;
  - a discard is a default as a label, which waits for all other labels, and as a test it takes
    every value where it stands;
  - a constant on bits, such as `a | b`, falls apart behind `===`, and its test never holds;
  - a constant that is looser still, such as `a ?? b`, falls apart into another test.
-/

import ComponentScript.Proofs.Convert.FreshNames
import ComponentScript.Proofs.Convert.Restores
import ComponentScript.Proofs.Script.Operands
import ComponentScript.Proofs.Script.Selection
import ComponentScript.Syntax.Build

namespace ComponentScript

open Script

/-! ## Labels and values -/

namespace SwitchLabel

/-- The constant of a label that stays one. -/
def constant? : SwitchLabel → Option Expr
  | .constant value | .pattern (.constant value) none => some value
  | _ => none

def isOtherwise : SwitchLabel → Bool
  | .otherwise => true
  | _ => false

def isDiscard : SwitchLabel → Bool
  | .pattern .discard none => true
  | _ => false

def isNullPattern : SwitchLabel → Bool
  | .pattern (.constant value) none => value.isNull
  | _ => false

variable {D : Values} (constant : Expr → D.Value) (shape : Expr → Binding) (v : D.Value)

/-- Whether the label, as a label, takes the value. -/
def takesEqual (l : SwitchLabel) : Bool := l.constant?.any fun e => D.strictEq v (constant e)

/-- Whether the label, as a test, takes the value. -/
def takesTested (l : SwitchLabel) : Bool :=
  if l.isDiscard then true
  else if l.isNullPattern then D.strictEq v D.null || D.strictEq v D.undefined
  else l.constant?.any fun e => decide (shape e = .tight) && D.strictEq v (constant e)

/-- Only a discard and the word itself are defaults. -/
theorem isOtherwise_eq {l : SwitchLabel} (hl : l.isDirect = true) (hd : l.isDiscard = false) :
    l.isOtherwise = l.constant?.isNone := by
  unfold isDirect at hl
  split at hl
  · rfl
  · rfl
  · rfl
  · cases hd
  · cases hl

theorem isNone_of_isDiscard {l : SwitchLabel} (hd : l.isDiscard = true) : l.constant?.isNone = true := by
  unfold isDiscard at hd
  split at hd
  · rfl
  · cases hd

theorem constant?_of_isNullPattern {l : SwitchLabel} (h : l.isNullPattern = true) :
    ∃ e, l.constant? = some e ∧ e.isNull = true := by
  unfold isNullPattern at h
  split at h
  · exact ⟨_, rfl, h⟩
  · cases h

end SwitchLabel

namespace SwitchForms

/-- The labels of each section. -/
def labels (sections : List SwitchSection) : List (List SwitchLabel) := sections.map (·.labels)

/-- The section for a value where labels stay labels. -/
def chosenEqual {D : Values} (constant : Expr → D.Value) (v : D.Value) (sections : List SwitchSection) : Option Nat :=
  chosen (SwitchLabel.takesEqual constant v) (·.constant?.isNone) (labels sections)

/-- The section for a value where labels are tests. -/
def chosenTested {D : Values} (constant : Expr → D.Value) (shape : Expr → Binding) (v : D.Value)
    (sections : List SwitchSection) : Option Nat :=
  chosen (SwitchLabel.takesTested constant shape v) SwitchLabel.isOtherwise (labels sections)

/-- No constant is looser than the operations on bits. -/
def Firm (shape : Expr → Binding) (sections : List SwitchSection) : Prop :=
  ∀ ls ∈ labels sections, ∀ l ∈ ls, ∀ e ∈ l.constant?, shape e ≠ .loose

/-- The two forms have the same idea of the labels, for the value `v`. -/
structure Agree {D : Values} (constant : Expr → D.Value) (shape : Expr → Binding) (v : D.Value)
    (sections : List SwitchSection) : Prop where
  firm : Firm shape sections
  null : v = D.undefined → ∀ ls ∈ labels sections, ∀ l ∈ ls, l.isNullPattern = false
  bits : ∀ ls ∈ labels sections, ∀ l ∈ ls, ∀ e ∈ l.constant?, shape e = .bitwise → D.strictEq v (constant e) = false
  behind : (labels sections).Pairwise fun ls ls' =>
    ls.any SwitchLabel.isDiscard = true → ls'.any (SwitchLabel.takesEqual constant v) = false
  /-- One default is all that a `switch` can have. -/
  single : (labels sections).flatten.countP (·.constant?.isNone) ≤ 1

theorem front_of_single {ls : List (List SwitchLabel)} (h : ls.flatten.countP (·.constant?.isNone) ≤ 1) :
    ls.Pairwise fun a b => a.any (·.constant?.isNone) = true → b.any SwitchLabel.isDiscard = false := by
  induction ls with
  | nil => exact .nil
  | cons a ls ih =>
    rw [List.flatten_cons, List.countP_append] at h
    refine List.pairwise_cons.mpr ⟨fun b hb ha => ?_, ih (by omega)⟩
    have hone : 0 < a.countP (·.constant?.isNone) := List.countP_pos_iff.mpr (by simpa using ha)
    have hrest : ls.flatten.countP (·.constant?.isNone) = 0 := by omega
    refine List.any_eq_false.mpr fun l hl hd => ?_
    exact List.countP_eq_zero.mp hrest l (List.mem_flatten.mpr ⟨b, hb, hl⟩) (SwitchLabel.isNone_of_isDiscard hd)

section

variable {D : Values} {constant : Expr → D.Value} {shape : Expr → Binding} {v : D.Value} {sections : List SwitchSection}

/-- Under the conditions, a label that is no discard takes the value in both forms or in none. -/
theorem Agree.takesTested_eq (h : Agree constant shape v sections) {ls : List SwitchLabel} (hls : ls ∈ labels sections)
    {l : SwitchLabel} (hl : l ∈ ls) (hnull : ∀ e ∈ l.constant?, e.isNull = true → constant e = D.null)
    (hd : l.isDiscard = false) : l.takesTested constant shape v = l.takesEqual constant v := by
  rw [SwitchLabel.takesTested, if_neg (Bool.eq_false_iff.mp hd)]
  split
  · next hpattern =>
    obtain ⟨e, he, hise⟩ := SwitchLabel.constant?_of_isNullPattern hpattern
    have hdefined : v ≠ D.undefined := fun hv => Bool.eq_false_iff.mp (h.null hv ls hls l hl) hpattern
    have hundefined : D.strictEq v D.undefined = false :=
      Bool.eq_false_iff.mpr fun heq => hdefined ((D.strictEq_undefined v).mp heq)
    rw [SwitchLabel.takesEqual, he, Option.any_some, hnull e he hise, hundefined, Bool.or_false]
  · rw [SwitchLabel.takesEqual]
    cases he : l.constant? with
    | none => rfl
    | some e =>
      rw [Option.any_some, Option.any_some]
      cases hb : shape e with
      | tight => exact Bool.true_and _
      | bitwise => rw [h.bits ls hls l hl e he hb, Bool.and_false]
      | loose => exact absurd hb (h.firm ls hls l hl e he)

theorem Agree.chosen_eq (h : Agree constant shape v sections)
    (hdirect : ∀ ls ∈ labels sections, ∀ l ∈ ls, l.isDirect = true)
    (hnull : ∀ ls ∈ labels sections, ∀ l ∈ ls, ∀ e ∈ l.constant?, e.isNull = true → constant e = D.null) :
    chosenEqual constant v sections = chosenTested constant shape v sections := by
  refine chosen_moved SwitchLabel.isDiscard (fun l hl => ⟨SwitchLabel.isNone_of_isDiscard hl, ?_⟩)
    (fun ls hls l hl hd => ⟨h.takesTested_eq hls hl (hnull ls hls l hl) hd, ?_⟩) h.behind (front_of_single h.single)
  · rw [SwitchLabel.takesTested, if_pos hl]
  · exact SwitchLabel.isOtherwise_eq (hdirect ls hls l hl) hd

end

end SwitchForms

/-! ## Texts of labels -/

/-- What is known of the constants of labels: wherever it is written in the statement, the text
    has the value of the constant, and it holds together behind `===` the same way. -/
structure Converter.ReadsConstants (k : Converter) (s : Session) {D : Values} (value : String → D.Value)
    (constant : Expr → D.Value) (shape : Expr → Binding) (sections : List SwitchSection) : Prop where
  null : value "null" = D.null
  value : ∀ ls ∈ SwitchForms.labels sections, ∀ l ∈ ls, ∀ e ∈ l.constant?, ∀ σ, s.Continues σ →
    value ((k.expr e).out σ).1 = constant e
  binding : ∀ ls ∈ SwitchForms.labels sections, ∀ l ∈ ls, ∀ e ∈ l.constant?, ∀ σ, s.Continues σ →
    binding ((k.expr e).out σ).1 = shape e

theorem Converter.ReadsConstants.continues {k : Converter} {s t : Session} {D : Values} {value : String → D.Value}
    {constant : Expr → D.Value} {shape : Expr → Binding} {sections : List SwitchSection}
    (h : k.ReadsConstants s value constant shape sections) (hst : s.Continues t) :
    k.ReadsConstants t value constant shape sections where
  null := h.null
  value ls hls l hl e he σ hσ := h.value ls hls l hl e he σ (hst.trans hσ)
  binding ls hls l hl e he σ hσ := h.binding ls hls l hl e he σ (hst.trans hσ)

namespace Converter

variable (k : Converter)

/-- Labels and lines of the sections. -/
def selected (label : SwitchLabel → Emit (Option String)) (sections : List SwitchSection) :
    Emit (List (List (Option String) × List String)) :=
  sections.mapM fun x => do
    let labels ← x.labels.mapM label
    let statements ← k.statements x.statements
    return (labels, (statements.filter (· ≠ "")).map fun text => Script.indentLines text k.indent)

theorem sectionsBlock_eq (label : SwitchLabel → Emit (Option String)) (sections : List SwitchSection) :
    k.sectionsBlock label sections =
      (fun ys => Script.block (ys.flatMap fun y => y.1.map labelLine ++ y.2) k.indent) <$>
        k.selected label sections := by
  have hlines : sections.mapM (k.sectionLines label) =
      (List.map fun y : List (Option String) × List String => y.1.map labelLine ++ y.2) <$>
        k.selected label sections := by
    rw [selected]
    induction sections with
    | nil => rfl
    | cons x sections ih =>
      simp only [List.mapM_cons, ih, sectionLines, map_bind, bind_assoc, pure_bind, map_pure, bind_map_left,
        List.map_cons]
  rw [sectionsBlock, hlines, bind_map_left]
  rfl

theorem selected_labels {k : Converter} (hk : k.Steady) {label : SwitchLabel → Emit (Option String)}
    (hlabel : ∀ l, (label l).Restores) (sections : List SwitchSection) (s : Session) :
    List.Forall₂ (List.Forall₂ fun l t => ∃ σ, s.Continues σ ∧ t = ((label l).out σ).1)
      (SwitchForms.labels sections) (((k.selected label sections).out s).1.map (·.1)) := by
  have hsection : ∀ x : SwitchSection, (do
      let labels ← x.labels.mapM label
      let statements ← k.statements x.statements
      return (labels, (statements.filter (· ≠ "")).map fun text => Script.indentLines text k.indent) :
        Emit (List (Option String) × List String)).Restores :=
    fun x => (Emit.Restores.mapM hlabel x.labels).bind fun _ => (hk.entryPoints.statements _).bind fun _ => .pure _
  rw [SwitchForms.labels, List.forall₂_map_left_iff, List.forall₂_map_right_iff]
  refine (Emit.Restores.mapM_each hsection sections s).imp fun x y h => ?_
  obtain ⟨σ, hσ, rfl⟩ := h
  refine (Emit.Restores.mapM_each hlabel x.labels σ).imp fun l t h => ?_
  obtain ⟨τ, hτ, ht⟩ := h
  exact ⟨τ, hσ.trans hτ, ht⟩

/-- What each label does wherever it is converted, the sections do. -/
theorem selected_chosen {k : Converter} (hk : k.Steady) {label : SwitchLabel → Emit (Option String)}
    (hlabel : ∀ l, (label l).Restores) {sections : List SwitchSection} {s : Session} {takes : String → Bool}
    {t d : SwitchLabel → Bool} (h : ∀ ls ∈ SwitchForms.labels sections, ∀ l ∈ ls, ∀ σ, s.Continues σ →
      ((label l).out σ).1.any takes = t l ∧ ((label l).out σ).1.isNone = d l) :
    chosen (·.any takes) Option.isNone (((k.selected label sections).out s).1.map (·.1)) =
      chosen t d (SwitchForms.labels sections) := by
  refine (chosen_congr ?_).symm
  refine ((List.forall₂_and_left _ _).mpr ⟨h, selected_labels hk hlabel sections s⟩).imp fun ls ts hls => ?_
  obtain ⟨hall, hls⟩ := hls
  refine ((List.forall₂_and_left _ _).mpr ⟨hall, hls⟩).imp fun l text hl => ?_
  obtain ⟨htakes, σ, hσ, rfl⟩ := hl
  exact ⟨(htakes σ hσ).1.symm, (htakes σ hσ).2.symm⟩

/-- One section more. -/
theorem selected_append (label : SwitchLabel → Emit (Option String)) (sections : List SwitchSection) (x : SwitchSection)
    (s : Session) : ∃ y τ,
      ((k.selected label (sections ++ [x])).out s).1 = ((k.selected label sections).out s).1 ++ [y] ∧
      y.1 = ((x.labels.mapM label).out τ).1 := by
  simp only [selected, List.mapM_append, List.mapM_cons, List.mapM_nil, Emit.out_bind, Emit.out_pure]
  exact ⟨_, _, rfl, rfl⟩

theorem Steady.directLabel {k : Converter} (hk : k.Steady) (l : SwitchLabel) : (k.directLabel l).Restores := by
  have hexpr : ∀ e, (some <$> k.expr e).Restores := fun e => (hk.entryPoints.exprAs none e).bind fun _ => .pure _
  unfold Converter.directLabel
  split
  · exact hexpr _
  · exact hexpr _
  · exact .pure none

theorem Steady.testLabel {k : Converter} (hk : k.Steady) (subject : String) (l : SwitchLabel) :
    (k.testLabel subject l).Restores := by
  cases l with
  | constant value => exact (hk.entryPoints.exprAs none value).bind fun _ => .pure _
  | pattern pattern guard? =>
    refine (hk.entryPoints.patternTest subject pattern).bind fun _ => ?_
    exact (Emit.Restores.optionMapM fun e => hk.entryPoints.exprAs none e).bind fun _ => .pure _
  | otherwise => exact .pure none

section

variable {D : Values} {value : String → D.Value} {constant : Expr → D.Value} {shape : Expr → Binding} (v : D.Value)
  {σ : Session}

/-- A comparison with a constant, read back. -/
theorem holds_equals {subject : String} (hs : IsOperand subject) (other : String → Bool) {e : Expr}
    (hvalue : value ((k.expr e).out σ).1 = constant e)
    (hbinding : binding ((k.expr e).out σ).1 = shape e) (hfirm : shape e ≠ .loose) :
    D.holds value other subject v (subject ++ " === " ++ ((k.expr e).out σ).1) =
      (decide (shape e = .tight) && D.strictEq v (constant e)) := by
  unfold Values.holds
  rw [CaseTest.read_equals hs (hbinding ▸ hfirm), CaseTest.ofRight, hbinding]
  cases hshape : shape e with
  | tight => exact congrArg (D.strictEq v) hvalue
  | bitwise => rfl
  | loose => exact absurd hshape hfirm

variable {l : SwitchLabel} (hl : l.isDirect = true)
  (hvalue : ∀ e ∈ l.constant?, value ((k.expr e).out σ).1 = constant e)
include hl hvalue

theorem directLabel_takes :
    ((k.directLabel l).out σ).1.any (fun t => D.strictEq v (value t)) = l.takesEqual constant v ∧
      ((k.directLabel l).out σ).1.isNone = l.constant?.isNone := by
  unfold SwitchLabel.isDirect at hl
  split at hl
  · next e => exact ⟨congrArg (D.strictEq v) (hvalue e rfl), rfl⟩
  · exact ⟨rfl, rfl⟩
  · next e => exact ⟨congrArg (D.strictEq v) (hvalue e rfl), rfl⟩
  · exact ⟨rfl, rfl⟩
  · cases hl

theorem testLabel_takes {subject : String} (hs : IsOperand subject) (other : String → Bool)
    (hbinding : ∀ e ∈ l.constant?, binding ((k.expr e).out σ).1 = shape e)
    (hfirm : ∀ e ∈ l.constant?, shape e ≠ .loose) :
    ((k.testLabel subject l).out σ).1.any (D.holds value other subject v) = l.takesTested constant shape v ∧
      ((k.testLabel subject l).out σ).1.isNone = l.isOtherwise := by
  have hequals := fun e he => k.holds_equals v hs other (hvalue e he) (hbinding e he) (hfirm e he)
  unfold SwitchLabel.isDirect at hl
  split at hl
  · next e => exact ⟨hequals e rfl, rfl⟩
  · exact ⟨rfl, rfl⟩
  · next e =>
    refine ⟨?_, rfl⟩
    have htext : ((k.testLabel subject (.pattern (.constant e) none)).out σ).1 =
        some (if e.isNull then subject ++ " == null" else subject ++ " === " ++ ((k.expr e).out σ).1) := by
      rw [testLabel, patternTest]
      split <;> rfl
    have htakes : (SwitchLabel.pattern (.constant e) none).takesTested constant shape v =
        if e.isNull then D.strictEq v D.null || D.strictEq v D.undefined
        else decide (shape e = .tight) && D.strictEq v (constant e) := rfl
    rw [htext, htakes, Option.any_some]
    split
    · rw [Values.holds, CaseTest.read_isNull hs]
    · exact hequals e rfl
  · refine ⟨?_, rfl⟩
    have htext : ((k.testLabel subject (.pattern .discard none)).out σ).1 = some "true" := by
      rw [testLabel, patternTest]
      rfl
    rw [htext, Option.any_some, Values.holds, CaseTest.read_true]
    rfl
  · cases hl

end

section

variable {k : Converter} (hk : k.Steady) {s : Session} {sections : List SwitchSection}
  (hdirect : ∀ ls ∈ SwitchForms.labels sections, ∀ l ∈ ls, l.isDirect = true)
  {D : Values} {value : String → D.Value} {constant : Expr → D.Value} {shape : Expr → Binding}
  (hread : k.ReadsConstants s value constant shape sections) (v : D.Value)
include hk hdirect hread

theorem chosen_direct : chosen (·.any fun t => D.strictEq v (value t)) Option.isNone
    (((k.selected k.directLabel sections).out s).1.map (·.1)) = SwitchForms.chosenEqual constant v sections :=
  selected_chosen hk hk.directLabel fun ls hls l hl σ hσ =>
    k.directLabel_takes v (hdirect ls hls l hl) fun e he => hread.value ls hls l hl e he σ hσ

theorem chosen_tested {subject : String} (hs : IsOperand subject) (other : String → Bool)
    (hfirm : SwitchForms.Firm shape sections) :
    chosen (·.any (D.holds value other subject v)) Option.isNone
      (((k.selected (k.testLabel subject) sections).out s).1.map (·.1)) =
        SwitchForms.chosenTested constant shape v sections :=
  selected_chosen hk (hk.testLabel subject) fun ls hls l hl σ hσ =>
    k.testLabel_takes v (hdirect ls hls l hl) (fun e he => hread.value ls hls l hl e he σ hσ) hs other
      (fun e he => hread.binding ls hls l hl e he σ hσ) (hfirm ls hls l hl)

end

/-- The two forms, as selections. -/
theorem switchStmt_direct (scrutinee : Expr) {sections : List SwitchSection}
    (h : (sections.flatMap (·.labels)).all SwitchLabel.isDirect = true) (s : Session) :
    ((k.switchStmt scrutinee sections).out s).1 = Selection.text ⟨((k.expr scrutinee).out s).1,
      ((k.selected k.directLabel sections).out ((k.expr scrutinee).out s).2).1⟩ k.indent := by
  rw [switchStmt, if_pos h, sectionsBlock_eq]
  rfl

theorem switchStmt_tested (scrutinee : Expr) {sections : List SwitchSection}
    (h : (sections.flatMap (·.labels)).all SwitchLabel.isDirect = false) (s : Session) :
    ((k.switchStmt scrutinee sections).out s).1 =
      let subject := Synthetic.name ⟨"sw", s.counter⟩
      let value := (k.expr scrutinee).out { s with counter := s.counter + 1 }
      Script.block [s!"const {subject} = {value.1};",
        Selection.text ⟨"true", ((k.selected (k.testLabel subject) sections).out value.2).1⟩ k.indent] k.indent := by
  rw [switchStmt, if_neg (Bool.eq_false_iff.mp h)]
  simp only [sectionsBlock_eq]
  rfl

end Converter

/-! ## The forms of a statement -/

namespace Engine

variable (settings : Settings) (m : Model)

theorem stmt_switchStmt (span : Span) (scrutinee : Expr) (sections : List SwitchSection) :
    (converter { settings := settings } m).stmt ⟨span, .switchStmt scrutinee sections⟩ =
      (converter { settings := settings } m).switchStmt scrutinee sections := by
  rw [stmt_eq_defaultStmt, Converter.defaultStmt_eq_stmtByKind rfl]
  rfl

theorem expr_number (text : String) (s : Session) :
    ((converter { settings := settings } m).expr (.number text)).out s = (numeral text, s) := by
  rw [Converter.expr, exprAs_eq_defaultExpr settings m rfl]
  rfl

theorem expr_null {e : Expr} (he : e.isNull = true) (s : Session) :
    ((converter { settings := settings } m).expr e).out s = ("null", s) := by
  obtain ⟨span, kind⟩ := e
  unfold Expr.isNull at he
  split at he
  · next hkind =>
    cases hkind
    rw [Converter.expr, exprAs_eq_defaultExpr settings m rfl]
    rfl
  · cases he

end Engine

/-- The sections that a statement's two forms choose: as labels, and as tests once a section
    with a pattern that does not take the value stands behind. Both follow from the labels of
    the source, and they are the same section under `SwitchForms.Agree`. -/
theorem switch_forms_choose (settings : Settings) (m : Model) (s : Session) (span : Span) (scrutinee : Expr)
    (sections : List SwitchSection) (hdirect : ∀ ls ∈ SwitchForms.labels sections, ∀ l ∈ ls, l.isDirect = true)
    (pattern : Pattern) (guard? : Option Expr) (hpattern : (SwitchLabel.pattern pattern guard?).isDirect = false)
    (body : List Stmt) (D : Values) (value : String → D.Value) (constant : Expr → D.Value) (shape : Expr → Binding)
    (hread : (Engine.converter { settings := settings } m).ReadsConstants s value constant shape sections) :
    let k := Engine.converter { settings := settings } m
    let subject := Synthetic.name ⟨"sw", s.counter⟩
    let init := ((k.expr scrutinee).out { s with counter := s.counter + 1 }).1
    ∃ (direct tested : Selection) (test : String),
      ((k.stmt ⟨span, .switchStmt scrutinee sections⟩).out s).1 = direct.text settings.indent ∧
      direct.subject = ((k.expr scrutinee).out s).1 ∧
      ((k.stmt ⟨span, .switchStmt scrutinee (sections ++ [⟨[.pattern pattern guard?], body⟩])⟩).out s).1 =
        Script.block [s!"const {subject} = {init};", tested.text settings.indent] settings.indent ∧
      tested.subject = "true" ∧ (tested.sections.map (·.1)).getLast? = some [some test] ∧
      ∀ (v : D.Value) (other : String → Bool), D.holds value other subject v test = false →
        direct.chosen (fun t => D.strictEq v (value t)) = SwitchForms.chosenEqual constant v sections ∧
        (SwitchForms.Firm shape sections →
          tested.chosen (D.holds value other subject v) = SwitchForms.chosenTested constant shape v sections) ∧
        (SwitchForms.Agree constant shape v sections →
          direct.chosen (fun t => D.strictEq v (value t)) = tested.chosen (D.holds value other subject v)) := by
  intro k subject init
  have hk : k.Steady := Engine.converter_steady (Engine.builtin_admissible settings) m
  have hfresh : s.Continues { s with counter := s.counter + 1 } := Emit.Restores.freshName "sw" s
  have hequal := Converter.chosen_direct hk hdirect (hread.continues (hk.entryPoints.exprAs none scrutinee s))
  have htests := Converter.chosen_tested hk hdirect
    (hread.continues (hfresh.trans (hk.entryPoints.exprAs none scrutinee { s with counter := s.counter + 1 })))
  have hbare : Bare "sw" := by decide
  have hsubject : IsOperand subject := Synthetic.isOperand hbare
  have hall : (sections.flatMap (·.labels)).all SwitchLabel.isDirect = true := by
    refine List.all_eq_true.mpr fun l hl => ?_
    obtain ⟨x, hx, hl⟩ := List.mem_flatMap.mp hl
    exact hdirect x.labels (List.mem_map_of_mem hx) l hl
  have hnull : ∀ ls ∈ SwitchForms.labels sections, ∀ l ∈ ls, ∀ e ∈ l.constant?, e.isNull = true →
    constant e = D.null := by
    intro ls hls l hl e he hise
    rw [← hread.value ls hls l hl e he s (.refl s), Engine.expr_null settings m hise, hread.null]
  -- the section behind the others, which takes nothing
  obtain ⟨y, τ, hmore, hy⟩ := k.selected_append (k.testLabel subject) sections ⟨[.pattern pattern guard?], body⟩
    ((k.expr scrutinee).out { s with counter := s.counter + 1 }).2
  obtain ⟨test, htest⟩ : ∃ test, y.1 = [some test] := ⟨_, hy⟩
  have hmixed : ((sections ++ [(⟨[.pattern pattern guard?], body⟩ : SwitchSection)]).flatMap (·.labels)).all
      SwitchLabel.isDirect = false := by
    simp [List.flatMap_append, hpattern]
  have hdirectText := k.switchStmt_direct scrutinee hall s
  have htestedText := k.switchStmt_tested scrutinee hmixed s
  rw [← Engine.stmt_switchStmt settings m span] at hdirectText htestedText
  refine ⟨_, _, test, hdirectText, rfl, htestedText, rfl, ?_, fun v other hmiss => ?_⟩
  · dsimp only
    rw [hmore, List.map_append, List.map_singleton, List.getLast?_concat, htest]
  · simp only [Selection.chosen]
    rw [hmore, List.map_append, List.map_singleton, htest, chosen_append (by simpa using hmiss) rfl]
    refine ⟨hequal v, htests v hsubject other, fun hagree => ?_⟩
    exact (hequal v).trans ((hagree.chosen_eq hdirect hnull).trans (htests v hsubject other hagree.firm).symm)

/-- Numbers, with null and undefined. -/
def SwitchForms.numbers : Values where
  Value := Option (Option Nat)
  undefined := none
  null := some none
  strictEq v w := decide (v = w)
  strictEq_undefined _ := decide_eq_true_iff

/-- `case 1 | 2:`, a pattern for null and a discard: the value 3 goes to the first as a label and
    to the last as a test, `undefined` to the last and to the second, and 5 to the last in both
    forms. -/
theorem switch_forms_choose_flags :
    let k := Engine.converter {} Model.empty
    let flags := Expr.binary (.number "1") .bitOr (.number "2")
    let sections : List SwitchSection :=
      [⟨[.constant flags], []⟩, ⟨[.pattern (.constant .null) none], []⟩, ⟨[.pattern .discard none], []⟩]
    let circle : SwitchSection := ⟨[.pattern (.type (.named "Circle")) none], []⟩
    let value := fun t => if t = "null" then SwitchForms.numbers.null else some (some 3)
    let subject := Synthetic.name ⟨"sw", 0⟩
    let scrutinee := ((k.expr (.ident "x")).out { counter := 1 }).1
    ∃ (direct tested : Selection) (test : String),
      ((k.stmt ⟨{}, .switchStmt (.ident "x") sections⟩).out {}).1 = direct.text "  " ∧
      ((k.stmt ⟨{}, .switchStmt (.ident "x") (sections ++ [circle])⟩).out {}).1 =
        Script.block [s!"const {subject} = {scrutinee};", tested.text "  "] "  " ∧
      ∀ other v, SwitchForms.numbers.holds value other subject v test = false →
        (v = some (some 3) → direct.chosen (fun t => SwitchForms.numbers.strictEq v (value t)) = some 0 ∧
          tested.chosen (SwitchForms.numbers.holds value other subject v) = some 2) ∧
        (v = none → direct.chosen (fun t => SwitchForms.numbers.strictEq v (value t)) = some 2 ∧
          tested.chosen (SwitchForms.numbers.holds value other subject v) = some 1) ∧
        (v = some (some 5) → direct.chosen (fun t => SwitchForms.numbers.strictEq v (value t)) =
          tested.chosen (SwitchForms.numbers.holds value other subject v)) := by
  intro k flags sections circle value subject scrutinee
  have hflags : ∀ σ, (k.expr flags).out σ = ("1 | 2", σ) := by
    intro σ
    have htext : numeral "1" ++ " " ++ BinaryOp.bitOr.symbol ++ " " ++ numeral "2" = "1 | 2" := by decide +kernel
    rw [Converter.expr, Engine.exprAs_eq_defaultExpr {} Model.empty rfl, ← htext]
    have hnumber := Engine.expr_number {} Model.empty
    simp only [flags, Expr.binary, Expr.of, Converter.defaultExpr, Converter.binaryOperand, Emit.out_bind,
      Emit.out_pure, hnumber]
    rfl
  let constant : Expr → SwitchForms.numbers.Value := fun e => if e.isNull then some none else some (some 3)
  let shape : Expr → Binding := fun e => if e.isNull then .tight else .bitwise
  have hconstants : ∀ ls ∈ SwitchForms.labels sections, ∀ l ∈ ls, ∀ e ∈ l.constant?, e = flags ∨ e = Expr.null := by
    intro ls hls l hl e he
    simp only [SwitchForms.labels, sections, List.map_cons, List.map_nil, List.mem_cons, List.not_mem_nil,
      or_false] at hls
    rcases hls with rfl | rfl | rfl <;> cases List.mem_singleton.mp hl <;> cases he
    · exact .inl rfl
    · exact .inr rfl
  have hread : k.ReadsConstants {} value constant shape sections := by
    refine ⟨rfl, fun ls hls l hl e he σ _ => ?_, fun ls hls l hl e he σ _ => ?_⟩ <;>
      rcases hconstants ls hls l hl e he with rfl | rfl
    · rw [hflags]; rfl
    · rw [Engine.expr_null {} Model.empty rfl]; rfl
    · rw [hflags]
      exact (by decide +kernel : binding "1 | 2" = .bitwise)
    · rw [Engine.expr_null {} Model.empty rfl]
      exact (by decide +kernel : binding "null" = .tight)
  obtain ⟨direct, tested, test, hdirect, -, htested, -, -, hchosen⟩ :=
    switch_forms_choose {} Model.empty {} {} (.ident "x")
    sections (by decide) (.type (.named "Circle")) none rfl [] SwitchForms.numbers value constant shape hread
  have hfirm : SwitchForms.Firm shape sections := by
    intro ls hls l hl e he
    rcases hconstants ls hls l hl e he with rfl | rfl <;> decide
  refine ⟨direct, tested, test, hdirect, htested, fun other v hmiss => ⟨?_, ?_, ?_⟩⟩
  · rintro rfl
    obtain ⟨h, h', -⟩ := hchosen _ other hmiss
    rw [h, h' hfirm]
    decide
  · rintro rfl
    obtain ⟨h, h', -⟩ := hchosen _ other hmiss
    rw [h, h' hfirm]
    decide
  · rintro rfl
    exact (hchosen _ other hmiss).2.2 ⟨hfirm, fun h => (Option.some_ne_none _ h).elim, by decide, by decide, by decide⟩

end ComponentScript
