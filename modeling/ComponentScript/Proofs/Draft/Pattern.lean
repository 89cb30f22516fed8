/-
  ComponentScript.Proofs.Draft.Pattern — drafts of inner expressions, of pattern tests and of
  choices by patterns.

  For each step that writes a text there is one that drafts it. Both go through the same
  sessions, and the draft has the text. The converter makes a function around a pattern test
  whose operand is bound, and around the scrutinee and the arms of a choice; the latter is
  asynchronous when something evaluated in it awaits.
-/

import ComponentScript.Convert.SwitchExpr
import ComponentScript.Proofs.Draft.Basic
import ComponentScript.Proofs.Syntax.Nodes

namespace ComponentScript

open Text Draft

variable {k : Converter} {A : Placement}

/-- The expression may be outside of made functions. -/
def Draft.Placement.At (A : Placement) (e : Expr) : Prop := ∀ expected? s, A none ⟨expected?, e, s⟩

/-! ## Parts -/

namespace Converter

variable (k : Converter)

def draftAs (expected? : Option TypeRef) (e : Expr) : Emit Draft := do
  let s ← get
  let _ ← k.exprAs expected? e
  return .part ⟨expected?, e, s⟩

def draft (e : Expr) : Emit Draft := k.draftAs none e

def draftOperand (e : Expr) : Emit Draft := do return .operand (← k.draft e)

def draftAll (es : List Expr) : Emit (List Draft) := es.mapM k.draft

def draftArguments (args : List Argument) : Emit (List Draft) := args.mapM fun a => k.draft a.expr

variable {k : Converter}

theorem draftAs_tracks {e : Expr} (h : A.At e) (expected? : Option TypeRef) :
    Tracks (Shows k A) (k.draftAs expected? e) (k.exprAs expected? e) :=
  fun s => ⟨⟨rfl, fits_part.mpr (h expected? s)⟩, rfl⟩

theorem draft_tracks {e : Expr} (h : A.At e) : Tracks (Shows k A) (k.draft e) (k.expr e) := draftAs_tracks h none

theorem draftOperand_tracks {e : Expr} (h : A.At e) : Tracks (Shows k A) (k.draftOperand e) (k.operand e) :=
  .bind (draft_tracks h) fun _ _ ⟨ht, hd⟩ => .pure ⟨congrArg Script.operand ht, fits_operand.mpr hd⟩

theorem draftAll_tracks {es : List Expr} (h : ∀ e ∈ es, A.At e) :
    Tracks (ShowsAll k A) (k.draftAll es) (k.exprs es) := .mapM fun e he => draft_tracks (h e he)

theorem draftArguments_tracks {args : List Argument} (h : ∀ a ∈ args, A.At a.expr) :
    Tracks (ShowsAll k A) (k.draftArguments args) (k.arguments args) := .mapM fun a ha => draft_tracks (h a ha)

end Converter

/-! ## Pattern tests -/

def draftTypeTest (subject : Draft) (type : TypeRef) : Draft :=
  match Category.ofName type.simpleName with
  | .string => code "typeof " ++ subject ++ code " === \"string\""
  | .number => code "typeof " ++ subject ++ code " === \"number\""
  | .bool => code "typeof " ++ subject ++ code " === \"boolean\""
  | _ =>
    if type.simpleName = "object" || type.simpleName = "Object" then subject ++ code " != null"
    else subject ++ code " instanceof " ++ name type.simpleName

def draftMemberPath (subject : Draft) (path : String) : Draft :=
  let names := (splitOn '.' path.toList).map fun part => Script.camelCase (String.ofList part)
  subject ++ code "." ++ name (".".intercalate names)

theorem draftTypeTest_shows {subject : Draft} (h : subject.Fits A) (type : TypeRef) :
    Shows k A (draftTypeTest subject type) (typeTest (subject.text k) type) := by
  simp only [draftTypeTest, typeTest]
  generalize Category.ofName type.simpleName = c
  cases c with
  | string | number | bool => exact ⟨by simp (disch := decide) only [text_append, text_code]; rfl, by simp [h]⟩
  | _ =>
    dsimp only
    split
    · exact ⟨by simp (disch := decide) only [text_append, text_code]; rfl, by simp [h]⟩
    · exact ⟨by simp (disch := decide) only [text_append, text_code, text_name]; rfl, by simp [h]⟩

theorem draftMemberPath_shows {subject : Draft} (h : subject.Fits A) (path : String) :
    Shows k A (draftMemberPath subject path) (memberPath (subject.text k) path) := ⟨rfl, by simp [draftMemberPath, h]⟩

namespace Converter

variable (k : Converter)

mutual
def draftPattern (subject : Draft) : Pattern → Emit Draft
  | .discard => return code "true"
  | .constant value =>
    if value.isNull then return subject ++ code " == null"
    else do
      let value ← k.draft value
      return subject ++ code " === " ++ value
  | .relational op value => do
    let value ← k.draft value
    return subject ++ code " " ++ name op.symbol ++ code " " ++ value
  | .type type => return draftTypeTest subject type
  | .property type? subpatterns => do
    let members ← draftMembers subject subpatterns
    let tests := (type?.map (draftTypeTest subject)).toList ++ members.filter (·.text k ≠ "true")
    return if tests.isEmpty then subject ++ code " != null" else joined " && " tests
  | .not pattern =>
    if pattern.isNull then return subject ++ code " != null"
    else do
      let test ← draftPattern subject pattern
      return code "!(" ++ test ++ code ")"
  | .and left right => do
    let l ← draftPattern subject left
    let r ← draftPattern subject right
    return l ++ code " && " ++ r
  | .or left right => do
    let l ← draftPattern subject left
    let r ← draftPattern subject right
    return code "(" ++ l ++ code " || " ++ r ++ code ")"
def draftMember (subject : Draft) : Subpattern → Emit Draft
  | ⟨path, pattern⟩ => draftPattern (draftMemberPath subject path) pattern
def draftMembers (subject : Draft) : List Subpattern → Emit (List Draft)
  | [] => return []
  | p :: ps => do
    let test ← draftMember subject p
    return test :: (← draftMembers subject ps)
end

variable {k : Converter}

/-- The tests of a type and of members, without those that always hold. -/
theorem propertyTests_shows {subject : Draft} (hs : subject.Fits A) (type? : Option TypeRef) {ds : List Draft}
    {ts : List String} (h : ShowsAll k A ds ts) :
    ShowsAll k A ((type?.map (draftTypeTest subject)).toList ++ ds.filter (·.text k ≠ "true"))
      ((type?.map (typeTest (subject.text k))).toList ++ ts.filter (· ≠ "true")) := by
  obtain ⟨rfl, hds⟩ := h
  have hrest : ShowsAll k A (ds.filter (·.text k ≠ "true")) ((ds.map (text k)).filter (· ≠ "true")) :=
    ⟨by rw [List.filter_map]; rfl, fun d hd => hds d (List.mem_filter.mp hd).1⟩
  cases type? with
  | none => exact hrest
  | some type => exact .cons (draftTypeTest_shows hs type) hrest

mutual
theorem draftPattern_tracks {subject : Draft} (hs : subject.Fits A) : ∀ {p : Pattern},
    (∀ e, .expr e ∈ (Node.pattern p).nodes → A.At e) →
      Tracks (Shows k A) (k.draftPattern subject p) (k.patternTest (subject.text k) p)
  | .discard, _ => .pure ⟨rfl, by simp⟩
  | .constant value, h => by
    have hvalue : A.At value := h value (Node.mem_nodes_of_inner (List.mem_singleton.mpr rfl))
    refine .ite (fun _ => .pure ⟨?_, by simp [hs]⟩) fun _ => .bind (draft_tracks hvalue) fun d t ⟨ht, hd⟩ => ?_
    · simp (disch := decide) only [text_append, text_code]; rfl
    · subst ht
      exact .pure ⟨by simp (disch := decide) only [text_append, text_code]; rfl, by simp [hs, hd]⟩
  | .relational op value, h => by
    have hvalue : A.At value := h value (Node.mem_nodes_of_inner (List.mem_singleton.mpr rfl))
    refine .bind (draft_tracks hvalue) fun d t ⟨ht, hd⟩ => ?_
    subst ht
    exact .pure ⟨by simp (disch := decide) only [text_append, text_code, text_name]; rfl, by simp [hs, hd]⟩
  | .type type, _ => .pure (draftTypeTest_shows hs type)
  | .property type? subpatterns, h => by
    have hsubpatterns : ∀ q ∈ subpatterns, ∀ e, .expr e ∈ (Node.pattern q.pattern).nodes → A.At e := fun q hq e he =>
      h e (Node.nodes_subset_of_inner (by simpa [Node.inner, Node.parts, Pattern.parts] using ⟨q, hq, rfl⟩) _ he)
    refine .bind (draftMembers_tracks hs hsubpatterns) fun ds ts hds => .pure ?_
    obtain ⟨htexts, hfits⟩ := propertyTests_shows hs type? hds
    rw [← htexts, List.isEmpty_map]
    split
    · exact ⟨by simp (disch := decide) only [text_append, text_code]; rfl, by simp [hs]⟩
    · exact ⟨by simp only [text_joined], by simpa using hfits⟩
  | .not pattern, h => by
    refine .ite (fun _ => .pure ⟨?_, by simp [hs]⟩) fun _ => ?_
    · simp (disch := decide) only [text_append, text_code]; rfl
    · have hpattern : ∀ e, .expr e ∈ (Node.pattern pattern).nodes → A.At e := fun e he =>
        h e (Node.nodes_subset_of_inner (List.mem_singleton.mpr rfl) _ he)
      exact .bind (draftPattern_tracks hs hpattern) fun _ _ hd => .pure (hd.between (by decide) (by decide))
  | .and left right, h => by
    have hleft := fun e he => h e (Node.nodes_subset_of_inner (y := .pattern left) (List.mem_cons_self ..) _ he)
    have hright := fun e he => h e (Node.nodes_subset_of_inner (y := .pattern right)
      (List.mem_cons_of_mem _ (List.mem_singleton.mpr rfl)) _ he)
    refine .bind (draftPattern_tracks hs hleft) fun l _ ⟨hl, hl'⟩ => ?_
    refine .bind (draftPattern_tracks hs hright) fun r _ ⟨hr, hr'⟩ => ?_
    subst hl hr
    exact .pure ⟨by simp (disch := decide) only [text_append, text_code]; rfl, by simp [hl', hr']⟩
  | .or left right, h => by
    have hleft := fun e he => h e (Node.nodes_subset_of_inner (y := .pattern left) (List.mem_cons_self ..) _ he)
    have hright := fun e he => h e (Node.nodes_subset_of_inner (y := .pattern right)
      (List.mem_cons_of_mem _ (List.mem_singleton.mpr rfl)) _ he)
    refine .bind (draftPattern_tracks hs hleft) fun l _ ⟨hl, hl'⟩ => ?_
    refine .bind (draftPattern_tracks hs hright) fun r _ ⟨hr, hr'⟩ => ?_
    subst hl hr
    exact .pure ⟨by simp (disch := decide) only [text_append, text_code]; rfl, by simp [hl', hr']⟩
theorem draftMember_tracks {subject : Draft} (hs : subject.Fits A) : ∀ {p : Subpattern},
    (∀ e, .expr e ∈ (Node.pattern p.pattern).nodes → A.At e) →
      Tracks (Shows k A) (k.draftMember subject p) (k.memberTest (subject.text k) p)
  | ⟨path, pattern⟩, h => by
    have hpath := draftMemberPath_shows (k := k) hs path
    have hpattern : Tracks (Shows k A) (k.draftPattern (draftMemberPath subject path) pattern)
        (k.patternTest ((draftMemberPath subject path).text k) pattern) := draftPattern_tracks hpath.fits h
    rwa [hpath.text] at hpattern
theorem draftMembers_tracks {subject : Draft} (hs : subject.Fits A) : ∀ {ps : List Subpattern},
    (∀ p ∈ ps, ∀ e, .expr e ∈ (Node.pattern p.pattern).nodes → A.At e) →
      Tracks (ShowsAll k A) (k.draftMembers subject ps) (k.memberTests (subject.text k) ps)
  | [], _ => .pure .nil
  | p :: ps, h => by
    obtain ⟨hp, hps⟩ := List.forall_mem_cons.mp h
    refine .bind (draftMember_tracks hs hp) fun d t hd => ?_
    exact .bind (draftMembers_tracks hs hps) fun ds ts hds => .pure (.cons hd hds)
end

variable (k : Converter)

def draftIsTest (operand : Expr) (pattern : Pattern) : Emit Draft :=
  if operand.isPlain || pattern.subjectUses ≤ 1 then do
    let subject ← k.draftOperand operand
    k.draftPattern subject pattern
  else do
    let value ← k.draft operand
    let subject ← Emit.freshName "is"
    let test ← k.draftPattern (name subject) pattern
    return Draft.call ⟨.test, false, [subject]⟩ test [value]

variable {k : Converter}

theorem draftIsTest_tracks {operand : Expr} {pattern : Pattern} (ho : A.At operand)
    (hp : ∀ e, .expr e ∈ (Node.pattern pattern).nodes → A.At e)
    (hin : ∀ subject e, .expr e ∈ (Node.pattern pattern).nodes → (A.inside ⟨.test, false, [subject]⟩).At e) :
    Tracks (Shows k A) (k.draftIsTest operand pattern) (k.isTest operand pattern) := by
  refine .ite (fun _ => ?_) fun _ => ?_
  · refine .bind (draftOperand_tracks ho) fun subject t ⟨ht, hs⟩ => ?_
    subst ht
    exact draftPattern_tracks hs hp
  · refine .bind (draft_tracks ho) fun value t ⟨ht, hv⟩ => .same _ fun subject => ?_
    refine .bind (draftPattern_tracks (fits_name subject) (hin subject)) fun test t' ⟨ht', hd⟩ => ?_
    subst ht ht'
    exact .pure ⟨by simp only [text_call, Made.head, ← String.append_assoc]; rfl, by simp [hd, hv]⟩

/-! ## Choices by patterns -/

variable (k : Converter)

def draftGuarded (test : Draft) (guard? : Option Draft) : Draft :=
  match guard? with
  | none => test
  | some guard => if test.text k = "true" then guard else test ++ code " && " ++ .operand guard

def draftArms (subject : String) : List SwitchArm → Emit (List Draft)
  | [] => return [code "return undefined;"]
  | arm :: arms => do
    let test ← k.draftPattern (name subject) arm.pattern
    let guard? ← arm.guard?.mapM k.draft
    let value ← k.draft arm.value
    if test.text k = "true" && guard?.isNone then return [code "return " ++ value ++ code ";"]
    else
      let condition := k.draftGuarded test guard?
      return (code "if (" ++ condition ++ code ") return " ++ value ++ code ";") :: (← draftArms subject arms)

def draftChoice (scrutinee : Expr) (arms : List SwitchArm) : Emit Draft := do
  let subject ← Emit.freshName "match"
  let value ← k.draft scrutinee
  let lines ← k.draftArms subject arms
  let body := Draft.block ((code "const " ++ name subject ++ code " = " ++ value ++ code ";") :: lines) k.indent
  return if scrutinee.containsAwait || arms.any SwitchArm.containsAwait
    then code "await " ++ Draft.call ⟨.choice, true, []⟩ body []
    else Draft.call ⟨.choice, false, []⟩ body []

variable {k : Converter}

theorem draftGuarded_shows {test : Draft} {t : String} {guard? : Option Draft} {g? : Option String}
    (h : Shows k A test t) (hg : ShowsAny k A guard? g?) :
    Shows k A (k.draftGuarded test guard?) (guarded t g?) := by
  obtain ⟨rfl, htest⟩ := h
  obtain ⟨rfl, hguard⟩ := hg
  cases guard? with
  | none => exact ⟨rfl, htest⟩
  | some guard =>
    have hguard := hguard guard rfl
    simp only [draftGuarded, guarded, Option.map_some]
    split
    · exact ⟨rfl, hguard⟩
    · exact ⟨by simp (disch := decide) only [text_append, text_code, text_operand]; rfl, by simp [htest, hguard]⟩

theorem draftArms_tracks (subject : String) {arms : List SwitchArm}
    (h : ∀ a ∈ arms, (∀ e, .expr e ∈ (Node.pattern a.pattern).nodes → A.At e) ∧ ∀ e ∈ a.exprs, A.At e) :
    Tracks (ShowsAll k A) (k.draftArms subject arms) (k.armLines subject arms) := by
  induction arms with
  | nil => exact .pure (.cons ⟨rfl, by simp⟩ .nil)
  | cons arm arms ih =>
    obtain ⟨⟨hpattern, hexprs⟩, harms⟩ := List.forall_mem_cons.mp h
    have hguard : ∀ e ∈ arm.guard?, A.At e := fun e he =>
      hexprs e (List.mem_append_left _ (Option.mem_toList.mpr he))
    have hvalue : A.At arm.value := hexprs arm.value (List.mem_append_right _ (List.mem_singleton.mpr rfl))
    refine .bind (draftPattern_tracks (fits_name subject) hpattern) fun test t htest => ?_
    refine .bind (.optionMapM fun e he => draft_tracks (hguard e he)) fun guard? g? hg => ?_
    refine .bind (draft_tracks hvalue) fun value v ⟨hv, hfits⟩ => ?_
    have hcondition := draftGuarded_shows htest hg
    obtain ⟨rfl, -⟩ := htest
    obtain ⟨rfl, -⟩ := hg
    subst hv
    rw [Option.isNone_map]
    refine .ite (fun _ => .pure (.cons ?_ .nil)) fun _ => .bind (ih harms) fun ds ts hds => .pure (.cons ?_ hds)
    · exact ⟨by simp (disch := decide) only [text_append, text_code]; rfl, by simp [hfits]⟩
    · exact ⟨by simp (disch := decide) only [text_append, text_code, hcondition.text]; rfl,
        by simp [hcondition.fits, hfits]⟩

theorem draftChoice_tracks {scrutinee : Expr} {arms : List SwitchArm} {B : Placement}
    (hB : B = A.inside ⟨.choice, scrutinee.containsAwait || arms.any SwitchArm.containsAwait, []⟩)
    (hs : B.At scrutinee)
    (harms : ∀ a ∈ arms, (∀ e, .expr e ∈ (Node.pattern a.pattern).nodes → B.At e) ∧ ∀ e ∈ a.exprs, B.At e) :
    Tracks (Shows k A) (k.draftChoice scrutinee arms) (k.switchExpr scrutinee arms) := by
  refine .same _ fun subject => .bind (draft_tracks hs) fun value t ⟨ht, hv⟩ => ?_
  refine .bind (draftArms_tracks subject harms) fun ds ts ⟨hts, hds⟩ => .pure ?_
  subst ht hts
  have hline : Shows k B (code "const " ++ name subject ++ code " = " ++ value ++ code ";")
      s!"const {subject} = {value.text k};" :=
    ⟨by simp (disch := decide) only [text_append, text_code, text_name]; rfl, by simp [hv]⟩
  have hlines := ShowsAll.cons hline ⟨rfl, hds⟩
  rw [← hlines.texts]
  have hfits := hlines.fits
  rw [hB] at hfits
  split
  · next h =>
    rw [h] at hfits
    refine ⟨?_, by simpa using hfits⟩
    simp (disch := decide) only [text_append, text_code, text_call_nil, text_block, Made.head, ← String.append_assoc]
    rfl
  · next h =>
    rw [Bool.eq_false_iff.mpr h] at hfits
    exact ⟨by simp only [text_call_nil, text_block, Made.head, ← String.append_assoc]; rfl, by simpa using hfits⟩

end Converter

end ComponentScript
