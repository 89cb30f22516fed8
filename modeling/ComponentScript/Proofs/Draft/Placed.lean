/-
  ComponentScript.Proofs.Draft.Placed — the draft of a whole conversion.

  `Engine.draftAs` drafts an expression by the rule that converts it, or by its kind. The draft
  has the text of the conversion and leaves its session (`Engine.draftAs_text`); its parts are
  drafted in turn, each in the session it is converted in. `Engine.Placed`: the part occurs in
  the text of the root, and `f?` is the innermost made function around it there.
-/

import ComponentScript.Proofs.Convert.NodeCalls
import ComponentScript.Proofs.Draft.Query

namespace ComponentScript

open Draft Converter

variable {k : Converter} {A : Placement} {e : Expr}

/-! ## Rules -/

namespace Rules

def draftSwitch (k : Converter) (e : Expr) : Emit Draft :=
  match e.kind with
  | .switchExpr scrutinee arms => k.draftChoice scrutinee arms
  | _ => return code ""

/-- The built-in rules with the drafts of what they write. -/
def drafts : List (Rule Expr × (Converter → Expr → Emit Draft)) :=
  [(consolePrint, draftPrint), (taskHelpers, draftTask), (serviceLookup, draftService),
   (numericHelpers, draftNumeric), (stringHelpers, draftString), (mapLookup, draftMapLookup),
   (collectionProperties, draftProperties), (collectionMethods, draftMethods),
   (materialize, draftMaterialize), (sequenceQuery, draftQuery), (switchExpression, draftSwitch)]

theorem drafts_rules : drafts.map (·.1) = builtinExprs := rfl

theorem draftSwitch_tracks (h : Admits A e) : Tracks (Shows k A) (draftSwitch k e) (switchExpression.convert k e) := by
  have hdefault := Converter.draftDefault_tracks (k := k) none h
  obtain ⟨span, kind⟩ := e
  cases kind with
  | switchExpr scrutinee arms => exact hdefault
  | _ => exact .pure ⟨rfl, by simp⟩

theorem drafts_tracks (h : Admits A e) (hA : AdmitsParts A e.Evaluates) :
    ∀ r ∈ drafts, Tracks (Shows k A) (r.2 k e) (r.1.convert k e) := by
  intro r hr
  simp only [drafts, List.mem_cons, List.not_mem_nil, or_false] at hr
  rcases hr with rfl | rfl | rfl | rfl | rfl | rfl | rfl | rfl | rfl | rfl | rfl
  · exact draftPrint_tracks hA
  · exact draftTask_tracks hA
  · exact draftService_tracks hA
  · exact draftNumeric_tracks hA
  · exact draftString_tracks hA
  · exact draftMapLookup_tracks hA
  · exact draftProperties_tracks hA
  · exact draftMethods_tracks hA
  · exact draftMaterialize_tracks hA
  · exact draftQuery_tracks h hA
  · exact draftSwitch_tracks h

end Rules

/-! ## Conversions -/

theorem Admits.everywhere (e : Expr) : Admits (fun _ _ => True) e :=
  ⟨fun _ _ _ _ => trivial, fun _ _ _ _ _ _ => trivial, fun _ _ _ _ _ _ _ => trivial, fun _ _ _ _ _ _ _ => trivial,
    fun _ _ _ _ _ _ _ _ => trivial⟩

theorem AdmitsParts.everywhere (Y : Expr → Prop) : AdmitsParts (fun _ _ => True) Y :=
  ⟨fun _ _ _ => trivial, fun _ _ _ _ _ _ => trivial, fun _ _ _ _ _ _ _ => trivial⟩

namespace Engine

variable (settings : Settings) (m : Model)

/-- The draft of an expression, by the rule that converts it or else by its kind. -/
def draftAs (expected? : Option TypeRef) (e : Expr) : Emit Draft := do
  let k := converter { settings := settings } m
  let s ← get
  match Rules.drafts.find? fun r => r.1.applies k.toEnv s e with
  | some r => r.2 k e
  | none => k.draftDefault expected? e

/-- The rules with drafts are tried in the order of the built-in ones. -/
theorem find_drafts (env : Env) (s : Session) (e : Expr) :
    ({ settings := settings } : Engine).exprRules.find? env s e =
      (Rules.drafts.find? fun r => r.1.applies env s e).map (·.1) := by
  rw [builtin_eq, ← Rules.drafts_rules]
  exact List.find?_map

theorem draftAs_tracks (expected? : Option TypeRef) (h : Admits A e) (hA : AdmitsParts A e.Evaluates) :
    Tracks (Shows (converter { settings := settings } m) A) (draftAs settings m expected? e)
      ((converter { settings := settings } m).exprAs expected? e) := by
  rw [converter_exprAs (builtin_local settings)]
  refine .same get fun s => ?_
  rw [find_drafts]
  cases hfind : Rules.drafts.find? fun r => r.1.applies (converter { settings := settings } m).toEnv s e with
  | none => exact Converter.draftDefault_tracks expected? h
  | some r => exact Rules.drafts_tracks h hA r (List.mem_of_find?_eq_some hfind)

/-- Where all parts may be everywhere, every draft fits. -/
theorem draftAs_text (expected? : Option TypeRef) (e : Expr) (s : Session) :
    (((draftAs settings m expected? e).out s).1.text (converter { settings := settings } m),
      ((draftAs settings m expected? e).out s).2) =
      ((converter { settings := settings } m).exprAs expected? e).out s := by
  obtain ⟨hshows, hsession⟩ := draftAs_tracks settings m expected? (Admits.everywhere e) (AdmitsParts.everywhere _) s
  exact Prod.ext hshows.text hsession

/-- An expression that no rule is for is drafted by its kind. -/
theorem draftAs_eq_draftDefault (he : e.isRuled = false) (expected? : Option TypeRef) :
    draftAs settings m expected? e = (converter { settings := settings } m).draftDefault expected? e := by
  refine Emit.ext_out fun s => ?_
  have hfind : (Rules.drafts.find? fun r => r.1.applies (converter { settings := settings } m).toEnv s e) = none := by
    refine List.find?_eq_none.mpr fun r hr => ?_
    have hr' : r.1 ∈ Rules.builtinExprs := Rules.drafts_rules ▸ List.mem_map_of_mem hr
    rw [Rules.builtinExprs_applies he r.1 hr']
    exact Bool.false_ne_true
  unfold draftAs
  rw [Emit.out_bind, Emit.out_get, hfind]

/-- The part occurs in the text of the root, with the innermost made function around it. -/
inductive Placed (root : Part) : Option Made → Part → Prop
  | root : Placed root none root
  | inner {f? g? : Option Made} {p q : Part} : Placed root f? p →
      ((draftAs settings m p.expected? p.expr).out p.session).1.Holds g? q → Placed root (g? <|> f?) q

variable {settings m}

theorem Placed.ofRoot {root q : Part} {f? : Option Made}
    (h : ((draftAs settings m root.expected? root.expr).out root.session).1.Holds f? q) :
    Placed settings m root f? q := by
  have hplaced := Placed.inner .root h
  cases f? <;> exact hplaced

end Engine

end ComponentScript
