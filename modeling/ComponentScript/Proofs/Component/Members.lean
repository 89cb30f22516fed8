/-
  ComponentScript.Proofs.Component.Members — a component is converted member by member.

  A name of white space only is no name, and a component without a name fails whatever its
  members are. A component with a name fails for a method without a body, and of several
  such methods the first is named. All other components are converted, and each member is
  what it is by itself: a method is its own conversion, a field has the conversion of its
  initializer with the declared type expected. So a member depends neither on the others nor
  on where it stands among them (`component_memberwise`).
-/

import ComponentScript.Component.Convert
import Mathlib.Data.List.TakeWhile

namespace ComponentScript

open Text

/-! ## Names -/

theorem Text.trimEnd_eq_nil_iff {cs : List Char} : trimEnd cs = [] ↔ ∀ c ∈ cs, isBlank c = true := by
  simp only [trimEnd, List.reverse_eq_nil_iff, List.dropWhile_eq_nil_iff, List.mem_reverse]

theorem Text.trim_eq_nil_iff {cs : List Char} : trim cs = [] ↔ ∀ c ∈ cs, isBlank c = true := by
  rw [trim, trimEnd_eq_nil_iff]
  constructor
  · intro h c hc
    rw [← List.takeWhile_append_dropWhile (p := isBlank) (l := cs)] at hc
    rcases List.mem_append.mp hc with hc | hc
    · exact List.mem_takeWhile_imp hc
    · exact h c hc
  · exact fun h c hc => h c ((List.dropWhile_sublist _).subset hc)

namespace ComponentDecl

/-- Something in the name is no white space. -/
def Named (c : ComponentDecl) : Prop := ∃ char ∈ c.name.toList, isBlank char = false

theorem not_named_iff {c : ComponentDecl} : ¬ c.Named ↔ (trim c.name.toList).isEmpty = true := by
  rw [List.isEmpty_iff, trim_eq_nil_iff, Named]
  simp only [not_exists, not_and, Bool.not_eq_false]

/-- Every method has a body. -/
def Complete (c : ComponentDecl) : Prop := ∀ m ∈ c.methods, m.body? ≠ none

/-- The method has no body, and all in front of it have one. -/
def FirstBodiless (c : ComponentDecl) (m : MethodDecl) : Prop :=
  m.body? = none ∧ ∃ before after, c.methods = before ++ m :: after ∧ ∀ x ∈ before, x.body? ≠ none

end ComponentDecl

/-! ## Steps that may fail, one after the other -/

section

variable {ε α β : Type} {f : α → Except ε β} {as : List α}

theorem mapM_eq_ok_iff {bs : List β} : as.mapM f = .ok bs ↔ as.map f = bs.map .ok := by
  induction as generalizing bs with
  | nil => cases bs <;> simp [pure, Except.pure]
  | cons a as ih =>
    rw [List.mapM_cons, List.map_cons]
    cases ha : f a with
    | error e => cases bs <;> simp [bind, Except.bind]
    | ok b =>
      cases has : as.mapM f with
      | error e => cases bs <;> simp [bind, Except.bind, has, ← ih]
      | ok bs' => cases bs <;> simp [bind, Except.bind, pure, Except.pure, has, ← ih]

/-- Some step fails with `e`, and none before it does. -/
def FailsFirst (f : α → Except ε β) (as : List α) (e : ε) : Prop :=
  ∃ before a after, as = before ++ a :: after ∧ (∀ x ∈ before, ∃ b, f x = .ok b) ∧ f a = .error e

theorem failsFirst_cons {a : α} {e : ε} :
    FailsFirst f (a :: as) e ↔ f a = .error e ∨ (∃ b, f a = .ok b) ∧ FailsFirst f as e := by
  constructor
  · rintro ⟨before, x, after, heq, hbefore, hx⟩
    cases before with
    | nil =>
      cases heq
      exact .inl hx
    | cons y before =>
      cases heq
      obtain ⟨hy, hbefore⟩ := List.forall_mem_cons.mp hbefore
      exact .inr ⟨hy, before, x, after, rfl, hbefore, hx⟩
  · rintro (ha | ⟨ha, before, x, after, rfl, hbefore, hx⟩)
    · exact ⟨[], a, as, rfl, List.forall_mem_nil _, ha⟩
    · exact ⟨a :: before, x, after, rfl, List.forall_mem_cons.mpr ⟨ha, hbefore⟩, hx⟩

theorem mapM_eq_error_iff {e : ε} : as.mapM f = .error e ↔ FailsFirst f as e := by
  induction as with
  | nil => simp [FailsFirst, pure, Except.pure]
  | cons a as ih =>
    rw [List.mapM_cons, failsFirst_cons, ← ih]
    cases ha : f a with
    | error e' => simp [bind, Except.bind]
    | ok b => cases as.mapM f <;> simp [bind, Except.bind, pure, Except.pure]

end

/-! ## Members by themselves -/

namespace Engine

variable (g : Engine) (model : Model)

/-- A field with the conversion of its initializer, as an expression by itself of which the
    declared type is expected. -/
def fieldAlone (f : FieldDecl) : ConvertedField :=
  let init? := f.init?.map (g.convertExpr model f.type?)
  ⟨Script.camelCase f.name, init?.map (·.text), (init?.map (·.diagnostics)).getD []⟩

variable {g model}

theorem convertField_eq (f : FieldDecl) : g.convertField model f = g.fieldAlone model f := by
  obtain ⟨name, type?, init?⟩ := f
  cases init? <;> rfl

theorem convertMethod_eq_ok {m : MethodDecl} : (∃ r, g.convertMethod model m = .ok r) ↔ m.body? ≠ none := by
  unfold convertMethod
  cases m.body? <;> simp

theorem convertMethod_eq_error {m : MethodDecl} {e : ConvertError} :
    g.convertMethod model m = .error e ↔ m.body? = none ∧ e = .missingBody m.name := by
  unfold convertMethod
  cases m.body? <;> simp [eq_comm]

/-! ## Whole components -/

variable {c : ComponentDecl}

theorem convertComponent_unnamed (h : ¬ c.Named) : g.convertComponent model c = .error .missingName := by
  unfold convertComponent
  rw [if_pos (ComponentDecl.not_named_iff.mp h)]
  rfl

theorem convertComponent_named (h : c.Named) : g.convertComponent model c =
    (c.methods.mapM (g.convertMethod model)).map fun ms => ⟨c.name, c.fields.map (g.fieldAlone model), ms⟩ := by
  have hfields : g.convertField model = g.fieldAlone model := funext convertField_eq
  unfold convertComponent
  rw [if_neg fun hn => ComponentDecl.not_named_iff.mpr hn h, hfields]
  cases c.methods.mapM (g.convertMethod model) <;> rfl

theorem convertComponent_eq_missingBody {name : String} : g.convertComponent model c = .error (.missingBody name) ↔
    c.Named ∧ ∃ m, c.FirstBodiless m ∧ m.name = name := by
  by_cases h : c.Named
  · have hmap : g.convertComponent model c = .error (.missingBody name) ↔
        c.methods.mapM (g.convertMethod model) = .error (.missingBody name) := by
      rw [convertComponent_named h]
      cases c.methods.mapM (g.convertMethod model) <;> simp [Except.map]
    rw [hmap, mapM_eq_error_iff, FailsFirst]
    simp only [convertMethod_eq_ok, convertMethod_eq_error, ConvertError.missingBody.injEq]
    constructor
    · rintro ⟨before, m, after, heq, hbefore, hbody, hname⟩
      exact ⟨h, m, ⟨hbody, before, after, heq, hbefore⟩, hname.symm⟩
    · rintro ⟨-, m, ⟨hbody, before, after, heq, hbefore⟩, hname⟩
      exact ⟨before, m, after, heq, hbefore, hbody, hname.symm⟩
  · rw [convertComponent_unnamed h]
    simp [h]

theorem convertComponent_eq_ok {r : ConvertedComponent} : g.convertComponent model c = .ok r ↔
    c.Named ∧ r.name = c.name ∧ r.fields = c.fields.map (g.fieldAlone model) ∧
      r.methods.map .ok = c.methods.map (g.convertMethod model) := by
  by_cases h : c.Named
  · rw [convertComponent_named h, eq_comm (a := r.methods.map _), ← mapM_eq_ok_iff]
    obtain ⟨name, fields, methods⟩ := r
    cases c.methods.mapM (g.convertMethod model) with
    | error e => simp [Except.map]
    | ok ms => simp [Except.map, h, eq_comm]
  · rw [convertComponent_unnamed h]
    simp [h]

theorem convertComponent_succeeds : (∃ r, g.convertComponent model c = .ok r) ↔ c.Named ∧ c.Complete := by
  constructor
  · rintro ⟨r, hr⟩
    obtain ⟨hnamed, -, -, hmethods⟩ := convertComponent_eq_ok.mp hr
    refine ⟨hnamed, fun m hm => ?_⟩
    have hout : g.convertMethod model m ∈ r.methods.map .ok := hmethods ▸ List.mem_map_of_mem hm
    obtain ⟨m', -, hm'⟩ := List.mem_map.mp hout
    exact convertMethod_eq_ok.mp ⟨m', hm'.symm⟩
  · rintro ⟨hnamed, hcomplete⟩
    cases hms : c.methods.mapM (g.convertMethod model) with
    | error e =>
      obtain ⟨before, m, after, heq, -, he⟩ := mapM_eq_error_iff.mp hms
      have hm : m ∈ c.methods := heq ▸ List.mem_append_right _ (List.mem_cons_self ..)
      exact absurd (convertMethod_eq_error.mp he).1 (hcomplete m hm)
    | ok ms => exact ⟨_, by rw [convertComponent_named hnamed, hms]; rfl⟩

/-- Lists that are made of others, member by member with one function, have the same member
    where the others do. -/
theorem getElem_eq_of_map {α β γ : Type} {f : α → γ} {w : β → γ} (hw : ∀ {x y}, w x = w y → x = y) {as as' : List α}
    {bs bs' : List β} (h : bs.map w = as.map f) (h' : bs'.map w = as'.map f) {i j : Nat} (hij : as[i]? = as'[j]?) :
    bs[i]? = bs'[j]? := by
  have hi := congrArg (fun l : List γ => l[i]?) h
  have hj := congrArg (fun l : List γ => l[j]?) h'
  simp only [List.getElem?_map] at hi hj
  rw [hij, ← hj] at hi
  exact Option.map_injective (fun _ _ => hw) hi

end Engine

/-- Component conversion. Whatever the rules, the settings and the model: a component fails for
    its name exactly if it has none, then for the first method without a body, and is else
    converted. Its fields and methods come out in the order of declaration, each as it is
    converted by itself; so two components that are converted have the same result for a
    field or method that both declare, wherever they do. -/
theorem component_memberwise (g : Engine) (model : Model) (c : ComponentDecl) :
    (g.convertComponent model c = .error .missingName ↔ ¬ c.Named) ∧
    (∀ name, g.convertComponent model c = .error (.missingBody name) ↔
      c.Named ∧ ∃ m, c.FirstBodiless m ∧ m.name = name) ∧
    ((∃ r, g.convertComponent model c = .ok r) ↔ c.Named ∧ c.Complete) ∧
    ∀ r, g.convertComponent model c = .ok r →
      r.fields = c.fields.map (g.fieldAlone model) ∧
      r.methods.map .ok = c.methods.map (g.convertMethod model) ∧
      ∀ c' r', g.convertComponent model c' = .ok r' → ∀ i j : Nat,
        (c.fields[i]? = c'.fields[j]? → r.fields[i]? = r'.fields[j]?) ∧
        (c.methods[i]? = c'.methods[j]? → r.methods[i]? = r'.methods[j]?) := by
  refine ⟨⟨fun h hnamed => ?_, Engine.convertComponent_unnamed⟩, fun name => Engine.convertComponent_eq_missingBody,
    Engine.convertComponent_succeeds, fun r hr => ?_⟩
  · rw [Engine.convertComponent_named hnamed] at h
    cases hms : c.methods.mapM (g.convertMethod model) with
    | ok ms => rw [hms] at h; cases h
    | error e =>
      obtain ⟨-, m, -, -, -, he⟩ := mapM_eq_error_iff.mp hms
      rw [hms, (Engine.convertMethod_eq_error.mp he).2] at h
      cases h
  · obtain ⟨-, -, hfields, hmethods⟩ := Engine.convertComponent_eq_ok.mp hr
    refine ⟨hfields, hmethods, fun c' r' hr' i j => ?_⟩
    obtain ⟨-, -, hfields', hmethods'⟩ := Engine.convertComponent_eq_ok.mp hr'
    constructor
    · exact Engine.getElem_eq_of_map (w := id) (fun h => h) (by rw [List.map_id, hfields])
        (by rw [List.map_id, hfields'])
    · exact Engine.getElem_eq_of_map Except.ok.inj hmethods hmethods'

/-- Two methods in either order, then two without a body behind the first, then no name. -/
theorem component_memberwise_wizard :
    let opened : MethodDecl := { name := "Open", body? := some (.block []) }
    let closed : MethodDecl := { name := "Close", body? := some (.expression ⟨{}, .this⟩) }
    let count : FieldDecl := { name := "Count", init? := some ⟨{}, .literal (.number "0")⟩ }
    let wizard (methods : List MethodDecl) : ComponentDecl := ⟨" Wizard", [count], methods⟩
    (∃ r r', ({} : Engine).convertComponent .empty (wizard [opened, closed]) = .ok r ∧
      ({} : Engine).convertComponent .empty (wizard [closed, opened]) = .ok r' ∧ r.methods[0]? = r'.methods[1]?) ∧
    ({} : Engine).convertComponent .empty (wizard [opened, { name := "Next" }, { name := "Back" }]) =
      .error (.missingBody "Next") ∧
    ({} : Engine).convertComponent .empty ⟨" \t", [], [{ name := "Next" }]⟩ = .error .missingName := by
  intro opened closed count wizard
  have hnamed : ∀ methods, (wizard methods).Named := fun _ => ⟨'W', show 'W' ∈ " Wizard".toList by decide, by decide⟩
  have hopened : opened.body? ≠ none := by simp [opened]
  have hclosed : closed.body? ≠ none := by simp [closed]
  refine ⟨?_, ?_, ?_⟩
  · obtain ⟨r, hr⟩ := (component_memberwise {} .empty (wizard [opened, closed])).2.2.1.mpr
      ⟨hnamed _, List.forall_mem_cons.mpr ⟨hopened, List.forall_mem_singleton.mpr hclosed⟩⟩
    obtain ⟨r', hr'⟩ := (component_memberwise {} .empty (wizard [closed, opened])).2.2.1.mpr
      ⟨hnamed _, List.forall_mem_cons.mpr ⟨hclosed, List.forall_mem_singleton.mpr hopened⟩⟩
    obtain ⟨-, -, hsame⟩ := (component_memberwise {} .empty (wizard [opened, closed])).2.2.2 r hr
    exact ⟨r, r', hr, hr', (hsame _ r' hr' 0 1).2 rfl⟩
  · refine ((component_memberwise {} .empty _).2.1 "Next").mpr ⟨hnamed _, { name := "Next" }, ⟨rfl, ?_⟩, rfl⟩
    exact ⟨[opened], [{ name := "Back" }], rfl, List.forall_mem_singleton.mpr hopened⟩
  · refine (component_memberwise {} .empty _).1.mpr ?_
    rintro ⟨c, hc, hblank⟩
    have hall : " \t".toList.all isBlank = true := by decide
    rw [List.all_eq_true.mp hall c hc] at hblank
    cases hblank

end ComponentScript
