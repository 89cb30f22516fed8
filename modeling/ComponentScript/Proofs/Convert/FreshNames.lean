/-
  ComponentScript.Proofs.Convert.FreshNames — no synthetic name is drawn twice.

  A synthetic name is a stem with a number behind it, and the session counts the numbers.
  Names with the same number differ only if their stems do, and names with different numbers
  can still be spelled alike, unless no stem ends in a digit: then the number can be read off
  the name (`Synthetic.number_eq`).

  `Emit.Takes m s ns`: the step `m`, started in `s`, takes the names `ns`, in this order, be it
  for itself or in the steps it is made of. Every name takes the next number
  (`Takes.numbers`). How a step is made of others cannot be told from what it does, so it may
  have several accounts. They agree in all numbers (`Takes.numbers_unique`), and differ at most
  in the stems of names that the step draws and does not use; what is said of the names that a
  step takes is said of every account. `Emit.Accounted`: from every session the step takes names whose numbers
  can be read. Conversions are accounted for (`converter_accounted`), and so is whatever a
  caller does with one session (`Activity`); `freshNames_distinct`: all names that are taken
  in the course of it are different.
-/

import ComponentScript.Proofs.Convert.Composition
import ComponentScript.Proofs.Convert.LexicalScope
import ComponentScript.Proofs.Script.Operands
import ComponentScript.Proofs.Script.Terms
import ComponentScript.Proofs.Text.Decimal

namespace ComponentScript

/-! ## Names and their numbers -/

structure Synthetic where
  stem : String
  number : Nat

namespace Synthetic

def name (n : Synthetic) : String := s!"__{n.stem}{n.number}"

/-- The number can be told from the stem. -/
def Readable (n : Synthetic) : Prop := Script.endsInDigit n.stem = false

theorem toList_name (n : Synthetic) : n.name.toList = ('_' :: '_' :: n.stem.toList) ++ (toString n.number).toList := by
  show ("__" ++ n.stem ++ toString n.number).toList = _
  simp

theorem number_eq {n i : Synthetic} (hn : n.Readable) (hi : i.Readable) (h : n.name = i.name) :
    n.number = i.number := by
  -- the underscores in front are no digits, should a stem be empty
  have hfront : ∀ {i : Synthetic}, i.Readable → ('_' :: '_' :: i.stem.toList).getLast?.any Char.isDigit = false := by
    intro i hi
    unfold Readable Script.endsInDigit at hi
    cases hs : i.stem.toList with
    | nil => decide
    | cons c cs => simpa [hs] using hi
  have hlist := congrArg String.toList h
  rw [toList_name, toList_name] at hlist
  exact Text.number_eq_of_append_eq (hfront hn) (hfront hi) hlist

theorem isOperand {n : Synthetic} (h : Script.Bare n.stem) : Script.IsOperand n.name := by
  have hdigits : Script.Bare (toString n.number) := by
    intro c hc
    have hdigit := Text.isDigit_of_mem_toString hc
    have hsmall : c.toNat < 128 := by
      simp only [Char.isDigit, Bool.and_eq_true, decide_eq_true_eq] at hdigit
      exact Nat.lt_of_le_of_lt hdigit.2 (by decide)
    rw [Script.isOperandPart, if_pos hsmall, Char.isAlphanum, hdigit, Bool.or_true, Bool.true_or]
  have hbare : Script.Bare n.name := (Script.Bare.append (by decide) h).append hdigits
  refine hbare.isOperand fun hempty => ?_
  have hfront := (String.append_eq_empty_iff.mp (String.append_eq_empty_iff.mp hempty).1).1
  exact absurd hfront (by decide)

theorem isIdentifier {n : Synthetic} (h : Script.isIdentifier n.stem = true) : Script.isIdentifier n.name = true := by
  have hfront : Script.startsIdentifier '_' = true ∧ Script.continuesIdentifier '_' = true := by decide +kernel
  unfold Script.isIdentifier
  rw [toList_name]
  refine Bool.and_eq_true_iff.mpr ⟨hfront.1, List.all_eq_true.mpr ?_⟩
  refine List.forall_mem_append.mpr ⟨List.forall_mem_cons.mpr ⟨hfront.2, ?_⟩, fun c hc => ?_⟩
  · exact Script.continuesIdentifier_of_isIdentifier h
  · simp [Script.continuesIdentifier, Script.isAlphanumeric_of_isDigit (Text.isDigit_of_mem_toString hc)]

/-- No keyword begins with an underscore. -/
theorem notMem_keywords (n : Synthetic) : n.name ∉ Script.keywords := by
  have hunderscore : '_' ∈ n.name.toList := by
    rw [toList_name]
    exact List.mem_cons_self ..
  exact Script.notMem_keywords hunderscore (by decide)

theorem isTerm {n : Synthetic} (h : Script.isIdentifier n.stem = true) : Script.IsTerm n.name :=
  Script.isTerm_of_isIdentifier (isIdentifier h) n.notMem_keywords

end Synthetic

/-! ## The names that a step takes -/

inductive Emit.Takes : {α : Type} → Emit α → Session → List Synthetic → Prop
  | pure {α : Type} (a : α) (s : Session) : Takes (pure a) s []
  | bind {α β : Type} {m : Emit α} {f : α → Emit β} {s : Session} {ns is : List Synthetic} :
      Takes m s ns → Takes (f (m.out s).1) (m.out s).2 is → Takes (m >>= f) s (ns ++ is)
  | look {α : Type} {f : Session → Emit α} {s : Session} {ns : List Synthetic} : Takes (f s) s ns →
      Takes (get >>= f) s ns
  | freshName (stem : String) (s : Session) : Takes (Emit.freshName stem) s [⟨stem, s.counter⟩]
  | bindName (name : String) (s : Session) : Takes (Emit.bindName name) s []
  | report (d : Diagnostic) (s : Session) : Takes (Emit.report d) s []
  | withScope {α : Type} {m : Emit α} {names : List String} {s : Session} {ns : List Synthetic} :
      Takes m (s.openScope names) ns → Takes (Emit.withScope names m) s ns
  | withCatch {α : Type} {m : Emit α} {binding : String} {s : Session} {ns : List Synthetic} :
      Takes m (s.openCatch binding) ns → Takes (Emit.withCatch binding m) s ns

namespace Emit.Takes

variable {α : Type} {m : Emit α} {s : Session} {ns : List Synthetic}

/-- Each name has the next number, and the session has counted them all. -/
theorem numbers (h : m.Takes s ns) :
    ns.map (·.number) = List.range' s.counter ns.length ∧ (m.out s).2.counter = s.counter + ns.length := by
  induction h with
  | pure a s => exact ⟨rfl, rfl⟩
  | @bind α β m f s ns is _ _ ihm ihf =>
    obtain ⟨hns, hm⟩ := ihm
    obtain ⟨his, hf⟩ := ihf
    rw [hm] at his hf
    refine ⟨?_, ?_⟩
    · rw [List.map_append, hns, his, List.length_append, ← List.range'_append_1]
    · rw [Emit.out_bind, hf, List.length_append, Nat.add_assoc]
  | look _ ih => exact ih
  | freshName stem s => exact ⟨rfl, rfl⟩
  | bindName name s =>
    refine ⟨rfl, ?_⟩
    rw [Emit.out_bindName]
    unfold Session.bind
    split <;> rfl
  | report d s => exact ⟨rfl, rfl⟩
  | withScope _ ih => exact ih
  | withCatch _ ih => exact ih

/-- All accounts of a step have the same numbers. -/
theorem numbers_unique (h : m.Takes s ns) {is : List Synthetic} (h' : m.Takes s is) :
    ns.map (·.number) = is.map (·.number) := by
  have hlength : ns.length = is.length := by
    have hcount := h.numbers.2.symm.trans h'.numbers.2
    omega
  rw [h.numbers.1, h'.numbers.1, hlength]

/-- The names that a step takes are different if their numbers can be read. -/
theorem nodup (h : m.Takes s ns) (hr : ∀ n ∈ ns, n.Readable) : (ns.map Synthetic.name).Nodup := by
  have hnumbers : (ns.map (·.number)).Nodup := by
    rw [h.numbers.1]
    exact List.nodup_range'
  rw [List.Nodup, List.pairwise_map] at hnumbers ⊢
  refine hnumbers.imp_of_mem fun {n i} hn hi hne heq => ?_
  exact hne (Synthetic.number_eq (hr n hn) (hr i hi) heq)

end Emit.Takes

/-! ## Steps that are accounted for -/

/-- From every session, the step takes names whose numbers can be read. -/
def Emit.Accounted {α : Type} (m : Emit α) : Prop := ∀ s, ∃ ns, m.Takes s ns ∧ ∀ n ∈ ns, n.Readable

namespace Emit.Accounted

variable {α β : Type} {m : Emit α}

theorem pure (a : α) : (Pure.pure a : Emit α).Accounted := fun s => ⟨[], .pure a s, by simp⟩

theorem bind {f : α → Emit β} (hm : m.Accounted) (hf : ∀ a, (f a).Accounted) : (m >>= f).Accounted := by
  intro s
  obtain ⟨ns, hns, hr⟩ := hm s
  obtain ⟨is, his, hr'⟩ := hf (m.out s).1 (m.out s).2
  exact ⟨ns ++ is, .bind hns his, List.forall_mem_append.mpr ⟨hr, hr'⟩⟩

/-- A step that looks at its session. -/
theorem look {f : Session → Emit β} (hf : ∀ s, (f s).Accounted) : (MonadState.get >>= f).Accounted := by
  intro s
  obtain ⟨ns, hns, hr⟩ := hf s s
  exact ⟨ns, .look hns, hr⟩

theorem freshName {stem : String} (h : Script.endsInDigit stem = false) : (Emit.freshName stem).Accounted :=
  fun s => ⟨[⟨stem, s.counter⟩], .freshName stem s, List.forall_mem_singleton.mpr h⟩

theorem bindName (name : String) : (Emit.bindName name).Accounted := fun s => ⟨[], .bindName name s, by simp⟩

theorem report (d : Diagnostic) : (Emit.report d).Accounted := fun s => ⟨[], .report d s, by simp⟩

theorem withScope (names : List String) (h : m.Accounted) : (Emit.withScope names m).Accounted := by
  intro s
  obtain ⟨ns, hns, hr⟩ := h (s.openScope names)
  exact ⟨ns, .withScope hns, hr⟩

theorem withCatch (binding : String) (h : m.Accounted) : (Emit.withCatch binding m).Accounted := by
  intro s
  obtain ⟨ns, hns, hr⟩ := h (s.openCatch binding)
  exact ⟨ns, .withCatch hns, hr⟩

theorem mapM {f : α → Emit β} {as : List α} (hf : ∀ a ∈ as, (f a).Accounted) : (as.mapM f).Accounted := by
  induction as with
  | nil => exact pure []
  | cons a as ih =>
    rw [List.mapM_cons]
    refine (hf a (List.mem_cons_self ..)).bind fun b => ?_
    exact (ih fun x hx => hf x (List.mem_cons_of_mem _ hx)).bind fun bs => pure _

theorem composes : Emit.Composes Emit.Accounted := ⟨pure, bind, look, freshName, bindName, report, withScope, withCatch⟩

end Emit.Accounted

/-! ## Conversions -/

/-- The conversions of all nodes are accounted for. -/
structure Converter.Accounted (k : Converter) : Prop where
  exprAs (expected? : Option TypeRef) (e : Expr) : (k.exprAs expected? e).Accounted
  stmt (x : Stmt) : (k.stmt x).Accounted

/-- What the rule does with a node is accounted for, if the conversions of the nodes inside
    are. -/
def Rule.Accounted {ν : Type} (r : Rule ν) : Prop := ∀ k : Converter, k.Accounted → ∀ x, (r.convert k x).Accounted

theorem Converter.Accounted.has {k : Converter} (hk : k.Accounted) : k.Has Emit.Accounted := ⟨hk.exprAs, hk.stmt⟩

theorem Calls.accounted {P : Runs} (hk : P.k.Accounted) {α : Type} {ps : Parts} {m m' : Emit α}
    (h : Calls P ps m m') : m.Accounted :=
  h.has Emit.Accounted.composes hk.has

theorem Rule.Calling.accounted {ν : Type} {node : ν → Node} {retext : Retexting → ν → ν} {r : Rule ν}
    (h : r.Calling node retext) : r.Accounted :=
  fun k hk x => h.passes Emit.Accounted.composes k hk.has x

namespace Engine

/-- All rules of the engine are accounted for. -/
structure Accounted (g : Engine) : Prop where
  exprRules : ∀ r ∈ g.exprRules.rules, r.Accounted
  stmtRules : ∀ r ∈ g.stmtRules.rules, r.Accounted

/-- The stems of the built-in rules are letters. -/
theorem builtin_accounted (settings : Settings) : Accounted { settings := settings } where
  exprRules r hr := (Rules.builtinExprs_calling r (RuleSet.mem_ofList.mp hr)).accounted
  stmtRules r hr := (Rules.builtinStmts_calling r (RuleSet.mem_ofList.mp hr)).accounted

variable {g : Engine}

theorem Accounted.passes (hg : g.Accounted) : g.Passes Emit.Accounted where
  exprRules r hr k hk := hg.exprRules r hr k ⟨hk.exprAs, hk.stmt⟩
  stmtRules r hr k hk := hg.stmtRules r hr k ⟨hk.exprAs, hk.stmt⟩

theorem converter_accounted (hg : g.Accounted) (m : Model) : (g.converter m).Accounted := by
  obtain ⟨hexprs, hstmts⟩ := converter_has Emit.Accounted.composes hg.passes m
  exact ⟨hexprs, hstmts⟩

end Engine

theorem Tree.convert_accounted {k : Converter} (hk : k.Accounted) (t : Tree) : (t.convert k).Accounted :=
  Calls.accounted (P := Runs.self k .same fun _ => True) hk t.convert_calls

/-! ## All of a session -/

/-- What a caller does with one session, from one thing to the next. -/
inductive Activity where
  | done
  | fresh (stem : String) (rest : Activity)
  | convert (t : Tree) (rest : Activity)
  | report (d : Diagnostic) (rest : Activity)
  | bind (name : String) (rest : Activity)
  | within (names : List String) (inner rest : Activity)
  | catching (binding : String) (inner rest : Activity)

namespace Activity

/-- The stems that the caller asks names for. -/
def stems : Activity → List String
  | done => []
  | fresh stem rest => stem :: rest.stems
  | convert _ rest | report _ rest | bind _ rest => rest.stems
  | within _ inner rest | catching _ inner rest => inner.stems ++ rest.stems

/-- The names that the caller gets. -/
def perform (k : Converter) : Activity → Emit (List String)
  | done => return []
  | fresh stem rest => do
    let name ← Emit.freshName stem
    return name :: (← rest.perform k)
  | convert t rest => do
    let _ ← t.convert k
    rest.perform k
  | report d rest => do
    Emit.report d
    rest.perform k
  | bind name rest => do
    Emit.bindName name
    rest.perform k
  | within names inner rest => do
    let names ← Emit.withScope names (inner.perform k)
    return names ++ (← rest.perform k)
  | catching binding inner rest => do
    let names ← Emit.withCatch binding (inner.perform k)
    return names ++ (← rest.perform k)

end Activity

/-- From the session, the step takes names whose numbers can be read, those that it gives
    among them, in order. -/
def Emit.GivesNames (m : Emit (List String)) (s : Session) : Prop :=
  ∃ ns, m.Takes s ns ∧ (∀ n ∈ ns, n.Readable) ∧ (m.out s).1.Sublist (ns.map Synthetic.name)

namespace Emit.GivesNames

variable {m n : Emit (List String)} {s : Session}

/-- Behind a step that is accounted for. -/
theorem behind {α : Type} {l : Emit α} (hl : l.Accounted) (hn : n.GivesNames (l.out s).2) :
    (l >>= fun _ => n).GivesNames s := by
  obtain ⟨is, his, hi⟩ := hl s
  obtain ⟨ns, hns, hr, hsub⟩ := hn
  refine ⟨is ++ ns, .bind his hns, List.forall_mem_append.mpr ⟨hi, hr⟩, ?_⟩
  rw [List.map_append]
  exact hsub.trans (List.sublist_append_right _ _)

theorem append (hm : m.GivesNames s) (hn : n.GivesNames (m.out s).2) :
    (m >>= fun names => n >>= fun more => pure (names ++ more)).GivesNames s := by
  obtain ⟨is, his, hi, hsub⟩ := hm
  obtain ⟨ns, hns, hr, hsub'⟩ := hn
  refine ⟨is ++ (ns ++ []), .bind his (.bind hns (.pure _ _)), ?_⟩
  rw [List.append_nil, List.map_append]
  exact ⟨List.forall_mem_append.mpr ⟨hi, hr⟩, hsub.append hsub'⟩

theorem fresh {stem : String} (h : Script.endsInDigit stem = false)
    (hn : n.GivesNames ((Emit.freshName stem).out s).2) :
    (Emit.freshName stem >>= fun name => n >>= fun more => pure (name :: more)).GivesNames s := by
  obtain ⟨ns, hns, hr, hsub⟩ := hn
  refine ⟨[⟨stem, s.counter⟩] ++ (ns ++ []), .bind (.freshName stem s) (.bind hns (.pure _ _)), ?_⟩
  rw [List.append_nil]
  exact ⟨List.forall_mem_cons.mpr ⟨h, hr⟩, hsub.cons_cons _⟩

theorem withScope {names : List String} (hm : m.GivesNames (s.openScope names)) :
    (Emit.withScope names m).GivesNames s := by
  obtain ⟨ns, hns, hr, hsub⟩ := hm
  exact ⟨ns, .withScope hns, hr, hsub⟩

theorem withCatch {binding : String} (hm : m.GivesNames (s.openCatch binding)) :
    (Emit.withCatch binding m).GivesNames s := by
  obtain ⟨ns, hns, hr, hsub⟩ := hm
  exact ⟨ns, .withCatch hns, hr, hsub⟩

end Emit.GivesNames

theorem Activity.perform_givesNames {k : Converter} (hk : k.Accounted) {a : Activity}
    (ha : ∀ stem ∈ a.stems, Script.endsInDigit stem = false) : ∀ s, (a.perform k).GivesNames s := by
  induction a with
  | done => exact fun s => ⟨[], .pure _ s, by simp, List.Sublist.refl _⟩
  | fresh stem rest ih =>
    obtain ⟨hstem, hrest⟩ := List.forall_mem_cons.mp ha
    exact fun s => .fresh hstem (ih hrest _)
  | convert t rest ih => exact fun s => .behind (t.convert_accounted hk) (ih ha _)
  | report d rest ih => exact fun s => .behind (.report d) (ih ha _)
  | bind name rest ih => exact fun s => .behind (.bindName name) (ih ha _)
  | within names inner rest ihinner ihrest =>
    obtain ⟨hinner, hrest⟩ := List.forall_mem_append.mp ha
    exact fun s => .append (.withScope (ihinner hinner _)) (ihrest hrest _)
  | catching binding inner rest ihinner ihrest =>
    obtain ⟨hinner, hrest⟩ := List.forall_mem_append.mp ha
    exact fun s => .append (.withCatch (ihinner hinner _)) (ihrest hrest _)

/-- Fresh names. With the built-in rules and any rules that are accounted for, in every model
    and from every session: let a caller ask for names by stems that do not end in a digit and
    convert trees in between, in any order and under any scopes. Then the names that are taken
    in the course of it, for the caller and inside of the conversions, can be listed, and in
    every such list whose stems do not end in a digit all names are different. -/
theorem freshNames_distinct (g : Engine) (hg : g.Accounted) (m : Model) (a : Activity)
    (ha : ∀ stem ∈ a.stems, Script.endsInDigit stem = false) (s : Session) :
    (∃ ns, (a.perform (g.converter m)).Takes s ns ∧ (∀ n ∈ ns, n.Readable) ∧
        ((a.perform (g.converter m)).out s).1.Sublist (ns.map Synthetic.name)) ∧
      ∀ ns, (a.perform (g.converter m)).Takes s ns → (∀ n ∈ ns, n.Readable) → (ns.map Synthetic.name).Nodup :=
  ⟨Activity.perform_givesNames (Engine.converter_accounted hg m) ha s, fun _ hns hr => hns.nodup hr⟩

theorem Rule.fixed_accounted {ν : Type} (kindName : ν → String) (name : String) (priority : Int)
    (kinds? : Option (List String)) (output : String) {stem : String} (h : Script.endsInDigit stem = false) :
    (Rule.fixed kindName name priority kinds? output (some stem)).Accounted :=
  fun _ _ _ => (Emit.Accounted.freshName h).bind fun _ => .pure _

/-- A name, a new object that draws one for itself and one for a literal by a rule of one's
    own, and a name by another stem. -/
theorem freshNames_distinct_between :
    let g : Engine := { exprRules := .ofList (.fixed Expr.kindName "named-literal" 200 (some ["literal"]) "held"
      (some "n") :: Rules.builtinExprs) }
    let bag : Expr := ⟨{}, .objectCreation (some ⟨"Bag", [], false⟩) [] (some (.collection [.int 1]))⟩
    let a : Activity := .fresh "obj" (.convert (.expr none bag) (.within ["x"] (.fresh "" .done) .done))
    g.Accounted ∧ (∀ stem ∈ a.stems, Script.endsInDigit stem = false) ∧
      ((a.perform (g.converter Model.empty)).out {}).1 = ["__obj0", "__3"] ∧
      ∃ ns, (a.perform (g.converter Model.empty)).Takes {} ns ∧ (ns.map Synthetic.name).Nodup := by
  intro g bag a
  have hg : g.Accounted := by
    refine ⟨fun r hr => ?_, (Engine.builtin_accounted {}).stmtRules⟩
    rcases List.mem_cons.mp (RuleSet.mem_ofList.mp hr) with rfl | hr
    · exact Rule.fixed_accounted _ _ _ _ _ rfl
    · exact (Rules.builtinExprs_calling r hr).accounted
  have ha : ∀ stem ∈ a.stems, Script.endsInDigit stem = false := by
    simp only [a, Activity.stems, List.append_nil, List.forall_mem_cons]
    exact ⟨rfl, rfl, List.forall_mem_nil _⟩
  obtain ⟨⟨ns, hns, hr, -⟩, hall⟩ := freshNames_distinct g hg Model.empty a ha {}
  refine ⟨hg, ha, ?_, ns, hns, hall ns hns hr⟩
  have hexprs : g.exprRules = ⟨.fixed Expr.kindName "named-literal" 200 (some ["literal"]) "held" (some "n") ::
      Rules.builtinExprs⟩ := congrArg RuleSet.mk (List.mergeSort_of_pairwise (by decide))
  have hstmts : g.stmtRules = ⟨Rules.builtinStmts⟩ := congrArg Engine.stmtRules (Engine.builtin_eq {})
  show ((a.perform (Engine.converter ⟨g.exprRules, g.stmtRules, {}⟩ Model.empty)).out {}).1 = _
  rw [hexprs, hstmts]
  decide +kernel

end ComponentScript
