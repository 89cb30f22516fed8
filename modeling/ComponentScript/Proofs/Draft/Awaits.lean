/-
  ComponentScript.Proofs.Draft.Awaits — the functions around the awaits of a conversion.

  `await_enclosed`: an expression that awaits, outside of the functions of the source, is in the
  text directly inside a function that chooses by patterns, fills a new object, starts a timer,
  numbers a range or compares by sort keys, or inside none that the converter makes. Of these
  functions only the first is asynchronous, and then always; the await of the other four has no
  asynchronous function around it. Operands that are mentioned more than once are bound outside
  of the functions that share them, unless they are plain, and then they do not await.

  Patterns are not looked into for awaits, so there may be none in them.
-/

import ComponentScript.Proofs.Draft.Placed

namespace ComponentScript

open Draft Converter

/-! ## What awaits -/

namespace Expr

variable {e x y : Expr}

theorem containsAwait_iff : e.containsAwait = true ↔ ∃ x, e.Evaluates x ∧ x.isAwait = true := by
  simp only [containsAwait, List.any_eq_true, mem_walkShallow]

theorem Evaluates.trans (h : e.Evaluates x) (h' : x.Evaluates y) : e.Evaluates y := by
  induction h with
  | self e => exact h'
  | inner hc _ ih => exact .inner hc (ih h')

theorem Evaluates.containsAwait (h : e.Evaluates x) (hx : x.containsAwait = true) : e.containsAwait = true := by
  obtain ⟨y, hy, ha⟩ := containsAwait_iff.mp hx
  exact containsAwait_iff.mpr ⟨y, h.trans hy, ha⟩

theorem Evaluates.mem_nodes (h : e.Evaluates x) : Node.expr x ∈ (Node.expr e).nodes := by
  induction h with
  | self e => exact Node.mem_nodes_self _
  | inner hc _ ih =>
    exact Node.nodes_subset_of_inner (List.mem_map_of_mem (mem_parts_of_mem_shallowChildren hc)) _ ih

theorem containsAwait_eq_false (h : e.isAwait = false) (hchildren : ∀ c ∈ e.shallowChildren, c.containsAwait = false) :
    e.containsAwait = false := by
  rw [Bool.eq_false_iff]
  intro ha
  obtain ⟨x, hx, hawait⟩ := containsAwait_iff.mp ha
  cases hx with
  | self => rw [h] at hawait; cases hawait
  | inner hc hx => exact absurd (containsAwait_iff.mpr ⟨x, hx, hawait⟩) (by simp [hchildren _ hc])

/-- A plain expression does not await. -/
theorem containsAwait_of_isPlain (h : e.isPlain = true) : e.containsAwait = false := by
  fun_induction Expr.isPlain e with
  | case1 | case2 | case3 => exact containsAwait_eq_false rfl (List.forall_mem_nil _)
  | case4 span receiver name ih | case5 span inner ih =>
    exact containsAwait_eq_false rfl fun c hc => List.mem_singleton.mp hc ▸ ih h
  | case6 => cases h

/-- A choice by patterns awaits as a whole if the value or an arm does. -/
theorem containsAwait_of_arm {scrutinee : Expr} {arms : List SwitchArm}
    (hy : y ∈ scrutinee :: arms.flatMap SwitchArm.exprs) (h : y.containsAwait = true) :
    (scrutinee.containsAwait || arms.any SwitchArm.containsAwait) = true := by
  rcases List.mem_cons.mp hy with rfl | hy
  · rw [h, Bool.true_or]
  · obtain ⟨arm, harm, hexpr⟩ := List.mem_flatMap.mp hy
    have hany : arms.any SwitchArm.containsAwait = true :=
      List.any_eq_true.mpr ⟨arm, harm, List.any_eq_true.mpr ⟨y, hexpr, h⟩⟩
    rw [hany, Bool.or_true]

end Expr

/-! ## Functions around awaits -/

/-- A function that the converter may make directly around an await: the one that chooses is
    asynchronous, the others are not. -/
def Made.MayAwait (f : Made) : Prop :=
  f.maker ∈ [Maker.choice, .population, .delay, .range, .comparison] ∧ (f.isAsync = true ↔ f.maker = .choice)

/-- No expression inside a pattern is an await. -/
def Expr.PatternsAwaitless (e : Expr) : Prop :=
  ∀ p, .pattern p ∈ (Node.expr e).nodes → ∀ x, .expr x ∈ (Node.pattern p).nodes → x.isAwait = false

/-- The placement of the parts of an expression: inside it, and what awaits makes it await, or
    is in a function that may await. -/
def Expr.awaitPlacement (e : Expr) : Placement := fun f? q =>
  .expr q.expr ∈ (Node.expr e).nodes ∧
    (q.expr.containsAwait = true → match f? with
      | none => e.containsAwait = true
      | some f => f.MayAwait)

namespace Expr

variable {e y : Expr}

theorem awaitPlacement_outside (h : e.Evaluates y) : e.awaitPlacement.At y := fun _ _ =>
  ⟨h.mem_nodes, h.containsAwait⟩

theorem awaitPlacement_inside (h : e.Evaluates y) {f : Made} (hf : f.MayAwait) : (e.awaitPlacement.inside f).At y :=
  fun _ _ => ⟨h.mem_nodes, fun _ => hf⟩

theorem awaitPlacement_awaitless (h : .expr y ∈ (Node.expr e).nodes) (hy : y.containsAwait = false) (f : Made) :
    e.awaitPlacement.At y ∧ (e.awaitPlacement.inside f).At y :=
  ⟨fun _ _ => ⟨h, fun ha => absurd ha (by simp [hy])⟩, fun _ _ => ⟨h, fun ha => absurd ha (by simp [hy])⟩⟩

theorem PatternsAwaitless.containsAwait (h : e.PatternsAwaitless) {p : Pattern} (hp : .pattern p ∈ (Node.expr e).inner)
    (hy : .expr y ∈ (Node.pattern p).nodes) : y.containsAwait = false := by
  rw [Bool.eq_false_iff]
  intro ha
  obtain ⟨x, hx, hawait⟩ := containsAwait_iff.mp ha
  have hfalse := h p (Node.mem_nodes_of_inner hp) x (Node.nodes_subset hy _ hx.mem_nodes)
  rw [hfalse] at hawait
  cases hawait

theorem PatternsAwaitless.of_mem_nodes (h : e.PatternsAwaitless) (hy : .expr y ∈ (Node.expr e).nodes) :
    y.PatternsAwaitless := fun p hp => h p (Node.nodes_subset hy _ hp)

theorem awaitPlacement_admits (h : e.PatternsAwaitless) : Admits e.awaitPlacement e := by
  have hchild : ∀ {y}, y ∈ e.shallowChildren → e.Evaluates y := fun hy => .inner hy (.self _)
  have hpattern : ∀ {p y}, .pattern p ∈ (Node.expr e).inner → .expr y ∈ (Node.pattern p).nodes → ∀ f,
      e.awaitPlacement.At y ∧ (e.awaitPlacement.inside f).At y := fun hp hy =>
    awaitPlacement_awaitless (Node.nodes_subset_of_inner hp _ hy) (h.containsAwait hp hy)
  refine ⟨fun y hy => awaitPlacement_outside (hchild hy), fun p hp y hy => (hpattern hp hy ⟨.test, false, []⟩).1,
    fun p hp y hy subject => (hpattern hp hy _).2, ?_, ?_⟩
  · rintro scrutinee arms hkind y (hy | ⟨p, hp, hy⟩)
    · intro expected? s
      refine ⟨(hchild hy).mem_nodes, fun ha => ?_⟩
      have harms : e.shallowChildren = scrutinee :: arms.flatMap SwitchArm.exprs := by
        obtain ⟨span, kind⟩ := e
        cases hkind
        rfl
      have hasync := containsAwait_of_arm (harms ▸ hy) ha
      exact ⟨List.mem_cons_self .., fun _ => rfl, fun _ => hasync⟩
    · exact (hpattern hp hy _).2
  · exact fun type? args i? _ y hy => awaitPlacement_inside (hchild hy) (by simp [Made.MayAwait])

theorem awaitPlacement_admitsParts : AdmitsParts e.awaitPlacement e.Evaluates where
  outside := awaitPlacement_outside
  inside h maker hm params := by
    refine awaitPlacement_inside h ?_
    simp only [List.mem_cons, List.not_mem_nil, or_false] at hm
    rcases hm with rfl | rfl | rfl <;> simp [Made.MayAwait]
  plain h hplain maker _ params := (awaitPlacement_awaitless h.mem_nodes (containsAwait_of_isPlain hplain) _).2

end Expr

namespace Engine

variable {settings : Settings} {m : Model} {root : Part}

/-- Every placed part lies inside the root, and is in a function that may await if it awaits. -/
theorem Placed.awaits (h : root.expr.PatternsAwaitless) {f? : Option Made} {q : Part}
    (hq : Placed settings m root f? q) :
    .expr q.expr ∈ (Node.expr root.expr).nodes ∧ ∀ f ∈ f?, q.expr.containsAwait = true → f.MayAwait := by
  induction hq with
  | root => exact ⟨Node.mem_nodes_self _, nofun⟩
  | @inner f? g? p q _ hholds ih =>
    obtain ⟨hp, hf⟩ := ih
    have hpatterns := h.of_mem_nodes hp
    obtain ⟨⟨-, hfits⟩, -⟩ := draftAs_tracks settings m p.expected? (Expr.awaitPlacement_admits hpatterns)
      Expr.awaitPlacement_admitsParts p.session
    obtain ⟨hq, hawaits⟩ := hfits g? q hholds
    refine ⟨Node.nodes_subset hp _ hq, fun f hmem ha => ?_⟩
    cases g? with
    | none => exact hf f hmem (hawaits ha)
    | some g => cases hmem; exact hawaits ha

/-- An await is drafted as the keyword in front of its operand. -/
theorem draftAs_await {e x : Expr} (h : e.kind = .await x) (expected? : Option TypeRef) (s : Session) :
    ((draftAs settings m expected? e).out s).1 = code "await " ++ operand (part ⟨none, x, s⟩) := by
  have hruled : e.isRuled = false := by rw [Expr.isRuled, h]
  rw [draftAs_eq_draftDefault settings m hruled, draftDefault, h]
  rfl

theorem part_mem_draftAll {k : Converter} {es : List Expr} {y : Expr} (hy : y ∈ es) (s : Session) :
    ∃ s', part ⟨none, y, s'⟩ ∈ ((k.draftAll es).out s).1 := by
  induction es generalizing s with
  | nil => cases hy
  | cons e es ih =>
    rw [draftAll, List.mapM_cons]
    rcases List.mem_cons.mp hy with rfl | hy
    · exact ⟨s, List.mem_cons_self ..⟩
    · obtain ⟨s', hs'⟩ := ih hy ((k.draft e).out s).2
      exact ⟨s', List.mem_cons_of_mem _ hs'⟩

/-- What fills a new object of a class is in a function that is not asynchronous. -/
theorem populated_placed {span : Span} {type : TypeRef} {es : List Expr} {y : Expr} (hy : y ∈ es)
    (hclass : (converter { settings := settings } m).creationCategory
      ⟨span, .objectCreation (some type) [] (some (.collection es))⟩ type = .other) (expected? : Option TypeRef)
    (s : Session) :
    ∃ s', Placed settings m ⟨expected?, ⟨span, .objectCreation (some type) [] (some (.collection es))⟩, s⟩
      (some ⟨.population, false, []⟩) ⟨none, y, s'⟩ := by
  obtain ⟨s', hs'⟩ := part_mem_draftAll (k := converter { settings := settings } m) hy s
  refine ⟨s', .ofRoot ?_⟩
  rw [draftAs_eq_draftDefault settings m rfl]
  have hcreation : (converter { settings := settings } m).draftCreation
      ⟨span, .objectCreation (some type) [] (some (.collection es))⟩ (some type) [] (some (.collection es)) =
      (converter { settings := settings } m).draftInstance type.simpleName [] (some (.collection es)) := by
    simp only [draftCreation, draftCopied, pure_bind, hclass]
  show (((converter { settings := settings } m).draftCreation _ (some type) []
    (some (.collection es))).out s).1.Holds _ _
  rw [hcreation]
  refine .inCall (.block (List.mem_append_left _ (List.mem_cons_of_mem _ (List.mem_map_of_mem hs'))) ?_)
  exact .left (.right (.part _))

/-- The value that is chosen by is in a function that is asynchronous if the choice awaits. -/
theorem scrutinee_placed (span : Span) (scrutinee : Expr) (arms : List SwitchArm) (expected? : Option TypeRef)
    (s : Session) :
    ∃ s', Placed settings m ⟨expected?, ⟨span, .switchExpr scrutinee arms⟩, s⟩
      (some ⟨.choice, scrutinee.containsAwait || arms.any SwitchArm.containsAwait, []⟩) ⟨none, scrutinee, s'⟩ := by
  refine ⟨{ s with counter := s.counter + 1 }, .ofRoot ?_⟩
  show (((converter { settings := settings } m).draftChoice scrutinee arms).out s).1.Holds _ _
  simp only [draftChoice, Emit.out_bind, Emit.out_freshName, Emit.out_pure]
  cases scrutinee.containsAwait || arms.any SwitchArm.containsAwait with
  | true => exact .right (.inCall (.block (List.mem_cons_self ..) (.left (.right (.part _)))))
  | false => exact .inCall (.block (List.mem_cons_self ..) (.left (.right (.part _))))

end Engine

/-- The functions that the converter makes around what awaits, with the built-in rules and any
    model. The drafts of the placed parts are those of the conversion. -/
theorem await_enclosed (settings : Settings) (m : Model) (root : Part) (hpatterns : root.expr.PatternsAwaitless) :
    (∀ f? q, Engine.Placed settings m root f? q →
      (((Engine.draftAs settings m q.expected? q.expr).out q.session).1.text (Engine.converter { settings := settings } m),
        ((Engine.draftAs settings m q.expected? q.expr).out q.session).2) =
          ((Engine.converter { settings := settings } m).exprAs q.expected? q.expr).out q.session ∧
      (∀ x, q.expr.kind = .await x → ((Engine.draftAs settings m q.expected? q.expr).out q.session).1 =
        code "await " ++ operand (part ⟨none, x, q.session⟩)) ∧
      ∀ f ∈ f?, q.expr.containsAwait = true →
        f.maker ∈ [Maker.choice, .population, .delay, .range, .comparison] ∧ (f.isAsync = true ↔ f.maker = .choice)) ∧
    (∀ scrutinee arms, root.expr.kind = .switchExpr scrutinee arms → ∃ s, Engine.Placed settings m root
      (some ⟨.choice, scrutinee.containsAwait || arms.any SwitchArm.containsAwait, []⟩) ⟨none, scrutinee, s⟩) ∧
    ∀ type es, root.expr.kind = .objectCreation (some type) [] (some (.collection es)) →
      (Engine.converter { settings := settings } m).creationCategory root.expr type = .other →
        ∀ y ∈ es, ∃ s, Engine.Placed settings m root (some ⟨.population, false, []⟩) ⟨none, y, s⟩ := by
  refine ⟨fun f? q hq => ⟨Engine.draftAs_text settings m _ _ _, fun x hx => Engine.draftAs_await hx _ _, ?_⟩, ?_, ?_⟩
  · exact (hq.awaits hpatterns).2
  · intro scrutinee arms hkind
    obtain ⟨expected?, ⟨span, kind⟩, s⟩ := root
    cases hkind
    exact Engine.scrutinee_placed span scrutinee arms expected? s
  · intro type es hkind hclass y hy
    obtain ⟨expected?, ⟨span, kind⟩, s⟩ := root
    cases hkind
    exact Engine.populated_placed hy hclass expected? s

/-- `new Bag { x is 1, await x }`. -/
def bagOfAwaited : Expr :=
  .of (.objectCreation (some (.named "Bag")) []
    (some (.collection [.of (.patternTest (.ident "x") (.constant (.int 1))), .await (.ident "x")])))

theorem await_enclosed_bag :
    bagOfAwaited.PatternsAwaitless ∧ (Expr.await (.ident "x")).containsAwait = true ∧
      (∃ s, Engine.Placed {} .empty ⟨none, bagOfAwaited, {}⟩ (some ⟨.population, false, []⟩)
          ⟨none, .await (.ident "x"), s⟩ ∧
        ((Engine.draftAs {} .empty none (.await (.ident "x"))).out s).1 =
          code "await " ++ operand (part ⟨none, .ident "x", s⟩)) ∧
      (Engine.convertExpr {} .empty none bagOfAwaited).text =
        "(() => \x7b\n  const __obj0 = new Bag();\n  __obj0.add(x === 1);\n  __obj0.add(await x);\n  return __obj0;\n\x7d)()" := by
  have hpatterns : bagOfAwaited.PatternsAwaitless := by
    intro p hp x hx
    simp only [Node.nodes_eq, Node.inner, Node.parts, Expr.parts, bagOfAwaited, Expr.of, Expr.await, Expr.ident,
      Expr.int, Expr.lit, Pattern.parts, Parts.expr, Parts.initializer_nodes, Parts.arguments_nodes,
      Initializer.exprs, List.map_append, List.map_cons, List.map_nil, List.flatMap_cons, List.flatMap_nil,
      Option.toList_some, List.append_nil, List.cons_append, List.nil_append, List.mem_cons, List.not_mem_nil,
      or_false, reduceCtorEq, false_or, Node.pattern.injEq] at hp
    subst hp
    simp only [Node.nodes_eq, Node.inner, Node.parts, Pattern.parts, Parts.expr, Expr.parts, List.map_cons,
      List.map_nil, List.flatMap_cons, List.flatMap_nil, List.append_nil, List.mem_cons, List.not_mem_nil, or_false,
      reduceCtorEq, false_or, Node.expr.injEq] at hx
    subst hx
    rfl
  have hawaits : (Expr.await (.ident "x")).containsAwait = true := Expr.containsAwait_iff.mpr ⟨_, .self _, rfl⟩
  obtain ⟨hplaced, -, hpopulated⟩ := await_enclosed {} .empty ⟨none, bagOfAwaited, {}⟩ hpatterns
  refine ⟨hpatterns, hawaits, ?_, ?_⟩
  · obtain ⟨s, hs⟩ := hpopulated _ _ rfl rfl (.await (.ident "x")) (by simp)
    exact ⟨s, hs, (hplaced _ _ hs).2.1 _ rfl⟩
  · rw [Engine.builtin_eq]
    decide +kernel

end ComponentScript
