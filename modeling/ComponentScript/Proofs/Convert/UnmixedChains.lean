/-
  ComponentScript.Proofs.Convert.UnmixedChains — `??` and the logical operators in one chain.

  In a wrapped tree, the level of an expression bounds what its text does to the chain it stands
  in (`Expr.level_le_outer`), and an operand is of the level of its place. So the operands of
  each node fit into their chains, apart from the slips that `Node.Apart` excludes.

  `coalesce_not_mixed`: without those slips no chain is joined both by `??` and by a logical
  operator; with a test of two parts behind `??`, or with an alternative for the missing key
  of a lookup, one is.
-/

import ComponentScript.Proofs.Convert.FlatTemplates
import ComponentScript.Proofs.Convert.NodeCalls
import ComponentScript.Proofs.Syntax.Precedence

namespace ComponentScript

open Script Text

/-! ## Shapes and levels -/

/-- The highest level of an expression whose text does as much to its chain. -/
def Script.Shape.level : Shape → Level
  | .neutral => .primary
  | .joined .logical => .relational
  | .joined .coalesce => .coalesce
  | .whole => .conditional

namespace Script.Shape

variable {o o' : Shape} {l : Level}

/-- Two operands of an operator that joins no chain cannot be joined by both kinds. -/
theorem le_level_sup (h : l ≤ o.level) (h' : l ≤ o'.level) (hl : ¬ l ≤ .coalesce) : l ≤ (o.sup o').level := by
  unfold sup
  split
  · exact h'
  split
  · exact h
  · next hle hle' =>
    -- neither is below the other, so one of them is joined by `??`, which is too low for `l`
    rcases o with _ | ⟨_ | _⟩ | _
    · exact absurd (neutral_le _) hle
    · exact absurd h hl
    · rcases o' with _ | ⟨_ | _⟩ | _
      · exact absurd (neutral_le _) hle'
      · exact absurd h' hl
      · exact absurd (le_refl _) hle
      · exact h'
    · exact h

theorem eq_neutral_of_level (h : .shift ≤ o.level) : o = .neutral := by
  rcases o with _ | ⟨_ | _⟩ | _
  · rfl
  all_goals exact absurd h (by decide)

/-- Above `??` an expression is joined by the logical operators at most. -/
theorem le_logical_of_level (h : .or ≤ o.level) : o ≤ .joined .logical := by
  rcases o with _ | ⟨_ | _⟩ | _
  · exact neutral_le _
  · exact absurd h (by decide)
  · exact le_refl _
  · exact absurd h (by decide)

theorem le_coalesce_of_level (h : .coalesce ≤ o.level) (ho : o ≠ .joined .logical) : o ≤ .joined .coalesce := by
  rcases o with _ | ⟨_ | _⟩ | _
  · exact neutral_le _
  · exact le_refl _
  · exact absurd rfl ho
  · exact absurd h (by decide)

end Script.Shape

theorem BinaryOp.level_le {op : BinaryOp} {a : Joiner} (h : op.joiner? = some a) :
    op.level ≤ (Shape.joined a).level := by
  cases op <;> cases h <;> decide

theorem BinaryOp.not_level_le {op : BinaryOp} (h : op.joiner? = none) : ¬ op.level ≤ .coalesce := by
  cases op <;> first | cases h; done | decide

section

variable (m : Model)

/-- A call that becomes the assignment of an entry. -/
def Expr.storesEntry (e : Expr) : Bool :=
  match e.call? with
  | some ⟨some receiver, name, _, args⟩ => name = "Add" && args.length = 2 && m.mayBeMap receiver e
  | _ => false

/-- No operand of the node becomes an assignment, no operand of `??` shows a test of several
    parts, and what a map gives for a missing key fits behind `??`. -/
structure Node.Apart (x : Node) : Prop where
  entries : ∀ p ∈ x.operands, p.2.storesEntry m = false
  tests : ∀ span left right, x = .expr ⟨span, .binary .coalesce left right⟩ →
    left.outerIn m .coalesce ≠ .joined .logical ∧ right.outerIn m .coalesce ≠ .joined .logical
  fallbacks : ∀ e, x = .expr e → e.FallbackChains m

end

variable {m : Model} {e : Expr}

/-- Without operands there is nothing to slip. -/
theorem Node.Apart.of_leaf (h : e.operands = []) : (Node.expr e).Apart m := by
  obtain ⟨span, kind⟩ := e
  refine ⟨?_, ?_, ?_⟩
  · rw [Node.operands, h]
    exact List.forall_mem_nil _
  · rintro _ _ _ ⟨⟩
    cases h
  · rintro _ ⟨⟩
    cases kind with
    | invocation => cases h
    | _ => trivial

/-- An operand does to its chain what the level of its place allows, if what it does is bounded
    by its own level. -/
theorem Node.le_outer_of_operand {x : Node} (hw : x.Everywhere Node.Wrapped) (ha : x.Everywhere (Node.Apart m))
    {l : Level} {y : Expr} (hy : (l, y) ∈ x.operands)
    (hbound : (Node.expr y).Everywhere Node.Wrapped → (Node.expr y).Everywhere (Node.Apart m) →
    y.storesEntry m = false →
      y.level ≤ (y.outer m).level) : l ≤ (y.outer m).level :=
  Level.le_trans (hw.1.operands _ hy) (hbound (hw.operand hy) (ha.operand hy) (ha.1.entries _ hy))

/-- What an expression does to its chain is bounded by its level. -/
theorem Expr.level_le_outer (hw : (Node.expr e).Everywhere Node.Wrapped) (ha : (Node.expr e).Everywhere (Node.Apart m))
    (hstores : e.storesEntry m = false) : e.level ≤ (e.outer m).level := by
  induction e using Expr.outer.induct (m := m) with
  | case1 span op left right a hop =>
    rw [Expr.outer, hop]
    exact BinaryOp.level_le hop
  | case2 span op left right hop ihleft ihright =>
    rw [Expr.outer, hop]
    refine Shape.le_level_sup ?_ ?_ (BinaryOp.not_level_le hop)
    · exact Node.le_outer_of_operand hw ha (List.mem_cons_self ..) ihleft
    · exact Node.le_outer_of_operand hw ha (List.mem_cons_of_mem _ (List.mem_cons_self ..)) ihright
  | case3 | case4 | case5 => rw [Expr.outer]; exact Nat.le_of_ble_eq_true rfl
  | case6 span type operand ih =>
    rw [Expr.outer]
    exact Node.le_outer_of_operand hw ha (List.mem_cons_self ..) ih
  | case7 span operand pattern hplain =>
    rw [Expr.outer, if_pos hplain, Pattern.outer]
    split
    · exact Nat.le_refl _
    · exact Level.le_primary _
  | case8 span operand pattern hplain =>
    rw [Expr.outer, if_neg hplain]
    exact Level.le_primary _
  | case9 span span' receiver name typeArgs args htransparent ih =>
    rw [Expr.outer, if_pos htransparent]
    have hcallee : (Level.primary, ⟨span', .member receiver name⟩) ∈
        (Node.expr ⟨span, .invocation ⟨span', .member receiver name⟩ typeArgs args⟩).operands := List.mem_cons_self ..
    exact Node.le_outer_of_operand (hw.operand hcallee) (ha.operand hcallee) (List.mem_cons_self ..) ih
  | case10 span span' receiver name typeArgs args htransparent hadd =>
    exact absurd (hadd.symm.trans hstores) (by decide)
  | case11 span span' receiver name typeArgs args htransparent hadd =>
    rw [Expr.outer, if_neg htransparent, if_neg hadd]
    exact Level.le_primary _
  | case12 e hbinary hassignment hconditional hlambda hcast htest hcall =>
    rw [Expr.outer]
    · exact Level.le_primary _
    all_goals assumption

/-! ## Whole trees -/

theorem Node.operand_le_outer {x : Node} (hw : x.Everywhere Node.Wrapped) (ha : x.Everywhere (Node.Apart m)) {l : Level}
    {y : Expr} (hy : (l, y) ∈ x.operands) : l ≤ (y.outer m).level :=
  Node.le_outer_of_operand hw ha hy Expr.level_le_outer

/-- The operands of an operator fit into one chain. -/
theorem BinaryOp.chains_of_wrapped {span : Span} {op : BinaryOp} {left right : Expr}
    (hw : (Node.expr ⟨span, .binary op left right⟩).Everywhere Node.Wrapped)
    (ha : (Node.expr ⟨span, .binary op left right⟩).Everywhere (Node.Apart m)) : op.Chains m left right := by
  have hleft : op.level ≤ (left.outer m).level := Node.operand_le_outer hw ha (List.mem_cons_self ..)
  have hright : op.level ≤ (right.outer m).level :=
    Node.operand_le_outer hw ha (List.mem_cons_of_mem _ (List.mem_cons_self ..))
  have houterIn : ∀ x : Expr, op.level ≤ (x.outer m).level → op.level ≤ (x.outerIn m op).level := by
    intro x hx
    unfold Expr.outerIn
    split
    · exact Level.le_primary _
    · exact hx
  unfold Chains
  cases hop : op.joiner? with
  | none =>
    intro hwhole
    have hsup := Shape.le_level_sup hleft hright (not_level_le hop)
    rw [hwhole] at hsup
    exact not_level_le hop (Level.le_trans hsup (by decide))
  | some a =>
    cases op with
    | coalesce =>
      cases hop
      obtain ⟨hleftTest, hrightTest⟩ := ha.1.tests span left right rfl
      exact ⟨Shape.le_coalesce_of_level (houterIn left hleft) hleftTest,
        Shape.le_coalesce_of_level (houterIn right hright) hrightTest⟩
    | and | or =>
      cases hop
      exact ⟨Shape.le_logical_of_level (Level.le_trans (by decide) (houterIn left hleft)),
        Shape.le_logical_of_level (Level.le_trans (by decide) (houterIn right hright))⟩
    | _ => cases hop

/-- In a wrapped tree without those slips, the operands of each node fit into their chains. -/
theorem Node.chained_of_wrapped {x : Node} (hw : x.Everywhere Node.Wrapped) (ha : x.Everywhere (Node.Apart m)) :
    x.Chained m := by
  have hneutral : ∀ l y, .shift ≤ l → (l, y) ∈ x.operands → y.outer m = .neutral := fun l y hl hy =>
    Shape.eq_neutral_of_level (Level.le_trans hl (Node.operand_le_outer hw ha hy))
  cases x with
  | expr e =>
    obtain ⟨span, kind⟩ := e
    cases kind with
    | binary op left right => exact BinaryOp.chains_of_wrapped hw ha
    | assignment op target value => exact hneutral .unary target (by decide) (List.mem_cons_self ..)
    | invocation => exact ha.1.fallbacks _ rfl
    | _ => trivial
  | stmt s => trivial
  | pattern p =>
    cases p with
    | constant value => exact hneutral .shift value (by decide) (List.mem_cons_self ..)
    | relational op value =>
      refine ⟨?_, hneutral .shift value (by decide) (List.mem_cons_self ..)⟩
      have hop := hw.1.signs op value rfl
      cases op <;> first | rfl | cases hop
    | _ => trivial

/-- An expression as it is read from source text, with flat templates and without those slips. -/
structure Expr.Tame (m : Model) (e : Expr) : Prop extends e.Flat m false where
  wrapped : (Node.expr e).Everywhere Node.Wrapped
  apart : (Node.expr e).Everywhere (Node.Apart m)

theorem Expr.Tame.flat (h : e.Tame m) : e.Flat m true where
  spelled := h.spelled
  templates := h.templates
  chains _ := Node.everywhere_iff.mpr fun _ _ hy => Node.chained_of_wrapped (h.wrapped.inside hy) (h.apart.inside hy)

theorem Expr.Tame.inside {x : Expr} {b : Scopes} (h : e.Tame m) (hx : Within [([], .expr e)] b (.expr x)) :
    x.Tame m where
  toFlat := h.toFlat.inside hx
  wrapped := h.wrapped.inside hx
  apart := h.apart.inside hx

/-! ## Mixed chains -/

namespace Script

/-- Nowhere in the text, on no level of brackets, is one chain of operators joined both by `??`
    and by `&&` or `||`. -/
def Unmixed (t : String) : Prop := ∃ r, ({} : Reading).run true t.toList = .ok r

/-- Reading the text, a chain turns out to be joined by both. -/
def Mixed (t : String) : Prop := ({} : Reading).run true t.toList = .error .mixed

/-- A strict reader of whole texts. -/
abbrev Watch.full : Watch := ⟨true, true⟩

theorem Watch.Whole.unmixed {t : String} (h : Watch.full.Whole t) : Unmixed t := ⟨_, h []⟩

/-- What is joined by `??` goes on with a logical operator. -/
theorem mixed_of_leads {t u sign : String} {fs : List (Frame × Option Joiner)}
    (ht : Watch.full.Leads {} t (Watch.full.code (some .coalesce) fs)) (hu : Watch.full.Neutral u)
    (hsign : sign = " && " ∨ sign = " || ") (v : String) : Mixed (t ++ u ++ sign ++ v) := by
  have hoperand : ({} : Reading).run true (t ++ u).toList = .ok (Watch.full.code (some .coalesce) fs) := ht.hole hu
  have hmixed : (Watch.full.code (some .coalesce) fs).run true sign.toList = .error .mixed := by
    rcases hsign with rfl | rfl <;> rfl
  rw [Mixed, String.append_assoc, String.toList_append, Reading.run_append_of hoperand, String.toList_append,
    Reading.run_append, hmixed]
  rfl

theorem leads_coalesce {t : String} (ht : Watch.full.Bounded .coalesce t) :
    Watch.full.Leads {} (t ++ " ?? ") (Watch.full.code (some .coalesce) []) := by
  obtain ⟨link', hlink, ht⟩ := ht none [] (by rintro _ ⟨⟩)
  refine ht.append (.start rfl ?_)
  cases link' with
  | none => rfl
  | some b =>
    obtain rfl := hlink b rfl
    rfl

/-- The text of a lookup, up to the value for a missing key. -/
theorem leads_lookup {map index : String} (hmap : Watch.full.Neutral map) (hindex : Watch.full.Whole index) :
    Watch.full.Leads {} ("(" ++ map ++ "[" ++ index ++ "] ?? ")
      (Watch.full.code (some .coalesce) [(.paren, none)]) := by
  have hentry : Watch.full.Leads {} ("(" ++ map ++ "[" ++ index) _ :=
    (Watch.Leads.start rfl rfl).stated hmap.stated |>.lit rfl rfl |>.inner hindex
  exact hentry.append (.start rfl rfl)

end Script

/-- The value that a map has for a key, or else the given one. -/
def Expr.lookup (span span' : Span) (receiver key fallback : Expr) : Expr :=
  ⟨span, .invocation ⟨span', .member receiver "GetValueOrDefault"⟩ [] [{ expr := key }, { expr := fallback }]⟩

namespace Engine

variable {s : Session}

theorem binaryOperand_reads (op : BinaryOp) (h : e.Flat m true) (hs : s.Tidy) :
    EmitsAt s (Watch.full.Shaped (e.outerIn m op)) ((({} : Engine).converter m).binaryOperand op e) := by
  obtain ⟨htext, htidy⟩ := flat_reads_plain h hs
  refine ⟨?_, htidy⟩
  show Watch.Shaped _ (if _ then _ else _) (if Converter.mixesCoalesce op e then _ else _)
  split
  · exact htext.whole.parens.shaped _
  · exact htext

variable (m s)

/-- Another pattern that has to match goes behind the test. -/
theorem patternTest_and (span : Span) {operand : Expr} (hplain : operand.isPlain = true) (p q : Pattern) :
    ∃ v, (((({} : Engine).converter m).exprAs none ⟨span, .patternTest operand (.and p q)⟩).out s).1 =
      (((({} : Engine).converter m).exprAs none ⟨span, .patternTest operand p⟩).out s).1 ++ " && " ++ v := by
  have hdefault : ∀ pattern, (({} : Engine).converter m).exprAs none ⟨span, .patternTest operand pattern⟩ = (do
      let subject ← (({} : Engine).converter m).operand operand
      (({} : Engine).converter m).patternTest subject pattern) := by
    intro pattern
    rw [exprAs_eq_defaultExpr {} m rfl]
    show (({} : Engine).converter m).isTest operand pattern = _
    rw [Converter.isTest, hplain]
    rfl
  rw [hdefault, hdefault]
  simp only [Emit.out_bind, Converter.patternTest, Emit.out_pure]
  exact ⟨_, rfl⟩

variable {m s}

/-- A test of two parts is left as it is behind `??`. -/
theorem coalesce_test_mixed {span span' : Span} {left operand : Expr} {p : Pattern} (hs : s.Tidy)
    (he : Expr.Tame m ⟨span, .binary .coalesce left ⟨span', .patternTest operand p⟩⟩) (hplain : operand.isPlain = true)
    (hp : p.joins = false) (q : Pattern) :
    Mixed (((({} : Engine).converter m).exprAs none
      ⟨span, .binary .coalesce left ⟨span', .patternTest operand (.and p q)⟩⟩).out s).1 := by
  have hleft : left.Tame m := he.inside (.inside (.here (List.mem_cons_self ..)))
  have htest : Expr.Tame m ⟨span', .patternTest operand p⟩ :=
    he.inside (.inside (.here (List.mem_cons_of_mem _ (List.mem_cons_self ..))))
  have hchains : BinaryOp.Chains m .coalesce left ⟨span', .patternTest operand p⟩ :=
    BinaryOp.chains_of_wrapped he.wrapped he.apart
  have hneutral : Expr.outer m ⟨span', .patternTest operand p⟩ = .neutral := by
    simp [Expr.outer, hplain, Pattern.outer, hp]
  obtain ⟨hl, hs'⟩ := binaryOperand_reads .coalesce hleft.flat hs
  obtain ⟨hr, -⟩ := flat_reads_plain htest.flat hs'
  rw [hneutral] at hr
  obtain ⟨v, hv⟩ :=
    patternTest_and m (((({} : Engine).converter m).binaryOperand .coalesce left).out s).2 span' hplain p q
  have hright : ∀ pattern, (({} : Engine).converter m).binaryOperand .coalesce ⟨span', .patternTest operand pattern⟩ =
      (({} : Engine).converter m).exprAs none ⟨span', .patternTest operand pattern⟩ := fun _ => bind_pure _
  have hsign : " " ++ BinaryOp.coalesce.symbol ++ " " = " ?? " := rfl
  rw [exprAs_binary]
  simp only [hright, hv, hsign, ← String.append_assoc]
  exact mixed_of_leads (leads_coalesce (hl.bounded fun _ => hchains.1)) hr (.inl rfl) v

variable (m s) in
/-- The text of a lookup, from the texts of its parts. -/
theorem lookup_text {span span' : Span} {receiver key fallback : Expr}
    (hrule : ({} : Engine).exprRules.find? ⟨{}, m⟩ s (.lookup span span' receiver key fallback) = some Rules.mapLookup) :
    let k := ({} : Engine).converter m
    let map := (k.operand receiver).out s
    let index := (k.expr key).out map.2
    ((k.exprAs none (.lookup span span' receiver key fallback)).out s).1 =
      "(" ++ map.1 ++ "[" ++ index.1 ++ "] ?? " ++ ((k.expr fallback).out index.2).1 ++ ")" := by
  intro k map index
  have hout : (k.exprAs none (.lookup span span' receiver key fallback)).out s =
      (Rules.mapLookup.convert k (.lookup span span' receiver key fallback)).out s :=
    exprAs_out_of_find (builtin_local {}) none hrule
  have hconvert : Rules.mapLookup.convert k (.lookup span span' receiver key fallback) = (do
      let map ← k.operand receiver
      let args ← k.arguments [{ expr := key }, { expr := fallback }]
      return Rules.mapOperation map "GetValueOrDefault" args) := rfl
  have hoperation : ∀ map key fallback, Rules.mapOperation map "GetValueOrDefault" [key, fallback] =
      "(" ++ map ++ "[" ++ key ++ "] ?? " ++ fallback ++ ")" := fun _ _ _ => rfl
  rw [hout, hconvert]
  simp only [Converter.arguments, List.mapM_cons, List.mapM_nil, Emit.out_bind, Emit.out_pure, hoperation]
  rfl

/-- An alternative is left as it is behind the `??` of a lookup. -/
theorem lookup_or_mixed {span span' : Span} {receiver key a : Expr} (hs : s.Tidy)
    (he : (Expr.lookup span span' receiver key a).Tame m) (ha : a.outer m = .neutral) (span'' : Span) (b : Expr)
    (hrule : ({} : Engine).exprRules.find? ⟨{}, m⟩ s (.lookup span span' receiver key ⟨span'', .binary .or a b⟩) =
      some Rules.mapLookup) :
    Mixed (((({} : Engine).converter m).exprAs none
      (.lookup span span' receiver key ⟨span'', .binary .or a b⟩)).out s).1 := by
  let k := ({} : Engine).converter m
  have hcallee : Within (Node.expr (Expr.lookup span span' receiver key a)).parts []
      (.expr ⟨span', .member receiver "GetValueOrDefault"⟩) := .here (List.mem_cons_self ..)
  have hreceiver : receiver.Tame m := he.inside (hcallee.trans (.here (List.mem_cons_self ..))).inside
  have hkey : key.Tame m := he.inside (.inside (.here (List.mem_cons_of_mem _ (List.mem_cons_self ..))))
  have hfallback : a.Tame m :=
    he.inside (.inside (.here (List.mem_cons_of_mem _ (List.mem_cons_of_mem _ (List.mem_cons_self ..)))))
  obtain ⟨hmap, hs₁⟩ : EmitsAt s Watch.full.Neutral (k.operand receiver) := by
    obtain ⟨ht, hs'⟩ := flat_reads_plain hreceiver.flat hs
    exact ⟨ht.whole.operand, hs'⟩
  obtain ⟨hindex, hs₂⟩ := flat_reads_plain hkey.flat hs₁
  obtain ⟨hfirst, -⟩ := binaryOperand_reads .or hfallback.flat hs₂
  have hneutral : a.outerIn m .or = .neutral := by
    unfold Expr.outerIn
    split
    · rfl
    · exact ha
  rw [hneutral] at hfirst
  have hentry := leads_lookup hmap hindex.whole
  have hor : ∀ r : Session,
      ((k.expr ⟨span'', .binary .or a b⟩).out r).1 = ((k.binaryOperand .or a).out r).1 ++ " || " ++ _ :=
    fun r => congrArg Prod.fst (exprAs_binary {} m none span'' .or a b r)
  rw [lookup_text m s hrule, hor, ← String.append_assoc, ← String.append_assoc, String.append_assoc]
  exact mixed_of_leads hentry hfirst (.inr rfl) _

end Engine

/-- Where `??` and the logical operators meet. With the built-in rules and the default settings,
    whatever the model:
    - in the text of a tame expression no chain is joined by both;
    - a test of several parts is not put in parentheses behind `??`: where the test of a plain
      operand is the right side of a tame `??`, one more pattern makes the chain a mixed one;
    - nor is the value for a missing key: in a tame lookup, an alternative to it does. -/
theorem coalesce_not_mixed (m : Model) (s : Session) (hs : s.Tidy) :
    let text (expected? : Option TypeRef) (e : Expr) := (((({} : Engine).converter m).exprAs expected? e).out s).1
    (∀ expected? e, TypeInert expected? → e.Tame m → Unmixed (text expected? e)) ∧
    (∀ span span' left operand p q, Expr.Tame m ⟨span, .binary .coalesce left ⟨span', .patternTest operand p⟩⟩ →
      operand.isPlain = true → p.joins = false →
      Mixed (text none ⟨span, .binary .coalesce left ⟨span', .patternTest operand (.and p q)⟩⟩)) ∧
    ∀ span span' span'' receiver key a b, (Expr.lookup span span' receiver key a).Tame m → a.outer m = .neutral →
      ({} : Engine).exprRules.find? ⟨{}, m⟩ s (.lookup span span' receiver key ⟨span'', .binary .or a b⟩) =
        some Rules.mapLookup →
      Mixed (text none (.lookup span span' receiver key ⟨span'', .binary .or a b⟩)) := by
  intro text
  refine ⟨fun expected? e hx he => ?_, fun span span' left operand p q he hplain hp => ?_,
    fun span span' span'' receiver key a b he ha hrule => ?_⟩
  · exact (Engine.flat_reads he.flat hs hx).1.whole.unmixed
  · exact Engine.coalesce_test_mixed hs he hplain hp q
  · exact Engine.lookup_or_mixed hs he ha span'' b hrule

/-- A default in front of a range: with the lower bound only the chain is unmixed, with both it
    is not. -/
theorem coalesce_not_mixed_range :
    let above : Pattern := .relational .gt ⟨{}, .literal (.number "1")⟩
    let below : Pattern := .relational .lt ⟨{}, .literal (.number "5")⟩
    let tree (p : Pattern) : Expr := ⟨{}, .binary .coalesce ⟨{}, .identifier "flag"⟩ ⟨{}, .patternTest ⟨{}, .identifier "x"⟩ p⟩⟩
    let text (e : Expr) := (((({} : Engine).converter .empty).exprAs none e).out {}).1
    (tree above).Tame .empty ∧ Unmixed (text (tree above)) ∧ Mixed (text (tree (.and above below))) := by
  intro above below tree text
  let good (x : Node) : Prop := x.Spelled (isIdentifier · = true) (·.toList.all isNumberChar = true) ∧
    x.FlatTemplate .empty ∧ x.Wrapped ∧ x.Apart .empty
  have hname : ∀ name, isIdentifier name = true → (Node.expr ⟨{}, .identifier name⟩).Everywhere good := fun name h =>
    Node.everywhere_of_parts ⟨h, .of_plain rfl (by rintro _ ⟨⟩), .of_expr (List.forall_mem_nil _), .of_leaf rfl⟩
      (List.forall_mem_nil _)
  have hone : (Node.expr ⟨{}, .literal (.number "1")⟩).Everywhere good := by
    have hspelled : "1".toList.all isNumberChar = true := by decide +kernel
    exact Node.everywhere_of_parts
      ⟨hspelled, .of_plain rfl (by rintro _ ⟨⟩), .of_expr (List.forall_mem_nil _), .of_leaf rfl⟩ (List.forall_mem_nil _)
  have habove : (Node.pattern above).Everywhere good := by
    refine Node.everywhere_of_parts ⟨trivial, trivial, ⟨?_, ?_⟩, ⟨?_, by rintro _ _ _ ⟨⟩, by rintro _ ⟨⟩⟩⟩
      (List.forall_mem_singleton.mpr hone)
    · exact List.forall_mem_singleton.mpr (by decide)
    · intro op value heq
      cases (show Node.pattern (.relational .gt ⟨{}, .literal (.number "1")⟩) = _ from heq)
      rfl
    · exact List.forall_mem_singleton.mpr rfl
  have htest : (Node.expr ⟨{}, .patternTest ⟨{}, .identifier "x"⟩ above⟩).Everywhere good := by
    refine Node.everywhere_of_parts ⟨trivial, .of_plain rfl (by rintro _ ⟨⟩), .of_expr ?_, ?_⟩
      (List.forall_mem_cons.mpr ⟨hname "x" (by decide +kernel), List.forall_mem_singleton.mpr habove⟩)
    · exact List.forall_mem_singleton.mpr (by decide)
    · exact ⟨List.forall_mem_singleton.mpr rfl, by rintro _ _ _ ⟨⟩, by rintro _ ⟨⟩; trivial⟩
  have hgood : (Node.expr (tree above)).Everywhere good := by
    refine Node.everywhere_of_parts ⟨trivial, .of_plain rfl (by rintro _ ⟨⟩), .of_expr ?_, ?_⟩
      (List.forall_mem_cons.mpr ⟨hname "flag" (by decide +kernel), List.forall_mem_singleton.mpr htest⟩)
    · exact List.forall_mem_cons.mpr ⟨by decide, List.forall_mem_singleton.mpr (by decide)⟩
    · refine ⟨List.forall_mem_cons.mpr ⟨rfl, List.forall_mem_singleton.mpr rfl⟩, ?_, by rintro _ ⟨⟩; trivial⟩
      rintro _ _ _ ⟨⟩
      decide
  have htame : (tree above).Tame .empty :=
    ⟨⟨hgood.mono fun _ h => h.1, hgood.mono fun _ h => h.2.1, by rintro ⟨⟩⟩, hgood.mono fun _ h => h.2.2.1,
      hgood.mono fun _ h => h.2.2.2⟩
  obtain ⟨hunmixed, hmixed, -⟩ := coalesce_not_mixed .empty {} (List.forall_mem_nil _)
  exact ⟨htame, hunmixed none _ (by rintro _ ⟨⟩) htame, hmixed {} {} _ _ above below htame rfl rfl⟩

end ComponentScript
