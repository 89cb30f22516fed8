/-
  ComponentScript.Proofs.Convert.Legible — expressions become texts that can be read for
  their chains.

  `Expr.outer` bounds what the text of an expression does to the chain it stands in, and
  `Node.Own` is what a node has to be by itself for that: its names mean nothing to a reader,
  and no operand of it joins or breaks a chain where it must not. `Converter.Legible w hole k`:
  read as `w` says, the texts that `k` gives do no more to their chains than `outer` allows.
  Then so does every construct that `k` is used for inside: `defaultExpr_legible`.
-/

import ComponentScript.Convert.Expression
import ComponentScript.Proofs.Convert.SubjectUses
import ComponentScript.Proofs.Convert.Writes
import ComponentScript.Proofs.Script.ChainTexts
import ComponentScript.Proofs.Syntax.Spelling

namespace ComponentScript

open Script Text

/-! ## Steps and their results -/

/-- The errors that can be thrown again are bound to names. -/
def Session.Tidy (s : Session) : Prop := ∀ binding ∈ s.catches, Inert binding

theorem Session.Tidy.namesCatches {s : Session} (hs : s.Tidy) : s.NamesCatches := by
  intro binding hb c hc
  have hactive := hs binding hb c hc
  simp only [isActive, Bool.or_eq_false_iff] at hactive
  exact hactive.1.1.1.1.1.1.1.1

/-- From the session, the step gives a result with `P` and leaves a tidy session. -/
def EmitsAt {α : Type} (s : Session) (P : α → Prop) (m : Emit α) : Prop := P (m.out s).1 ∧ (m.out s).2.Tidy

theorem EmitsAt.of_out_eq {α : Type} {s : Session} {P : α → Prop} {m m' : Emit α} (h : m.out s = m'.out s)
    (hm : EmitsAt s P m') : EmitsAt s P m := by
  unfold EmitsAt
  rwa [h]

/-- The step does so from every tidy session. -/
abbrev Emits {α : Type} (P : α → Prop) (m : Emit α) : Prop := Provides Inert P m

theorem Emits.freshName {stem : String} (h : Inert stem) : Emits Inert (Emit.freshName stem) := by
  intro s hs
  have hstem : Inert ("__" ++ stem) := .append (by decide) h
  exact ⟨hstem.append (inert_toString s.counter), hs⟩

/-! ## What texts do to their chains -/

mutual
/-- Whether the test of a pattern has `&&` outside of all brackets. -/
def Pattern.joins : Pattern → Bool
  | .and .. => true
  | .property type? ps => 2 ≤ type?.toList.length + (ps.filter (!·.pattern.isDiscard)).length || anyJoins ps
  | _ => false
def Subpattern.joins : Subpattern → Bool
  | ⟨_, p⟩ => p.joins
def anyJoins : List Subpattern → Bool
  | [] => false
  | p :: ps => p.joins || anyJoins ps
end

/-- What the test of a pattern does to its chain. -/
def Pattern.outer (p : Pattern) : Shape := if p.joins then .joined .logical else .neutral

/-- What an operator joins its operands by. -/
def BinaryOp.joiner? : BinaryOp → Option Joiner
  | .coalesce => some .coalesce
  | .and | .or => some .logical
  | _ => none

/-- The calls that are nothing but their receiver. -/
def isTransparent (name : String) (arity : Nat) : Bool :=
  (name = "ConfigureAwait" && arity = 1) || (["ToList", "ToArray", "AsEnumerable"].contains name && arity = 0)

/-- Whether the receiver of a call may be a map, as far as the model knows. -/
def Model.mayBeMap (m : Model) (receiver call : Expr) : Bool :=
  (m.category receiver <|> m.declaringCategory call).all (· = .map)

section

variable (m : Model)

/-- What the text of an expression does to the chain it stands in, at most. -/
def Expr.outer : Expr → Shape
  | ⟨_, .binary op left right⟩ =>
    match op.joiner? with
    | some a => .joined a
    | none => left.outer.sup right.outer
  | ⟨_, .assignment ..⟩ | ⟨_, .conditional ..⟩ | ⟨_, .lambda ..⟩ => .whole
  | ⟨_, .cast _ operand⟩ => operand.outer
  | ⟨_, .patternTest operand pattern⟩ =>
    if operand.isPlain || pattern.subjectUses ≤ 1 then pattern.outer else .neutral
  | ⟨span, .invocation ⟨span', .member receiver name⟩ typeArgs args⟩ =>
    if isTransparent name args.length then receiver.outer
    else if name = "Add" && args.length = 2 &&
        m.mayBeMap receiver ⟨span, .invocation ⟨span', .member receiver name⟩ typeArgs args⟩ then .whole
    else .neutral
  | _ => .neutral

/-- What an operand does to the chain of its operator, which may put it in parentheses. -/
def Expr.outerIn (parent : BinaryOp) (operand : Expr) : Shape :=
  if Converter.mixesCoalesce parent operand then .neutral else operand.outer m

/-! ## What a node has to be -/

abbrev TypeInert := TypeSpelled Inert

abbrev ParamsInert := ParamsSpelled Inert

abbrev DeclaratorsInert := DeclaratorsSpelled Inert

/-- The operands of an operator fit into one chain. -/
def BinaryOp.Chains (op : BinaryOp) (left right : Expr) : Prop :=
  match op.joiner? with
  | some a => left.outerIn m op ≤ .joined a ∧ right.outerIn m op ≤ .joined a
  | none => (left.outer m).sup (right.outer m) ≠ .whole

/-- What a map gives for a missing key stands behind `??`. -/
def Expr.FallbackChains (e : Expr) : Prop :=
  match e.call? with
  | some ⟨some receiver, "GetValueOrDefault", _, [_, fallback]⟩ =>
    m.mayBeMap receiver e = true → fallback.expr.outer m ≤ .joined .coalesce
  | _ => True

variable (w : Watch)

/-- An expression by itself: its literals and keys can be read, and its operands fit into one
    chain. -/
def Expr.Readable (e : Expr) : Prop :=
  match e.kind with
  | .literal (.string s) => w.Quotable s
  | .literal (.char c) => w.Quotable (String.ofList [c])
  | .interpolated parts => w.ticks = true ∧ ¬ InterpolationPart.Straddles parts
  | .binary op left right => w.strict = true → op.Chains m left right
  | .assignment _ target _ => w.strict = true → target.outer m = .neutral
  | .invocation .. => w.strict = true → e.FallbackChains m
  | .objectCreation _ _ (some (.object members)) | .anonymousObject members => ∀ m ∈ members, w.Quotable m.name
  | .nameOf name => w.Quotable (String.ofList (afterLast '.' name.toList))
  | _ => True

@[inherit_doc Expr.Readable]
def Pattern.Readable : Pattern → Prop
  | .constant value => w.strict = true → value.outer m = .neutral
  | .relational op value => w.strict = true → op.joiner? = none ∧ value.outer m = .neutral
  | _ => True

def Node.Readable : Node → Prop
  | .expr e => e.Readable m w
  | .stmt _ => True
  | .pattern p => p.Readable m w

/-- What a node has to be by itself. -/
structure Node.Own (x : Node) : Prop where
  spelled : x.Spelled Inert Inert
  readable : x.Readable m w

/-- The node, and all nodes inside it. -/
abbrev Node.Fit (x : Node) : Prop := x.Everywhere (Node.Own m w)

end

/-- The converter gives texts that do no more to their chains than they may, and for the
    expressions of which `hole` holds texts that can be substituted in a template. -/
structure Converter.Legible (w : Watch) (hole : Expr → Prop) (k : Converter) : Prop where
  settings : k.settings = {}
  exprAs {expected? : Option TypeRef} (e : Expr) :
    TypeInert expected? → Emits (w.Shaped (e.outer k.model)) (k.exprAs expected? e)
  holes {e : Expr} : hole e → Emits w.unticked.Whole (k.expr e)
  stmt (x : Stmt) : Emits w.Stated (k.stmt x)

namespace Converter

variable {w : Watch} {hole : Expr → Prop} {k : Converter}

variable (hk : k.Legible w hole)
include hk

theorem Legible.indent : Inert k.indent := by
  unfold Converter.indent
  rw [hk.settings]
  decide

theorem Legible.instanceReceiver : w.Neutral k.settings.instanceReceiver := by
  rw [hk.settings]
  exact Watch.neutral_of_inert (by decide)

/-! ## Expressions and lists of them -/

theorem expr_shaped (e : Expr) :
    Emits (w.Shaped (e.outer k.model)) (k.expr e) := hk.exprAs e nofun

theorem expr_whole (e : Expr) : Emits w.Whole (k.expr e) :=
  (expr_shaped hk e).mono fun _ => Watch.Shaped.whole

/-- An expression that may do nothing to its chain, as far as chains count. -/
theorem expr_neutral {e : Expr} (he : w.strict = true → e.outer k.model = .neutral) :
    Emits w.Neutral (k.expr e) :=
  (expr_shaped hk e).mono fun _ ht => ht.neutral fun hw => he hw ▸ Shape.le_refl _

theorem operand_neutral (e : Expr) : Emits w.Neutral (k.operand e) :=
  (expr_whole hk e).bind fun _ ht => .pure ht.operand

theorem exprs_whole (es : List Expr) : Emits (fun ts => ∀ t ∈ ts, w.Whole t) (k.exprs es) :=
  .mapM fun e _ => expr_whole hk e

theorem arguments_whole (args : List Argument) :
    Emits (fun ts => ∀ t ∈ ts, w.Whole t) (k.arguments args) :=
  .mapM fun a _ => expr_whole hk a.expr

omit hk in
theorem assigned_whole {name value : String} (hn : Inert name) (hv : w.Whole value) : w.Whole s!"{name} = {value}" :=
  .intro fun _ => ⟨_, (Watch.Leads.first (Watch.neutral_of_inert hn)).lit rfl rfl |>.inner hv⟩

omit hk in
theorem constLine_stated {name value : String} (hn : Inert name) (hv : w.Whole value) :
    w.Stated s!"const {name} = {value};" :=
  fun _ => (Watch.Leads.start rfl rfl).hole (Watch.neutral_of_inert hn) |>.lit rfl rfl |>.inner hv |>.lit rfl rfl

theorem param_whole {p : Param} (hp : Inert p.name ∧ TypeInert p.type?) :
    Emits w.Whole (k.param p) := by
  obtain ⟨name, type?, default?, isRest⟩ := p
  refine .ite (fun _ => .pure ?_) fun _ => ?_
  · exact .intro fun _ => ⟨_, (Watch.Leads.start rfl rfl).hole (Watch.neutral_of_inert hp.1)⟩
  cases default? with
  | none => exact .pure (Watch.neutral_of_inert hp.1).whole
  | some e => exact (hk.exprAs e hp.2).bind fun _ hv => .pure (assigned_whole hp.1 hv.whole)

theorem params_whole {ps : List Param} (hp : ParamsInert ps) : Emits w.Whole (k.params ps) :=
  .bind (.mapM fun p hm => param_whole hk (hp p hm)) fun _ ht => .pure (Watch.whole_commaList ht)

theorem declarators_whole {type? : Option TypeRef} {ds : List Declarator} (ht : TypeInert type?)
    (hd : DeclaratorsInert ds) : Emits w.Whole (k.declarators type? ds) := by
  refine .bind (.mapM (Q := w.Whole) fun d hm => ?_) fun _ ht => .pure (Watch.whole_commaList ht)
  have hname := hd d hm
  obtain ⟨name, init?⟩ := d
  cases init? with
  | none => exact .pure (Watch.neutral_of_inert hname).whole
  | some e => exact (hk.exprAs e ht).bind fun _ hv => .pure (assigned_whole hname hv.whole)

/-! ## Resources -/

theorem releaseLine_stated {name : String} (hn : Inert name) (isAwait : Bool) :
    w.Stated (k.releaseLine name isAwait) := by
  unfold releaseLine
  rw [hk.settings]
  have hname : w.Neutral name := Watch.neutral_of_inert hn
  have hmethod : w.Neutral (if isAwait then "disposeAsync" else "dispose") :=
    Watch.neutral_of_inert (by cases isAwait <;> decide)
  have hawait : w.Neutral (if isAwait then "await " else "") := Watch.neutral_of_inert (by cases isAwait <;> decide)
  have hand : ∀ fs, w.Leads (w.code none fs) " && typeof " (w.code (some .logical) fs) := fun _ => .start rfl rfl
  refine .of_any fun _ _ => ?_
  exact (Watch.Leads.start rfl rfl).hole hname |>.append (hand _) |>.hole hname |>.lit rfl rfl |>.hole hmethod
    |>.lit rfl rfl |>.hole hawait |>.hole hname |>.lit rfl rfl |>.hole hmethod |>.lit rfl rfl

/-- A variable with the text of its value. -/
abbrev BindingLegible (w : Watch) (b : String × String) : Prop := Inert b.1 ∧ w.Whole b.2

theorem guardLines_stated (isAwait : Bool) {b : String × String} (hb : BindingLegible w b)
    {lines : List String} (hl : ∀ t ∈ lines, w.Stated t) : ∀ t ∈ k.guardLines isAwait b lines, w.Stated t := by
  have hbody : w.Neutral (Script.block lines k.indent) := Watch.neutral_block hk.indent hl
  have hrelease : w.Neutral (Script.block [k.releaseLine b.1 isAwait] k.indent) :=
    Watch.neutral_block hk.indent (List.forall_mem_singleton.mpr (releaseLine_stated hk hb.1 isAwait))
  refine List.forall_mem_cons.mpr ⟨constLine_stated hb.1 hb.2, List.forall_mem_singleton.mpr ?_⟩
  exact Watch.Neutral.stated fun _ _ => (Watch.Leads.start rfl rfl).hole hbody |>.lit rfl rfl |>.hole hrelease

theorem guardAll_stated (isAwait : Bool) {bs : List (String × String)}
    (hb : ∀ b ∈ bs, BindingLegible w b) {lines : List String} (hl : ∀ t ∈ lines, w.Stated t) :
    ∀ t ∈ bs.foldr (k.guardLines isAwait) lines, w.Stated t := by
  induction bs with
  | nil => exact hl
  | cons b bs ih =>
    obtain ⟨hb, hbs⟩ := List.forall_mem_cons.mp hb
    exact guardLines_stated hk isAwait hb (ih hbs)

theorem acquire_legible {ds : List Declarator} (hd : DeclaratorsInert ds) :
    Emits (fun bs => ∀ b ∈ bs, BindingLegible w b) (k.acquire ds) := by
  induction ds with
  | nil => exact .pure nofun
  | cons d ds ih =>
    obtain ⟨hname, hnames⟩ := List.forall_mem_cons.mp hd
    have hrest : ∀ value, w.Whole value → Emits (fun bs => ∀ b ∈ bs, BindingLegible w b) (do
        Emit.bindName d.name
        return (d.name, value) :: (← k.acquire ds)) := fun value hv =>
      (Provides.bindName _).bind fun _ _ => (ih hnames).bind fun _ hbs =>
        .pure (List.forall_mem_cons.mpr ⟨⟨hname, hv⟩, hbs⟩)
    obtain ⟨name, init?⟩ := d
    cases init? with
    | none => exact (Provides.pure (Watch.neutral_of_inert (by decide)).whole).bind hrest
    | some e => exact (expr_whole hk e).bind hrest

theorem acquireUnnamed_legible (e? : Option Expr) :
    Emits (fun bs => ∀ b ∈ bs, BindingLegible w b) (k.acquireUnnamed e?) := by
  cases e? with
  | none => exact .pure nofun
  | some e =>
    refine (expr_whole hk e).bind fun value hv => ?_
    exact (Emits.freshName (by decide)).bind fun name hn => .pure (List.forall_mem_singleton.mpr ⟨hn, hv⟩)

theorem resourceScope_stated {ds : List Declarator} (hd : DeclaratorsInert ds)
    (e? : Option Expr) (isAwait : Bool) {body : Emit (List String)}
    (hbody : Emits (fun ts => ∀ t ∈ ts, w.Stated t) body) :
    Emits (fun ts => ∀ t ∈ ts, w.Stated t) (k.resourceScope ds e? isAwait body) := by
  have hinner : Emits (fun p : List (String × String) × List String =>
      (∀ b ∈ p.1, BindingLegible w b) ∧ ∀ t ∈ p.2, w.Stated t) (Emit.withScope [] do
        let declared ← k.acquire ds
        let unnamed ← k.acquireUnnamed e?
        let lines ← body
        return (declared ++ unnamed, lines)) := by
    refine .withScope _ ((acquire_legible hk hd).bind fun _ hdeclared => ?_)
    refine (acquireUnnamed_legible hk e?).bind fun _ hunnamed => hbody.bind fun _ hlines => ?_
    exact .pure ⟨List.forall_mem_append.mpr ⟨hdeclared, hunnamed⟩, hlines⟩
  exact hinner.bind fun ⟨_, _⟩ ⟨hbindings, hlines⟩ => .pure (guardAll_stated hk isAwait hbindings hlines)

/-! ## Statement lists -/

omit hk in
theorem withFunctions_emits {α : Type} {P : α → Prop} {ss : List Stmt} {m : Emit α} (hm : Emits P m) :
    Emits P (withFunctions ss m) :=
  .ite (fun _ => hm) fun _ => hm.withScope _

theorem sequence_stated {ss : List Stmt} (h : ∀ s ∈ ss, s.Spelled Inert) :
    Emits (fun ts => ∀ t ∈ ts, w.Stated t) (k.sequence ss) := by
  induction ss with
  | nil => exact .pure nofun
  | cons s rest ih =>
    obtain ⟨hs, hrest⟩ := List.forall_mem_cons.mp h
    have hstmt := (hk.stmt s).bind fun text ht => (ih hrest).bind fun _ hts =>
      Provides.pure (P := fun ts => ∀ t ∈ ts, w.Stated t) (List.forall_mem_cons.mpr ⟨ht, hts⟩)
    obtain ⟨span, kind⟩ := s
    rw [sequence]
    split
    · next ds e? isAwait hkind =>
      cases hkind
      refine (resourceScope_stated hk hs e? isAwait (withFunctions_emits (ih hrest))).bind fun _ hlines => .pure ?_
      exact List.forall_mem_singleton.mpr (Watch.stated_joinLines hlines)
    · exact hstmt

theorem statements_stated {ss : List Stmt} (h : ∀ s ∈ ss, s.Spelled Inert) :
    Emits (fun ts => ∀ t ∈ ts, w.Stated t) (k.statements ss) :=
  withFunctions_emits (sequence_stated hk h)

theorem block_neutral {s : Stmt} (h : (Node.stmt s).Fit k.model w) :
    Emits w.Neutral (k.block s) :=
  (statements_stated hk fun x hx => (h.statements x hx).1.spelled).bind fun _ hts =>
    .pure (Watch.neutral_block hk.indent hts)

/-! ## Operators -/

/-- What an operator does to the chain it stands in. -/
def joining (op : BinaryOp) : Shape :=
  match op.joiner? with
  | some a => .joined a
  | none => .neutral

omit hk in
theorem operator_shaped (op : BinaryOp) : w.Shaped (joining op) (" " ++ op.symbol ++ " ") := by
  cases op with
  | coalesce => exact (show " " ++ BinaryOp.coalesce.symbol ++ " " = " ?? " by decide) ▸ Watch.bounded_coalesce
  | and => exact (show " " ++ BinaryOp.and.symbol ++ " " = " && " by decide) ▸ Watch.bounded_and
  | or => exact (show " " ++ BinaryOp.or.symbol ++ " " = " || " by decide) ▸ Watch.bounded_or
  | bitAnd | bitOr => exact fun _ _ => (Watch.Leads.start rfl rfl).lit rfl rfl |>.lit rfl rfl
  | _ => exact Watch.neutral_of_inert (by decide)

omit hk in
theorem assignSymbol_neutral (op : AssignOp) : w.Neutral (" " ++ op.symbol ++ " ") := by
  cases op <;> exact fun _ _ => (Watch.Leads.start rfl rfl).lit rfl rfl |>.lit rfl rfl

omit hk in
/-- An operator between its operands. -/
theorem infix_eq (l symbol r : String) : s!"{l} {symbol} {r}" = l ++ (" " ++ symbol ++ " ") ++ r := by
  simp only [String.append_assoc]
  rfl

/-! ## Patterns -/

omit hk in
theorem typeTest_neutral {subject : String} (hs : w.Neutral subject) {type : TypeRef} (ht : Inert type.simpleName) :
    w.Neutral (typeTest subject type) := by
  unfold typeTest
  dsimp only
  split
  · exact fun _ _ => (Watch.Leads.start rfl rfl).hole hs |>.lit rfl rfl
  · exact fun _ _ => (Watch.Leads.start rfl rfl).hole hs |>.lit rfl rfl
  · exact fun _ _ => (Watch.Leads.start rfl rfl).hole hs |>.lit rfl rfl
  · refine Watch.neutral_ite (fun _ _ => ?_) fun _ _ => ?_
    · exact (Watch.Leads.first hs).lit rfl rfl
    · exact (Watch.Leads.first hs).lit rfl rfl |>.hole (Watch.neutral_of_inert ht)

omit hk in
theorem inert_intercalate {sep : String} (hsep : Inert sep) {ts : List String} (h : ∀ t ∈ ts, Inert t) :
    Inert (sep.intercalate ts) := by
  induction ts with
  | nil => exact (by decide : Inert "")
  | cons t ts ih =>
    obtain ⟨ht, hts⟩ := List.forall_mem_cons.mp h
    cases ts with
    | nil => simpa using ht
    | cons u us =>
      rw [String.intercalate_cons_cons]
      exact (ht.append hsep).append (ih hts)

/-- Each name of the path means nothing to a reader. -/
abbrev PathInert (path : String) : Prop := ∀ part ∈ splitOn '.' path.toList, Inert (String.ofList part)

omit hk in
theorem memberPath_neutral {subject path : String} (hs : w.Neutral subject) (hp : PathInert path) :
    w.Neutral (memberPath subject path) := by
  have hnames : Inert (".".intercalate ((splitOn '.' path.toList).map fun part =>
      Script.camelCase (String.ofList part))) := by
    refine inert_intercalate (by decide) fun name hm => ?_
    obtain ⟨part, hpart, rfl⟩ := List.mem_map.mp hm
    exact inert_camelCase (hp part hpart)
  exact fun _ _ => (Watch.Leads.first hs).lit rfl rfl |>.hole (Watch.neutral_of_inert hnames)

omit hk in
theorem outer_le_logical (p : Pattern) : p.outer ≤ .joined .logical := by
  unfold Pattern.outer
  split
  · exact Shape.le_refl _
  · exact Shape.neutral_le _

/-- The tests of members that are not left out. -/
structure MemberTests (w : Watch) (ps : List Subpattern) (tests : List String) : Prop where
  bounded : ∀ t ∈ tests, w.Bounded .logical t
  neutral : anyJoins ps = false → ∀ t ∈ tests, w.Neutral t
  count : (tests.filter (· ≠ "true")).length = (ps.filter (!·.pattern.isDiscard)).length

omit hk in
theorem MemberTests.cons {p : Subpattern} {ps : List Subpattern} {test : String} {tests : List String}
    (hp : w.Shaped p.pattern.outer test) (htrue : test = "true" ↔ p.pattern.isDiscard = true)
    (h : MemberTests w ps tests) :
    MemberTests w (p :: ps) (test :: tests) where
  bounded := List.forall_mem_cons.mpr ⟨hp.bounded fun _ => outer_le_logical _, h.bounded⟩
  neutral hj := by
    rw [anyJoins, Bool.or_eq_false_iff] at hj
    obtain ⟨name, pattern⟩ := p
    have hpattern : pattern.joins = false := hj.1
    rw [Pattern.outer, hpattern] at hp
    exact List.forall_mem_cons.mpr ⟨hp, h.neutral hj.2⟩
  count := by
    by_cases ht : test = "true"
    · rw [List.filter_cons_of_neg (by simpa using ht), List.filter_cons_of_neg (by simp [htrue.mp ht]), h.count]
    · have hdiscard : ¬ p.pattern.isDiscard = true := fun hd => ht (htrue.mpr hd)
      rw [List.filter_cons_of_pos (by simpa using ht), List.filter_cons_of_pos (by simp [hdiscard]), List.length_cons,
        List.length_cons, h.count]

omit hk in
theorem propertyTest_shaped {subject : String} (hs : w.Neutral subject) {type? : Option TypeRef} (ht : TypeInert type?)
    {ps : List Subpattern} {members : List String} (h : MemberTests w ps members) :
    let tests := (type?.map (typeTest subject)).toList ++ members.filter (· ≠ "true")
    w.Shaped (Pattern.outer (.property type? ps))
      (if tests.isEmpty then s!"{subject} != null" else " && ".intercalate tests) := by
  intro tests
  have hnull : w.Neutral s!"{subject} != null" := fun _ _ => (Watch.Leads.first hs).lit rfl rfl
  have htype : ∀ t ∈ (type?.map (typeTest subject)).toList, w.Neutral t := by
    intro t hm
    obtain ⟨type, htype, rfl⟩ := Option.map_eq_some_iff.mp (Option.mem_toList.mp hm)
    exact typeTest_neutral hs (ht type htype)
  cases hj : Pattern.joins (.property type? ps) with
  | true =>
    rw [Pattern.outer, hj]
    have hall : ∀ t ∈ tests, w.Bounded .logical t := List.forall_mem_append.mpr
      ⟨fun t hm => (htype t hm).bounded, fun t hm => h.bounded t (List.mem_filter.mp hm).1⟩
    show w.Bounded .logical _
    split
    · exact hnull.bounded
    · exact Watch.bounded_conjunction hall
  | false =>
    rw [Pattern.outer, hj]
    rw [Pattern.joins, Bool.or_eq_false_iff, decide_eq_false_iff_not, ← h.count] at hj
    have hall : ∀ t ∈ tests, w.Neutral t := List.forall_mem_append.mpr
      ⟨htype, fun t hm => h.neutral hj.2 t (List.mem_filter.mp hm).1⟩
    have hone : tests.length ≤ 1 := by
      have hlength : (type?.map (typeTest subject)).toList.length = type?.toList.length := by
        rw [Option.length_toList, Option.length_toList, Option.isSome_map]
      rw [List.length_append, hlength]
      omega
    show w.Neutral _
    rcases hts : tests with _ | ⟨t, _ | ⟨u, us⟩⟩
    · exact hnull
    · simpa using hall t (hts ▸ List.mem_singleton.mpr rfl)
    · rw [hts] at hone
      simp at hone

omit hk in
mutual
/-- The test of a pattern does what its `outer` says, wherever its subject is neutral. -/
theorem patternTest_shaped (hk : k.Legible w hole) : ∀ (p : Pattern) {subject : String}, w.Neutral subject →
    (Node.pattern p).Fit k.model w → Emits (w.Shaped p.outer) (k.patternTest subject p)
  | .discard, _, _, _ => .pure (Watch.neutral_of_inert (by decide))
  | .type _, _, hs, h => .pure (typeTest_neutral hs h.1.spelled)
  | .constant _, _, hs, h =>
    .ite (fun _ => .pure fun _ _ => (Watch.Leads.first hs).lit rfl rfl) fun _ =>
      (expr_neutral hk h.1.readable).bind fun _ ht => .pure fun _ _ => (Watch.Leads.first hs).lit rfl rfl |>.hole ht
  | .relational op _, _, hs, h =>
    (expr_neutral hk fun hw => (h.1.readable hw).2).bind fun text ht => .pure (by
      have hop : w.Neutral (" " ++ op.symbol ++ " ") := by
        refine (operator_shaped op).neutral fun hw => ?_
        rw [joining, (h.1.readable hw).1]
        exact Shape.le_refl _
      rw [infix_eq]
      exact (hs.append hop).append ht)
  | .property _ ps, _, hs, h =>
    (memberTests_legible hk ps hs h.1.spelled.2 h.parts).bind fun _ hm =>
      .pure (propertyTest_shaped hs h.1.spelled.1 hm)
  | .not p, _, hs, h =>
    .ite (fun _ => .pure fun _ _ => (Watch.Leads.first hs).lit rfl rfl) fun _ =>
      (patternTest_shaped hk p hs h.parts.head).bind fun _ ht =>
        .pure fun _ _ => (Watch.Leads.start rfl rfl).inner ht.whole |>.lit rfl rfl
  | .and left right, _, hs, h =>
    (patternTest_shaped hk left hs h.parts.head).bind fun _ hl =>
      (patternTest_shaped hk right hs h.parts.tail.head).bind fun _ hr => .pure
        (((hl.bounded fun _ => outer_le_logical left).append Watch.bounded_and).append
          (hr.bounded fun _ => outer_le_logical right))
  | .or left right, _, hs, h =>
    (patternTest_shaped hk left hs h.parts.head).bind fun _ hl =>
      (patternTest_shaped hk right hs h.parts.tail.head).bind fun _ hr => .pure (by
        have hor : w.Bounded .logical _ := ((hl.bounded fun _ => outer_le_logical left).append Watch.bounded_or).append
          (hr.bounded fun _ => outer_le_logical right)
        have htext := hor.whole.parens
        simp only [← String.append_assoc] at htext
        exact htext)
theorem memberTest_legible (hk : k.Legible w hole) : ∀ (p : Subpattern) {subject : String}, w.Neutral subject →
    PathInert p.name → (Node.pattern p.pattern).Fit k.model w →
      Emits (w.Shaped p.pattern.outer) (k.memberTest subject p)
  | ⟨_, pattern⟩, _, hs, hn, h => patternTest_shaped hk pattern (memberPath_neutral hs hn) h
theorem memberTests_legible (hk : k.Legible w hole) : ∀ (ps : List Subpattern) {subject : String}, w.Neutral subject →
    (∀ p ∈ ps, PathInert p.name) → Parts.Everywhere (Node.Own k.model w) (ps.map fun p => ([], .pattern p.pattern)) →
    Emits (MemberTests w ps) (k.memberTests subject ps)
  | [], _, _, _, _ => .pure ⟨nofun, nofun, rfl⟩
  | p :: ps, subject, hs, hn, h =>
    ((memberTest_legible hk p hs (hn p (List.mem_cons_self ..)) h.head).and
      fun s => k.memberTest_eq_true_iff subject p s).bind fun _ ht =>
      (memberTests_legible hk ps hs (fun q hq => hn q (List.mem_cons_of_mem _ hq)) h.tail).bind fun _ hts =>
        .pure (hts.cons ht.1 ht.2)
end

omit hk in
/-- A function that is called at once. -/
theorem called_neutral {params body values : String} (hp : w.Whole params) (hb : w.Whole body) (hv : w.Whole values) :
    w.Neutral s!"(({params}) => {body})({values})" := by
  intro link? fs
  have hfunction : w.Leads (w.code link? fs) s!"(({params}) => {body})(" _ :=
    (Watch.Leads.start rfl rfl).inner hp |>.lit rfl rfl |>.inner hb |>.lit rfl rfl
  exact hfunction.inner hv |>.lit rfl rfl

theorem isTest_shaped (operand : Expr) {pattern : Pattern}
    (hp : (Node.pattern pattern).Fit k.model w) :
    Emits (w.Shaped (if operand.isPlain || pattern.subjectUses ≤ 1 then pattern.outer else .neutral))
      (k.isTest operand pattern) := by
  unfold isTest
  split
  · exact (operand_neutral hk operand).bind fun subject hs => patternTest_shaped hk pattern hs hp
  · refine (expr_whole hk operand).bind fun value hv => (Emits.freshName (by decide)).bind fun subject hs => ?_
    refine (patternTest_shaped hk pattern (Watch.neutral_of_inert hs) hp).bind fun test ht => .pure fun _ _ => ?_
    exact called_neutral (Watch.neutral_of_inert hs).whole ht.whole hv _ _

omit hk in
theorem guarded_whole {test : String} (ht : w.Bounded .logical test) {guard? : Option String}
    (hg : ∀ g ∈ guard?, w.Whole g) : w.Whole (guarded test guard?) := by
  cases guard? with
  | none => exact ht.whole
  | some g =>
    unfold guarded
    dsimp only
    split
    · exact hg g rfl
    · exact ((ht.append Watch.bounded_and).append (hg g rfl).operand.bounded).whole

/-! ## New objects -/

omit hk in
theorem defaultValue_inert (type? : Option TypeRef) : Inert (defaultValue type?) := by
  unfold defaultValue
  repeat' split
  all_goals decide

omit hk in
theorem arrayText_neutral {items : List String} (h : ∀ t ∈ items, w.Whole t) : w.Neutral s!"[{commaList items}]" :=
  fun _ _ => (Watch.Leads.start rfl rfl).inner (Watch.whole_commaList h) |>.lit rfl rfl

omit hk in
theorem objectText_neutral {entries : List String} (h : ∀ t ∈ entries, w.Whole t) : w.Neutral (objectText entries) := by
  refine Watch.neutral_ite (fun _ _ => .start rfl rfl) fun _ _ => ?_
  exact (Watch.Leads.start rfl rfl).inner (Watch.whole_commaList h) |>.lit rfl rfl

omit hk in
theorem keyed_whole {key value : String} (hkey : w.Neutral key) (hv : w.Whole value) : w.Whole s!"{key}: {value}" :=
  .intro fun _ => ⟨_, (Watch.Leads.first hkey).lit rfl rfl |>.inner hv⟩

theorem memberEntry_whole {rename : String → String} {m : MemberInit}
    (h : w.Quotable (rename m.name)) : Emits w.Whole (k.memberEntry rename m) :=
  (expr_whole hk m.value).bind fun _ hv => .pure (keyed_whole (Watch.neutral_objectKey h) hv)

theorem objectLiteral_neutral {ms : List MemberInit} (h : ∀ m ∈ ms, w.Quotable m.name) :
    Emits w.Neutral (k.objectLiteral ms) :=
  .bind (.mapM fun m hm => memberEntry_whole hk (h m hm).camelCase) fun _ ht => .pure (objectText_neutral ht)

theorem dictEntry_whole {d : DictEntry} (h : ∀ s ∈ d.key.stringLiteral?, w.Quotable s) :
    Emits w.Whole (k.dictEntry d) := by
  have hrest : ∀ key, w.Neutral key → Emits w.Whole (do
      let value ← k.expr d.value
      return s!"{key}: {value}") := fun key hkey =>
    (expr_whole hk d.value).bind fun _ hv => .pure (keyed_whole hkey hv)
  unfold dictEntry
  cases hs : d.key.stringLiteral? with
  | some s => exact (Provides.pure (Watch.neutral_objectKey (h s hs))).bind hrest
  | none =>
    have hkey : Emits w.Neutral (do
        let text ← k.expr d.key
        pure s!"[{text}]") :=
      (expr_whole hk d.key).bind fun _ ht => .pure fun _ _ => (Watch.Leads.start rfl rfl).inner ht |>.lit rfl rfl
    exact hkey.bind hrest

theorem entryAssignment_whole (d : DictEntry) : Emits w.Whole (k.entryAssignment d) :=
  (expr_whole hk d.key).bind fun _ hkey => (expr_whole hk d.value).bind fun _ hv =>
    .pure (.intro fun _ => ⟨_, (Watch.Leads.start rfl rfl).inner hkey |>.lit rfl rfl |>.inner hv⟩)

/-- A function without parameters that is called at once. -/
theorem calledBlock_neutral {lines : List String} (h : ∀ t ∈ lines, w.Stated t) :
    w.Neutral s!"(() => {Script.block lines k.indent})()" :=
  fun _ _ => (Watch.Leads.start rfl rfl).inner (Watch.neutral_block hk.indent h).whole |>.lit rfl rfl

omit hk in
theorem returnLine_stated {value : String} (hv : w.Whole value) : w.Stated s!"return {value};" :=
  fun _ => (Watch.Leads.start rfl rfl).inner hv |>.lit rfl rfl

theorem populated_neutral {created : String} (hc : w.Whole created)
    {lines : String → List String} (hl : ∀ target, w.Neutral target → ∀ t ∈ lines target, w.Stated t) :
    Emits w.Neutral (k.populated created lines) := by
  refine (Emits.freshName (by decide)).bind fun target ht => .pure (calledBlock_neutral hk ?_)
  have hneutral : w.Neutral target := Watch.neutral_of_inert ht
  refine List.forall_mem_cons.mpr ⟨constLine_stated ht hc, List.forall_mem_append.mpr ⟨hl target hneutral, ?_⟩⟩
  exact List.forall_mem_singleton.mpr (returnLine_stated hneutral.whole)

/-- The names and literal keys of an initializer. -/
def InitializerQuotable (w : Watch) : Option Initializer → Prop
  | some (.object ms) => ∀ m ∈ ms, w.Quotable m.name
  | some (.dictionary ds) => ∀ d ∈ ds, ∀ s ∈ d.key.stringLiteral?, w.Quotable s
  | _ => True

theorem elements_whole (i? : Option Initializer) :
    Emits (fun ts => ∀ t ∈ ts, w.Whole t) (k.elements i?) := by
  rcases i? with _ | ms | es | ds
  · exact .pure (List.forall_mem_nil _)
  · exact .pure (List.forall_mem_nil _)
  · exact exprs_whole hk es
  · exact .pure (List.forall_mem_nil _)

theorem entries_whole {i? : Option Initializer} (h : InitializerQuotable w i?) :
    Emits (fun ts => ∀ t ∈ ts, w.Whole t) (k.entries i?) := by
  rcases i? with _ | ms | es | ds
  · exact .pure (List.forall_mem_nil _)
  · exact .mapM fun m hm => memberEntry_whole hk (h m hm)
  · exact .pure (List.forall_mem_nil _)
  · exact .mapM fun d hd => dictEntry_whole hk (h d hd)

theorem copied_whole (args : List Argument) :
    Emits (fun t? => ∀ t ∈ t?, w.Whole t) (k.copied args) := by
  rcases args with _ | ⟨a, _ | ⟨b, rest⟩⟩
  · exact .pure nofun
  · refine .ite (fun _ => .pure nofun) fun _ => ?_
    exact (expr_whole hk a.expr).bind fun _ ht => .pure fun _ h => Option.some.inj h ▸ ht
  · exact .pure nofun

omit hk in
/-- What is copied and what is listed. -/
theorem spread_whole {source? : Option String} (hs : ∀ t ∈ source?, w.Whole t) {ts : List String}
    (ht : ∀ t ∈ ts, w.Whole t) : ∀ t ∈ spreadOf source? ++ ts, w.Whole t := by
  refine List.forall_mem_append.mpr ⟨fun t hm => ?_, ht⟩
  cases source? with
  | none => cases hm
  | some source =>
    rw [List.mem_singleton.mp hm]
    exact .intro fun _ => ⟨_, (Watch.Leads.start rfl rfl).inner (hs source rfl)⟩

omit hk in
theorem newSet_neutral {source? : Option String} (hs : ∀ t ∈ source?, w.Whole t) {ts : List String}
    (ht : ∀ t ∈ ts, w.Whole t) : w.Neutral (newSet source? ts) := by
  have hall := Watch.whole_commaList (spread_whole hs ht)
  unfold newSet
  split
  · exact fun _ _ => .start rfl rfl
  · exact fun _ _ => (Watch.Leads.start rfl rfl).inner (hs _ rfl) |>.lit rfl rfl
  · exact fun _ _ => (Watch.Leads.start rfl rfl).inner hall |>.lit rfl rfl

theorem newInstance_neutral {name : String} (hn : Inert name) (args : List Argument)
    {i? : Option Initializer} (hi : InitializerQuotable w i?) : Emits w.Neutral (k.newInstance name args i?) := by
  refine (arguments_whole hk args).bind fun args hargs => ?_
  have hcreated : w.Neutral s!"new {name}({commaList args})" := fun _ _ =>
    (Watch.Leads.start rfl rfl).hole (Watch.neutral_of_inert hn) |>.lit rfl rfl
      |>.inner (Watch.whole_commaList hargs) |>.lit rfl rfl
  rcases i? with _ | ms | es | ds
  · exact .pure hcreated
  · refine .ite (fun _ => .pure hcreated) fun _ => ?_
    refine (objectLiteral_neutral hk hi).bind fun fields hf => .pure fun _ _ => ?_
    exact (Watch.Leads.start rfl rfl).inner hcreated.whole |>.lit rfl rfl |>.inner hf.whole |>.lit rfl rfl
  · refine (exprs_whole hk es).bind fun values hv => populated_neutral hk hcreated.whole fun target ht => ?_
    intro line hline
    obtain ⟨value, hvalue, rfl⟩ := List.mem_map.mp hline
    exact fun _ => (Watch.Leads.first ht).lit rfl rfl |>.inner (hv value hvalue) |>.lit rfl rfl
  · refine .bind (.mapM fun d _ => entryAssignment_whole hk d) fun texts hts => ?_
    refine populated_neutral hk hcreated.whole fun target ht line hline => ?_
    obtain ⟨text, htext, rfl⟩ := List.mem_map.mp hline
    exact fun _ => (Watch.Leads.first ht).inner (hts text htext) |>.lit rfl rfl

theorem creation_neutral (e : Expr) {type? : Option TypeRef} (ht : TypeInert type?)
    (args : List Argument) {i? : Option Initializer} (hi : InitializerQuotable w i?) :
    Emits w.Neutral (k.creation e type? args i?) := by
  have hempty : w.Neutral (objectText []) := objectText_neutral (List.forall_mem_nil _)
  cases type? with
  | none =>
    refine (Provides.report _).bind fun _ _ => ?_
    rcases i? with _ | ms | es | ds
    · exact .pure hempty
    · exact objectLiteral_neutral hk hi
    · exact .pure hempty
    · exact .pure hempty
  | some type =>
    refine (copied_whole hk args).bind fun source? hs => ?_
    have hlist := (elements_whole hk i?).bind fun ts hts =>
      Provides.pure (P := w.Neutral) (arrayText_neutral (spread_whole hs hts))
    split
    · exact hlist
    · exact hlist
    · exact (elements_whole hk i?).bind fun _ hts => .pure (newSet_neutral hs hts)
    · exact (entries_whole hk hi).bind fun _ hts => .pure (objectText_neutral (spread_whole hs hts))
    · exact newInstance_neutral hk (ht type rfl) args hi

theorem newArray_neutral (type? : Option TypeRef) (size? : Option Expr) (es : List Expr) :
    Emits w.Neutral (k.newArray type? size? es) := by
  have hlist := (exprs_whole hk es).bind fun ts hts => Provides.pure (P := w.Neutral) (arrayText_neutral hts)
  rcases size? with _ | size
  · exact hlist
  · rcases es with _ | ⟨x, xs⟩
    · refine (expr_whole hk size).bind fun _ hs => .pure fun _ _ => ?_
      have hvalue : w.Neutral (defaultValue type?) := Watch.neutral_of_inert (defaultValue_inert type?)
      exact (Watch.Leads.start rfl rfl).inner hs |>.lit rfl rfl |>.inner hvalue.whole |>.lit rfl rfl
    · exact hlist

/-! ## Choices of values -/

theorem armLines_stated {subject : String} (hs : w.Neutral subject) {arms : List SwitchArm}
    (h : Parts.Everywhere (Node.Own k.model w) (arms.flatMap Parts.arm)) :
    Emits (fun ts => ∀ t ∈ ts, w.Stated t) (k.armLines subject arms) := by
  induction arms with
  | nil => exact .pure (List.forall_mem_singleton.mpr fun _ => .start rfl rfl)
  | cons arm arms ih =>
    rw [List.flatMap_cons] at h
    refine (patternTest_shaped hk _ hs h.left.head).bind fun test ht => ?_
    refine .bind (.optionMapM fun g _ => expr_whole hk g) fun guard? hg => ?_
    refine (expr_whole hk arm.value).bind fun value hv => .ite (fun _ => ?_) fun _ => ?_
    · exact .pure (List.forall_mem_singleton.mpr (returnLine_stated hv))
    · refine (ih h.right).bind fun lines hlines => .pure (List.forall_mem_cons.mpr ⟨fun _ => ?_, hlines⟩)
      have hcondition := guarded_whole (ht.bounded fun _ => outer_le_logical _) hg
      exact (Watch.Leads.start rfl rfl).inner hcondition |>.lit rfl rfl |>.inner hv |>.lit rfl rfl

theorem switchExpr_neutral (scrutinee : Expr) {arms : List SwitchArm}
    (h : Parts.Everywhere (Node.Own k.model w) (arms.flatMap Parts.arm)) :
    Emits w.Neutral (k.switchExpr scrutinee arms) := by
  refine (Emits.freshName (by decide)).bind fun subject hs => (expr_whole hk scrutinee).bind fun value hv => ?_
  refine (armLines_stated hk (Watch.neutral_of_inert hs) h).bind fun lines hlines => .pure ?_
  have hall := List.forall_mem_cons.mpr ⟨constLine_stated hs hv, hlines⟩
  refine Watch.neutral_ite (fun _ _ => ?_) (calledBlock_neutral hk hall)
  exact (Watch.Leads.start rfl rfl).inner (Watch.neutral_block hk.indent hall).whole |>.lit rfl rfl

/-! ## Expressions by kind -/

omit hk in
theorem literal_neutral {span : Span} {value : Literal} (h : Node.Own k.model w (.expr ⟨span, .literal value⟩)) :
    w.Neutral value.script := by
  cases value with
  | null => exact Watch.neutral_of_inert (by decide)
  | bool b => exact Watch.neutral_of_inert (by cases b <;> decide)
  | number text => exact Watch.neutral_of_inert (inert_numeral h.spelled)
  | string s => exact Watch.neutral_quote h.readable
  | char c => exact Watch.neutral_quote h.readable

theorem identifier_neutral (s : Session) (e : Expr) {name : String} (hn : Inert name) :
    w.Neutral (k.identifier s e name) := by
  have hname : w.Neutral name := Watch.neutral_of_inert hn
  have hcamel : w.Neutral (k.settings.instanceReceiver ++ "." ++ Script.camelCase name) := fun _ _ =>
    (Watch.Leads.first hk.instanceReceiver).lit rfl rfl |>.hole (Watch.neutral_of_inert (inert_camelCase hn))
  have hmember : w.Neutral (k.settings.instanceReceiver ++ "." ++ name) := fun _ _ =>
    (Watch.Leads.first hk.instanceReceiver).lit rfl rfl |>.hole hname
  unfold Env.identifier
  refine Watch.neutral_ite hname ?_
  cases k.model.symbolOf e with
  | some symbol => exact Watch.neutral_ite hcamel hname
  | none =>
    refine Watch.neutral_ite hname ?_
    cases name.toList.head? with
    | none => exact hname
    | some c => exact Watch.neutral_ite hmember (Watch.neutral_ite hcamel hname)

theorem interpolationParts_legible (span : Span) {parts : List InterpolationPart} {b : Bool}
    (hstraddles : ¬ InterpolationPart.Straddles parts) (hb : b = true → InterpolationPart.braceFirst parts = false)
    (h : ∀ e ∈ parts.filterMap InterpolationPart.expr?, hole e) :
    Emits (TemplateBody w.unticked.Whole b) (parts.mapM (k.interpolationPart span)) := by
  induction parts generalizing b with
  | nil => exact .pure .nil
  | cons part rest ih =>
    rw [List.mapM_cons]
    cases part with
    | text t =>
      obtain ⟨hbrace, hnext, hstraddles⟩ := InterpolationPart.text_apart hstraddles hb
      have hrest := ih hstraddles hnext h
      exact .bind (.pure rfl) fun text ht => hrest.bind fun _ hts => .pure (ht ▸ .text t hbrace hts)
    | expr e format? =>
      have he := hk.holes (h e (List.mem_cons_self ..))
      have hrest := ih (b := false) (fun hs => hstraddles ((InterpolationPart.straddles_expr e format?).mpr hs)) nofun
        fun x hx => h x (List.mem_cons_of_mem _ hx)
      have hpart : Emits (fun text => ∃ t, w.unticked.Whole t ∧ text = substitution t)
          (k.interpolationPart span (.expr e format?)) := by
        cases format? with
        | none => exact he.bind fun t ht => .pure ⟨t, ht, rfl⟩
        | some format => exact (Provides.report _).bind fun _ _ => he.bind fun t ht => .pure ⟨t, ht, rfl⟩
      refine hpart.bind fun text ⟨t, ht, htext⟩ => hrest.bind fun _ hts => .pure ?_
      exact htext ▸ .hole ht hts

theorem interpolatedString_neutral (hw : w.ticks = true) (span : Span)
    {parts : List InterpolationPart} (hstraddles : ¬ InterpolationPart.Straddles parts)
    (h : ∀ e ∈ parts.filterMap InterpolationPart.expr?, hole e) : Emits w.Neutral (k.interpolatedString span parts) :=
  (interpolationParts_legible (b := false) hk span hstraddles nofun h).bind fun _ hts =>
    .pure (Watch.neutral_template hw hts)

theorem binaryOperand_shaped (parent : BinaryOp) (e : Expr) :
    Emits (w.Shaped (e.outerIn k.model parent)) (k.binaryOperand parent e) := by
  refine (expr_shaped hk e).bind fun t ht => .pure ?_
  unfold Expr.outerIn
  split
  · exact fun _ _ => (Watch.Leads.start rfl rfl).inner ht.whole |>.lit rfl rfl
  · exact ht

omit hk in
/-- What an operator and its operands do to their chain is what the whole does to it. -/
theorem outer_binary (span : Span) {op : BinaryOp} {left right : Expr} (h : op.Chains k.model left right) :
    let o := Expr.outer k.model ⟨span, .binary op left right⟩
    o ≠ .whole ∧ left.outerIn k.model op ≤ o ∧ joining op ≤ o ∧ right.outerIn k.model op ≤ o := by
  unfold BinaryOp.Chains at h
  unfold joining
  rw [Expr.outer]
  split at h
  · exact ⟨nofun, h.1, Shape.le_refl _, h.2⟩
  · next hop =>
    have hin : ∀ e : Expr, e.outerIn k.model op ≤ e.outer k.model := by
      intro e
      unfold Expr.outerIn
      split
      · exact Shape.neutral_le _
      · exact Shape.le_refl _
    exact ⟨h, Shape.le_trans (hin left) (Shape.le_sup_left ..), Shape.neutral_le _,
      Shape.le_trans (hin right) (Shape.le_sup_right ..)⟩

theorem binary_shaped (span : Span) {op : BinaryOp} {left right : Expr}
    (h : w.strict = true → op.Chains k.model left right) :
    Emits (w.Shaped (Expr.outer k.model ⟨span, .binary op left right⟩)) (do
      let l ← k.binaryOperand op left
      let r ← k.binaryOperand op right
      return s!"{l} {op.symbol} {r}") := by
  refine (binaryOperand_shaped hk op left).bind fun l hl => (binaryOperand_shaped hk op right).bind fun r hr => .pure ?_
  rw [infix_eq]
  have ho := fun hw => outer_binary span (h hw)
  refine .append (fun hw => (ho hw).1) (.append (fun hw => (ho hw).1) ?_ ?_) ?_
  · exact hl.mono fun hw => (ho hw).2.1
  · exact (operator_shaped op).mono fun hw => (ho hw).2.2.1
  · exact hr.mono fun hw => (ho hw).2.2.2

omit hk in
theorem unary_neutral (op : UnaryOp) {t : String} (ht : w.Neutral t) : w.Neutral (op.apply t) := by
  cases op
  case postIncrement | postDecrement => exact fun _ _ => (Watch.Leads.first ht).lit rfl rfl
  all_goals exact fun _ _ => (Watch.Leads.start rfl rfl).hole ht

/-- The parameters and the body of a function. -/
theorem function_whole {ps : List Param} (hp : ParamsInert ps) {body : Emit String}
    {P : String → Prop} (hb : Emits P body) :
    Emits (fun p : String × String => w.Whole p.1 ∧ P p.2) (Emit.withScope (ps.map (·.name)) do
      let params ← k.params ps
      let body ← body
      return (params, body)) :=
  .withScope _ ((params_whole hk hp).bind fun _ hp => hb.bind fun _ hb => .pure ⟨hp, hb⟩)

theorem lambda_whole {span : Span} {ps : List Param} {body : LambdaBody} {isAsync : Bool}
    (h : (Node.expr ⟨span, .lambda ps body isAsync⟩).Fit k.model w) : Emits w.Whole (k.lambda ps body isAsync) := by
  have hbody : Emits w.Whole (k.lambdaBody body) := by
    cases body with
    | expr e =>
      refine (expr_whole hk e).bind fun t ht => .pure ?_
      split
      · exact ht.parens.whole
      · exact ht
    | block s => exact (block_neutral hk h.parts.right.head.body).mono fun _ => Watch.Neutral.whole
  refine (function_whole hk h.1.spelled hbody).bind fun ⟨params, body⟩ ⟨hp, hb⟩ => .pure ?_
  have hasync : w.Neutral (if isAsync then "async " else "") := Watch.neutral_of_inert (by cases isAsync <;> decide)
  exact .intro fun _ => ⟨_, (Watch.Leads.first hasync).lit rfl rfl |>.inner hp |>.lit rfl rfl |>.inner hb⟩

omit hk in
/-- The type that is written, else the one that is expected. -/
theorem typeInert_orElse {type? expected? : Option TypeRef} (ht : TypeInert type?) (hx : TypeInert expected?) :
    TypeInert (type? <|> expected?) := by
  cases type? with
  | none => exact hx
  | some type => exact ht

omit hk in
theorem quotable_of_stringLiteral {e : Expr} (h : e.Readable k.model w) : ∀ s ∈ e.stringLiteral?, w.Quotable s := by
  intro s hs
  unfold Expr.stringLiteral? at hs
  unfold Expr.Readable at h
  split at hs
  · next hkind =>
    rw [hkind] at h
    exact Option.some.inj hs ▸ h
  · cases hs

omit hk in
/-- The type, the names and the keys of a new object. -/
theorem creation_own {span : Span} {type? : Option TypeRef} {args : List Argument} {i? : Option Initializer}
    (h : (Node.expr ⟨span, .objectCreation type? args i?⟩).Fit k.model w) :
    TypeInert type? ∧ InitializerQuotable w i? := by
  refine ⟨h.1.spelled, ?_⟩
  rcases i? with _ | ms | es | ds
  · trivial
  · exact h.1.readable
  · trivial
  · refine fun d hd => quotable_of_stringLiteral (h.parts.right.exprs ?_).1.readable
    exact List.mem_flatMap.mpr ⟨_, List.mem_singleton.mpr rfl, List.mem_flatMap.mpr ⟨d, hd, List.mem_cons_self ..⟩⟩

/-- The conversion of an expression by its kind. -/
theorem defaultExpr_legible {expected? : Option TypeRef} (hx : TypeInert expected?) {e : Expr}
    (h : (Node.expr e).Fit k.model w)
    (hi : ∀ parts, e.kind = .interpolated parts → ∀ x ∈ parts.filterMap InterpolationPart.expr?, hole x) :
    Emits (w.Shaped (e.outer k.model)) (k.defaultExpr expected? e) := by
  obtain ⟨span, kind⟩ := e
  have hp := h.parts
  have hneutral : ∀ {m : Emit String}, Emits w.Neutral m → Emits (w.Shaped (Expr.outer k.model ⟨span, kind⟩)) m :=
    fun hm => hm.mono fun _ ht => ht.shaped _
  cases kind with
  | identifier name => exact .get fun s => .pure ((identifier_neutral hk s _ h.1.spelled).shaped _)
  | this => exact .pure (hk.instanceReceiver.shaped _)
  | base => exact .pure (Watch.neutral_of_inert (by decide))
  | literal value => exact .pure (literal_neutral h.1)
  | interpolated parts => exact interpolatedString_neutral hk h.1.readable.1 span h.1.readable.2 (hi parts rfl)
  | binary op left right => exact binary_shaped hk span h.1.readable
  | unary op operand => exact (operand_neutral hk operand).bind fun _ ht => .pure (unary_neutral op ht)
  | assignment op target value =>
    refine (expr_neutral hk h.1.readable).bind fun t ht => (expr_whole hk value).bind fun _ hv => .pure ?_
    rw [infix_eq]
    exact .intro fun _ => ⟨_, (Watch.Leads.first ht).hole (assignSymbol_neutral op) |>.inner hv⟩
  | member receiver name =>
    refine (operand_neutral hk receiver).bind fun _ hr => .pure fun _ _ => ?_
    exact (Watch.Leads.first hr).lit rfl rfl |>.hole (Watch.neutral_of_inert (inert_camelCase h.1.spelled))
  | conditionalMember receiver name =>
    refine (operand_neutral hk receiver).bind fun _ hr => .pure fun _ _ => ?_
    exact (Watch.Leads.first hr).lit rfl rfl |>.hole (Watch.neutral_of_inert (inert_camelCase h.1.spelled))
  | elementAccess receiver index =>
    refine (operand_neutral hk receiver).bind fun _ hr => (expr_whole hk index).bind fun _ hi => .pure fun _ _ => ?_
    exact (Watch.Leads.first hr).lit rfl rfl |>.inner hi |>.lit rfl rfl
  | invocation callee typeArgs args =>
    refine hneutral ((operand_neutral hk callee).bind fun _ hc => ?_)
    refine (arguments_whole hk args).bind fun _ hargs => .pure fun _ _ => ?_
    exact (Watch.Leads.first hc).lit rfl rfl |>.inner (Watch.whole_commaList hargs) |>.lit rfl rfl
  | objectCreation type? args initializer? =>
    obtain ⟨ht, hi⟩ := creation_own h
    exact creation_neutral hk _ (typeInert_orElse ht hx) args hi
  | anonymousObject members => exact objectLiteral_neutral hk h.1.readable
  | arrayCreation elementType? size? elements => exact newArray_neutral hk elementType? size? elements
  | conditional condition whenTrue whenFalse =>
    refine (expr_whole hk condition).bind fun _ hc => (expr_whole hk whenTrue).bind fun _ ht => ?_
    refine (expr_whole hk whenFalse).bind fun _ hf => .pure (.intro fun fs => ?_)
    exact ⟨_, (hc fs).lit rfl rfl |>.inner ht |>.lit rfl rfl |>.inner hf⟩
  | lambda params body isAsync => exact lambda_whole hk h
  | await operand =>
    exact (operand_neutral hk operand).bind fun _ ht => .pure fun _ _ => (Watch.Leads.start rfl rfl).hole ht
  | cast type operand => exact expr_shaped hk operand
  | patternTest operand pattern => exact isTest_shaped hk operand hp.tail.head
  | nameOf name => exact .pure (Watch.neutral_quote h.1.readable)
  | defaultOf type? => exact .pure (Watch.neutral_of_inert (defaultValue_inert _))
  | parenthesized inner => exact (expr_whole hk inner).bind fun _ ht => .pure ht.parens
  | switchExpr scrutinee arms => exact switchExpr_neutral hk scrutinee hp.tail
  | other nodeKind text => exact h.1.spelled.elim

end Converter

end ComponentScript
