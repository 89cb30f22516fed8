/-
  ComponentScript.Proofs.Convert.ClosedText — well-named expressions become closed text.

  `Converter.Closing k`: with the default settings, `k` gives closed text for every
  well-named node. Then so does every construct that `k` is used for inside: its text is a
  format, or a list, or a block, of closed texts. `defaultExpr_closed`: the conversion of an
  expression by its kind.
-/

import ComponentScript.Convert.Expression
import ComponentScript.Proofs.Convert.Writes

namespace ComponentScript

open Script Text

/-- The converter gives closed text for well-named nodes. -/
structure Converter.Closing (k : Converter) : Prop where
  settings : k.settings = {}
  exprAs {expected? : Option TypeRef} {e : Expr} : TypeNamed expected? → (Node.expr e).WellNamed →
    Writes Closed (k.exprAs expected? e)
  stmt {s : Stmt} : (Node.stmt s).WellNamed → Writes Closed (k.stmt s)

namespace Converter

variable {k : Converter} {e : Expr} {es : List Expr} {args : List Argument}

variable (hk : k.Closing)
include hk

theorem Closing.indent : Markless k.indent := by
  unfold Converter.indent
  rw [hk.settings]
  decide

theorem Closing.instanceReceiver : Closed k.settings.instanceReceiver := by
  rw [hk.settings]
  decide

/-! ## Expressions and lists of them -/

theorem expr_closed (he : (Node.expr e).WellNamed) : Writes Closed (k.expr e) := hk.exprAs nofun he

theorem operand_closed (he : (Node.expr e).WellNamed) : Writes Closed (k.operand e) :=
  (expr_closed hk he).bind fun _ ht => .pure (Script.closed_operand ht)

theorem exprs_closed (h : ∀ e ∈ es, (Node.expr e).WellNamed) : Writes AllClosed (k.exprs es) :=
  .mapM fun e he => expr_closed hk (h e he)

theorem arguments_closed (h : ∀ a ∈ args, (Node.expr a.expr).WellNamed) :
    Writes AllClosed (k.arguments args) :=
  .mapM fun a ha => expr_closed hk (h a ha)

omit hk in
theorem assigned_closed {name value : String} (hn : Markless name) (hv : Closed value) :
    Closed s!"{name} = {value}" :=
  (Leads.first hn.closed).lit rfl |>.hole hv

omit hk in
theorem constLine_closed {name value : String} (hn : Closed name) (hv : Closed value) :
    Closed s!"const {name} = {value};" :=
  (Leads.start rfl).hole hn |>.lit rfl |>.hole hv |>.lit rfl

theorem param_closed {p : Param} (hp : Markless p.name ∧ TypeNamed p.type?)
    (h : ∀ e ∈ p.default?, (Node.expr e).WellNamed) : Writes Closed (k.param p) := by
  obtain ⟨name, type?, default?, isRest⟩ := p
  refine .ite (fun _ => .pure ?_) fun _ => ?_
  · exact (Leads.start rfl).hole hp.1.closed
  cases default? with
  | none => exact .pure hp.1.closed
  | some e => exact (hk.exprAs hp.2 (h e rfl)).bind fun _ hv => .pure (assigned_closed hp.1 hv)

theorem params_closed {ps : List Param} (hp : ParamsNamed ps)
    (h : ∀ p ∈ ps, ∀ e ∈ p.default?, (Node.expr e).WellNamed) : Writes Closed (k.params ps) :=
  .bind (.mapM fun p hm => param_closed hk (hp p hm) (h p hm)) fun _ ht => .pure (closed_commaList ht)

theorem declarators_closed {type? : Option TypeRef} {ds : List Declarator} (ht : TypeNamed type?)
    (hd : DeclaratorsNamed ds) (h : ∀ d ∈ ds, ∀ e ∈ d.init?, (Node.expr e).WellNamed) :
    Writes Closed (k.declarators type? ds) := by
  refine .bind (.mapM (Q := Closed) fun d hm => ?_) fun _ ht => .pure (closed_commaList ht)
  have hname := hd d hm
  have hinit := h d hm
  obtain ⟨name, init?⟩ := d
  cases init? with
  | none => exact .pure hname.closed
  | some e => exact (hk.exprAs ht (hinit e rfl)).bind fun _ hv => .pure (assigned_closed hname hv)

/-! ## Resources -/

theorem releaseLine_closed {name : String} (hn : Closed name) (isAwait : Bool) :
    Closed (k.releaseLine name isAwait) := by
  unfold releaseLine
  rw [hk.settings]
  have hmethod : Closed (if isAwait then "disposeAsync" else "dispose") := closed_ite (by decide) (by decide)
  have hawait : Closed (if isAwait then "await " else "") := closed_ite (by decide) (by decide)
  exact (Leads.start rfl).hole hn |>.lit rfl |>.hole hn |>.lit rfl |>.hole hmethod |>.lit rfl |>.hole hawait
    |>.hole hn |>.lit rfl |>.hole hmethod |>.lit rfl

/-- A variable with the text of its value. -/
abbrev BindingClosed (b : String × String) : Prop := Closed b.1 ∧ Closed b.2

theorem guardLines_closed (isAwait : Bool) {b : String × String} (hb : BindingClosed b)
    {lines : List String} (hl : AllClosed lines) : AllClosed (k.guardLines isAwait b lines) := by
  have hbody : Closed (Script.block lines k.indent) := closed_block hk.indent hl
  have hrelease : Closed (Script.block [k.releaseLine b.1 isAwait] k.indent) :=
    closed_block hk.indent (List.forall_mem_singleton.mpr (releaseLine_closed hk hb.1 isAwait))
  refine List.forall_mem_cons.mpr ⟨constLine_closed hb.1 hb.2, List.forall_mem_singleton.mpr ?_⟩
  exact (Leads.start rfl).hole hbody |>.lit rfl |>.hole hrelease

theorem guardAll_closed (isAwait : Bool) {bs : List (String × String)}
    (hb : ∀ b ∈ bs, BindingClosed b) {lines : List String} (hl : AllClosed lines) :
    AllClosed (bs.foldr (k.guardLines isAwait) lines) := by
  induction bs with
  | nil => exact hl
  | cons b bs ih =>
    obtain ⟨hb, hbs⟩ := List.forall_mem_cons.mp hb
    exact guardLines_closed hk isAwait hb (ih hbs)

theorem acquire_closed {ds : List Declarator} (hd : DeclaratorsNamed ds)
    (h : ∀ d ∈ ds, ∀ e ∈ d.init?, (Node.expr e).WellNamed) :
    Writes (fun bs => ∀ b ∈ bs, BindingClosed b) (k.acquire ds) := by
  induction ds with
  | nil => exact .pure nofun
  | cons d ds ih =>
    obtain ⟨hname, hnames⟩ := List.forall_mem_cons.mp hd
    obtain ⟨hinit, hinits⟩ := List.forall_mem_cons.mp h
    have hrest : ∀ value, Closed value → Writes (fun bs => ∀ b ∈ bs, BindingClosed b) (do
        Emit.bindName d.name
        return (d.name, value) :: (← k.acquire ds)) := fun value hv =>
      (Provides.bindName _).bind fun _ _ => (ih hnames hinits).bind fun _ hbs =>
        .pure (List.forall_mem_cons.mpr ⟨⟨hname.closed, hv⟩, hbs⟩)
    obtain ⟨name, init?⟩ := d
    cases init? with
    | none => exact (Provides.pure (P := Closed) (by decide)).bind hrest
    | some e => exact (expr_closed hk (hinit e rfl)).bind hrest

theorem acquireUnnamed_closed {e? : Option Expr} (h : ∀ e ∈ e?, (Node.expr e).WellNamed) :
    Writes (fun bs => ∀ b ∈ bs, BindingClosed b) (k.acquireUnnamed e?) := by
  cases e? with
  | none => exact .pure nofun
  | some e =>
    refine (expr_closed hk (h e rfl)).bind fun value hv => ?_
    exact (Writes.freshName (by decide)).bind fun name hn =>
      .pure (List.forall_mem_singleton.mpr ⟨hn.closed, hv⟩)

theorem resourceScope_closed {ds : List Declarator} (hd : DeclaratorsNamed ds)
    (h : ∀ d ∈ ds, ∀ e ∈ d.init?, (Node.expr e).WellNamed) {e? : Option Expr}
    (he : ∀ e ∈ e?, (Node.expr e).WellNamed) (isAwait : Bool) {body : Emit (List String)}
    (hbody : Writes AllClosed body) : Writes AllClosed (k.resourceScope ds e? isAwait body) := by
  have hinner : Writes (fun p : List (String × String) × List String =>
      (∀ b ∈ p.1, BindingClosed b) ∧ AllClosed p.2) (Emit.withScope [] do
        let declared ← k.acquire ds
        let unnamed ← k.acquireUnnamed e?
        let lines ← body
        return (declared ++ unnamed, lines)) := by
    refine .withScope _ ((acquire_closed hk hd h).bind fun _ hdeclared => ?_)
    refine (acquireUnnamed_closed hk he).bind fun _ hunnamed => hbody.bind fun _ hlines => ?_
    exact .pure ⟨List.forall_mem_append.mpr ⟨hdeclared, hunnamed⟩, hlines⟩
  exact hinner.bind fun ⟨_, _⟩ ⟨hbindings, hlines⟩ => .pure (guardAll_closed hk isAwait hbindings hlines)

/-! ## Statement lists -/

omit hk in
theorem withFunctions_closed {ss : List Stmt} {m : Emit (List String)} (hm : Writes AllClosed m) :
    Writes AllClosed (withFunctions ss m) :=
  .ite (fun _ => hm) fun _ => hm.withScope _

theorem sequence_closed {ss : List Stmt} (h : ∀ s ∈ ss, (Node.stmt s).WellNamed) :
    Writes AllClosed (k.sequence ss) := by
  induction ss with
  | nil => exact .pure nofun
  | cons s rest ih =>
    obtain ⟨hs, hrest⟩ := List.forall_mem_cons.mp h
    have hstmt := (hk.stmt hs).bind fun text ht => (ih hrest).bind fun _ hts =>
      Provides.pure (P := AllClosed) (List.forall_mem_cons.mpr ⟨ht, hts⟩)
    obtain ⟨span, kind⟩ := s
    rw [sequence]
    split
    · next ds e? isAwait hkind =>
      cases hkind
      have hparts := hs.parts
      refine (resourceScope_closed hk hs.1 hparts.left.left.acquired (fun e he => ?_) isAwait
        (withFunctions_closed (ih hrest))).bind fun _ hlines => .pure ?_
      · exact hparts.left.right.exprs (Option.mem_toList.mpr he)
      · exact List.forall_mem_singleton.mpr (closed_joinLines hlines)
    · exact hstmt

theorem statements_closed {ss : List Stmt} (h : ∀ s ∈ ss, (Node.stmt s).WellNamed) :
    Writes AllClosed (k.statements ss) :=
  withFunctions_closed (sequence_closed hk h)

theorem block_closed {s : Stmt} (h : (Node.stmt s).WellNamed) : Writes Closed (k.block s) :=
  (statements_closed hk h.statements).bind fun _ hts => .pure (closed_block hk.indent hts)

/-! ## Patterns -/

omit hk in
theorem symbol_closed (op : BinaryOp) : Closed op.symbol := by cases op <;> decide

omit hk in
theorem typeTest_closed {subject : String} (hs : Closed subject) {type : TypeRef} (ht : TypeName type.name) :
    Closed (typeTest subject type) := by
  unfold typeTest
  dsimp only
  split
  · exact (Leads.start rfl).hole hs |>.lit rfl
  · exact (Leads.start rfl).hole hs |>.lit rfl
  · exact (Leads.start rfl).hole hs |>.lit rfl
  · refine closed_ite ?_ ?_
    · exact (Leads.first hs).lit rfl
    · exact (Leads.first hs).lit rfl |>.hole (closed_simpleTypeName ht)

omit hk in
theorem memberPath_closed {subject path : String} (hs : Closed subject) (hp : Markless path) :
    Closed (memberPath subject path) := by
  have hnames : Closed (".".intercalate ((splitOn '.' path.toList).map fun part =>
      Script.camelCase (String.ofList part))) := by
    refine closed_intercalate (by decide) fun name hm => ?_
    obtain ⟨part, hpart, rfl⟩ := List.mem_map.mp hm
    refine (markless_camelCase (markless_ofList fun c hc => hp c ?_)).closed
    exact mem_of_mem_splitOn hpart hc
  exact (Leads.first hs).lit rfl |>.hole hnames

omit hk in
theorem conjunction_closed {tests : List String} (h : AllClosed tests) : Closed (" && ".intercalate tests) :=
  closed_intercalate (by decide) h

omit hk in
mutual
theorem patternTest_closed (hk : k.Closing) : ∀ (p : Pattern) {subject : String}, Closed subject →
    (Node.pattern p).WellNamed → Writes Closed (k.patternTest subject p)
  | .discard, _, _, _ => .pure (by decide)
  | .type _, _, hs, h => .pure (typeTest_closed hs h.1)
  | .constant _, _, hs, h =>
    .ite (fun _ => .pure ((Leads.first hs).lit rfl)) fun _ =>
      (expr_closed hk h.parts.head).bind fun _ ht => .pure ((Leads.first hs).lit rfl |>.hole ht)
  | .relational op _, _, hs, h =>
    (expr_closed hk h.parts.head).bind fun _ ht =>
      .pure ((Leads.first hs).lit rfl |>.hole (symbol_closed op) |>.lit rfl |>.hole ht)
  | .property type? ps, _, hs, h =>
    (memberTests_closed hk ps hs h.1.2 h.parts).bind fun members hm => .pure (by
      refine closed_ite ((Leads.first hs).lit rfl) (conjunction_closed ?_)
      refine List.forall_mem_append.mpr ⟨fun t ht => ?_, fun t ht => hm t (List.mem_filter.mp ht).1⟩
      cases type? with
      | none => cases ht
      | some type =>
        rw [List.mem_singleton.mp ht]
        exact typeTest_closed hs (h.1.1 type rfl))
  | .not p, _, hs, h =>
    .ite (fun _ => .pure ((Leads.first hs).lit rfl)) fun _ =>
      (patternTest_closed hk p hs h.parts.head).bind fun _ ht => .pure ((Leads.start rfl).hole ht |>.lit rfl)
  | .and left right, _, hs, h =>
    (patternTest_closed hk left hs h.parts.head).bind fun _ hl =>
      (patternTest_closed hk right hs h.parts.tail.head).bind fun _ hr => .pure ((Leads.first hl).lit rfl |>.hole hr)
  | .or left right, _, hs, h =>
    (patternTest_closed hk left hs h.parts.head).bind fun _ hl =>
      (patternTest_closed hk right hs h.parts.tail.head).bind fun _ hr =>
        .pure ((Leads.start rfl).hole hl |>.lit rfl |>.hole hr |>.lit rfl)
theorem memberTest_closed (hk : k.Closing) : ∀ (p : Subpattern) {subject : String}, Closed subject →
    Markless p.name → (Node.pattern p.pattern).WellNamed → Writes Closed (k.memberTest subject p)
  | ⟨_, pattern⟩, _, hs, hn, h => patternTest_closed hk pattern (memberPath_closed hs hn) h
theorem memberTests_closed (hk : k.Closing) : ∀ (ps : List Subpattern) {subject : String}, Closed subject →
    (∀ p ∈ ps, Markless p.name) → Parts.WellNamed (ps.map fun p => ([], .pattern p.pattern)) →
    Writes AllClosed (k.memberTests subject ps)
  | [], _, _, _, _ => .pure nofun
  | p :: ps, _, hs, hn, h =>
    (memberTest_closed hk p hs (hn p (List.mem_cons_self ..)) h.head).bind fun _ ht =>
      (memberTests_closed hk ps hs (fun q hq => hn q (List.mem_cons_of_mem _ hq)) h.tail).bind fun _ hts =>
        .pure (List.forall_mem_cons.mpr ⟨ht, hts⟩)
end

theorem isTest_closed {pattern : Pattern} (he : (Node.expr e).WellNamed)
    (hp : (Node.pattern pattern).WellNamed) : Writes Closed (k.isTest e pattern) := by
  refine .ite (fun _ => ?_) fun _ => ?_
  · exact (operand_closed hk he).bind fun subject hs => patternTest_closed hk pattern hs hp
  · refine (expr_closed hk he).bind fun value hv => (Writes.freshName (by decide)).bind fun subject hs => ?_
    refine (patternTest_closed hk pattern hs.closed hp).bind fun test ht => .pure ?_
    exact (Leads.start rfl).hole hs.closed |>.lit rfl |>.hole ht |>.lit rfl |>.hole hv |>.lit rfl

omit hk in
theorem guarded_closed {test : String} (ht : Closed test) {guard? : Option String} (hg : AnyClosed guard?) :
    Closed (guarded test guard?) := by
  cases guard? with
  | none => exact ht
  | some g => exact closed_ite (hg g rfl) ((Leads.first ht).lit rfl |>.hole (Script.closed_operand (hg g rfl)))

/-! ## New objects -/

omit hk in
theorem defaultValue_closed (type? : Option TypeRef) : Closed (defaultValue type?) := by
  unfold defaultValue
  repeat' split
  all_goals decide

omit hk in
theorem arrayText_closed {items : List String} (h : AllClosed items) : Closed s!"[{commaList items}]" :=
  (Leads.start rfl).hole (closed_commaList h) |>.lit rfl

omit hk in
theorem objectText_closed {entries : List String} (h : AllClosed entries) : Closed (objectText entries) :=
  closed_ite (by decide) ((Leads.start rfl).hole (closed_commaList h) |>.lit rfl)

theorem memberEntry_closed (rename : String → String) {m : MemberInit}
    (h : (Node.expr m.value).WellNamed) : Writes Closed (k.memberEntry rename m) :=
  (expr_closed hk h).bind fun _ hv => .pure ((Leads.first (closed_objectKey _)).lit rfl |>.hole hv)

theorem objectLiteral_closed {ms : List MemberInit}
    (h : ∀ m ∈ ms, (Node.expr m.value).WellNamed) : Writes Closed (k.objectLiteral ms) :=
  .bind (.mapM fun m hm => memberEntry_closed hk _ (h m hm)) fun _ ht => .pure (objectText_closed ht)

/-- The key and the value of a map entry. -/
abbrev EntryNamed (d : DictEntry) : Prop := (Node.expr d.key).WellNamed ∧ (Node.expr d.value).WellNamed

theorem dictEntry_closed {d : DictEntry} (h : EntryNamed d) : Writes Closed (k.dictEntry d) := by
  have hrest : ∀ key, Closed key → Writes Closed (do
      let value ← k.expr d.value
      return s!"{key}: {value}") := fun key hkey =>
    (expr_closed hk h.2).bind fun _ hv => .pure ((Leads.first hkey).lit rfl |>.hole hv)
  unfold dictEntry
  cases d.key.stringLiteral? with
  | some s => exact (Provides.pure (closed_objectKey s)).bind hrest
  | none =>
    have hkey : Writes Closed (do
        let text ← k.expr d.key
        pure s!"[{text}]") :=
      (expr_closed hk h.1).bind fun _ ht => .pure ((Leads.start rfl).hole ht |>.lit rfl)
    exact hkey.bind hrest

theorem entryAssignment_closed {d : DictEntry} (h : EntryNamed d) :
    Writes Closed (k.entryAssignment d) :=
  (expr_closed hk h.1).bind fun _ hkey => (expr_closed hk h.2).bind fun _ hv =>
    .pure ((Leads.start rfl).hole hkey |>.lit rfl |>.hole hv)

theorem populated_closed {created : String} (hc : Closed created) {lines : String → List String}
    (hl : ∀ target, Closed target → AllClosed (lines target)) : Writes Closed (k.populated created lines) := by
  refine (Writes.freshName (by decide)).bind fun target ht => .pure ?_
  have hbody : AllClosed (s!"const {target} = {created};" :: lines target ++ [s!"return {target};"]) := by
    have hfront := List.forall_mem_cons.mpr ⟨constLine_closed ht.closed hc, hl target ht.closed⟩
    refine List.forall_mem_append.mpr ⟨hfront, List.forall_mem_singleton.mpr ?_⟩
    exact (Leads.start rfl).hole ht.closed |>.lit rfl
  exact (Leads.start rfl).hole (closed_block hk.indent hbody) |>.lit rfl

/-- The expressions of an initializer are well named. -/
def InitializerNamed (i? : Option Initializer) : Prop := ∀ i ∈ i?, ∀ e ∈ i.exprs, (Node.expr e).WellNamed

omit hk in
theorem InitializerNamed.members {ms : List MemberInit} (h : InitializerNamed (some (.object ms))) :
    ∀ m ∈ ms, (Node.expr m.value).WellNamed :=
  fun _ hm => h _ rfl _ (List.mem_map_of_mem hm)

omit hk in
theorem InitializerNamed.entries {ds : List DictEntry} (h : InitializerNamed (some (.dictionary ds))) :
    ∀ d ∈ ds, EntryNamed d := by
  intro d hd
  have hmem : ∀ e ∈ [d.key, d.value], e ∈ Initializer.exprs (.dictionary ds) :=
    fun e he => List.mem_flatMap.mpr ⟨d, hd, he⟩
  exact ⟨h _ rfl _ (hmem _ (List.mem_cons_self ..)), h _ rfl _ (hmem _ (by simp))⟩

theorem elements_closed {i? : Option Initializer} (h : InitializerNamed i?) :
    Writes AllClosed (k.elements i?) := by
  rcases i? with _ | ms | es | ds
  · exact .pure nofun
  · exact .pure nofun
  · exact exprs_closed hk (h _ rfl)
  · exact .pure nofun

theorem entries_closed {i? : Option Initializer} (h : InitializerNamed i?) :
    Writes AllClosed (k.entries i?) := by
  rcases i? with _ | ms | es | ds
  · exact .pure nofun
  · exact .mapM fun m hm => memberEntry_closed hk _ (h.members m hm)
  · exact .pure nofun
  · exact .mapM fun d hd => dictEntry_closed hk (h.entries d hd)

theorem copied_closed (h : ∀ a ∈ args, (Node.expr a.expr).WellNamed) :
    Writes AnyClosed (k.copied args) := by
  rcases args with _ | ⟨a, _ | ⟨b, rest⟩⟩
  · exact .pure nofun
  · refine .ite (fun _ => .pure nofun) fun _ => ?_
    exact (expr_closed hk (h a (List.mem_singleton.mpr rfl))).bind fun _ ht => .pure (anyClosed_some ht)
  · exact .pure nofun

omit hk in
/-- What is copied and what is listed. -/
theorem spread_closed {source? : Option String} (hs : AnyClosed source?) {ts : List String}
    (ht : AllClosed ts) : AllClosed (spreadOf source? ++ ts) := by
  refine List.forall_mem_append.mpr ⟨fun t hm => ?_, ht⟩
  cases source? with
  | none => cases hm
  | some source =>
    rw [List.mem_singleton.mp hm]
    exact (Leads.start rfl).hole (hs source rfl)

omit hk in
theorem newSet_closed {source? : Option String} (hs : AnyClosed source?) {ts : List String}
    (ht : AllClosed ts) : Closed (newSet source? ts) := by
  have hall := closed_commaList (spread_closed hs ht)
  unfold newSet
  split
  · decide
  · exact (Leads.start rfl).hole (hs _ rfl) |>.lit rfl
  · exact (Leads.start rfl).hole hall |>.lit rfl

theorem newInstance_closed {name : String} (hn : Closed name) {i? : Option Initializer}
    (ha : ∀ a ∈ args, (Node.expr a.expr).WellNamed) (hi : InitializerNamed i?) :
    Writes Closed (k.newInstance name args i?) := by
  refine (arguments_closed hk ha).bind fun args hargs => ?_
  have hcreated : Closed s!"new {name}({commaList args})" :=
    (Leads.start rfl).hole hn |>.lit rfl |>.hole (closed_commaList hargs) |>.lit rfl
  rcases i? with _ | ms | es | ds
  · exact .pure hcreated
  · refine .ite (fun _ => .pure hcreated) fun _ => ?_
    refine (objectLiteral_closed hk hi.members).bind fun fields hf => .pure ?_
    exact (Leads.start rfl).hole hcreated |>.lit rfl |>.hole hf |>.lit rfl
  · refine (exprs_closed hk (hi _ rfl)).bind fun values hv => populated_closed hk hcreated fun target ht => ?_
    intro line hline
    obtain ⟨value, hvalue, rfl⟩ := List.mem_map.mp hline
    exact (Leads.first ht).lit rfl |>.hole (hv value hvalue) |>.lit rfl
  · refine .bind (.mapM fun d hd => entryAssignment_closed hk (hi.entries d hd)) fun texts hts => ?_
    refine populated_closed hk hcreated fun target ht line hline => ?_
    obtain ⟨text, htext, rfl⟩ := List.mem_map.mp hline
    exact (Leads.first ht).hole (hts text htext) |>.lit rfl

theorem creation_closed {type? : Option TypeRef} (ht : TypeNamed type?) {i? : Option Initializer}
    (ha : ∀ a ∈ args, (Node.expr a.expr).WellNamed) (hi : InitializerNamed i?) :
    Writes Closed (k.creation e type? args i?) := by
  cases type? with
  | none =>
    refine (Provides.report _).bind fun _ _ => ?_
    rcases i? with _ | ms | es | ds
    · exact .pure (by decide)
    · exact objectLiteral_closed hk hi.members
    · exact .pure (by decide)
    · exact .pure (by decide)
  | some type =>
    refine (copied_closed hk ha).bind fun source? hs => ?_
    have hlist := (elements_closed hk hi).bind fun ts hts =>
      Provides.pure (P := Closed) (arrayText_closed (spread_closed hs hts))
    split
    · exact hlist
    · exact hlist
    · exact (elements_closed hk hi).bind fun _ hts => .pure (newSet_closed hs hts)
    · exact (entries_closed hk hi).bind fun _ hts => .pure (objectText_closed (spread_closed hs hts))
    · exact newInstance_closed hk (closed_simpleTypeName (ht type rfl)) ha hi

theorem newArray_closed (type? : Option TypeRef) {size? : Option Expr}
    (h : ∀ x ∈ size?.toList ++ es, (Node.expr x).WellNamed) : Writes Closed (k.newArray type? size? es) := by
  have hlist := (exprs_closed hk fun x hx => h x (List.mem_append_right _ hx)).bind fun ts hts =>
    Provides.pure (P := Closed) (arrayText_closed hts)
  rcases size? with _ | size
  · exact hlist
  · rcases es with _ | ⟨x, xs⟩
    · refine (expr_closed hk (h size (List.mem_cons_self ..))).bind fun _ ht => .pure ?_
      exact (Leads.start rfl).hole ht |>.lit rfl |>.hole (defaultValue_closed type?) |>.lit rfl
    · exact hlist

/-! ## Choices of values -/

theorem armLines_closed {subject : String} (hs : Closed subject) {arms : List SwitchArm}
    (h : Parts.WellNamed (arms.flatMap Parts.arm)) : Writes AllClosed (k.armLines subject arms) := by
  induction arms with
  | nil => exact .pure (List.forall_mem_singleton.mpr (by decide))
  | cons arm arms ih =>
    rw [List.flatMap_cons] at h
    have hexprs : ∀ e ∈ arm.exprs, (Node.expr e).WellNamed := fun _ he => h.left.tail.exprs he
    refine (patternTest_closed hk _ hs h.left.head).bind fun test ht => ?_
    refine .bind (.optionMapM fun g hg => expr_closed hk (hexprs g ?_)) fun guard? hg => ?_
    · exact List.mem_append_left _ (Option.mem_toList.mpr hg)
    have hvalue := hexprs arm.value (List.mem_append_right _ (List.mem_singleton.mpr rfl))
    refine (expr_closed hk hvalue).bind fun value hv => .ite (fun _ => ?_) fun _ => ?_
    · exact .pure (List.forall_mem_singleton.mpr ((Leads.start rfl).hole hv |>.lit rfl))
    · refine (ih h.right).bind fun lines hlines => .pure (List.forall_mem_cons.mpr ⟨?_, hlines⟩)
      exact (Leads.start rfl).hole (guarded_closed ht hg) |>.lit rfl |>.hole hv |>.lit rfl

theorem switchExpr_closed {scrutinee : Expr} {arms : List SwitchArm}
    (he : (Node.expr scrutinee).WellNamed) (h : Parts.WellNamed (arms.flatMap Parts.arm)) :
    Writes Closed (k.switchExpr scrutinee arms) := by
  refine (Writes.freshName (by decide)).bind fun subject hs => (expr_closed hk he).bind fun value hv => ?_
  refine (armLines_closed hk hs.closed h).bind fun lines hlines => .pure ?_
  have hbody := closed_block hk.indent (List.forall_mem_cons.mpr ⟨constLine_closed hs.closed hv, hlines⟩)
  refine closed_ite ?_ ?_
  · exact (Leads.start rfl).hole hbody |>.lit rfl
  · exact (Leads.start rfl).hole hbody |>.lit rfl

/-! ## Expressions by kind -/

omit hk in
theorem literal_closed {value : Literal} (h : Expr.OwnNames ⟨{}, .literal value⟩) : Closed value.script := by
  cases value with
  | null => decide
  | bool b => cases b <;> decide
  | number text => exact (markless_numeral h).closed
  | string s => exact closed_quote s
  | char c => exact closed_quote _

theorem identifier_closed (s : Session) {name : String} (hn : Markless name) :
    Closed (k.identifier s e name) := by
  have hcamel : Closed (k.settings.instanceReceiver ++ "." ++ Script.camelCase name) :=
    (Leads.first hk.instanceReceiver).lit rfl |>.hole (markless_camelCase hn).closed
  have hmember : Closed (k.settings.instanceReceiver ++ "." ++ name) :=
    (Leads.first hk.instanceReceiver).lit rfl |>.hole hn.closed
  unfold Env.identifier
  refine closed_ite hn.closed ?_
  cases k.model.symbolOf e with
  | some symbol => exact closed_ite hcamel hn.closed
  | none =>
    refine closed_ite hn.closed ?_
    cases name.toList.head? with
    | none => exact hn.closed
    | some c => exact closed_ite hmember (closed_ite hcamel hn.closed)

theorem interpolationParts_closed (span : Span) {parts : List InterpolationPart} {b : Bool}
    (hstraddles : ¬ InterpolationPart.Straddles parts) (hb : b = true → InterpolationPart.braceFirst parts = false)
    (h : ∀ e ∈ parts.filterMap InterpolationPart.expr?, (Node.expr e).WellNamed) :
    Writes (TemplateBody Closed b) (parts.mapM (k.interpolationPart span)) := by
  induction parts generalizing b with
  | nil => exact .pure .nil
  | cons part rest ih =>
    rw [List.mapM_cons]
    cases part with
    | text t =>
      obtain ⟨hbrace, hnext, hstraddles⟩ := InterpolationPart.text_apart hstraddles hb
      have hrest := ih hstraddles hnext h
      exact .bind (.pure rfl) fun text ht => hrest.bind fun _ hts => .pure (ht ▸ .text t hbrace hts)
    | expr e format? =>
      have he := h e (List.mem_cons_self ..)
      have hrest := ih (b := false) (fun hs => hstraddles ((InterpolationPart.straddles_expr e format?).mpr hs)) nofun
        fun x hx => h x (List.mem_cons_of_mem _ hx)
      have hpart : Writes (fun text => ∃ t, Closed t ∧ text = substitution t)
          (k.interpolationPart span (.expr e format?)) := by
        cases format? with
        | none => exact (expr_closed hk he).bind fun t ht => .pure ⟨t, ht, rfl⟩
        | some format =>
          exact (Provides.report _).bind fun _ _ => (expr_closed hk he).bind fun t ht => .pure ⟨t, ht, rfl⟩
      refine hpart.bind fun text ⟨t, ht, htext⟩ => hrest.bind fun _ hts => .pure ?_
      exact htext ▸ .hole ht hts

theorem interpolatedString_closed (span : Span) {parts : List InterpolationPart}
    (hsep : Separated InterpolationPart.isText parts)
    (h : ∀ e ∈ parts.filterMap InterpolationPart.expr?, (Node.expr e).WellNamed) :
    Writes Closed (k.interpolatedString span parts) :=
  (interpolationParts_closed (b := false) hk span (InterpolationPart.not_straddles_of_separated hsep) nofun h).bind
    fun _ hts => .pure (closed_template hts)

theorem binaryOperand_closed (parent : BinaryOp) (he : (Node.expr e).WellNamed) :
    Writes Closed (k.binaryOperand parent e) :=
  (expr_closed hk he).bind fun _ ht => .pure (closed_ite ((Leads.start rfl).hole ht |>.lit rfl) ht)

omit hk in
theorem unary_closed (op : UnaryOp) {t : String} (ht : Closed t) : Closed (op.apply t) := by
  cases op
  case postIncrement | postDecrement => exact (Leads.first ht).lit rfl
  all_goals exact (Leads.start rfl).hole ht

omit hk in
theorem assignSymbol_closed (op : AssignOp) : Closed op.symbol := by cases op <;> decide

omit hk in
theorem params_named {b : Scopes} {ps : List Param} (h : Parts.WellNamed (Parts.params b ps)) :
    ∀ p ∈ ps, ∀ e ∈ p.default?, (Node.expr e).WellNamed :=
  fun p hp _ he => h.exprs (List.mem_filterMap.mpr ⟨p, hp, he⟩)

omit hk in
theorem declarators_named {ds : List Declarator} (h : Parts.WellNamed (Parts.declarators ds)) :
    ∀ d ∈ ds, ∀ e ∈ d.init?, (Node.expr e).WellNamed :=
  fun d hd _ he => h.exprs (List.mem_filterMap.mpr ⟨d, hd, he⟩)

omit hk in
theorem arguments_named (h : Parts.WellNamed (Parts.arguments args)) :
    ∀ a ∈ args, (Node.expr a.expr).WellNamed :=
  fun _ ha => h.exprs (List.mem_map_of_mem ha)

omit hk in
theorem initializer_named {i? : Option Initializer} (h : Parts.WellNamed (Parts.initializer i?)) :
    InitializerNamed i? :=
  fun i hi _ he => h.exprs (List.mem_flatMap.mpr ⟨i, Option.mem_toList.mpr hi, he⟩)

/-- The parameters and the body of a function. -/
theorem function_closed {ps : List Param} (hp : ParamsNamed ps) {b : Scopes}
    (h : Parts.WellNamed (Parts.params b ps)) {body : Emit String} (hb : Writes Closed body) :
    Writes (fun p : String × String => Closed p.1 ∧ Closed p.2) (Emit.withScope (ps.map (·.name)) do
      let params ← k.params ps
      let body ← body
      return (params, body)) :=
  .withScope _ ((params_closed hk hp (params_named h)).bind fun _ hp => hb.bind fun _ hb => .pure ⟨hp, hb⟩)

theorem lambda_closed {span : Span} {ps : List Param} {body : LambdaBody} {isAsync : Bool}
    (h : (Node.expr ⟨span, .lambda ps body isAsync⟩).WellNamed) : Writes Closed (k.lambda ps body isAsync) := by
  have hparts := h.parts
  have hbody : Writes Closed (k.lambdaBody body) := by
    cases body with
    | expr e =>
      refine (expr_closed hk hparts.right.head).bind fun _ ht => .pure ?_
      exact closed_ite ((Leads.start rfl).hole ht |>.lit rfl) ht
    | block s => exact block_closed hk hparts.right.head.body
  refine (function_closed hk h.1 hparts.left hbody).bind fun ⟨params, body⟩ ⟨hp, hb⟩ => .pure ?_
  have hasync : Closed (if isAsync then "async " else "") := closed_ite (by decide) (by decide)
  exact (Leads.first hasync).lit rfl |>.hole hp |>.lit rfl |>.hole hb

omit hk in
/-- The type that is written, else the one that is expected. -/
theorem typeNamed_orElse {type? expected? : Option TypeRef} (ht : TypeNamed type?) (hx : TypeNamed expected?) :
    TypeNamed (type? <|> expected?) := by
  cases type? with
  | none => exact hx
  | some type => exact ht

/-- The conversion of an expression by its kind. -/
theorem defaultExpr_closed {expected? : Option TypeRef} (hx : TypeNamed expected?)
    (h : (Node.expr e).WellNamed) : Writes Closed (k.defaultExpr expected? e) := by
  obtain ⟨span, kind⟩ := e
  have hp := h.parts
  cases kind with
  | identifier name => exact .get fun s => .pure (identifier_closed hk s h.1)
  | this => exact .pure hk.instanceReceiver
  | base => exact .pure (by decide)
  | literal value => exact .pure (literal_closed h.1)
  | interpolated parts => exact interpolatedString_closed hk span h.1 fun _ he => hp.exprs he
  | binary op left right =>
    refine (binaryOperand_closed hk op hp.head).bind fun _ hl => ?_
    refine (binaryOperand_closed hk op hp.tail.head).bind fun _ hr => .pure ?_
    exact (Leads.first hl).lit rfl |>.hole (symbol_closed op) |>.lit rfl |>.hole hr
  | unary op operand => exact (operand_closed hk hp.head).bind fun _ ht => .pure (unary_closed op ht)
  | assignment op target value =>
    refine (expr_closed hk hp.head).bind fun _ ht => (expr_closed hk hp.tail.head).bind fun _ hv => .pure ?_
    exact (Leads.first ht).lit rfl |>.hole (assignSymbol_closed op) |>.lit rfl |>.hole hv
  | member receiver name =>
    refine (operand_closed hk hp.head).bind fun _ hr => .pure ?_
    exact (Leads.first hr).lit rfl |>.hole (markless_camelCase h.1).closed
  | conditionalMember receiver name =>
    refine (operand_closed hk hp.head).bind fun _ hr => .pure ?_
    exact (Leads.first hr).lit rfl |>.hole (markless_camelCase h.1).closed
  | elementAccess receiver index =>
    refine (operand_closed hk hp.head).bind fun _ hr => (expr_closed hk hp.tail.head).bind fun _ hi => .pure ?_
    exact (Leads.first hr).lit rfl |>.hole hi |>.lit rfl
  | invocation callee typeArgs args =>
    refine (operand_closed hk hp.head).bind fun _ hc => ?_
    refine (arguments_closed hk (arguments_named hp.tail)).bind fun _ hargs => .pure ?_
    exact (Leads.first hc).lit rfl |>.hole (closed_commaList hargs) |>.lit rfl
  | objectCreation type? args initializer? =>
    exact creation_closed hk (typeNamed_orElse h.1 hx) (arguments_named hp.left) (initializer_named hp.right)
  | anonymousObject members =>
    exact objectLiteral_closed hk fun _ hm => hp.exprs (List.mem_map_of_mem hm)
  | arrayCreation elementType? size? elements => exact newArray_closed hk elementType? fun _ hm => hp.exprs hm
  | conditional condition whenTrue whenFalse =>
    refine (expr_closed hk hp.head).bind fun _ hc => (expr_closed hk hp.tail.head).bind fun _ ht => ?_
    refine (expr_closed hk hp.tail.tail.head).bind fun _ hf => .pure ?_
    exact (Leads.first hc).lit rfl |>.hole ht |>.lit rfl |>.hole hf
  | lambda params body isAsync => exact lambda_closed hk h
  | await operand => exact (operand_closed hk hp.head).bind fun _ ht => .pure ((Leads.start rfl).hole ht)
  | cast type operand => exact expr_closed hk hp.head
  | patternTest operand pattern => exact isTest_closed hk hp.head hp.tail.head
  | nameOf name => exact .pure (closed_quote _)
  | defaultOf type? => exact .pure (defaultValue_closed _)
  | parenthesized inner =>
    exact (expr_closed hk hp.head).bind fun _ ht => .pure ((Leads.start rfl).hole ht |>.lit rfl)
  | switchExpr scrutinee arms => exact switchExpr_closed hk hp.head hp.tail
  | other nodeKind text => exact h.1.elim

end Converter

end ComponentScript
