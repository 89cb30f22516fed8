/-
  ComponentScript.Proofs.Rules.Legible — the built-in rules write legible text.

  `Rule.Legible`: with a converter that gives legible text for the nodes inside, the rule
  gives for a node it applies to a text that does no more to its chain than `Expr.outer`
  allows. A call that becomes a template (`becomesTemplate`) can only stand where templates
  may start, and its values must be fit for substitution. `builtinExprs_legible` and
  `builtinStmts_legible`: so does every built-in rule.
-/

import ComponentScript.Proofs.Convert.LegibleStatements
import ComponentScript.Proofs.Rules.ClosedText

namespace ComponentScript

open Script Text

/-- Whether the numbers of a format string all refer to arguments. -/
def isFormatFor (args : List Argument) (template : Expr) : Bool :=
  (template.stringLiteral?.bind fun s => FormatPiece.parse? s.toList).any (·.all (FormatPiece.fits args.length))

/-- Whether a call becomes a template literal: it formats or prints a format string with its
    arguments. -/
def becomesTemplate (env : Env) (s : Session) (call : Call) (e : Expr) : Bool :=
  (((Rules.consoleMethod? env s call e).isSome && 2 ≤ call.arity) ||
      (Rules.isStaticStringCall env s call && call.name = "Format")) &&
    call.args.head?.any fun template => isFormatFor call.args.tail template.expr

/-- A template stands where templates may start, around values that can be substituted. -/
def TemplateFit (w : Watch) (hole : Expr → Prop) (env : Env) (s : Session) (e : Expr) : Prop :=
  ∀ call, e.call? = some call → becomesTemplate env s call e = true →
    w.ticks = true ∧ ∀ a ∈ call.args.tail, hole a.expr

/-- The rule gives legible text for the nodes it applies to. -/
def Rule.Legible (r : Rule Expr) : Prop :=
  ∀ {w : Watch} {hole : Expr → Prop} {k : Converter} {s : Session} {e : Expr}, k.Legible w hole →
    (Node.expr e).Fit k.model w → TemplateFit w hole k.toEnv s e → r.applies k.toEnv s e = true → s.Tidy →
    EmitsAt s (w.Shaped (e.outer k.model)) (r.convert k e)

variable {w : Watch} {hole : Expr → Prop} {k : Converter} {e receiver : Expr} {call : Call} {args : List Argument}

/-! ## What a call is made of -/

theorem Node.Everywhere.call_inert (h : (Node.expr e).Fit k.model w) (hc : e.call? = some call) : Inert call.name := by
  obtain ⟨span, kind⟩ := e
  cases kind with
  | invocation callee typeArgs args =>
    have hcallee : (Node.expr callee).Fit k.model w := h.parts.head
    obtain ⟨calleeSpan, calleeKind⟩ := callee
    cases calleeKind with
    | member r name => cases hc; exact hcallee.1.spelled
    | identifier name => cases hc; exact hcallee.1.spelled
    | _ => cases hc
  | _ => cases hc

theorem Node.Everywhere.member_inert {name : String} (h : (Node.expr e).Fit k.model w)
    (hm : e.memberAccess? = some (receiver, name)) : Inert name := by
  obtain ⟨span, kind⟩ := e
  cases kind with
  | member r n => cases hm; exact h.1.spelled
  | _ => cases hm

/-- A call on a receiver does what its name and the number of its arguments say. -/
theorem outer_of_call (m : Model) (hc : e.call? = some call) (hr : call.receiver? = some receiver) :
    e.outer m = if isTransparent call.name call.arity then receiver.outer m
      else if call.name = "Add" && call.arity = 2 && m.mayBeMap receiver e then .whole else .neutral := by
  obtain ⟨span, kind⟩ := e
  cases kind with
  | invocation callee typeArgs args =>
    obtain ⟨calleeSpan, calleeKind⟩ := callee
    cases calleeKind with
    | member r name => cases hc; cases hr; rw [Expr.outer]; rfl
    | identifier name => cases hc; cases hr
    | _ => cases hc
  | _ => cases hc

theorem kind_of_call (hc : e.call? = some call) :
    ∃ callee typeArgs args, e.kind = .invocation callee typeArgs args := by
  unfold Expr.call? at hc
  split at hc
  · next hkind => exact ⟨_, _, _, hkind⟩
  · cases hc

theorem outer_of_stringLiteral (m : Model) (h : e.stringLiteral?.isSome = true) : e.outer m = .neutral := by
  obtain ⟨span, kind⟩ := e
  cases kind with
  | literal value => rfl
  | _ => cases h

/-- Parameters with names, and with values that can be read. -/
def Sharing.Legible (w : Watch) (sh : Sharing) : Prop := ∀ b ∈ sh.bindings, Converter.BindingLegible w b

theorem Sharing.legible_empty : Sharing.Legible w {} := List.forall_mem_nil _

theorem Sharing.Legible.wrap {sh : Sharing} (h : sh.Legible w) {body : String} (hb : w.Neutral body) :
    w.Neutral (sh.wrap body) := by
  have hside : ∀ f : String × String → String, (∀ b ∈ sh.bindings, w.Whole (f b)) →
      w.Whole (commaList (sh.bindings.map f)) := fun f hf =>
    Watch.whole_commaList fun t ht => by
      obtain ⟨b, hb, rfl⟩ := List.mem_map.mp ht
      exact hf b hb
  have hnames := hside (·.1) fun b hm => (Watch.neutral_of_inert (h b hm).1).whole
  exact Watch.neutral_ite hb (Converter.called_neutral hnames hb.whole (hside _ fun b hm => (h b hm).2))

/-- A call of a method on a receiver. -/
theorem methodCall_neutral {target name : String} (ht : w.Neutral target) (hn : Inert name) {ts : List String}
    (hts : ∀ t ∈ ts, w.Whole t) : w.Neutral s!"{target}.{name}({commaList ts})" :=
  fun _ _ => (Watch.Leads.first ht).lit rfl rfl |>.hole (Watch.neutral_of_inert hn) |>.lit rfl rfl
    |>.inner (Watch.whole_commaList hts) |>.lit rfl rfl

namespace Converter

theorem argument_whole (hk : k.Legible w hole) (call : Call) (i : Nat) : Emits w.Whole (k.argument call i) := by
  unfold argument
  cases call.arg? i with
  | none => exact .pure Watch.neutral_empty.whole
  | some e => exact expr_whole hk e

theorem argumentOperand_neutral (hk : k.Legible w hole) (call : Call) (i : Nat) :
    Emits w.Neutral (k.argumentOperand call i) := by
  unfold argumentOperand
  cases call.arg? i with
  | none => exact .pure Watch.neutral_empty
  | some e => exact operand_neutral hk e

/-- Each argument has a text, which does what the argument may do. -/
theorem arguments_shaped (hk : k.Legible w hole) (args : List Argument) :
    Emits (fun ts => ts.length = args.length ∧ ∀ p ∈ args.zip ts, w.Shaped (p.1.expr.outer k.model) p.2)
      (k.arguments args) := by
  unfold arguments
  induction args with
  | nil => exact .pure ⟨rfl, List.forall_mem_nil _⟩
  | cons a args ih =>
    rw [List.mapM_cons]
    refine (expr_shaped hk a.expr).bind fun t ht => ih.bind fun ts ⟨hlength, hts⟩ => .pure ⟨?_, ?_⟩
    · rw [List.length_cons, List.length_cons, hlength]
    · exact List.forall_mem_cons.mpr ⟨ht, hts⟩

/-- The text that stands for an operand, and what is bound for it. -/
abbrev SharedLegible (w : Watch) (r : String × Sharing) : Prop := w.Neutral r.1 ∧ r.2.Legible w

theorem share_legible {sh : Sharing} (hsh : sh.Legible w) (e : Expr) {text : String} (ht : w.Whole text) :
    Emits (SharedLegible w) (sh.share e text) := by
  refine .ite (fun _ => .pure ⟨ht.operand, hsh⟩) fun _ => ?_
  refine (Emits.freshName (by decide)).bind fun name hn => .pure ⟨Watch.neutral_of_inert hn, ?_⟩
  exact List.forall_mem_append.mpr ⟨hsh, List.forall_mem_singleton.mpr ⟨hn, ht⟩⟩

theorem shared_legible (hk : k.Legible w hole) {sh : Sharing} (hsh : sh.Legible w) (e : Expr) :
    Emits (SharedLegible w) (k.shared sh e) :=
  (expr_whole hk e).bind fun _ ht => share_legible hsh e ht

theorem compositeFormat_neutral (hk : k.Legible w hole) (template : Expr)
    (h : isFormatFor args template = true → w.ticks = true ∧ ∀ a ∈ args, hole a.expr) :
    Emits (fun t? => ∀ t ∈ t?, w.Neutral t) (k.compositeFormat? template args) := by
  unfold compositeFormat?
  unfold isFormatFor at h
  cases hpieces : template.stringLiteral?.bind fun s => FormatPiece.parse? s.toList with
  | none => exact .pure nofun
  | some pieces =>
    rw [hpieces] at h
    obtain ⟨s, -, hparse⟩ := Option.bind_eq_some_iff.mp hpieces
    refine .ite (fun hfits => ?_) fun _ => .pure nofun
    obtain ⟨hw, hholes⟩ := h hfits
    refine .bind (.mapM fun a ha => hk.holes (hholes a ha)) fun values hv => ?_
    have htext := Watch.neutral_template hw
      (FormatPiece.templateBody_render Watch.neutral_empty.whole hv (FormatPiece.separated_parse hparse) nofun)
    have hsome : Emits (fun t? => ∀ t ∈ t?, w.Neutral t) (pure (some _)) :=
      .pure fun _ h => Option.some.inj h ▸ htext
    exact .ite (fun _ => (Provides.report _).bind fun _ _ => hsome) fun _ => hsome

end Converter

namespace Rules

open Converter

/-! ## Printing -/

theorem consoleMethod_inert (env : Env) (s : Session) (call : Call) (e : Expr) :
    Inert ((consoleMethod? env s call e).getD "log") := by
  have hmethod : ∀ name, Inert ((consoleMethodOf? name).getD "log") := by
    intro name
    unfold consoleMethodOf?
    split <;> decide
  unfold consoleMethod?
  split
  · dsimp only
    split <;> decide
  · split
    · decide
    split
    · exact hmethod _
    · decide

theorem printed_whole (hk : k.Legible w hole) {args : List Argument}
    (h : ∀ template arg rest, args = template :: arg :: rest → isFormatFor (arg :: rest) template.expr = true →
      w.ticks = true ∧ ∀ a ∈ arg :: rest, hole a.expr) :
    Emits (fun ts => ∀ t ∈ ts, w.Whole t) (printed k args) := by
  rcases args with _ | ⟨template, _ | ⟨arg, rest⟩⟩
  · exact .pure (List.forall_mem_nil _)
  · exact arguments_whole hk _
  · refine (compositeFormat_neutral hk template.expr (h template arg rest rfl)).bind fun text? ht => ?_
    cases text? with
    | none => exact arguments_whole hk _
    | some text => exact .pure (List.forall_mem_singleton.mpr (ht text rfl).whole)

theorem consolePrint_legible : consolePrint.Legible := by
  intro w hole k s e hk h ht happlies hs
  dsimp only [consolePrint] at happlies ⊢
  cases hc : e.call? with
  | none => rw [hc] at happlies; cases happlies
  | some call =>
    rw [hc] at happlies
    have hprinted : Emits (fun ts => ∀ t ∈ ts, w.Whole t) (printed k call.args) := by
      refine printed_whole hk fun template arg rest hargs hformat => ?_
      have htemplate : becomesTemplate k.toEnv s call e = true := by
        have hmethod : (consoleMethod? k.toEnv s call e).isSome = true := happlies
        simp [becomesTemplate, hmethod, Call.arity, hargs, hformat]
      have hfit := ht call hc htemplate
      rwa [hargs] at hfit
    have hmethod := consoleMethod_inert k.toEnv s call e
    generalize hm : (consoleMethod? k.toEnv s call e).getD "log" = method at hmethod
    have hconvert : EmitsAt s (w.Shaped (e.outer k.model)) (do
        let args ← printed k call.args
        return s!"console.{method}({commaList args})") := by
      refine hprinted.bind (fun args ha => .pure (Watch.Neutral.shaped _ fun _ _ => ?_)) s hs
      exact (Watch.Leads.start rfl rfl).hole (Watch.neutral_of_inert hmethod) |>.lit rfl rfl
        |>.inner (Watch.whole_commaList ha) |>.lit rfl rfl
    subst hm
    exact hconvert

/-! ## Tasks -/

theorem taskArray_whole (hk : k.Legible w hole) (args : List Argument) : Emits w.Whole (taskArray k args) := by
  have hlist := fun args => (arguments_whole hk args).bind fun _ ht =>
    Provides.pure (P := w.Whole) (arrayText_neutral ht).whole
  rcases args with _ | ⟨arg, _ | ⟨second, rest⟩⟩
  · exact hlist _
  · refine (expr_whole hk arg.expr).bind fun _ ht => .pure ?_
    split
    · exact ht
    · exact Watch.Neutral.whole fun _ _ => (Watch.Leads.start rfl rfl).inner ht |>.lit rfl rfl
  · exact hlist _

/-- A method of tasks; waiting without a context is the task itself. -/
theorem taskCall_shaped (hk : k.Legible w hole) {o : Shape} (call : Call)
    (ho : call.name = "ConfigureAwait" → o = receiver.outer k.model) :
    Emits (w.Shaped o) (taskCall k receiver call) := by
  have hneutral : ∀ {m : Emit String}, Emits w.Neutral m → Emits (w.Shaped o) m :=
    fun hm => hm.mono fun _ ht => ht.shaped _
  unfold taskCall
  split
  · next hname => exact ho hname ▸ expr_shaped hk receiver
  · refine hneutral ((argument_whole hk call 0).bind fun _ ht => .pure fun _ _ => ?_)
    exact (Watch.Leads.start rfl rfl).inner ht |>.lit rfl rfl
  · refine hneutral ((argument_whole hk call 0).bind fun _ ht => .pure fun _ _ => ?_)
    exact (Watch.Leads.start rfl rfl).inner ht |>.lit rfl rfl
  · refine hneutral ((taskArray_whole hk call.args).bind fun _ ht => .pure fun _ _ => ?_)
    exact (Watch.Leads.start rfl rfl).inner ht |>.lit rfl rfl
  · refine hneutral ((taskArray_whole hk call.args).bind fun _ ht => .pure fun _ _ => ?_)
    exact (Watch.Leads.start rfl rfl).inner ht |>.lit rfl rfl
  · refine hneutral ((argument_whole hk call 0).bind fun _ ht => .pure fun _ _ => ?_)
    exact (Watch.Leads.start rfl rfl).inner ht |>.lit rfl rfl
  · exact .pure (Watch.Neutral.shaped _ fun _ _ => .start rfl rfl)

theorem taskHelpers_legible : taskHelpers.Legible := by
  intro w hole k s e hk h ht happlies hs
  dsimp only [taskHelpers] at happlies ⊢
  cases hc : e.call? with
  | none => exact Provides.pure (Watch.Neutral.shaped _ fun _ _ => .start rfl rfl) s hs
  | some call =>
    rw [hc] at happlies
    have happlies : isTaskCall k.toEnv s call e = true := happlies
    unfold isTaskCall at happlies
    dsimp only
    cases hr : call.receiver? with
    | none => rw [hr] at happlies; cases happlies
    | some receiver =>
      refine taskCall_shaped hk call (fun hname => ?_) s hs
      rw [hr, hname] at happlies
      have harity : call.arity = 1 := by simpa [isTaskMethod] using happlies
      rw [outer_of_call _ hc hr, hname, harity]
      rfl

/-! ## Services -/

theorem quotable_simpleTypeName (name : String) : w.Quotable (simpleTypeName name) := by
  intro hm
  rw [simpleTypeName, String.toList_ofList] at hm
  have hne := List.all_eq_true.mp List.all_takeWhile _ hm
  simp at hne

theorem quotable_typeKey (env : Env) (e : Expr) (typeArg? : Option TypeRef) :
    w.Quotable ((env.typeKey? e typeArg?).getD "") := by
  unfold Env.typeKey?
  cases env.model.typeOf e with
  | some type => exact quotable_simpleTypeName _
  | none =>
    cases typeArg? with
    | some type => exact quotable_simpleTypeName _
    | none => exact nofun

theorem serviceLookup_legible : serviceLookup.Legible := by
  intro w hole k s e hk h ht happlies hs
  dsimp only [serviceLookup] at happlies ⊢
  cases hc : e.call? with
  | none => rw [hc] at happlies; cases happlies
  | some call =>
    dsimp only
    generalize hkey : (k.typeKey? e call.typeArgs.head?).getD "" = key
    have hquote : w.Neutral (Script.quote key) := Watch.neutral_quote (hkey ▸ quotable_typeKey _ _ _)
    have hmethod : w.Neutral k.settings.serviceLookupMethod := by
      rw [hk.settings]
      exact Watch.neutral_of_inert (by decide)
    have htext : ∀ {provider}, w.Neutral provider →
        w.Shaped (e.outer k.model) s!"{provider}.{k.settings.serviceLookupMethod}({Script.quote key})" :=
      fun hp => Watch.Neutral.shaped _ fun _ _ => (Watch.Leads.first hp).lit rfl rfl |>.hole hmethod |>.lit rfl rfl
        |>.inner hquote.whole |>.lit rfl rfl
    have hend : ∀ {m : Emit String}, Emits w.Neutral m →
      EmitsAt s (w.Shaped (e.outer k.model)) (m >>= fun provider => do
        if call.name = "GetRequiredService" then
          Emit.report (.behaviorGap "invocation" e.span s!"missing `{key}` service yields undefined instead of throwing")
        return s!"{provider}.{k.settings.serviceLookupMethod}({Script.quote key})") := fun hm =>
      hm.bind (fun provider hp => .ite (fun _ => (Provides.report _).bind fun _ _ => .pure (htext hp)) fun _ =>
        .pure (htext hp)) s hs
    cases call.receiver? with
    | none => exact hend (.pure hk.instanceReceiver)
    | some r => exact hend (operand_neutral hk r)

/-! ## Arithmetic -/

theorem mathFunction_inert {name : String} (h : Inert name) : Inert (mathFunction name) := by
  unfold mathFunction
  split
  · decide
  · decide
  · exact inert_camelCase h

theorem mathConstant_neutral {name : String} (h : Inert name) : w.Neutral (mathConstant name) := by
  unfold mathConstant
  split
  · exact fun _ _ => .start rfl rfl
  · exact fun _ _ => .start rfl rfl
  · exact fun _ _ => .start rfl rfl
  · exact fun _ _ => (Watch.Leads.start rfl rfl).hole (Watch.neutral_of_inert (inert_camelCase h))

theorem clamp_neutral (hk : k.Legible w hole) (value low high : Expr) : Emits w.Neutral (clamp k value low high) := by
  refine (expr_whole hk value).bind fun _ hv => (expr_whole hk low).bind fun _ hl => ?_
  refine (expr_whole hk high).bind fun _ hh => .pure fun _ _ => ?_
  exact (Watch.Leads.start rfl rfl).inner hv |>.lit rfl rfl |>.inner hl |>.lit rfl rfl |>.inner hh |>.lit rfl rfl

theorem rounded_neutral {value digits : String} (hv : w.Neutral value) (hd : w.Neutral digits) :
    w.Neutral (rounded value digits) :=
  fun _ _ => (Watch.Leads.start rfl rfl).stated hv.stated |>.lit rfl rfl |>.stated hd.stated |>.lit rfl rfl
    |>.stated hd.stated |>.lit rfl rfl

theorem roundTo_neutral (hk : k.Legible w hole) (value digits : Expr) : Emits w.Neutral (roundTo k value digits) := by
  refine .ite (fun _ => ?_) fun _ => ?_
  · refine (operand_neutral hk value).bind fun _ hv => (operand_neutral hk digits).bind fun _ hd => ?_
    exact .pure (rounded_neutral hv hd)
  · refine (shared_legible hk Sharing.legible_empty value).bind fun ⟨_, _⟩ ⟨hv, hsh⟩ => ?_
    refine (shared_legible hk hsh digits).bind fun ⟨_, _⟩ ⟨hd, hsh⟩ => ?_
    exact .pure (hsh.wrap (rounded_neutral hv hd))

theorem read_neutral (reader : NumberReader) {text : String} (h : w.Whole text) : w.Neutral (reader.read text) := by
  cases reader <;> exact fun _ _ => (Watch.Leads.start rfl rfl).inner h |>.lit rfl rfl

theorem numberFrom_neutral (reader : NumberReader) {ts : List String} (h : ∀ t ∈ ts, w.Whole t) :
    w.Neutral (numberFrom reader ts) := by
  unfold numberFrom
  split
  · next text out =>
    have htext := read_neutral reader (h text (by simp))
    exact fun _ _ => (Watch.Leads.start rfl rfl).inner (h out (by simp)) |>.lit rfl rfl |>.hole htext |>.lit rfl rfl
  · exact read_neutral reader (Watch.whole_commaList h)

theorem numericCall_neutral (hk : k.Legible w hole) (hn : Inert call.name) :
    Emits w.Neutral (numericCall k receiver e call) := by
  unfold numericCall
  split
  · exact roundTo_neutral hk _ _
  · exact clamp_neutral hk _ _ _
  · refine (arguments_whole hk _).bind fun args hargs => .get fun s => ?_
    split
    · exact .pure (numberFrom_neutral _ hargs)
    · have hname : w.Neutral (mathFunction call.name) := Watch.neutral_of_inert (mathFunction_inert hn)
      refine .pure fun _ _ => ?_
      exact (Watch.Leads.start rfl rfl).hole hname |>.lit rfl rfl |>.inner (Watch.whole_commaList hargs) |>.lit rfl rfl

theorem numericHelpers_legible : numericHelpers.Legible := by
  intro w hole k s e hk h ht happlies hs
  have hneutral : ∀ {m : Emit String}, Emits w.Neutral m → EmitsAt s (w.Shaped (e.outer k.model)) m :=
    fun hm => hm.mono (fun _ ht => ht.shaped _) s hs
  dsimp only [numericHelpers]
  split
  · next hm => exact hneutral (.pure (mathConstant_neutral (h.member_inert hm)))
  · exact hneutral (.pure Watch.neutral_empty)
  · next call _ hc =>
    split
    · exact hneutral (numericCall_neutral hk (h.call_inert hc))
    · exact hneutral (clamp_neutral hk _ _ _)
    · exact hneutral (.pure Watch.neutral_empty)

/-! ## Strings -/

theorem stringMethod_inert {name : String} (h : Inert name) : Inert (stringMethod name) := by
  unfold stringMethod
  cases hfind : renamedMethods.find? (·.1 = name) with
  | none => exact h
  | some entry =>
    have hall : ∀ m ∈ renamedMethods, Inert m.2.2 := by decide
    exact hall entry (List.mem_of_find?_eq_some hfind)

theorem stringify_neutral (hk : k.Legible w hole) (e : Expr) (call : Call) : Emits w.Neutral (stringify k e call) := by
  have hend : ∀ value, w.Whole value → Emits w.Neutral (do
      if 0 < call.arity then
        Emit.report (.lossy "invocation" e.span "`ToString` format argument dropped")
      return s!"String({value})") := by
    intro value hv
    have htext : w.Neutral s!"String({value})" := fun _ _ => (Watch.Leads.start rfl rfl).inner hv |>.lit rfl rfl
    exact .ite (fun _ => (Provides.report _).bind fun _ _ => .pure htext) fun _ => .pure htext
  unfold stringify
  cases call.receiver? with
  | none => exact (Provides.pure hk.instanceReceiver.whole).bind hend
  | some r => exact (expr_whole hk r).bind hend

theorem substring_neutral (hk : k.Legible w hole) (receiver start length : Expr) :
    Emits w.Neutral (substring k receiver start length) := by
  refine .ite (fun _ => ?_) fun _ => ?_
  · refine (operand_neutral hk receiver).bind fun _ ht => (expr_whole hk start).bind fun _ hs => ?_
    refine (operand_neutral hk length).bind fun _ hn => .pure fun _ _ => ?_
    exact (Watch.Leads.first ht).lit rfl rfl |>.inner hs |>.lit rfl rfl |>.stated hs.operand.stated |>.lit rfl rfl
      |>.stated hn.stated |>.lit rfl rfl
  · refine (shared_legible hk Sharing.legible_empty receiver).bind fun ⟨_, _⟩ ⟨ht, hsh⟩ => ?_
    refine (shared_legible hk hsh start).bind fun ⟨_, _⟩ ⟨hs, hsh⟩ => ?_
    refine (shared_legible hk hsh length).bind fun ⟨_, _⟩ ⟨hn, hsh⟩ => .pure (hsh.wrap fun _ _ => ?_)
    exact (Watch.Leads.first ht).lit rfl rfl |>.inner hs.whole |>.lit rfl rfl |>.stated hs.stated |>.lit rfl rfl
      |>.stated hn.stated |>.lit rfl rfl

theorem joined_neutral {ts : List String} (h : ∀ t ∈ ts, w.Whole t) : w.Neutral (joined ts) := by
  unfold joined
  split
  · exact fun _ _ => .start rfl rfl
  · next separator items =>
    have hitems := (h items (by simp)).operand
    exact fun _ _ => (Watch.Leads.first hitems).lit rfl rfl |>.inner (h separator (by simp)) |>.lit rfl rfl
  · next separator items _ =>
    have hitems := Watch.whole_commaList fun t ht => h t (List.mem_cons_of_mem _ ht)
    exact fun _ _ => (Watch.Leads.start rfl rfl).inner hitems |>.lit rfl rfl
      |>.inner (h separator (List.mem_cons_self ..)) |>.lit rfl rfl

/-- A text, or its absence, tested for being blank. -/
theorem blankTest_neutral {value : String} (hv : w.Neutral value) : w.Neutral s!"(!{value} || !{value}.trim())" := by
  have hor : ∀ fs, w.Leads (w.code none fs) " || !" (w.code (some .logical) fs) := fun _ => .start rfl rfl
  exact fun _ _ => (Watch.Leads.start rfl rfl).stated hv.stated |>.append (hor _) |>.hole hv |>.lit rfl rfl

theorem stringFunction_neutral (hk : k.Legible w hole) {call : Call} (hf : isStringFunction call.name call.arity = true)
    (hliteral : call.name = "Format" → hasLiteralTemplate call = true)
    (ht : call.name = "Format" → ∀ template args, call.args = template :: args →
      isFormatFor args template.expr = true → w.ticks = true ∧ ∀ a ∈ args, hole a.expr) :
    Emits w.Neutral (stringFunction k call) := by
  unfold stringFunction
  split
  · refine (argumentOperand_neutral hk call 0).bind fun _ ht => .pure fun _ _ => ?_
    exact (Watch.Leads.start rfl rfl).hole ht
  · exact .pure fun _ _ => .start rfl rfl
  · refine (shared_legible hk Sharing.legible_empty _).bind ?_
    exact fun ⟨_, _⟩ ⟨hv, hsh⟩ => .pure (hsh.wrap (blankTest_neutral hv))
  · exact (arguments_whole hk _).bind fun _ ht => .pure (joined_neutral ht)
  · refine (arguments_whole hk _).bind fun _ ht => .pure fun _ _ => ?_
    exact (Watch.Leads.start rfl rfl).inner (Watch.whole_commaList ht) |>.lit rfl rfl
  · exact .pure fun _ _ => .start rfl rfl
  · next template args heq hempty hblank hjoin hconcat =>
    have hname : call.name = "Format" := by
      unfold isStringFunction at hf
      split at hf
      · next hname => exact absurd hname hempty
      · next hname => exact absurd hname hblank
      · next hname => exact absurd hname hjoin
      · next hname => exact absurd hname hconcat
      · next hname => exact hname
      · cases hf
    refine (compositeFormat_neutral hk template.expr (ht hname template args heq)).bind fun text? htext => ?_
    cases text? with
    | some text => exact .pure (htext text rfl)
    | none =>
      refine expr_neutral hk fun _ => outer_of_stringLiteral _ ?_
      have hsome := hliteral hname
      rwa [hasLiteralTemplate, Call.arg?, heq] at hsome

theorem stringCall_neutral (hk : k.Legible w hole) (hn : Inert call.name) : Emits w.Neutral (stringCall k call) := by
  unfold stringCall
  split
  · exact .pure Watch.neutral_empty
  · exact substring_neutral hk _ _ _
  · refine (operand_neutral hk _).bind fun _ ht => (arguments_whole hk _).bind fun _ hts => ?_
    exact .pure (methodCall_neutral ht (stringMethod_inert hn) hts)

theorem stringHelpers_legible : stringHelpers.Legible := by
  intro w hole k s e hk h ht happlies hs
  have hneutral : ∀ {m : Emit String}, Emits w.Neutral m → EmitsAt s (w.Shaped (e.outer k.model)) m :=
    fun hm => hm.mono (fun _ ht => ht.shaped _) s hs
  dsimp only [stringHelpers] at happlies ⊢
  split
  · exact hneutral (.pure fun _ _ => .start rfl rfl)
  · exact hneutral (.pure Watch.neutral_empty)
  · next call hmember hc =>
    rw [hmember, hc] at happlies
    by_cases hname : call.name = "ToString"
    · rw [if_pos hname]
      exact hneutral (stringify_neutral hk e call)
    rw [if_neg hname]
    show EmitsAt s _ (if isStaticStringCall k.toEnv s call = true then stringFunction k call else stringCall k call)
    by_cases hstatic : isStaticStringCall k.toEnv s call = true
    · rw [if_pos hstatic]
      have hformat : call.name = "Format" → hasLiteralTemplate call = true := fun hformat => by
        simpa [hname, hstatic, hformat] using happlies
      refine hneutral (stringFunction_neutral hk (Bool.and_eq_true_iff.mp hstatic).2 hformat ?_)
      intro hf template args hargs hfits
      have hfit := ht call hc (by simp [becomesTemplate, hstatic, hf, hargs, hfits])
      rwa [hargs] at hfit
    · rw [if_neg hstatic]
      exact hneutral (stringCall_neutral hk (h.call_inert hc))

/-! ## Maps and collections -/

/-- A call that is taken for one of a map is on a receiver that may be one. -/
theorem mayBeMap_of_isMapCall {env : Env} {s : Session} (hr : call.receiver? = some receiver)
    (h : isMapCall env s call e = true) (hname : call.name = "GetValueOrDefault" ∨ call.name = "Add")
    (harity : call.arity = 2) : env.model.mayBeMap receiver e = true := by
  have hcategory : env.receiverCategory call e = (env.model.category receiver <|> env.model.declaringCategory e) := by
    rw [Env.receiverCategory, hr]
    rfl
  unfold isMapCall at h
  rw [hr, harity, hcategory] at h
  rcases hname with hname | hname
  · rw [hname] at h
    exact (Bool.and_eq_true_iff.mp h).2
  · rw [hname] at h
    exact (Bool.and_eq_true_iff.mp h).2

theorem fallback_chains (h : e.Readable k.model w) (hc : e.call? = some call) (hr : call.receiver? = some receiver)
    (hname : call.name = "GetValueOrDefault") {key fallback : Argument} (hargs : call.args = [key, fallback])
    (hmap : k.model.mayBeMap receiver e = true) :
    w.strict = true → fallback.expr.outer k.model ≤ .joined .coalesce := by
  intro hw
  obtain ⟨callee, typeArgs, args, hkind⟩ := kind_of_call hc
  unfold Expr.Readable at h
  rw [hkind] at h
  have hchains := h hw
  obtain ⟨receiver?, name, typeArgs, args⟩ := call
  cases hr
  cases hname
  cases hargs
  rw [Expr.FallbackChains, hc] at hchains
  exact hchains hmap

/-- The arguments of a map operation: a value for a missing key stands behind `??`. -/
theorem mapArguments_legible (hk : k.Legible w hole) (h : e.Readable k.model w) (hc : e.call? = some call)
    (hr : call.receiver? = some receiver) {s : Session} (hmap : isMapCall k.toEnv s call e = true) :
    Emits (fun ts => ts.length = call.arity ∧ (∀ t ∈ ts, w.Whole t) ∧
      (call.name = "GetValueOrDefault" → ∀ key fallback, ts = [key, fallback] → w.Bounded .coalesce fallback))
      (k.arguments call.args) := by
  refine (arguments_shaped hk call.args).mono fun ts ⟨hlength, hts⟩ => ⟨hlength, fun t ht => ?_, ?_⟩
  · obtain ⟨i, hi, rfl⟩ := List.getElem_of_mem ht
    have hzip : (call.args[i], ts[i]) ∈ call.args.zip ts := List.mem_iff_getElem.mpr ⟨i, by simp; omega, by simp⟩
    exact (hts _ hzip).whole
  · rintro hname key fallback rfl
    rcases hargs : call.args with _ | ⟨a, _ | ⟨b, _ | ⟨c, rest⟩⟩⟩
    case cons.cons.nil =>
      rw [hargs] at hts
      have harity : call.arity = 2 := by rw [Call.arity, hargs]; rfl
      have hreceiver := mayBeMap_of_isMapCall hr hmap (.inl hname) harity
      exact (hts (b, fallback) (by simp)).bounded (fallback_chains h hc hr hname hargs hreceiver)
    all_goals
      rw [hargs] at hlength
      simp at hlength

theorem mapOperation_shaped {map name : String} (hm : w.Neutral map) (hn : Inert name) {ts : List String}
    (h : ∀ t ∈ ts, w.Whole t)
    (hf : name = "GetValueOrDefault" → ∀ key fallback, ts = [key, fallback] → w.Bounded .coalesce fallback)
    {o : Shape} (ho : name = "Add" → ts.length = 2 → o = .whole) : w.Shaped o (mapOperation map name ts) := by
  unfold mapOperation
  split
  · next key =>
    refine Watch.Neutral.shaped _ fun _ _ => ?_
    exact (Watch.Leads.start rfl rfl).inner (h key (by simp)) |>.lit rfl rfl |>.hole hm |>.lit rfl rfl
  · next value =>
    refine Watch.Neutral.shaped _ fun _ _ => ?_
    exact (Watch.Leads.start rfl rfl).inner hm.whole |>.lit rfl rfl |>.inner (h value (by simp)) |>.lit rfl rfl
  · next key out =>
    refine Watch.Neutral.shaped _ fun _ _ => ?_
    exact (Watch.Leads.start rfl rfl).inner (h out (by simp)) |>.lit rfl rfl |>.hole hm |>.lit rfl rfl
      |>.inner (h key (by simp)) |>.lit rfl rfl
  · next key =>
    refine Watch.Neutral.shaped _ fun _ _ => ?_
    exact (Watch.Leads.first hm).lit rfl rfl |>.inner (h key (by simp)) |>.lit rfl rfl
  · next key fallback =>
    refine Watch.Neutral.shaped _ fun link? fs => ?_
    have hentry : w.Leads (w.code link? fs) s!"({map}[{key}" _ :=
      (Watch.Leads.start rfl rfl).stated hm.stated |>.lit rfl rfl |>.inner (h key (by simp))
    obtain ⟨link', -, hfallback⟩ := hf rfl key fallback rfl (some .coalesce) ((.paren, _) :: fs) (by simp)
    exact (hentry.append (.start rfl rfl)).append hfallback |>.lit rfl rfl
  · next key value =>
    rw [ho rfl rfl]
    exact Watch.Whole.intro fun _ => ⟨_, (Watch.Leads.first hm).lit rfl rfl |>.inner (h key (by simp)) |>.lit rfl rfl
      |>.inner (h value (by simp))⟩
  · next key =>
    refine Watch.Neutral.shaped _ fun _ _ => ?_
    exact (Watch.Leads.start rfl rfl).hole hm |>.lit rfl rfl |>.inner (h key (by simp)) |>.lit rfl rfl
  · exact (methodCall_neutral hm (inert_camelCase hn) h).shaped _

theorem mapLookup_legible : mapLookup.Legible := by
  intro w hole k s e hk h ht happlies hs
  dsimp only [mapLookup] at happlies ⊢
  split
  · exact Provides.pure (Watch.neutral_empty.shaped _) s hs
  · next r call hrc =>
    obtain ⟨hc, hr⟩ := received hrc
    rw [hc] at happlies
    have hmap : isMapCall k.toEnv s call e = true := happlies
    refine (operand_neutral hk r).bind (fun _ hm => ?_) s hs
    refine (mapArguments_legible hk h.1.readable hc hr hmap).bind fun ts ⟨hlength, hwhole, hf⟩ => .pure ?_
    refine mapOperation_shaped hm (h.call_inert hc) hwhole hf fun hname harity => ?_
    have hreceiver := mayBeMap_of_isMapCall hr hmap (.inr hname) (hlength ▸ harity)
    rw [outer_of_call _ hc hr, hname, ← hlength, harity, hreceiver]
    rfl

theorem collectionProperties_legible : collectionProperties.Legible := by
  intro w hole k s e hk h ht happlies hs
  have hneutral : ∀ {m : Emit String}, Emits w.Neutral m → EmitsAt s (w.Shaped (e.outer k.model)) m :=
    fun hm => hm.mono (fun _ ht => ht.shaped _) s hs
  dsimp only [collectionProperties]
  split
  · exact hneutral (.pure Watch.neutral_empty)
  · next r name hm =>
    refine hneutral ((operand_neutral hk r).bind fun _ ht => .pure ?_)
    unfold collectionProperty
    split
    · exact fun _ _ => (Watch.Leads.start rfl rfl).inner ht.whole |>.lit rfl rfl
    · exact fun _ _ => (Watch.Leads.start rfl rfl).inner ht.whole |>.lit rfl rfl
    · exact fun _ _ => (Watch.Leads.start rfl rfl).inner ht.whole |>.lit rfl rfl
    · exact fun _ _ => (Watch.Leads.first ht).lit rfl rfl
    · exact fun _ _ => (Watch.Leads.first ht).lit rfl rfl

theorem clearMap_neutral (hk : k.Legible w hole) (receiver : Expr) : Emits w.Neutral (clearMap k receiver) := by
  refine (shared_legible hk Sharing.legible_empty receiver).bind fun ⟨_, _⟩ ⟨ht, hsh⟩ => ?_
  refine (Emits.freshName (by decide)).bind fun key hkey => .pure (hsh.wrap fun _ _ => ?_)
  have hkey : w.Neutral key := Watch.neutral_of_inert hkey
  exact (Watch.Leads.start rfl rfl).inner ht.whole |>.lit rfl rfl |>.stated hkey.stated |>.lit rfl rfl
    |>.stated ht.stated |>.lit rfl rfl |>.inner hkey.whole |>.lit rfl rfl

theorem removeItem_neutral (hk : k.Legible w hole) (receiver item : Expr) :
    Emits w.Neutral (removeItem k receiver item) := by
  refine (shared_legible hk Sharing.legible_empty receiver).bind fun ⟨target, sh⟩ ⟨ht, hsh⟩ => ?_
  refine (expr_whole hk item).bind fun text htext => ?_
  have hend : ∀ {item : String} {sh : Sharing}, w.Whole item → sh.Legible w → Emits w.Neutral (do
      let index ← Emit.freshName "i"
      return sh.wrap
        s!"(({index}) => {index} >= 0 && {target}.splice({index}, 1).length > 0)({target}.indexOf({item}))") := by
    intro item sh hitem hsh
    refine (Emits.freshName (by decide)).bind fun index hi => .pure (hsh.wrap fun link? fs => ?_)
    have hi : w.Neutral index := Watch.neutral_of_inert hi
    have hand : ∀ fs, w.Leads (w.code none fs) " >= 0 && " (w.code (some .logical) fs) := fun _ => .start rfl rfl
    have htest : w.Leads (w.code link? fs) s!"(({index}) => {index} >= 0 && {target}.splice(" _ :=
      (Watch.Leads.start rfl rfl).stated hi.stated |>.lit rfl rfl |>.stated hi.stated |>.append (hand _)
        |>.hole ht |>.lit rfl rfl
    exact htest.stated hi.stated |>.lit rfl rfl |>.stated ht.stated |>.lit rfl rfl |>.inner hitem |>.lit rfl rfl
  refine .ite (fun _ => ?_) fun _ => ?_
  · exact .bind (P := fun p => w.Whole p.1 ∧ p.2.Legible w) (.pure ⟨htext, hsh⟩) fun p hp => hend hp.1 hp.2
  · exact (share_legible hsh item htext).bind fun p hp => hend hp.1.whole hp.2

theorem collectionOperation_neutral {target name : String} (ht : w.Neutral target) (hn : Inert name)
    {ts : List String} (h : ∀ t ∈ ts, w.Whole t) (category? : Option Category) :
    w.Neutral (collectionOperation target name ts category?) := by
  unfold collectionOperation
  split
  · next item => exact fun _ _ => (Watch.Leads.first ht).lit rfl rfl |>.inner (h item (by simp)) |>.lit rfl rfl
  · next item _ => exact fun _ _ => (Watch.Leads.first ht).lit rfl rfl |>.inner (h item (by simp)) |>.lit rfl rfl
  · next items => exact fun _ _ => (Watch.Leads.first ht).lit rfl rfl |>.inner (h items (by simp)) |>.lit rfl rfl
  · next index item =>
    exact fun _ _ => (Watch.Leads.first ht).lit rfl rfl |>.inner (h index (by simp)) |>.lit rfl rfl
      |>.inner (h item (by simp)) |>.lit rfl rfl
  · next index => exact fun _ _ => (Watch.Leads.first ht).lit rfl rfl |>.inner (h index (by simp)) |>.lit rfl rfl
  · exact fun _ _ => (Watch.Leads.start rfl rfl).inner ht.whole |>.lit rfl rfl
  · next item => exact fun _ _ => (Watch.Leads.first ht).lit rfl rfl |>.inner (h item (by simp)) |>.lit rfl rfl
  · exact methodCall_neutral ht (inert_camelCase hn) h

theorem collectionCall_neutral (hk : k.Legible w hole) (receiver : Expr) (hn : Inert call.name)
    (category? : Option Category) : Emits w.Neutral (collectionCall k receiver call category?) := by
  have hplain : ∀ args, Emits w.Neutral (do
      let target ← k.operand receiver
      let args ← k.arguments args
      return collectionOperation target call.name args category?) := fun args =>
    (operand_neutral hk receiver).bind fun _ ht => (arguments_whole hk args).bind fun _ hts =>
      .pure (collectionOperation_neutral ht hn hts category?)
  unfold collectionCall
  dsimp only
  split
  · exact .ite (fun _ => clearMap_neutral hk receiver) fun _ => hplain _
  · exact .ite (fun _ => hplain _) fun _ => removeItem_neutral hk receiver _
  · exact hplain _

theorem collectionMethods_legible : collectionMethods.Legible := by
  intro w hole k s e hk h ht happlies hs
  have hneutral : ∀ {m : Emit String}, Emits w.Neutral m → EmitsAt s (w.Shaped (e.outer k.model)) m :=
    fun hm => hm.mono (fun _ ht => ht.shaped _) s hs
  dsimp only [collectionMethods]
  split
  · exact hneutral (.pure Watch.neutral_empty)
  · next r call hrc => exact hneutral (collectionCall_neutral hk r (h.call_inert (received hrc).1) _)

/-! ## Queries -/

theorem compareLines_stated {left right selector : String} (hl : w.Neutral left) (hr : w.Neutral right) (key : SortKey)
    (hs : w.Neutral selector) : Emits (fun ts => ∀ t ∈ ts, w.Stated t) (compareLines left right key selector) := by
  refine (Emits.freshName (by decide)).bind fun x hx => (Emits.freshName (by decide)).bind fun y hy => ?_
  have hx : w.Neutral x := Watch.neutral_of_inert hx
  have hy : w.Neutral y := Watch.neutral_of_inert hy
  have horder : w.Whole (if key.descending then "1 : -1" else "-1 : 1") := by
    split
    · exact .intro fun _ => ⟨none, .start rfl rfl⟩
    · exact .intro fun _ => ⟨none, .start rfl rfl⟩
  refine .pure (List.forall_mem_cons.mpr ⟨fun _ => ?_, List.forall_mem_singleton.mpr fun _ => ?_⟩)
  · exact (Watch.Leads.start rfl rfl).stated hx.stated |>.lit rfl rfl |>.stated hs.stated |>.lit rfl rfl
      |>.inner hl.whole |>.lit rfl rfl |>.stated hy.stated |>.lit rfl rfl |>.stated hs.stated |>.lit rfl rfl
      |>.inner hr.whole |>.lit rfl rfl
  · exact (Watch.Leads.start rfl rfl).stated hx.stated |>.lit rfl rfl |>.inner hy.whole |>.lit rfl rfl
      |>.stated hx.stated |>.lit rfl rfl |>.stated hy.stated |>.lit rfl rfl |>.inner horder |>.lit rfl rfl

theorem sortChain_shaped (hk : k.Legible w hole) (h : (Node.expr e).Fit k.model w) (hc : e.call? = some call) :
    Emits (w.Shaped (e.outer k.model)) (sortChain k e) := by
  unfold sortChain
  cases e.sortKeys? with
  | none =>
    have hnone : TypeInert none := nofun
    refine defaultExpr_legible hk hnone h fun parts hparts => ?_
    obtain ⟨callee, typeArgs, args, hkind⟩ := kind_of_call hc
    rw [hkind] at hparts
    cases hparts
  | some chain =>
    obtain ⟨base, keys⟩ := chain
    refine (expr_whole hk base).bind fun source hs => ?_
    refine .bind (.mapM fun key _ => operand_neutral hk key.selector) fun selectors hsel => ?_
    refine (Emits.freshName (by decide)).bind fun left hl => (Emits.freshName (by decide)).bind fun right hr => ?_
    have hl : w.Neutral left := Watch.neutral_of_inert hl
    have hr : w.Neutral right := Watch.neutral_of_inert hr
    refine .bind (.mapM (Q := fun ts => ∀ t ∈ ts, w.Stated t) fun p hm => ?_) fun lines hlines => .pure ?_
    · exact compareLines_stated hl hr p.1 (hsel p.2 (List.of_mem_zip hm).2)
    have hbody : ∀ t ∈ lines.flatten ++ ["return 0;"], w.Stated t := by
      refine List.forall_mem_append.mpr ⟨fun t ht => ?_, List.forall_mem_singleton.mpr fun _ => .start rfl rfl⟩
      obtain ⟨ts, hts, ht⟩ := List.mem_flatten.mp ht
      exact hlines ts hts t ht
    refine Watch.Neutral.shaped _ fun _ _ => ?_
    exact (Watch.Leads.start rfl rfl).inner hs |>.lit rfl rfl |>.inner hl.whole |>.lit rfl rfl |>.inner hr.whole
      |>.lit rfl rfl |>.inner (Watch.neutral_block hk.indent hbody).whole |>.lit rfl rfl

theorem aggregated_neutral {source : String} (hs : w.Neutral source) {ts : List String} (h : ∀ t ∈ ts, w.Whole t) :
    w.Neutral (aggregated source ts) := by
  cases ts with
  | nil => exact hs
  | cons selector rest =>
    exact fun _ _ => (Watch.Leads.first hs).lit rfl rfl |>.inner (h selector (List.mem_cons_self ..)) |>.lit rfl rfl

theorem render_neutral (op : QueryOp) {source : QuerySource} (hs : w.Neutral source.text) {ts : List String}
    (h : ∀ t ∈ ts, w.Whole t) : w.Neutral (op.render source ts) := by
  have hsize : w.Neutral (sizeMember source.category?) :=
    Watch.neutral_of_inert (by unfold sizeMember; split <;> decide)
  have harg : ∀ i : Nat, w.Whole (ts[i]?.getD "") := by
    intro i
    cases hi : ts[i]? with
    | none => exact Watch.neutral_empty.whole
    | some t => exact h t (List.mem_of_getElem? hi)
  have hall := aggregated_neutral hs h
  unfold QueryOp.render
  cases op with
  | map | filter | all | skip | take | flatMap | concat =>
    exact fun _ _ => (Watch.Leads.first hs).lit rfl rfl |>.inner (harg 0) |>.lit rfl rfl
  | any =>
    refine Watch.neutral_ite (fun _ _ => ?_) fun _ _ => ?_
    · exact (Watch.Leads.start rfl rfl).inner hs.whole |>.lit rfl rfl |>.hole hsize |>.lit rfl rfl
    · exact (Watch.Leads.first hs).lit rfl rfl |>.inner (harg 0) |>.lit rfl rfl
  | first | last =>
    refine Watch.neutral_ite (fun _ _ => ?_) fun _ _ => ?_
    · exact (Watch.Leads.first hs).lit rfl rfl
    · exact (Watch.Leads.first hs).lit rfl rfl |>.inner (harg 0) |>.lit rfl rfl
  | count =>
    refine Watch.neutral_ite (fun _ _ => ?_) fun _ _ => ?_
    · exact (Watch.Leads.first hs).lit rfl rfl |>.hole hsize
    · exact (Watch.Leads.first hs).lit rfl rfl |>.inner (harg 0) |>.lit rfl rfl
  | sum => exact fun _ _ => (Watch.Leads.first hall).lit rfl rfl
  | least | greatest | average => exact fun _ _ => (Watch.Leads.start rfl rfl).inner hall.whole |>.lit rfl rfl
  | distinct => exact fun _ _ => (Watch.Leads.start rfl rfl).inner hs.whole |>.lit rfl rfl
  | reverse =>
    refine Watch.neutral_ite (fun _ _ => ?_) fun _ _ => ?_
    · exact (Watch.Leads.first hs).lit rfl rfl
    · exact (Watch.Leads.start rfl rfl).inner hs.whole |>.lit rfl rfl
  | fold =>
    dsimp only
    split
    · exact fun _ _ => (Watch.Leads.first hs).lit rfl rfl |>.inner (harg 0) |>.lit rfl rfl
    · exact fun _ _ => (Watch.Leads.first hs).lit rfl rfl |>.inner (harg 1) |>.lit rfl rfl |>.inner (harg 0)
        |>.lit rfl rfl
    · exact fun _ _ => (Watch.Leads.first (harg 2).operand).lit rfl rfl |>.inner hs.whole |>.lit rfl rfl
        |>.inner (harg 1) |>.lit rfl rfl |>.inner (harg 0) |>.lit rfl rfl
  | contains =>
    refine Watch.neutral_ite (fun _ _ => ?_) fun _ _ => ?_
    · exact (Watch.Leads.first hs).lit rfl rfl |>.inner (harg 0) |>.lit rfl rfl
    · exact (Watch.Leads.first hs).lit rfl rfl |>.inner (harg 0) |>.lit rfl rfl

theorem factory_neutral (name : String) {ts : List String} (h : ∀ t ∈ ts, w.Whole t) : w.Neutral (factory name ts) := by
  unfold factory
  split
  · next start count =>
    exact fun _ _ => (Watch.Leads.start rfl rfl).inner (h count (by simp)) |>.lit rfl rfl
      |>.inner (h start (by simp)).operand.whole |>.lit rfl rfl
  · next value count =>
    exact fun _ _ => (Watch.Leads.start rfl rfl).inner (h count (by simp)) |>.lit rfl rfl
      |>.inner (h value (by simp)) |>.lit rfl rfl
  · exact fun _ _ => .start rfl rfl

theorem queryCall_neutral (hk : k.Legible w hole) (receiver e : Expr) (hn : Inert call.name) :
    Emits w.Neutral (queryCall k receiver e call) := by
  refine (operand_neutral hk receiver).bind fun _ ht => (arguments_whole hk call.args).bind fun _ hts => ?_
  cases QueryOp.ofName? call.name with
  | none => exact .pure (methodCall_neutral ht (inert_camelCase hn) hts)
  | some op => exact .pure (render_neutral op ht hts)

theorem sequenceQuery_legible : sequenceQuery.Legible := by
  intro w hole k s e hk h ht happlies hs
  have hneutral : ∀ {m : Emit String}, Emits w.Neutral m → Emits (w.Shaped (e.outer k.model)) m :=
    fun hm => hm.mono fun _ ht => ht.shaped _
  dsimp only [sequenceQuery]
  split
  · exact hneutral (.pure Watch.neutral_empty) s hs
  · next r call hrc =>
    obtain ⟨hc, -⟩ := received hrc
    refine Provides.get (fun s => .ite (fun _ => ?_) fun _ => ?_) s hs
    · exact hneutral ((arguments_whole hk call.args).bind fun _ hts => .pure (factory_neutral _ hts))
    · exact .ite (fun _ => sortChain_shaped hk h hc) fun _ => hneutral (queryCall_neutral hk r e (h.call_inert hc))

theorem materialize_legible : materialize.Legible := by
  intro w hole k s e hk h ht happlies hs
  dsimp only [materialize] at happlies ⊢
  split
  · exact Provides.pure (Watch.neutral_empty.shaped _) s hs
  · next r call hrc =>
    obtain ⟨hc, hr⟩ := received hrc
    rw [hc] at happlies
    obtain ⟨⟨hname, harity⟩, -⟩ : (call.name ∈ materializers ∧ call.arity = 0) ∧ _ := by simpa using happlies
    refine (expr_shaped hk r).bind (fun _ ht => .pure ?_) s hs
    split
    · exact Watch.Neutral.shaped _ fun _ _ => (Watch.Leads.start rfl rfl).inner ht.whole |>.lit rfl rfl
    · next hset =>
      have htransparent : isTransparent call.name call.arity = true := by
        simp only [materializers, List.mem_cons, List.not_mem_nil, or_false] at hname
        rcases hname with hname | hname | hname | hname
        · simp [isTransparent, hname, harity]
        · simp [isTransparent, hname, harity]
        · simp [isTransparent, hname, harity]
        · exact absurd hname hset
      rw [outer_of_call _ hc hr, if_pos htransparent]
      exact ht

/-! ## Kinds of nodes -/

theorem switchExpression_legible : switchExpression.Legible := by
  intro w hole k s e hk h ht happlies hs
  have hneutral : ∀ {m : Emit String}, Emits w.Neutral m → EmitsAt s (w.Shaped (e.outer k.model)) m :=
    fun hm => hm.mono (fun _ ht => ht.shaped _) s hs
  obtain ⟨span, kind⟩ := e
  cases kind with
  | switchExpr scrutinee arms => exact hneutral (switchExpr_neutral hk scrutinee h.parts.tail)
  | _ => exact hneutral (.pure Watch.neutral_empty)

theorem builtinExprs_legible : ∀ r ∈ builtinExprs, r.Legible := by
  simp only [builtinExprs, List.forall_mem_cons]
  exact ⟨consolePrint_legible, taskHelpers_legible, serviceLookup_legible, numericHelpers_legible,
    stringHelpers_legible, mapLookup_legible, collectionProperties_legible, collectionMethods_legible,
    materialize_legible, sequenceQuery_legible, switchExpression_legible, List.forall_mem_nil _⟩

theorem builtinStmts_stated {r : Rule Stmt} (hr : r ∈ builtinStmts) (hk : k.Legible w hole) {x : Stmt}
    (h : (Node.stmt x).Fit k.model w) : Emits w.Stated (r.convert k x) := by
  have hneutral : ∀ {m : Emit String}, Emits w.Neutral m → Emits w.Stated m :=
    fun hm => hm.mono fun _ => Watch.Neutral.stated
  have hempty : Emits w.Stated (return "") := .pure Watch.neutral_empty.stated
  obtain ⟨span, kind⟩ := x
  simp only [builtinStmts, List.mem_cons, List.not_mem_nil, or_false] at hr
  rcases hr with rfl | rfl | rfl
  · cases kind with
    | forEach target iterable body isAwait =>
      exact hneutral (forEach_neutral hk h.1.spelled iterable isAwait h.parts.tail.head.body)
    | _ => exact hempty
  · cases kind with
    | resource ds e? body? isAwait => exact resource_stated hk h
    | _ => exact hempty
  · cases kind with
    | switchStmt scrutinee sections => exact hneutral (switchStmt_neutral hk scrutinee h.parts.tail)
    | _ => exact hempty

end Rules

end ComponentScript
