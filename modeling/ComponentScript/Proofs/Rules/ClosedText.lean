/-
  ComponentScript.Proofs.Rules.ClosedText — the built-in rules write closed text.

  `Rule.Closing`: with a converter that gives closed text for well-named nodes, the rule
  gives closed text for a well-named node, whether it applies to the node or not.
  `builtinExprs_closing` and `builtinStmts_closing`: so does every built-in rule. The texts
  of a format string that follow each other are one piece of the template, so no brace of
  one can open a substitution behind a dollar sign of the other (`separated_parse`).
-/

import ComponentScript.Proofs.Convert.ClosedStatements
import ComponentScript.Proofs.Rules.Local

namespace ComponentScript

open Script Text

/-- The rule gives closed text for well-named nodes. -/
def Rule.Closing {ν : Type} (node : ν → Node) (r : Rule ν) : Prop :=
  ∀ {k : Converter} {x : ν}, k.Closing → (node x).WellNamed → Writes Closed (r.convert k x)

variable {k : Converter} {e receiver : Expr} {call : Call} {args : List Argument}

/-! ## What a call is made of -/

/-- The name of a call, its receiver and its arguments. -/
structure CallNamed (call : Call) : Prop where
  name : Markless call.name
  receiver : ∀ r ∈ call.receiver?, (Node.expr r).WellNamed
  args : ∀ a ∈ call.args, (Node.expr a.expr).WellNamed

theorem Node.WellNamed.callNamed (h : (Node.expr e).WellNamed) (hc : e.call? = some call) : CallNamed call := by
  obtain ⟨span, kind⟩ := e
  cases kind with
  | invocation callee typeArgs args =>
    have hargs := Converter.arguments_named h.parts.tail
    have hcallee : (Node.expr callee).WellNamed := h.parts.head
    obtain ⟨calleeSpan, calleeKind⟩ := callee
    cases calleeKind with
    | member r name =>
      cases hc
      exact ⟨hcallee.1, fun r' hr => Option.some.inj hr ▸ hcallee.parts.head, hargs⟩
    | identifier name => cases hc; exact ⟨hcallee.1, nofun, hargs⟩
    | _ => cases hc
  | _ => cases hc

theorem Node.WellNamed.memberAccess {name : String} (h : (Node.expr e).WellNamed)
    (hm : e.memberAccess? = some (receiver, name)) : (Node.expr receiver).WellNamed ∧ Markless name := by
  obtain ⟨span, kind⟩ := e
  cases kind with
  | member r n => cases hm; exact ⟨h.parts.head, h.1⟩
  | _ => cases hm

/-- Parameters with names and values that are closed. -/
def Sharing.AllBound (sh : Sharing) : Prop := ∀ b ∈ sh.bindings, Converter.BindingClosed b

theorem Sharing.AllBound.wrap {sh : Sharing} (h : sh.AllBound) {body : String} (hb : Closed body) :
    Closed (sh.wrap body) := by
  have hside : ∀ f : String × String → String, (∀ b ∈ sh.bindings, Closed (f b)) →
      Closed (commaList (sh.bindings.map f)) := fun f hf =>
    closed_commaList fun t ht => by
      obtain ⟨b, hb, rfl⟩ := List.mem_map.mp ht
      exact hf b hb
  refine closed_ite hb ?_
  exact (Leads.start rfl).hole (hside _ fun b hm => (h b hm).1) |>.lit rfl |>.hole hb |>.lit rfl
    |>.hole (hside _ fun b hm => (h b hm).2) |>.lit rfl

theorem Sharing.allBound_empty : Sharing.AllBound {} := nofun

/-- A call of a method on a receiver. -/
theorem methodCall_closed {target name : String} (ht : Closed target) (hn : Markless name) {ts : List String}
    (hts : AllClosed ts) : Closed s!"{target}.{name}({commaList ts})" :=
  (Leads.first ht).lit rfl |>.hole hn.closed |>.lit rfl |>.hole (closed_commaList hts) |>.lit rfl

namespace Converter

theorem argument_closed (hk : k.Closing) (hc : CallNamed call) (i : Nat) : Writes Closed (k.argument call i) := by
  unfold argument Call.arg?
  cases hi : call.args[i]? with
  | none => exact .pure (by decide)
  | some a => exact expr_closed hk (hc.args a (List.mem_of_getElem? hi))

theorem argumentOperand_closed (hk : k.Closing) (hc : CallNamed call) (i : Nat) :
    Writes Closed (k.argumentOperand call i) := by
  unfold argumentOperand Call.arg?
  cases hi : call.args[i]? with
  | none => exact .pure (by decide)
  | some a => exact operand_closed hk (hc.args a (List.mem_of_getElem? hi))

/-- The text that stands for an operand, and what is bound for it. -/
abbrev SharedClosed (r : String × Sharing) : Prop := Closed r.1 ∧ r.2.AllBound

theorem share_closed {sh : Sharing} (hsh : sh.AllBound) {text : String} (ht : Closed text) :
    Writes SharedClosed (sh.share e text) := by
  refine .ite (fun _ => .pure ⟨Script.closed_operand ht, hsh⟩) fun _ => ?_
  refine (Writes.freshName (by decide)).bind fun name hn => .pure ⟨hn.closed, ?_⟩
  exact List.forall_mem_append.mpr ⟨hsh, List.forall_mem_singleton.mpr ⟨hn.closed, ht⟩⟩

theorem shared_closed (hk : k.Closing) {sh : Sharing} (hsh : sh.AllBound) (he : (Node.expr e).WellNamed) :
    Writes SharedClosed (k.shared sh e) :=
  (expr_closed hk he).bind fun _ ht => share_closed hsh ht

end Converter

/-! ## Format strings -/

namespace FormatPiece

def isText : FormatPiece → Bool
  | .text _ => true
  | .hole .. => false

theorem separated_consChar (c : Char) {pieces : List FormatPiece} (h : Separated isText pieces) :
    Separated isText (consChar c pieces) := by
  rcases pieces with _ | ⟨cs | ⟨index, format⟩, rest⟩
  · exact ⟨nofun, trivial⟩
  · exact h
  · exact ⟨fun _ b hb => Option.some.inj hb ▸ rfl, h⟩

theorem isText_of_readHole {inner : List Char} {piece : FormatPiece} (h : readHole? inner = some piece) :
    piece.isText = false := by
  obtain ⟨index, -, rfl⟩ := Option.map_eq_some_iff.mp h
  rfl

/-- Text that is not interrupted by a hole is one piece. -/
theorem separated_parse {cs : List Char} {pieces : List FormatPiece} (h : parse? cs = some pieces) :
    Separated isText pieces := by
  fun_induction parse? cs generalizing pieces with
  | case1 => cases h; trivial
  | case2 rest ih | case3 rest ih =>
    obtain ⟨ps, hps, rfl⟩ := Option.map_eq_some_iff.mp h
    exact separated_consChar _ (ih hps)
  | case4 => cases h
  | case5 rest _ _ after _ ih =>
    obtain ⟨hole, hhole, h⟩ := Option.bind_eq_some_iff.mp h
    obtain ⟨ps, hps, h⟩ := Option.bind_eq_some_iff.mp h
    cases h
    exact ⟨fun ht => absurd ht (by rw [isText_of_readHole hhole]; decide), ih hps⟩
  | case6 c rest _ _ _ ih =>
    obtain ⟨ps, hps, rfl⟩ := Option.map_eq_some_iff.mp h
    exact separated_consChar _ (ih hps)

theorem templateBody_render {P : String → Prop} (hempty : P "") {values : List String} (hv : ∀ v ∈ values, P v)
    {pieces : List FormatPiece} {b : Bool} (h : Separated isText pieces)
    (hb : b = true → ∀ p ∈ pieces.head?, p.isText = false) : TemplateBody P b (pieces.map (render values)) := by
  induction pieces generalizing b with
  | nil => exact .nil
  | cons piece rest ih =>
    cases piece with
    | text cs => exact .text _ (fun hdollar => by cases hb hdollar _ rfl) (ih h.2 fun _ => h.1 rfl)
    | hole index format =>
      have hvalue : P (values[index]?.getD "") := by
        cases hi : values[index]? with
        | none => exact hempty
        | some value => exact hv value (List.mem_of_getElem? hi)
      exact .hole hvalue (ih h.2 nofun)

end FormatPiece

theorem Converter.compositeFormat_closed (hk : k.Closing) (template : Expr)
    (h : ∀ a ∈ args, (Node.expr a.expr).WellNamed) :
    Writes AnyClosed (k.compositeFormat? template args) := by
  unfold compositeFormat?
  cases hpieces : template.stringLiteral?.bind fun s => FormatPiece.parse? s.toList with
  | none => exact .pure nofun
  | some pieces =>
    obtain ⟨s, -, hparse⟩ := Option.bind_eq_some_iff.mp hpieces
    refine .ite (fun _ => (arguments_closed hk h).bind fun values hv => ?_) fun _ => .pure nofun
    have htext := closed_template
      (FormatPiece.templateBody_render (by decide) hv (FormatPiece.separated_parse hparse) nofun)
    have hsome : Writes AnyClosed _ := .pure (anyClosed_some htext)
    exact .ite (fun _ => (Provides.report _).bind fun _ _ => hsome) fun _ => hsome

namespace Rules

open Converter

/-! ## Printing -/

theorem consoleMethod_closed (env : Env) (s : Session) (call : Call) (e : Expr) :
    Closed ((consoleMethod? env s call e).getD "log") := by
  have hmethod : ∀ name, Closed ((consoleMethodOf? name).getD "log") := by
    intro name
    unfold consoleMethodOf?
    split <;> decide
  unfold consoleMethod?
  split
  · dsimp only
    split <;> decide
  · split
    · decide
    split
    · exact hmethod _
    · decide

theorem printed_closed (hk : k.Closing) (h : ∀ a ∈ args, (Node.expr a.expr).WellNamed) :
    Writes AllClosed (printed k args) := by
  cases args with
  | nil => exact .pure (List.forall_mem_nil _)
  | cons template args =>
    cases args with
    | nil => exact arguments_closed hk h
    | cons arg args =>
      refine (compositeFormat_closed hk _ fun a ha => h a (List.mem_cons_of_mem _ ha)).bind fun text? ht => ?_
      cases text? with
      | none => exact arguments_closed hk h
      | some text => exact .pure (List.forall_mem_singleton.mpr (ht text rfl))

theorem consolePrint_closing : consolePrint.Closing Node.expr := by
  intro k e hk h
  dsimp only [consolePrint]
  cases hc : e.call? with
  | none => exact .pure (by decide)
  | some call =>
    refine .get fun s => (printed_closed hk (h.callNamed hc).args).bind fun args ha => .pure ?_
    exact (Leads.start rfl).hole (consoleMethod_closed ..) |>.lit rfl |>.hole (closed_commaList ha) |>.lit rfl

/-! ## Tasks -/

theorem taskArray_closed (hk : k.Closing) (h : ∀ a ∈ args, (Node.expr a.expr).WellNamed) :
    Writes Closed (taskArray k args) := by
  have hlist := (arguments_closed hk h).bind fun _ ht => Provides.pure (P := Closed) (arrayText_closed ht)
  rcases args with _ | ⟨arg, _ | ⟨second, rest⟩⟩
  · exact hlist
  · refine (expr_closed hk (h arg (List.mem_singleton.mpr rfl))).bind fun _ ht => .pure ?_
    exact closed_ite ht ((Leads.start rfl).hole ht |>.lit rfl)
  · exact hlist

theorem taskCall_closed (hk : k.Closing) (hr : (Node.expr receiver).WellNamed) (hc : CallNamed call) :
    Writes Closed (taskCall k receiver call) := by
  unfold taskCall
  split
  · exact expr_closed hk hr
  · exact (argument_closed hk hc 0).bind fun _ ht => .pure ((Leads.start rfl).hole ht |>.lit rfl)
  · exact (argument_closed hk hc 0).bind fun _ ht => .pure ((Leads.start rfl).hole ht |>.lit rfl)
  · exact (taskArray_closed hk hc.args).bind fun _ ht => .pure ((Leads.start rfl).hole ht |>.lit rfl)
  · exact (taskArray_closed hk hc.args).bind fun _ ht => .pure ((Leads.start rfl).hole ht |>.lit rfl)
  · exact (argument_closed hk hc 0).bind fun _ ht => .pure ((Leads.start rfl).hole ht |>.lit rfl)
  · exact .pure (by decide)

theorem taskHelpers_closing : taskHelpers.Closing Node.expr := by
  intro k e hk h
  dsimp only [taskHelpers]
  cases hc : e.call? with
  | none => exact .pure (by decide)
  | some call =>
    dsimp only
    cases hr : call.receiver? with
    | none => exact .pure (by decide)
    | some r => exact taskCall_closed hk ((h.callNamed hc).receiver r hr) (h.callNamed hc)

/-! ## Services -/

theorem serviceLookup_closing : serviceLookup.Closing Node.expr := by
  intro k e hk h
  dsimp only [serviceLookup]
  cases hc : e.call? with
  | none => exact .pure (by decide)
  | some call =>
    have hmethod : Closed k.settings.serviceLookupMethod := by rw [hk.settings]; decide
    have htext : ∀ provider key, Closed provider →
        Closed s!"{provider}.{k.settings.serviceLookupMethod}({Script.quote key})" :=
      fun _ key hp => (Leads.first hp).lit rfl |>.hole hmethod |>.lit rfl |>.hole (closed_quote key) |>.lit rfl
    dsimp only
    cases hr : call.receiver? with
    | none =>
      refine (Provides.pure hk.instanceReceiver).bind fun provider hp => ?_
      exact .ite (fun _ => (Provides.report _).bind fun _ _ => .pure (htext _ _ hp)) fun _ => .pure (htext _ _ hp)
    | some r =>
      refine (operand_closed hk ((h.callNamed hc).receiver r hr)).bind fun provider hp => ?_
      exact .ite (fun _ => (Provides.report _).bind fun _ _ => .pure (htext _ _ hp)) fun _ => .pure (htext _ _ hp)

/-! ## Arithmetic -/

theorem mathFunction_markless {name : String} (h : Markless name) : Markless (mathFunction name) := by
  unfold mathFunction
  split
  · decide
  · decide
  · exact markless_camelCase h

theorem mathConstant_closed {name : String} (h : Markless name) : Closed (mathConstant name) := by
  unfold mathConstant
  split
  · decide
  · decide
  · decide
  · exact (Leads.start rfl).hole (markless_camelCase h).closed

theorem clamp_closed (hk : k.Closing) {value low high : Expr} (hv : (Node.expr value).WellNamed)
    (hl : (Node.expr low).WellNamed) (hh : (Node.expr high).WellNamed) : Writes Closed (clamp k value low high) := by
  refine (expr_closed hk hv).bind fun _ hv => (expr_closed hk hl).bind fun _ hl => ?_
  refine (expr_closed hk hh).bind fun _ hh => .pure ?_
  exact (Leads.start rfl).hole hv |>.lit rfl |>.hole hl |>.lit rfl |>.hole hh |>.lit rfl

theorem rounded_closed {value digits : String} (hv : Closed value) (hd : Closed digits) :
    Closed (rounded value digits) :=
  (Leads.start rfl).hole hv |>.lit rfl |>.hole hd |>.lit rfl |>.hole hd |>.lit rfl

theorem roundTo_closed (hk : k.Closing) {value digits : Expr} (hv : (Node.expr value).WellNamed)
    (hd : (Node.expr digits).WellNamed) : Writes Closed (roundTo k value digits) := by
  refine .ite (fun _ => ?_) fun _ => ?_
  · refine (operand_closed hk hv).bind fun _ hv => (operand_closed hk hd).bind fun _ hd => ?_
    exact .pure (rounded_closed hv hd)
  · refine (shared_closed hk Sharing.allBound_empty hv).bind fun ⟨_, _⟩ ⟨hv, hsh⟩ => ?_
    refine (shared_closed hk hsh hd).bind fun ⟨_, _⟩ ⟨hd, hsh⟩ => ?_
    exact .pure (hsh.wrap (rounded_closed hv hd))

theorem read_closed (reader : NumberReader) {text : String} (h : Closed text) : Closed (reader.read text) := by
  cases reader <;> exact (Leads.start rfl).hole h |>.lit rfl

theorem numberFrom_closed (reader : NumberReader) {ts : List String} (h : AllClosed ts) :
    Closed (numberFrom reader ts) := by
  unfold numberFrom
  split
  · next text out =>
    have htext := read_closed reader (h text (by simp))
    exact (Leads.start rfl).hole (h out (by simp)) |>.lit rfl |>.hole htext |>.lit rfl
  · exact read_closed reader (closed_commaList h)

theorem numericCall_closed (hk : k.Closing) (hc : CallNamed call) :
    Writes Closed (numericCall k receiver e call) := by
  have ha := hc.args
  have hname := hc.name
  unfold numericCall
  split
  · next heq =>
    rw [heq] at ha
    exact roundTo_closed hk (ha _ (by simp)) (ha _ (by simp))
  · next heq =>
    rw [heq] at ha
    exact clamp_closed hk (ha _ (by simp)) (ha _ (by simp)) (ha _ (by simp))
  · refine (arguments_closed hk ha).bind fun args hargs => .get fun s => ?_
    split
    · exact .pure (numberFrom_closed _ hargs)
    · exact .pure ((Leads.start rfl).hole (mathFunction_markless hname).closed |>.lit rfl
        |>.hole (closed_commaList hargs) |>.lit rfl)

theorem numericHelpers_closing : numericHelpers.Closing Node.expr := by
  intro k e hk h
  dsimp only [numericHelpers]
  split
  · next hm => exact .pure (mathConstant_closed (h.memberAccess hm).2)
  · exact .pure (by decide)
  · next call _ hc =>
    have hcall := h.callNamed hc
    have ha := hcall.args
    split
    · exact numericCall_closed hk hcall
    · next heq =>
      rw [heq] at ha
      exact clamp_closed hk (ha _ (by simp)) (ha _ (by simp)) (ha _ (by simp))
    · exact .pure (by decide)

/-! ## Strings -/

theorem stringMethod_markless {name : String} (h : Markless name) : Markless (stringMethod name) := by
  unfold stringMethod
  cases hfind : renamedMethods.find? (·.1 = name) with
  | none => exact h
  | some entry =>
    have hall : ∀ m ∈ renamedMethods, Markless m.2.2 := by decide
    exact hall entry (List.mem_of_find?_eq_some hfind)

theorem stringify_closed (hk : k.Closing) (hc : CallNamed call) : Writes Closed (stringify k e call) := by
  have hend : ∀ value, Closed value → Writes Closed (do
      if 0 < call.arity then
        Emit.report (.lossy "invocation" e.span "`ToString` format argument dropped")
      return s!"String({value})") := by
    intro value hv
    have htext : Closed s!"String({value})" := (Leads.start rfl).hole hv |>.lit rfl
    exact .ite (fun _ => (Provides.report _).bind fun _ _ => .pure htext) fun _ => .pure htext
  unfold stringify
  cases hr : call.receiver? with
  | none => exact (Provides.pure hk.instanceReceiver).bind hend
  | some r => exact (expr_closed hk (hc.receiver r hr)).bind hend

theorem substring_closed (hk : k.Closing) {start length : Expr} (hr : (Node.expr receiver).WellNamed)
    (hs : (Node.expr start).WellNamed) (hn : (Node.expr length).WellNamed) :
    Writes Closed (substring k receiver start length) := by
  refine .ite (fun _ => ?_) fun _ => ?_
  · refine (operand_closed hk hr).bind fun _ ht => (expr_closed hk hs).bind fun _ hs => ?_
    refine (operand_closed hk hn).bind fun _ hn => .pure ?_
    exact (Leads.first ht).lit rfl |>.hole hs |>.lit rfl |>.hole (Script.closed_operand hs) |>.lit rfl
      |>.hole hn |>.lit rfl
  · refine (shared_closed hk Sharing.allBound_empty hr).bind fun ⟨_, _⟩ ⟨ht, hsh⟩ => ?_
    refine (shared_closed hk hsh hs).bind fun ⟨_, _⟩ ⟨hs, hsh⟩ => ?_
    refine (shared_closed hk hsh hn).bind fun ⟨_, _⟩ ⟨hn, hsh⟩ => .pure (hsh.wrap ?_)
    exact (Leads.first ht).lit rfl |>.hole hs |>.lit rfl |>.hole hs |>.lit rfl |>.hole hn |>.lit rfl

theorem joined_closed {ts : List String} (h : AllClosed ts) : Closed (joined ts) := by
  unfold joined
  split
  · decide
  · next separator items =>
    have hitems := Script.closed_operand (h items (by simp))
    exact (Leads.first hitems).lit rfl |>.hole (h separator (by simp)) |>.lit rfl
  · next separator items _ =>
    have hitems := closed_commaList fun t ht => h t (List.mem_cons_of_mem _ ht)
    exact (Leads.start rfl).hole hitems |>.lit rfl
      |>.hole (h separator (List.mem_cons_self ..)) |>.lit rfl

theorem stringFunction_closed (hk : k.Closing) (hc : CallNamed call) : Writes Closed (stringFunction k call) := by
  have ha := hc.args
  unfold stringFunction
  split
  · exact (argumentOperand_closed hk hc 0).bind fun _ ht => .pure ((Leads.start rfl).hole ht)
  · exact .pure (by decide)
  · next heq =>
    rw [heq] at ha
    refine (shared_closed hk Sharing.allBound_empty (ha _ (List.mem_cons_self ..))).bind ?_
    exact fun ⟨_, _⟩ ⟨hv, hsh⟩ => .pure (hsh.wrap ((Leads.start rfl).hole hv |>.lit rfl |>.hole hv |>.lit rfl))
  · exact (arguments_closed hk ha).bind fun _ ht => .pure (joined_closed ht)
  · refine (arguments_closed hk ha).bind fun _ ht => .pure ?_
    exact (Leads.start rfl).hole (closed_commaList ht) |>.lit rfl
  · exact .pure (by decide)
  · next template args heq _ _ _ _ =>
    rw [heq] at ha
    refine (compositeFormat_closed hk _ fun a h => ha a (List.mem_cons_of_mem _ h)).bind fun text? ht => ?_
    cases text? with
    | none => exact expr_closed hk (ha _ (List.mem_cons_self ..))
    | some text => exact .pure (ht text rfl)

theorem stringCall_closed (hk : k.Closing) (hc : CallNamed call) : Writes Closed (stringCall k call) := by
  have ha := hc.args
  have hname := hc.name
  unfold stringCall
  split
  · exact .pure (by decide)
  · next r _ _ hr _ heq =>
    rw [heq] at ha
    exact substring_closed hk (hc.receiver r hr) (ha _ (by simp)) (ha _ (by simp))
  · next r hr _ =>
    refine (operand_closed hk (hc.receiver r hr)).bind fun _ ht => (arguments_closed hk ha).bind fun _ hts => ?_
    exact .pure (methodCall_closed ht (stringMethod_markless hname) hts)

theorem stringHelpers_closing : stringHelpers.Closing Node.expr := by
  intro k e hk h
  dsimp only [stringHelpers]
  split
  · exact .pure (by decide)
  · exact .pure (by decide)
  · next call _ hc =>
    have hcall := h.callNamed hc
    refine .ite (fun _ => stringify_closed hk hcall) fun _ => .get fun s => ?_
    exact .ite (fun _ => stringFunction_closed hk hcall) fun _ => stringCall_closed hk hcall

/-! ## Maps and collections -/

theorem mapOperation_closed {map name : String} (hm : Closed map) (hn : Markless name) {ts : List String}
    (h : AllClosed ts) : Closed (mapOperation map name ts) := by
  unfold mapOperation
  split
  · next key => exact (Leads.start rfl).hole (h key (by simp)) |>.lit rfl |>.hole hm |>.lit rfl
  · next value => exact (Leads.start rfl).hole hm |>.lit rfl |>.hole (h value (by simp)) |>.lit rfl
  · next key out =>
    exact (Leads.start rfl).hole (h out (by simp)) |>.lit rfl |>.hole hm |>.lit rfl
      |>.hole (h key (by simp)) |>.lit rfl
  · next key => exact (Leads.first hm).lit rfl |>.hole (h key (by simp)) |>.lit rfl
  · next key fallback =>
    exact (Leads.start rfl).hole hm |>.lit rfl |>.hole (h key (by simp)) |>.lit rfl
      |>.hole (h fallback (by simp)) |>.lit rfl
  · next key value => exact (Leads.first hm).lit rfl |>.hole (h key (by simp)) |>.lit rfl |>.hole (h value (by simp))
  · next key => exact (Leads.start rfl).hole hm |>.lit rfl |>.hole (h key (by simp)) |>.lit rfl
  · exact methodCall_closed hm (markless_camelCase hn) h

theorem mapLookup_closing : mapLookup.Closing Node.expr := by
  intro k e hk h
  dsimp only [mapLookup]
  split
  · exact .pure (by decide)
  · next r call hrc =>
    obtain ⟨hc, hr⟩ := received hrc
    have hcall := h.callNamed hc
    refine (operand_closed hk (hcall.receiver r hr)).bind fun _ hm => ?_
    exact (arguments_closed hk hcall.args).bind fun _ ht => .pure (mapOperation_closed hm hcall.name ht)

theorem collectionProperties_closing : collectionProperties.Closing Node.expr := by
  intro k e hk h
  dsimp only [collectionProperties]
  split
  · exact .pure (by decide)
  · next r name hm =>
    refine (operand_closed hk (h.memberAccess hm).1).bind fun _ ht => .pure ?_
    unfold collectionProperty
    split
    · exact (Leads.start rfl).hole ht |>.lit rfl
    · exact (Leads.start rfl).hole ht |>.lit rfl
    · exact (Leads.start rfl).hole ht |>.lit rfl
    · exact (Leads.first ht).lit rfl
    · exact (Leads.first ht).lit rfl

theorem clearMap_closed (hk : k.Closing) (h : (Node.expr receiver).WellNamed) :
    Writes Closed (clearMap k receiver) := by
  refine (shared_closed hk Sharing.allBound_empty h).bind fun ⟨_, _⟩ ⟨ht, hsh⟩ => ?_
  refine (Writes.freshName (by decide)).bind fun key hkey => .pure (hsh.wrap ?_)
  exact (Leads.start rfl).hole ht |>.lit rfl |>.hole hkey.closed |>.lit rfl |>.hole ht |>.lit rfl
    |>.hole hkey.closed |>.lit rfl

theorem removeItem_closed (hk : k.Closing) {item : Expr} (hr : (Node.expr receiver).WellNamed)
    (hi : (Node.expr item).WellNamed) : Writes Closed (removeItem k receiver item) := by
  refine (shared_closed hk Sharing.allBound_empty hr).bind fun ⟨target, sh⟩ ⟨ht, hsh⟩ => ?_
  refine (expr_closed hk hi).bind fun text htext => ?_
  have hend : ∀ {item : String} {sh : Sharing}, Closed item → sh.AllBound → Writes Closed (do
      let index ← Emit.freshName "i"
      return sh.wrap
        s!"(({index}) => {index} >= 0 && {target}.splice({index}, 1).length > 0)({target}.indexOf({item}))") := by
    intro item sh hitem hsh
    refine (Writes.freshName (by decide)).bind fun index hi => .pure (hsh.wrap ?_)
    exact (Leads.start rfl).hole hi.closed |>.lit rfl |>.hole hi.closed |>.lit rfl |>.hole ht |>.lit rfl
      |>.hole hi.closed |>.lit rfl |>.hole ht |>.lit rfl |>.hole hitem |>.lit rfl
  refine .ite (fun _ => ?_) fun _ => ?_
  · refine .bind (P := SharedClosed) (.pure ⟨htext, hsh⟩) fun ⟨_, _⟩ ⟨hitem, hsh⟩ => ?_
    exact hend hitem hsh
  · refine (share_closed hsh htext).bind fun ⟨_, _⟩ ⟨hitem, hsh⟩ => ?_
    exact hend hitem hsh

theorem collectionOperation_closed {target name : String} (ht : Closed target) (hn : Markless name)
    {ts : List String} (h : AllClosed ts) (category? : Option Category) :
    Closed (collectionOperation target name ts category?) := by
  unfold collectionOperation
  split
  · next item => exact (Leads.first ht).lit rfl |>.hole (h item (by simp)) |>.lit rfl
  · next item _ => exact (Leads.first ht).lit rfl |>.hole (h item (by simp)) |>.lit rfl
  · next items => exact (Leads.first ht).lit rfl |>.hole (h items (by simp)) |>.lit rfl
  · next index item =>
    exact (Leads.first ht).lit rfl |>.hole (h index (by simp)) |>.lit rfl |>.hole (h item (by simp)) |>.lit rfl
  · next index => exact (Leads.first ht).lit rfl |>.hole (h index (by simp)) |>.lit rfl
  · exact (Leads.start rfl).hole ht |>.lit rfl
  · next item => exact (Leads.first ht).lit rfl |>.hole (h item (by simp)) |>.lit rfl
  · exact methodCall_closed ht (markless_camelCase hn) h

theorem collectionCall_closed (hk : k.Closing) (hr : (Node.expr receiver).WellNamed) (hc : CallNamed call)
    (category? : Option Category) : Writes Closed (collectionCall k receiver call category?) := by
  have hplain : ∀ args, (∀ a ∈ args, (Node.expr a.expr).WellNamed) → Writes Closed (do
      let target ← k.operand receiver
      let args ← k.arguments args
      return collectionOperation target call.name args category?) := fun _ ha =>
    (operand_closed hk hr).bind fun _ ht => (arguments_closed hk ha).bind fun _ hts =>
      .pure (collectionOperation_closed ht hc.name hts category?)
  have ha := hc.args
  unfold collectionCall
  dsimp only
  split
  · exact .ite (fun _ => clearMap_closed hk hr) fun _ => hplain _ ha
  · next heq =>
    rw [heq] at ha
    exact .ite (fun _ => hplain _ hc.args) fun _ => removeItem_closed hk hr (ha _ (List.mem_singleton.mpr rfl))
  · exact hplain _ ha

theorem collectionMethods_closing : collectionMethods.Closing Node.expr := by
  intro k e hk h
  dsimp only [collectionMethods]
  split
  · exact .pure (by decide)
  · next r call hrc =>
    obtain ⟨hc, hr⟩ := received hrc
    exact collectionCall_closed hk ((h.callNamed hc).receiver r hr) (h.callNamed hc) _

/-! ## Queries -/

/-- The base and the keys of a sort chain are inside it. -/
theorem sortKeys_named {base : Expr} {keys : List SortKey} (h : (Node.expr e).WellNamed)
    (hkeys : e.sortKeys? = some (base, keys)) :
    (Node.expr base).WellNamed ∧ ∀ key ∈ keys, (Node.expr key.selector).WellNamed := by
  fun_induction Expr.sortKeys? e generalizing base keys with
  | case1 => cases hkeys
  | case2 span calleeSpan receiver name typeArgs arg args step =>
    have hc := h.callNamed rfl
    cases hkeys
    exact ⟨hc.receiver receiver rfl, List.forall_mem_singleton.mpr (hc.args arg (List.mem_cons_self ..))⟩
  | case3 span calleeSpan receiver name typeArgs arg args =>
    rename_i ih
    have hc := h.callNamed rfl
    obtain ⟨⟨base', keys'⟩, hrec, heq⟩ := Option.map_eq_some_iff.mp hkeys
    cases heq
    obtain ⟨hbase, hinner⟩ := ih (hc.receiver receiver rfl) hrec
    have harg := hc.args arg (List.mem_cons_self ..)
    exact ⟨hbase, List.forall_mem_append.mpr ⟨hinner, List.forall_mem_singleton.mpr harg⟩⟩
  | case4 => cases hkeys

theorem compareLines_closed {left right selector : String} (hl : Closed left) (hr : Closed right) (key : SortKey)
    (hs : Closed selector) : Writes AllClosed (compareLines left right key selector) := by
  refine (Writes.freshName (by decide)).bind fun x hx => (Writes.freshName (by decide)).bind fun y hy => ?_
  have horder : Closed (if key.descending then "1 : -1" else "-1 : 1") := closed_ite (by decide) (by decide)
  refine .pure (List.forall_mem_cons.mpr ⟨?_, List.forall_mem_singleton.mpr ?_⟩)
  · exact (Leads.start rfl).hole hx.closed |>.lit rfl |>.hole hs |>.lit rfl |>.hole hl |>.lit rfl
      |>.hole hy.closed |>.lit rfl |>.hole hs |>.lit rfl |>.hole hr |>.lit rfl
  · exact (Leads.start rfl).hole hx.closed |>.lit rfl |>.hole hy.closed |>.lit rfl |>.hole hx.closed |>.lit rfl
      |>.hole hy.closed |>.lit rfl |>.hole horder |>.lit rfl

theorem sortChain_closed (hk : k.Closing) (h : (Node.expr e).WellNamed) : Writes Closed (sortChain k e) := by
  unfold sortChain
  cases hkeys : e.sortKeys? with
  | none => exact defaultExpr_closed hk nofun h
  | some chain =>
    obtain ⟨base, keys⟩ := chain
    obtain ⟨hbase, hselectors⟩ := sortKeys_named h hkeys
    refine (expr_closed hk hbase).bind fun source hs => ?_
    refine .bind (.mapM fun key hm => operand_closed hk (hselectors key hm)) fun selectors hsel => ?_
    refine (Writes.freshName (by decide)).bind fun left hl => (Writes.freshName (by decide)).bind fun right hr => ?_
    refine .bind (.mapM (Q := AllClosed) fun p hm => ?_) fun lines hlines => .pure ?_
    · exact compareLines_closed hl.closed hr.closed p.1 (hsel p.2 (List.of_mem_zip hm).2)
    have hbody : AllClosed (lines.flatten ++ ["return 0;"]) := by
      refine List.forall_mem_append.mpr ⟨fun t ht => ?_, List.forall_mem_singleton.mpr (by decide)⟩
      obtain ⟨ts, hts, ht⟩ := List.mem_flatten.mp ht
      exact hlines ts hts t ht
    exact (Leads.start rfl).hole hs |>.lit rfl |>.hole hl.closed |>.lit rfl |>.hole hr.closed |>.lit rfl
      |>.hole (closed_block hk.indent hbody) |>.lit rfl

theorem aggregated_closed {source : String} (hs : Closed source) {ts : List String} (h : AllClosed ts) :
    Closed (aggregated source ts) := by
  cases ts with
  | nil => exact hs
  | cons selector rest => exact (Leads.first hs).lit rfl |>.hole (h selector (List.mem_cons_self ..)) |>.lit rfl

theorem render_closed (op : QueryOp) {source : QuerySource} (hs : Closed source.text) {ts : List String}
    (h : AllClosed ts) : Closed (op.render source ts) := by
  have hsize : Closed (sizeMember source.category?) := closed_ite (by decide) (by decide)
  have harg : ∀ i : Nat, Closed (ts[i]?.getD "") := fun i =>
    closed_getD (fun t hi => h t (List.mem_of_getElem? hi)) (by decide)
  have hall := aggregated_closed hs h
  unfold QueryOp.render
  cases op with
  | map => exact (Leads.first hs).lit rfl |>.hole (harg 0) |>.lit rfl
  | filter => exact (Leads.first hs).lit rfl |>.hole (harg 0) |>.lit rfl
  | any =>
    refine closed_ite ?_ ?_
    · exact (Leads.start rfl).hole hs |>.lit rfl |>.hole hsize |>.lit rfl
    · exact (Leads.first hs).lit rfl |>.hole (harg 0) |>.lit rfl
  | all => exact (Leads.first hs).lit rfl |>.hole (harg 0) |>.lit rfl
  | first => exact closed_ite ((Leads.first hs).lit rfl) ((Leads.first hs).lit rfl |>.hole (harg 0) |>.lit rfl)
  | last => exact closed_ite ((Leads.first hs).lit rfl) ((Leads.first hs).lit rfl |>.hole (harg 0) |>.lit rfl)
  | count =>
    refine closed_ite ?_ ?_
    · exact (Leads.first hs).lit rfl |>.hole hsize
    · exact (Leads.first hs).lit rfl |>.hole (harg 0) |>.lit rfl
  | sum => exact (Leads.first hall).lit rfl
  | least => exact (Leads.start rfl).hole hall |>.lit rfl
  | greatest => exact (Leads.start rfl).hole hall |>.lit rfl
  | average => exact (Leads.start rfl).hole hall |>.lit rfl
  | skip => exact (Leads.first hs).lit rfl |>.hole (harg 0) |>.lit rfl
  | take => exact (Leads.first hs).lit rfl |>.hole (harg 0) |>.lit rfl
  | distinct => exact (Leads.start rfl).hole hs |>.lit rfl
  | reverse => exact closed_ite ((Leads.first hs).lit rfl) ((Leads.start rfl).hole hs |>.lit rfl)
  | flatMap => exact (Leads.first hs).lit rfl |>.hole (harg 0) |>.lit rfl
  | fold =>
    dsimp only
    split
    · exact (Leads.first hs).lit rfl |>.hole (harg 0) |>.lit rfl
    · exact (Leads.first hs).lit rfl |>.hole (harg 1) |>.lit rfl |>.hole (harg 0) |>.lit rfl
    · exact (Leads.first (Script.closed_operand (harg 2))).lit rfl |>.hole hs |>.lit rfl |>.hole (harg 1) |>.lit rfl
        |>.hole (harg 0) |>.lit rfl
  | contains =>
    refine closed_ite ?_ ?_
    · exact (Leads.first hs).lit rfl |>.hole (harg 0) |>.lit rfl
    · exact (Leads.first hs).lit rfl |>.hole (harg 0) |>.lit rfl
  | concat => exact (Leads.first hs).lit rfl |>.hole (harg 0) |>.lit rfl

theorem factory_closed (name : String) {ts : List String} (h : AllClosed ts) : Closed (factory name ts) := by
  unfold factory
  split
  · next start count =>
    exact (Leads.start rfl).hole (h count (by simp)) |>.lit rfl
      |>.hole (Script.closed_operand (h start (by simp))) |>.lit rfl
  · next value count =>
    exact (Leads.start rfl).hole (h count (by simp)) |>.lit rfl |>.hole (h value (by simp)) |>.lit rfl
  · decide

theorem queryCall_closed (hk : k.Closing) (hr : (Node.expr receiver).WellNamed) (hc : CallNamed call) :
    Writes Closed (queryCall k receiver e call) := by
  refine (operand_closed hk hr).bind fun _ ht => (arguments_closed hk hc.args).bind fun _ hts => ?_
  cases QueryOp.ofName? call.name with
  | none => exact .pure (methodCall_closed ht (markless_camelCase hc.name) hts)
  | some op => exact .pure (render_closed op ht hts)

theorem sequenceQuery_closing : sequenceQuery.Closing Node.expr := by
  intro k e hk h
  dsimp only [sequenceQuery]
  split
  · exact .pure (by decide)
  · next r call hrc =>
    obtain ⟨hc, hr⟩ := received hrc
    have hcall := h.callNamed hc
    refine .get fun s => .ite (fun _ => ?_) fun _ => ?_
    · exact (arguments_closed hk hcall.args).bind fun _ hts => .pure (factory_closed _ hts)
    · exact .ite (fun _ => sortChain_closed hk h) fun _ => queryCall_closed hk (hcall.receiver r hr) hcall

theorem materialize_closing : materialize.Closing Node.expr := by
  intro k e hk h
  dsimp only [materialize]
  split
  · exact .pure (by decide)
  · next r call hrc =>
    obtain ⟨hc, hr⟩ := received hrc
    refine (expr_closed hk ((h.callNamed hc).receiver r hr)).bind fun _ ht => .pure ?_
    exact closed_ite ((Leads.start rfl).hole ht |>.lit rfl) ht

/-! ## Kinds of nodes -/

theorem switchExpression_closing : switchExpression.Closing Node.expr := by
  intro k e hk h
  obtain ⟨span, kind⟩ := e
  cases kind with
  | switchExpr scrutinee arms => exact switchExpr_closed hk h.parts.head h.parts.tail
  | _ => exact .pure (by decide)

theorem forEach_closing : forEach.Closing Node.stmt := by
  intro k s hk h
  obtain ⟨span, kind⟩ := s
  cases kind with
  | forEach target iterable body isAwait =>
    exact forEach_closed hk h.1 isAwait h.parts.head h.parts.tail.head.body
  | _ => exact .pure (by decide)

theorem resourceScope_closing : resourceScope.Closing Node.stmt := by
  intro k s hk h
  obtain ⟨span, kind⟩ := s
  cases kind with
  | resource ds e? body? isAwait => exact resource_closed hk h
  | _ => exact .pure (by decide)

theorem switchStatement_closing : switchStatement.Closing Node.stmt := by
  intro k s hk h
  obtain ⟨span, kind⟩ := s
  cases kind with
  | switchStmt scrutinee sections => exact switchStmt_closed hk h.parts.head h.parts.tail
  | _ => exact .pure (by decide)

theorem builtinExprs_closing : ∀ r ∈ builtinExprs, r.Closing Node.expr := by
  simp only [builtinExprs, List.forall_mem_cons]
  exact ⟨consolePrint_closing, taskHelpers_closing, serviceLookup_closing, numericHelpers_closing,
    stringHelpers_closing, mapLookup_closing, collectionProperties_closing, collectionMethods_closing,
    materialize_closing, sequenceQuery_closing, switchExpression_closing, List.forall_mem_nil _⟩

theorem builtinStmts_closing : ∀ r ∈ builtinStmts, r.Closing Node.stmt := by
  simp only [builtinStmts, List.forall_mem_cons]
  exact ⟨forEach_closing, resourceScope_closing, switchStatement_closing, List.forall_mem_nil _⟩

end Rules

end ComponentScript
