/-
  ComponentScript.Proofs.Rules.Calls — the nodes that the built-in rules go to.

  A rule for a call goes to its receiver and to its arguments, in this order, and leaves out
  what it does not need; a rule for a member goes to the receiver. Whether a rule applies
  depends on what the model says about the node, on the names that are bound, and not on the
  texts of unstructured nodes.
-/

import ComponentScript.Proofs.Convert.StatementCalls

namespace ComponentScript

open Text Converter

variable {P : Runs} {e receiver : Expr} {call : Call} {s s' : Session}

/-- A rule that sees of a node what every retexting keeps and what both models know, and goes to
    its parts. -/
structure Rule.Calling {ν : Type} (node : ν → Node) (retext : Retexting → ν → ν) (r : Rule ν) : Prop where
  applies {P : Runs} {x : ν} : P.Knows (node x) → ∀ {s s' : Session}, s.isBound = s'.isBound →
    r.applies P.k'.toEnv s' (retext P.φ x) = r.applies P.k.toEnv s x
  convert {P : Runs} {x : ν} : P.Knows (node x) →
    Calls P (node x).parts (r.convert P.k x) (r.convert P.k' (retext P.φ x))

/-! ## Calls and members -/

/-- The receiver and the arguments of a call. -/
def Call.parts (c : Call) : Parts := Parts.exprs [] c.receiver?.toList ++ Parts.arguments c.args

theorem draws_call {R : Node → Prop} (h : e.call? = some call) : Draws R call.parts e.parts := by
  obtain ⟨span, kind⟩ := e
  cases kind with
  | invocation callee typeArgs args =>
    obtain ⟨calleeSpan, callee⟩ := callee
    cases callee with
    | member receiver name => cases h; exact .enter _ _ (.refl _)
    | identifier name => cases h; exact .skip _ (.refl _)
    | _ => cases h
  | _ => cases h

theorem Calls.ofCall {α : Type} {m m' : Emit α} (h : e.call? = some call) (hm : Calls P call.parts m m') :
    Calls P e.parts m m' := .draws (draws_call h) hm

theorem Calls.ofReceived {α : Type} {m m' : Emit α} (h : e.call? = some call) (hr : call.receiver? = some receiver)
    (hm : Calls P (Parts.expr [] receiver :: Parts.arguments call.args) m m') : Calls P e.parts m m' := by
  refine .ofCall h ?_
  rw [Call.parts, hr]
  exact hm

theorem Calls.ofMember {α : Type} {name : String} {m m' : Emit α} (h : e.memberAccess? = some (receiver, name))
    (hm : Calls P [Parts.expr [] receiver] m m') : Calls P e.parts m m' := by
  obtain ⟨span, kind⟩ := e
  cases kind with
  | member receiver name => cases h; exact hm
  | _ => cases h

namespace Runs.Knows

theorem ofCall (h : P.Knows (.expr e)) (hc : e.call? = some call) :
    (∀ r ∈ call.receiver?, P.Knows (.expr r)) ∧ ∀ a ∈ call.args, P.Knows (.expr a.expr) := by
  have hparts : ∀ p ∈ call.parts, P.Knows p.2 := by
    refine (draws_call (R := fun _ => True) hc).forall_nodes (fun x hx y hy => ?_) fun p hp => h.inner hp
    obtain ⟨p, hp, rfl⟩ := List.mem_map.mp hy
    exact hx.inner hp
  exact ⟨fun r hr => hparts _ (List.mem_append_left _ (List.mem_map_of_mem (Option.mem_toList.mpr hr))),
    fun a ha => hparts _ (List.mem_append_right _ (List.mem_map_of_mem (List.mem_map_of_mem ha)))⟩

theorem memberAccess {name : String} (h : P.Knows (.expr e)) (hm : e.memberAccess? = some (receiver, name)) :
    P.Knows (.expr receiver) := by
  obtain ⟨span, kind⟩ := e
  cases kind with
  | member r n => cases hm; exact h.inner (List.mem_cons_self ..)
  | _ => cases hm

end Runs.Knows

namespace Converter

theorem arg_calls (c : Call) (i : Nat) {f f' : Expr → Emit String}
    (hf : ∀ e, Calls P [Parts.expr [] e] (f e) (f' (e.retext P.φ))) :
    Calls P (Parts.arguments c.args)
      (match c.arg? i with
        | some e => f e
        | none => return "")
      (match (c.retext P.φ).arg? i with
        | some e => f' e
        | none => return "") := by
  rw [Call.retext_arg]
  cases h : c.arg? i with
  | none => exact .any (.pure _)
  | some e =>
    have hmem : Parts.expr [] e ∈ Parts.arguments c.args := by
      obtain ⟨a, ha, rfl⟩ := Option.map_eq_some_iff.mp h
      exact List.mem_map_of_mem (List.mem_map_of_mem (List.mem_of_getElem? ha))
    obtain ⟨before, after, hsplit⟩ := List.append_of_mem hmem
    rw [hsplit]
    exact .draws (.right (.left (.refl [Parts.expr [] e]))) (hf e)

theorem argument_calls (c : Call) (i : Nat) :
    Calls P (Parts.arguments c.args) (P.k.argument c i) (P.k'.argument (c.retext P.φ) i) :=
  arg_calls c i expr_calls

theorem argumentOperand_calls (c : Call) (i : Nat) :
    Calls P (Parts.arguments c.args) (P.k.argumentOperand c i) (P.k'.argumentOperand (c.retext P.φ) i) :=
  arg_calls c i operand_calls

theorem share_calls (sh : Sharing) (e : Expr) (text : String) :
    Calls P [] (sh.share e text) (sh.share (e.retext P.φ) text) := by
  simp only [Sharing.share, Expr.isPlain_retext]
  exact .ite (fun _ => .pure _) fun _ => .bind (.freshName rfl) fun _ => .pure _

theorem shared_calls (sh : Sharing) (e : Expr) :
    Calls P [Parts.expr [] e] (P.k.shared sh e) (P.k'.shared sh (e.retext P.φ)) :=
  .bind (expr_calls e) fun text => share_calls sh e text

theorem reportIf_calls (c : Prop) [Decidable c] {d : Diagnostic} (hd : d.unsupported? = none) (text : String) :
    Calls P [] (if c then do Emit.report d; pure text else pure text)
      (if c then do Emit.report d; pure text else pure text) :=
  .ite (fun _ => .bind (.report d hd) fun _ => .pure _) fun _ => .pure _

/-- Only a format string whose holes all fit takes its arguments. -/
theorem compositeFormat_calls {α : Type} {ps xs : Parts} (template : Expr) (args : List Argument)
    {f f' : Option String → Emit α} (hargs : Draws P.again (Parts.arguments args) ps)
    (hsome : ∀ text, Calls P [] (f (some text)) (f' (some text)))
    (hxs : Draws P.again xs ps) (hnone : Calls P xs (f none) (f' none)) :
    Calls P ps (P.k.compositeFormat? template args >>= f)
      (P.k'.compositeFormat? (template.retext P.φ) (args.map (·.retext P.φ)) >>= f') := by
  simp only [compositeFormat?, Expr.stringLiteral?_retext, List.length_map, Expr.retext_span]
  cases template.stringLiteral?.bind fun s => FormatPiece.parse? s.toList with
  | none => exact .draws hxs hnone
  | some pieces =>
    by_cases hfits : pieces.all (FormatPiece.fits args.length)
    · simp only [hfits, if_pos, bind_assoc]
      refine .draws hargs ?_
      rw [← List.append_nil (Parts.arguments args)]
      refine .bind (arguments_calls args) fun values => ?_
      by_cases hdrops : pieces.any FormatPiece.dropsFormat
      · simp only [hdrops, if_pos, bind_assoc, pure_bind]
        exact .bind (.report _ rfl) fun _ => hsome _
      · simp only [hdrops]
        exact hsome _
    · simp only [hfits]
      exact .draws hxs hnone

end Converter

namespace Rules

/-! ## What a rule asks about a receiver and about a call -/

section

variable (h : P.Knows (.expr e)) (hr : P.Knows (.expr receiver)) (hs : s.isBound = s'.isBound)

include hr hs

theorem isErrorStream_eq :
    isErrorStream P.k'.toEnv s' (receiver.retext P.φ) = isErrorStream P.k.toEnv s receiver := by
  simp only [isErrorStream, Expr.memberAccess?_retext]
  cases hm : receiver.memberAccess? with
  | none => rfl
  | some access => simp only [Option.map_some, (hr.memberAccess hm).isTypeName hs]

theorem ofReceiver_eq :
    NumberReader.ofReceiver? P.k'.toEnv s' (receiver.retext P.φ) = NumberReader.ofReceiver? P.k.toEnv s receiver := by
  simp only [NumberReader.ofReceiver?, hr.isTypeName hs]

include h

theorem isMath_eq :
    isMath P.k'.toEnv s' (receiver.retext P.φ) (e.retext P.φ) = isMath P.k.toEnv s receiver e := by
  simp only [isMath, h.isMemberOf hr hs]

theorem isOnCollection_eq :
    isOnCollection P.k'.toEnv s' (e.retext P.φ) (receiver.retext P.φ) = isOnCollection P.k.toEnv s e receiver := by
  simp only [isOnCollection, isCollectionMember, hr.isStaticReceiver hs, h.declaringCategory]
  obtain ⟨span, kind⟩ := receiver
  cases kind <;> rfl

end

section

variable (h : P.Knows (.expr e)) (hr : ∀ r ∈ call.receiver?, P.Knows (.expr r)) (hs : s.isBound = s'.isBound)

include hr hs

theorem isStaticStringCall_eq :
    isStaticStringCall P.k'.toEnv s' (call.retext P.φ) = isStaticStringCall P.k.toEnv s call := by
  simp only [isStaticStringCall, Call.retext_receiver, Call.retext_name, Call.retext_arity]
  cases hc : call.receiver? with
  | none => rfl
  | some r => simp only [Option.map_some, Option.any_some, (hr r hc).isTypeName hs]

theorem isStringCall_eq :
    isStringCall P.k'.toEnv s' (call.retext P.φ) = isStringCall P.k.toEnv s call := by
  simp only [isStringCall, Call.retext_receiver, Call.retext_name, Call.retext_arity]
  cases hc : call.receiver? with
  | none => rfl
  | some r =>
    simp only [Option.map_some, (hr r hc).isTypeName hs, (hr r hc).category]
    rfl

theorem isFactoryCall_eq :
    isFactoryCall P.k'.toEnv s' (call.retext P.φ) = isFactoryCall P.k.toEnv s call := by
  simp only [isFactoryCall, Call.retext_receiver, Call.retext_name, Call.retext_arity]
  cases hc : call.receiver? with
  | none => rfl
  | some r => simp only [Option.map_some, Option.any_some, (hr r hc).isTypeName hs]

include h

theorem consoleMethod_eq :
    consoleMethod? P.k'.toEnv s' (call.retext P.φ) (e.retext P.φ) = consoleMethod? P.k.toEnv s call e := by
  simp only [consoleMethod?, Call.retext_receiver, Call.retext_name, h.symbolOf, hs]
  cases hc : call.receiver? with
  | none => rfl
  | some r =>
    simp only [Option.map_some, isErrorStream_eq (hr r hc) hs, h.isMemberOf (hr r hc) hs]
    rfl

theorem isTaskCall_eq :
    isTaskCall P.k'.toEnv s' (call.retext P.φ) (e.retext P.φ) = isTaskCall P.k.toEnv s call e := by
  simp only [isTaskCall, Call.retext_receiver, Call.retext_name, Call.retext_arity]
  cases hc : call.receiver? with
  | none => rfl
  | some r =>
    simp only [Option.map_some, h.isMemberOf (hr r hc) hs]
    rfl

theorem isNumericCall_eq :
    isNumericCall P.k'.toEnv s' (call.retext P.φ) (e.retext P.φ) = isNumericCall P.k.toEnv s call e := by
  simp only [isNumericCall, isBareClamp, Call.retext_receiver, Call.retext_name, Call.retext_arity, h.declaredIn,
    h.symbolOf, hs]
  cases hc : call.receiver? with
  | none => rfl
  | some r =>
    simp only [Option.map_some, isMath_eq h (hr r hc) hs, ofReceiver_eq (hr r hc) hs]
    rfl

theorem isMapCall_eq :
    isMapCall P.k'.toEnv s' (call.retext P.φ) (e.retext P.φ) = isMapCall P.k.toEnv s call e := by
  simp only [isMapCall, Call.retext_receiver, Call.retext_name, Call.retext_arity, h.receiverCategory hr]
  cases hc : call.receiver? with
  | none => rfl
  | some r => simp only [Option.map_some, (hr r hc).isStaticReceiver hs]

theorem isSequenceCall_eq :
    isSequenceCall P.k'.toEnv s' (call.retext P.φ) (e.retext P.φ) = isSequenceCall P.k.toEnv s call e := by
  simp only [isSequenceCall, Call.retext_receiver, h.declaringCategory]
  cases hc : call.receiver? with
  | none => rfl
  | some r => simp only [Option.map_some, (hr r hc).isStaticReceiver hs, (hr r hc).category]

end

/-! ## Printing -/

theorem printed_calls (args : List Argument) :
    Calls P (Parts.arguments args) (printed P.k args) (printed P.k' (args.map (·.retext P.φ))) := by
  rcases args with _ | ⟨template, _ | ⟨arg, args⟩⟩
  · exact .pure _
  · exact arguments_calls [template]
  · have hall := arguments_calls (P := P) (template :: arg :: args)
    simp only [List.map_cons, printed, Argument.retext_expr] at hall ⊢
    exact compositeFormat_calls template.expr (arg :: args) (.skip _ (.refl _)) (fun text => .pure _) (.refl _) hall

theorem consolePrint_calling : consolePrint.Calling Node.expr Expr.retext where
  applies {P e} h s s' hs := by
    simp only [consolePrint, Expr.call?_retext]
    cases hc : e.call? with
    | none => rfl
    | some call => simp only [Option.map_some, Option.any_some, consoleMethod_eq h (h.ofCall hc).1 hs]
  convert {P e} h := by
    simp only [consolePrint, Expr.call?_retext]
    cases hc : e.call? with
    | none => exact .any (.pure _)
    | some call =>
      refine .ofCall hc (.look fun s s' hs => ?_)
      simp only [consoleMethod_eq h (h.ofCall hc).1 hs, Call.retext_args]
      exact .draws (.right (.refl _)) ((printed_calls call.args).thenPure _)

/-! ## Tasks -/

theorem taskArray_calls {args : List Argument} (h : ∀ a ∈ args, P.Knows (.expr a.expr)) :
    Calls P (Parts.arguments args) (taskArray P.k args) (taskArray P.k' (args.map (·.retext P.φ))) := by
  rcases args with _ | ⟨arg, _ | ⟨arg', args⟩⟩
  · exact (arguments_calls []).thenPure _
  · have heq : isTaskCollection P.k'.toEnv (arg.expr.retext P.φ) = isTaskCollection P.k.toEnv arg.expr := by
      unfold isTaskCollection
      rw [(h arg (List.mem_cons_self ..)).category]
      obtain ⟨⟨span, kind⟩, _, _, _⟩ := arg
      cases kind <;> rfl
    simp only [List.map_cons, List.map_nil, taskArray, Argument.retext_expr, heq]
    exact (expr_calls arg.expr).thenPure _
  · exact (arguments_calls (arg :: arg' :: args)).thenPure _

theorem taskCall_calls (receiver : Expr) (h : ∀ a ∈ call.args, P.Knows (.expr a.expr)) :
    Calls P (Parts.expr [] receiver :: Parts.arguments call.args) (taskCall P.k receiver call)
      (taskCall P.k' (receiver.retext P.φ) (call.retext P.φ)) := by
  have hargs {α : Type} {m m' : Emit α} (h : Calls P (Parts.arguments call.args) m m') :
      Calls P (Parts.expr [] receiver :: Parts.arguments call.args) m m' := .draws (.skip _ (.refl _)) h
  simp only [taskCall, Call.retext_name, Call.retext_args]
  split
  · exact .draws (.left (.refl [Parts.expr [] receiver])) (expr_calls receiver)
  · exact hargs ((argument_calls call 0).thenPure _)
  · exact hargs ((argument_calls call 0).thenPure _)
  · exact hargs ((taskArray_calls h).thenPure _)
  · exact hargs ((taskArray_calls h).thenPure _)
  · exact hargs ((argument_calls call 0).thenPure _)
  · exact .any (.pure _)

theorem taskHelpers_calling : taskHelpers.Calling Node.expr Expr.retext where
  applies {P e} h s s' hs := by
    simp only [taskHelpers, Expr.call?_retext, Expr.memberAccess?_retext]
    cases hc : e.call? with
    | some call => simp only [Option.map_some, isTaskCall_eq h (h.ofCall hc).1 hs]
    | none =>
      cases hm : e.memberAccess? with
      | none => rfl
      | some access => simp only [Option.map_none, Option.map_some, h.isMemberOf (h.memberAccess hm) hs]
  convert {P e} h := by
    simp only [taskHelpers, Expr.call?_retext]
    cases hc : e.call? with
    | none => exact .any (.pure _)
    | some call =>
      simp only [Option.map_some, Call.retext_receiver]
      cases hr : call.receiver? with
      | none => exact .any (.pure _)
      | some receiver => exact .ofReceived hc hr (taskCall_calls receiver (h.ofCall hc).2)

/-! ## Services -/

theorem isServiceCall_retext (φ : Retexting) (call : Call) : isServiceCall (call.retext φ) = isServiceCall call := by
  simp only [isServiceCall, Call.retext_arity]
  rfl

theorem serviceLookup_calling : serviceLookup.Calling Node.expr Expr.retext where
  applies {P e} _ s s' _ := by
    simp only [serviceLookup, Expr.call?_retext]
    cases e.call? with
    | none => rfl
    | some call => simp only [Option.map_some, Option.any_some, isServiceCall_retext]
  convert {P e} h := by
    simp only [serviceLookup, Expr.call?_retext]
    cases hc : e.call? with
    | none => exact .any (.pure _)
    | some call =>
      simp only [Option.map_some, Call.retext_receiver, Call.retext_name, Call.retext_typeArgs, Env.typeKey?, h.typeOf,
        Expr.retext_span, P.settings]
      cases hr : call.receiver? with
      | none => exact .any (reportIf_calls _ rfl _)
      | some receiver =>
        refine .ofReceived hc hr (.draws (.left (.refl [Parts.expr [] receiver])) ?_)
        exact .bind (operand_calls receiver) fun provider => reportIf_calls _ rfl _

/-! ## Numbers -/

theorem clamp_calls (value low high : Expr) :
    Calls P (Parts.exprs [] [value, low, high]) (clamp P.k value low high)
      (clamp P.k' (value.retext P.φ) (low.retext P.φ) (high.retext P.φ)) :=
  .bind (expr_calls value) fun _ => .bind (expr_calls low) fun _ => (expr_calls high).thenPure _

theorem roundTo_calls (value digits : Expr) :
    Calls P (Parts.exprs [] [value, digits]) (roundTo P.k value digits)
      (roundTo P.k' (value.retext P.φ) (digits.retext P.φ)) := by
  simp only [roundTo, Expr.isPlain_retext]
  refine .ite (fun _ => ?_) fun _ => ?_
  · exact .bind (operand_calls value) fun _ => (operand_calls digits).thenPure _
  · exact .bind (shared_calls _ value) fun value => (shared_calls _ digits).thenPure _

/-- Any other function of numbers takes its arguments as they are. -/
theorem numericCall_eq {k : Converter} (hround : ¬ (call.name = "Round" ∧ call.args.length = 2))
    (hclamp : ¬ (call.name = "Clamp" ∧ call.args.length = 3)) :
    numericCall k receiver e call = (do
      let args ← k.arguments call.args
      let s ← get
      match NumberReader.ofReceiver? k.toEnv s receiver, isMath k.toEnv s receiver e with
      | some reader, false => return numberFrom reader args
      | _, _ => return s!"Math.{mathFunction call.name}({commaList args})") := by
  unfold numericCall
  split
  · next hname hargs => exact absurd ⟨hname, by rw [hargs]; rfl⟩ hround
  · next hname hargs => exact absurd ⟨hname, by rw [hargs]; rfl⟩ hclamp
  · rfl

theorem numericCall_calls (h : P.Knows (.expr e)) (hr : P.Knows (.expr receiver)) (call : Call) :
    Calls P (Parts.expr [] receiver :: Parts.arguments call.args) (numericCall P.k receiver e call)
      (numericCall P.k' (receiver.retext P.φ) (e.retext P.φ) (call.retext P.φ)) := by
  refine .draws (.skip _ (.refl (Parts.arguments call.args))) ?_
  by_cases hround : call.name = "Round" ∧ call.args.length = 2
  · obtain ⟨receiver?, name, typeArgs, args⟩ := call
    obtain ⟨rfl, hargs⟩ := hround
    obtain ⟨value, digits, rfl⟩ := List.length_eq_two.mp hargs
    obtain ⟨value, _, _, _⟩ := value
    obtain ⟨digits, _, _, _⟩ := digits
    exact roundTo_calls value digits
  by_cases hclamp : call.name = "Clamp" ∧ call.args.length = 3
  · obtain ⟨receiver?, name, typeArgs, args⟩ := call
    obtain ⟨rfl, hargs⟩ := hclamp
    obtain ⟨value, low, high, rfl⟩ := List.length_eq_three.mp hargs
    obtain ⟨value, _, _, _⟩ := value
    obtain ⟨low, _, _, _⟩ := low
    obtain ⟨high, _, _, _⟩ := high
    exact clamp_calls value low high
  rw [numericCall_eq hround hclamp, numericCall_eq (by simpa using hround) (by simpa using hclamp)]
  rw [← List.append_nil (Parts.arguments _), Call.retext_args]
  refine .bind (arguments_calls call.args) fun args => .look fun s s' hs => ?_
  rw [ofReceiver_eq hr hs, isMath_eq h hr hs]
  split <;> exact .pure _

theorem numericHelpers_calling : numericHelpers.Calling Node.expr Expr.retext where
  applies {P e} h s s' hs := by
    simp only [numericHelpers, Expr.call?_retext, Expr.memberAccess?_retext]
    cases hc : e.call? with
    | some call => simp only [Option.map_some, isNumericCall_eq h (h.ofCall hc).1 hs]
    | none =>
      cases hm : e.memberAccess? with
      | none => rfl
      | some access => simp only [Option.map_none, Option.map_some, isMath_eq h (h.memberAccess hm) hs]
  convert {P e} h := by
    simp only [numericHelpers, Expr.call?_retext, Expr.memberAccess?_retext]
    cases e.memberAccess? with
    | some access => exact .any (.pure _)
    | none =>
      cases hc : e.call? with
      | none => exact .any (.pure _)
      | some call =>
        simp only [Option.map_none, Option.map_some, Call.retext_receiver, Call.retext_args]
        cases hr : call.receiver? with
        | some receiver => exact .ofReceived hc hr (numericCall_calls h ((h.ofCall hc).1 receiver hr) call)
        | none =>
          refine .ofCall hc (.draws (.right (.refl (Parts.arguments call.args))) ?_)
          rcases call.args with _ | ⟨⟨value⟩, _ | ⟨⟨low⟩, _ | ⟨⟨high⟩, _ | ⟨other, args⟩⟩⟩⟩
          · exact .pure _
          · exact .any (.pure _)
          · exact .any (.pure _)
          · exact clamp_calls value low high
          · exact .any (.pure _)

/-! ## Strings -/

theorem hasLiteralTemplate_retext (φ : Retexting) (call : Call) :
    hasLiteralTemplate (call.retext φ) = hasLiteralTemplate call := by
  simp only [hasLiteralTemplate, Call.retext_arg]
  cases call.arg? 0 with
  | none => rfl
  | some e => simp only [Option.map_some, Option.bind_some, Expr.stringLiteral?_retext]

theorem stringify_calls (e : Expr) (call : Call) :
    Calls P call.parts (stringify P.k e call) (stringify P.k' (e.retext P.φ) (call.retext P.φ)) := by
  refine .draws (.left (.refl (Parts.exprs [] call.receiver?.toList))) ?_
  simp only [stringify, Call.retext_receiver, Call.retext_arity, Expr.retext_span, P.settings]
  cases call.receiver? with
  | none => exact reportIf_calls _ rfl _
  | some receiver => exact .bind (expr_calls receiver) fun value => reportIf_calls _ rfl _

theorem substring_calls (receiver start length : Expr) :
    Calls P (Parts.exprs [] [receiver, start, length]) (substring P.k receiver start length)
      (substring P.k' (receiver.retext P.φ) (start.retext P.φ) (length.retext P.φ)) := by
  simp only [substring, Expr.isPlain_retext]
  refine .ite (fun _ => ?_) fun _ => ?_
  · exact .bind (operand_calls receiver) fun _ => .bind (expr_calls start) fun _ => (operand_calls length).thenPure _
  · refine .bind (shared_calls _ receiver) fun target => ?_
    exact .bind (shared_calls _ start) fun start => (shared_calls _ length).thenPure _

/-- The names of the functions of strings that are no formatting. -/
def plainStringFunctions : List String := ["IsNullOrEmpty", "IsNullOrWhiteSpace", "Join", "Concat"]

/-- Any other function of strings formats its arguments. -/
theorem stringFunction_eq {k : Converter} (h : call.name ∉ plainStringFunctions) :
    stringFunction k call = (match call.args with
      | [] => return "\"\""
      | template :: args => do
        match ← k.compositeFormat? template.expr args with
        | some text => return text
        | none => k.expr template.expr) := by
  obtain ⟨receiver?, method, typeArgs, args⟩ := call
  simp only [plainStringFunctions, List.mem_cons, List.not_mem_nil, or_false, not_or] at h
  obtain ⟨hempty, hblank, hjoin, hconcat⟩ := h
  dsimp only [stringFunction]
  split
  · exact absurd rfl hempty
  · exact absurd rfl hblank
  · exact absurd rfl hblank
  · exact absurd rfl hjoin
  · exact absurd rfl hconcat
  · rfl
  · rfl

theorem stringFunction_calls (call : Call) :
    Calls P (Parts.arguments call.args) (stringFunction P.k call) (stringFunction P.k' (call.retext P.φ)) := by
  have hoperand := argumentOperand_calls (P := P) call 0
  have hargs := arguments_calls (P := P) call.args
  by_cases hplain : call.name ∈ plainStringFunctions
  · obtain ⟨receiver?, name, typeArgs, args⟩ := call
    simp only [plainStringFunctions, List.mem_cons, List.not_mem_nil, or_false] at hplain
    rcases hplain with rfl | rfl | rfl | rfl
    · exact hoperand.thenPure _
    · cases args with
      | nil => exact .pure _
      | cons arg args =>
        obtain ⟨value, _, _, _⟩ := arg
        exact .draws (.left (.refl [Parts.expr [] value])) ((shared_calls {} value).thenPure _)
    · exact hargs.thenPure _
    · exact hargs.thenPure _
  · have hplain' : (call.retext P.φ).name ∉ plainStringFunctions := hplain
    rw [stringFunction_eq hplain, stringFunction_eq hplain', Call.retext_args]
    cases call.args with
    | nil => exact .pure _
    | cons template args =>
      simp only [List.map_cons, Argument.retext_expr]
      refine compositeFormat_calls template.expr args (.skip _ (.refl _)) (fun text => .pure _)
        (.left (.refl [Parts.expr [] template.expr])) ?_
      exact expr_calls template.expr

/-- Any other method of a string takes its arguments as they are. -/
theorem stringCall_eq {k : Converter} (hr : call.receiver? = some receiver)
    (h : ¬ (call.name = "Substring" ∧ call.args.length = 2)) :
    stringCall k call = (do
      let target ← k.operand receiver
      let args ← k.arguments call.args
      return s!"{target}.{stringMethod call.name}({commaList args})") := by
  unfold stringCall
  split
  · next hnone => rw [hr] at hnone; cases hnone
  · next hname hargs => exact absurd ⟨hname, by rw [hargs]; rfl⟩ h
  · next hsome _ => rw [hr] at hsome; cases hsome; rfl

theorem stringCall_calls (call : Call) :
    Calls P call.parts (stringCall P.k call) (stringCall P.k' (call.retext P.φ)) := by
  cases hr : call.receiver? with
  | none =>
    obtain ⟨receiver?, name, typeArgs, args⟩ := call
    cases hr
    exact .any (.pure _)
  | some receiver =>
    rw [Call.parts, hr]
    by_cases hsub : call.name = "Substring" ∧ call.args.length = 2
    · obtain ⟨receiver?, name, typeArgs, args⟩ := call
      obtain ⟨rfl, hargs⟩ := hsub
      obtain ⟨start, length, rfl⟩ := List.length_eq_two.mp hargs
      cases hr
      obtain ⟨start, _, _, _⟩ := start
      obtain ⟨length, _, _, _⟩ := length
      exact substring_calls receiver start length
    · have hr' : (call.retext P.φ).receiver? = some (receiver.retext P.φ) := by rw [Call.retext_receiver, hr]; rfl
      rw [stringCall_eq hr hsub, stringCall_eq hr' (by simpa using hsub)]
      exact .bind (operand_calls receiver) fun _ => (arguments_calls call.args).thenPure _

theorem stringHelpers_calling : stringHelpers.Calling Node.expr Expr.retext where
  applies {P e} h s s' hs := by
    simp only [stringHelpers, Expr.call?_retext, Expr.memberAccess?_retext]
    cases hm : e.memberAccess? with
    | some access => simp only [Option.map_some, (h.memberAccess hm).isTypeName hs]
    | none =>
      cases hc : e.call? with
      | none => rfl
      | some call =>
        simp only [Option.map_none, Option.map_some, isStaticStringCall_eq (h.ofCall hc).1 hs,
          isStringCall_eq (h.ofCall hc).1 hs, hasLiteralTemplate_retext]
        rfl
  convert {P e} h := by
    simp only [stringHelpers, Expr.call?_retext, Expr.memberAccess?_retext]
    cases e.memberAccess? with
    | some access => exact .any (.pure _)
    | none =>
      cases hc : e.call? with
      | none => exact .any (.pure _)
      | some call =>
        simp only [Option.map_none, Option.map_some, Call.retext_name]
        refine .ofCall hc (.ite (fun _ => stringify_calls e call) fun _ => .look fun s s' hs => ?_)
        rw [isStaticStringCall_eq (h.ofCall hc).1 hs]
        refine .ite (fun _ => ?_) fun _ => stringCall_calls call
        exact .draws (.right (.refl _)) (stringFunction_calls call)

/-! ## Maps and collections -/

/-- The call that an expression is, with the receiver it has. -/
theorem received
    (h : (e.call?.bind fun call => call.receiver?.map fun receiver => (receiver, call)) = some (receiver, call)) :
    e.call? = some call ∧ call.receiver? = some receiver := by
  obtain ⟨c, hc, hr⟩ := Option.bind_eq_some_iff.mp h
  obtain ⟨r, hr, heq⟩ := Option.map_eq_some_iff.mp hr
  cases heq
  exact ⟨hc, hr⟩

theorem received_retext (φ : Retexting) (e : Expr) :
    ((e.retext φ).call?.bind fun call => call.receiver?.map fun receiver => (receiver, call)) =
      (e.call?.bind fun call => call.receiver?.map fun receiver => (receiver, call)).map
        fun (receiver, call) => (receiver.retext φ, call.retext φ) := by
  rw [Expr.call?_retext]
  cases e.call? with
  | none => rfl
  | some call => cases h : call.receiver? <;> simp [h]

theorem received_calls {f f' : Expr → Call → Emit String}
    (hf : ∀ receiver call, e.call? = some call → call.receiver? = some receiver →
      Calls P e.parts (f receiver call) (f' (receiver.retext P.φ) (call.retext P.φ))) :
    Calls P e.parts
      (match e.call?.bind fun call => call.receiver?.map fun receiver => (receiver, call) with
        | none => return ""
        | some (receiver, call) => f receiver call)
      (match (e.retext P.φ).call?.bind fun call => call.receiver?.map fun receiver => (receiver, call) with
        | none => return ""
        | some (receiver, call) => f' receiver call) := by
  rw [received_retext]
  cases hc : e.call?.bind fun call => call.receiver?.map fun receiver => (receiver, call) with
  | none => exact .any (.pure _)
  | some pair => exact hf pair.1 pair.2 (received hc).1 (received hc).2

theorem mapLookup_calling : mapLookup.Calling Node.expr Expr.retext where
  applies {P e} h s s' hs := by
    simp only [mapLookup, Expr.call?_retext]
    cases hc : e.call? with
    | none => rfl
    | some call => simp only [Option.map_some, Option.any_some, isMapCall_eq h (h.ofCall hc).1 hs]
  convert {P e} h := by
    refine received_calls fun receiver call hcall hr => .ofReceived hcall hr ?_
    exact .bind (operand_calls receiver) fun _ => (arguments_calls call.args).thenPure _

theorem collectionProperties_calling : collectionProperties.Calling Node.expr Expr.retext where
  applies {P e} h s s' hs := by
    simp only [collectionProperties, Expr.memberAccess?_retext]
    cases hm : e.memberAccess? with
    | none => rfl
    | some access =>
      simp only [Option.map_some, isOnCollection_eq h (h.memberAccess hm) hs, (h.memberAccess hm).category]
  convert {P e} h := by
    simp only [collectionProperties, Expr.memberAccess?_retext]
    cases hm : e.memberAccess? with
    | none => exact .any (.pure _)
    | some access =>
      obtain ⟨receiver, name⟩ := access
      simp only [Option.map_some, (h.memberAccess hm).category]
      exact .ofMember hm ((operand_calls receiver).thenPure _)

theorem clearMap_calls (receiver : Expr) :
    Calls P [Parts.expr [] receiver] (clearMap P.k receiver) (clearMap P.k' (receiver.retext P.φ)) :=
  .bind (shared_calls {} receiver) fun _ => .bind (.freshName rfl) fun _ => .pure _

theorem removeItem_calls (receiver item : Expr) :
    Calls P (Parts.exprs [] [receiver, item]) (removeItem P.k receiver item)
      (removeItem P.k' (receiver.retext P.φ) (item.retext P.φ)) := by
  refine .bind (shared_calls {} receiver) fun target => .bind (expr_calls item) fun text => ?_
  obtain ⟨target, sh⟩ := target
  refine .ite (fun _ => ?_) fun _ => ?_
  · exact .bind (.pure _) fun _ => .bind (.freshName rfl) fun _ => .pure _
  · exact .bind (share_calls sh item text) fun _ => .bind (.freshName rfl) fun _ => .pure _

/-- Any other change of a collection mentions it once. -/
theorem collectionCall_eq {k : Converter} (category? : Option Category)
    (hclear : ¬ (call.name = "Clear" ∧ call.args = [])) (hremove : ¬ (call.name = "Remove" ∧ call.args.length = 1)) :
    collectionCall k receiver call category? = (do
      let target ← k.operand receiver
      let args ← k.arguments call.args
      return collectionOperation target call.name args category?) := by
  unfold collectionCall
  split
  · next hname hargs => exact absurd ⟨hname, hargs⟩ hclear
  · next hname hargs => exact absurd ⟨hname, by rw [hargs]; rfl⟩ hremove
  · rfl

theorem collectionCall_calls (receiver : Expr) (call : Call) (category? : Option Category) :
    Calls P (Parts.expr [] receiver :: Parts.arguments call.args) (collectionCall P.k receiver call category?)
      (collectionCall P.k' (receiver.retext P.φ) (call.retext P.φ) category?) := by
  have hplain : Calls P (Parts.expr [] receiver :: Parts.arguments call.args)
      (do let target ← P.k.operand receiver
          let args ← P.k.arguments call.args
          return collectionOperation target call.name args category?)
      (do let target ← P.k'.operand (receiver.retext P.φ)
          let args ← P.k'.arguments (call.args.map (·.retext P.φ))
          return collectionOperation target call.name args category?) :=
    .bind (operand_calls receiver) fun _ => (arguments_calls call.args).thenPure _
  by_cases hclear : call.name = "Clear" ∧ call.args = []
  · obtain ⟨receiver?, name, typeArgs, args⟩ := call
    obtain ⟨rfl, rfl⟩ := hclear
    exact .ite (fun _ => clearMap_calls receiver) fun _ => hplain
  by_cases hremove : call.name = "Remove" ∧ call.args.length = 1
  · obtain ⟨receiver?, name, typeArgs, args⟩ := call
    obtain ⟨rfl, hargs⟩ := hremove
    obtain ⟨⟨item, _, _, _⟩, rfl⟩ := List.length_eq_one_iff.mp hargs
    exact .ite (fun _ => hplain) fun _ => removeItem_calls receiver item
  rw [collectionCall_eq category? hclear hremove,
    collectionCall_eq category? (by simpa using hclear) (by simpa using hremove)]
  exact hplain

theorem collectionMethods_calling : collectionMethods.Calling Node.expr Expr.retext where
  applies {P e} h s s' hs := by
    simp only [collectionMethods, received_retext]
    cases hc : e.call?.bind fun call => call.receiver?.map fun receiver => (receiver, call) with
    | none => rfl
    | some pair =>
      obtain ⟨hcall, hr⟩ := received hc
      simp only [Option.map_some, isOnCollection_eq h ((h.ofCall hcall).1 _ hr) hs, Call.retext_name, Call.retext_arity,
        h.receiverCategory (h.ofCall hcall).1]
  convert {P e} h := by
    refine received_calls fun receiver call hcall hr => .ofReceived hcall hr ?_
    rw [h.receiverCategory (h.ofCall hcall).1]
    exact collectionCall_calls receiver call _

/-! ## Queries -/

def SortKey.retext (φ : Retexting) (key : SortKey) : SortKey := ⟨key.selector.retext φ, key.descending⟩

theorem isSortStep_retext (φ : Retexting) (e : Expr) : (e.retext φ).isSortStep = e.isSortStep := by
  simp only [Expr.isSortStep, Expr.call?_retext]
  cases e.call? with
  | none => rfl
  | some call =>
    simp only [Option.map_some, Option.any_some, Call.retext_name, Call.retext_arity, Call.retext_receiver,
      Option.isSome_map]

theorem sortKeys_retext (φ : Retexting) (e : Expr) : (e.retext φ).sortKeys? =
    e.sortKeys?.map fun (base, keys) => (base.retext φ, keys.map (SortKey.retext φ)) := by
  fun_induction Expr.sortKeys? e with
  | case1 span calleeSpan receiver name typeArgs arg args hname =>
    simp [Expr.retext, ExprKind.retext, Expr.sortKeys?, hname]
  | case2 span calleeSpan receiver name typeArgs arg args step hname key hfirst =>
    simp [Expr.retext, ExprKind.retext, Expr.sortKeys?, hname, isSortStep_retext, hfirst, SortKey.retext, key]
  | case3 span calleeSpan receiver name typeArgs arg args step hname key hfirst ih =>
    simp [Expr.retext, ExprKind.retext, Expr.sortKeys?, hname, isSortStep_retext, hfirst, SortKey.retext, key, ih,
      Function.comp_def]
  | case4 e h =>
    obtain ⟨span, kind⟩ := e
    cases kind with
    | invocation callee typeArgs args =>
      obtain ⟨calleeSpan, callee⟩ := callee
      cases callee with
      | member receiver name =>
        cases args with
        | nil => rfl
        | cons arg args => exact absurd rfl (h _ _ _ _ _ _ _)
      | _ => rfl
    | _ => rfl

/-- The base and the keys of a sort chain stand in this order inside it. -/
theorem draws_sortKeys {R : Node → Prop} {base : Expr} {keys : List SortKey} (h : e.sortKeys? = some (base, keys)) :
    Draws R (Parts.exprs [] (base :: keys.map (·.selector))) e.parts := by
  fun_induction Expr.sortKeys? e generalizing base keys with
  | case1 => cases h
  | case2 span calleeSpan receiver name typeArgs arg args step hname hfirst =>
    cases h
    exact .enter _ _ (.take _ (.take _ (.none _)))
  | case3 span calleeSpan receiver name typeArgs arg args =>
    rename_i ih
    obtain ⟨⟨base', keys'⟩, hrec, heq⟩ := Option.map_eq_some_iff.mp h
    cases heq
    have hchain : Draws R (Parts.exprs [] (base :: keys'.map (·.selector))) [Parts.expr [] receiver] := by
      refine .enter _ _ ?_
      rw [Parts.under_nil, List.append_nil]
      exact ih hrec
    rw [List.map_append, ← List.cons_append, Parts.exprs, List.map_append]
    exact .enter _ _ (hchain.append (.take _ (.none _)))
  | case4 => cases h

/-- The comparison goes to no node. -/
theorem comparison_calls (left right : String) (keys : List SortKey) (selectors : List String) :
    Calls P [] ((keys.zip selectors).mapM fun (key, selector) => compareLines left right key selector)
      (((keys.map (SortKey.retext P.φ)).zip selectors).mapM fun (key, selector) =>
        compareLines left right key selector) := by
  have hnone : (keys.zip selectors).flatMap (fun _ => ([] : Parts)) = [] := by simp
  rw [List.zip_map_left, ← hnone]
  exact .mapM fun pair _ => .bind (.freshName rfl) fun _ => .bind (.freshName rfl) fun _ => .pure _

theorem sortChain_calls (h : P.Knows (.expr e)) (he : e.call? = some call) :
    Calls P e.parts (sortChain P.k e) (sortChain P.k' (e.retext P.φ)) := by
  simp only [sortChain, sortKeys_retext, indent_eq]
  cases hk : e.sortKeys? with
  | none =>
    refine defaultExpr_calls none h (fun nodeKind text h => ?_) fun type? args i? arg h => ?_
    · simp [Expr.call?, h] at he
    · simp [Expr.call?, h] at he
  | some chain =>
    obtain ⟨base, keys⟩ := chain
    have hselectors : Calls P (Parts.exprs [] (keys.map (·.selector))) (keys.mapM fun key => P.k.operand key.selector)
        ((keys.map (SortKey.retext P.φ)).mapM fun key => P.k'.operand key.selector) := by
      rw [Parts.exprs, List.map_map, List.map_eq_flatMap]
      exact .mapM fun key _ => operand_calls key.selector
    refine .draws (draws_sortKeys hk) (.bind (expr_calls base) fun source => ?_)
    rw [← List.append_nil (List.map _ _)]
    refine .bind hselectors fun selectors => ?_
    refine .bind (.freshName rfl) fun left => .bind (.freshName rfl) fun right => ?_
    exact (comparison_calls left right keys selectors).thenPure _

theorem queryCall_calls (receiver : Expr) (h : P.Knows (.expr e)) (hr : ∀ r ∈ call.receiver?, P.Knows (.expr r)) :
    Calls P (Parts.expr [] receiver :: Parts.arguments call.args) (queryCall P.k receiver e call)
      (queryCall P.k' (receiver.retext P.φ) (e.retext P.φ) (call.retext P.φ)) := by
  simp only [queryCall, Call.retext_args, Call.retext_name, h.declaringCategory, h.receiverCategory hr]
  cases QueryOp.ofName? call.name with
  | none => exact .bind (operand_calls receiver) fun _ => (arguments_calls call.args).thenPure _
  | some op => exact .bind (operand_calls receiver) fun _ => (arguments_calls call.args).thenPure _

theorem sequenceQuery_calling : sequenceQuery.Calling Node.expr Expr.retext where
  applies {P e} h s s' hs := by
    simp only [sequenceQuery, Expr.call?_retext]
    cases hc : e.call? with
    | none => rfl
    | some call =>
      simp only [Option.map_some, Option.any_some, isFactoryCall_eq (h.ofCall hc).1 hs,
        isSequenceCall_eq h (h.ofCall hc).1 hs, Call.retext_name, Call.retext_arity]
  convert {P e} h := by
    refine received_calls fun receiver call hcall hr => .look fun s s' hs => ?_
    simp only [isFactoryCall_eq (h.ofCall hcall).1 hs, Call.retext_name, Call.retext_args]
    refine .ite (fun _ => ?_) fun _ => .ite (fun _ => sortChain_calls h hcall) fun _ => ?_
    · exact Calls.ofReceived hcall hr (.draws (.skip _ (.refl _)) ((arguments_calls call.args).thenPure _))
    · exact Calls.ofReceived hcall hr (queryCall_calls receiver h (h.ofCall hcall).1)

theorem materialize_calling : materialize.Calling Node.expr Expr.retext where
  applies {P e} h s s' hs := by
    simp only [materialize, Expr.call?_retext]
    cases hc : e.call? with
    | none => rfl
    | some call =>
      simp only [Option.map_some, Option.any_some, isSequenceCall_eq h (h.ofCall hc).1 hs, Call.retext_name,
        Call.retext_arity]
  convert {P e} h := by
    refine received_calls fun receiver call hcall hr => .ofReceived hcall hr ?_
    exact .draws (.left (.refl [Parts.expr [] receiver])) ((expr_calls receiver).thenPure _)

/-! ## Kinds of nodes -/

theorem switchExpression_calling : switchExpression.Calling Node.expr Expr.retext where
  applies {P e} _ s s' _ := by
    obtain ⟨span, kind⟩ := e
    cases kind <;> rfl
  convert {P e} h := by
    obtain ⟨span, kind⟩ := e
    cases kind with
    | switchExpr scrutinee arms => exact defaultExpr_calls none h nofun nofun
    | _ => exact .any (.pure _)

theorem forEach_calling : forEach.Calling Node.stmt Stmt.retext where
  applies {P x} _ s s' _ := by
    obtain ⟨span, kind⟩ := x
    cases kind <;> rfl
  convert {P x} h := by
    obtain ⟨span, kind⟩ := x
    cases kind with
    | forEach target iterable body isAwait => exact stmtByKind_calls h nofun nofun nofun
    | _ => exact .any (.pure _)

theorem resourceScope_calling : resourceScope.Calling Node.stmt Stmt.retext where
  applies {P x} _ s s' _ := by
    obtain ⟨span, kind⟩ := x
    cases kind <;> rfl
  convert {P x} h := by
    obtain ⟨span, kind⟩ := x
    cases kind with
    | resource ds e? body? isAwait => exact stmtByKind_calls h nofun nofun nofun
    | _ => exact .any (.pure _)

theorem switchStatement_calling : switchStatement.Calling Node.stmt Stmt.retext where
  applies {P x} _ s s' _ := by
    obtain ⟨span, kind⟩ := x
    cases kind <;> rfl
  convert {P x} h := by
    obtain ⟨span, kind⟩ := x
    cases kind with
    | switchStmt scrutinee sections => exact stmtByKind_calls h nofun nofun nofun
    | _ => exact .any (.pure _)

theorem builtinStmts_calling : ∀ r ∈ builtinStmts, r.Calling Node.stmt Stmt.retext := by
  simp only [builtinStmts, List.forall_mem_cons]
  exact ⟨forEach_calling, resourceScope_calling, switchStatement_calling, nofun⟩

theorem builtinExprs_calling : ∀ r ∈ builtinExprs, r.Calling Node.expr Expr.retext := by
  simp only [builtinExprs, List.forall_mem_cons]
  exact ⟨consolePrint_calling, taskHelpers_calling, serviceLookup_calling, numericHelpers_calling,
    stringHelpers_calling, mapLookup_calling, collectionProperties_calling, collectionMethods_calling,
    materialize_calling, sequenceQuery_calling, switchExpression_calling, nofun⟩

end Rules

end ComponentScript
