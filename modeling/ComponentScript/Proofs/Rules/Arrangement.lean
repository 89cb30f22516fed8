/-
  ComponentScript.Proofs.Rules.Arrangement — where idioms place the operands of a call.

  Most texts of idioms mention the operands straight: in source order, each at most once and
  outside of functions. The table of a rule (`mapArrangement` and so on) says for which calls
  it is otherwise, and how; that the draft of the rule is as the table says is shown for each
  rule by itself.

  `Arrangement.Describes operands ms` is what an arrangement says about mentions.
-/

import Mathlib.Data.List.Perm.Subperm
import ComponentScript.Proofs.Draft.Mentions
import ComponentScript.Proofs.Draft.Placed

namespace ComponentScript

open Text Draft Converter
open Emit (Yields)

/-- The receiver and the arguments in source order. -/
def Call.operands (call : Call) : List Expr := call.receiver?.toList ++ call.args.map (·.expr)

/-- How the text of an idiom places the operands of a call. -/
inductive Arrangement where
  /-- In source order, those that are not plain at most once and outside of functions. -/
  | straight
  /-- Once each and outside of functions, but in another order. -/
  | swapped (order : List Expr)
  /-- In the holes of a format string. -/
  | filled (order : List Expr)
  /-- The count of a range, and its start in the function that numbers the elements. -/
  | numbered (start count : Expr)
  /-- The time of a delay, in the function that starts the timer. -/
  | delayed (time : Expr)
  /-- The base of a sort chain, and each key twice in the comparison. -/
  | sorted (base : Expr) (keys : List Expr)

/-- Some operand is in front of another one that comes first in the source. -/
def Inverted (order operands : List Expr) : Prop := ∃ a b, [a, b].Sublist order ∧ [b, a].Sublist operands

namespace Arrangement

def Describes (operands : List Expr) (ms : List Mention) : Arrangement → Prop
  | straight => Mention.Straight operands ms
  | swapped order => ms = order.map .free ∧ order.Subperm operands ∧ Inverted order operands
  | filled order => ms = order.map .free
  | numbered start count =>
    ms = [.free count, ⟨[⟨.range, false, ["_", "i"]⟩], start⟩] ∧ [start, count].Sublist operands
  | delayed time => ms = [⟨[⟨.delay, false, ["resolve"]⟩], time⟩]
  | sorted base keys => ∃ a b, Script.isSynthetic a = true ∧ Script.isSynthetic b = true ∧
      ms = .free base :: keys.flatMap fun key => List.replicate 2 ⟨[⟨.comparison, false, [a, b]⟩], key⟩

/-- A format string with its arguments, else the operands as they come. -/
def ofFormat (template : Expr) (args : List Expr) : Arrangement :=
  match template.filled? args with
  | some order => filled order
  | none => straight

theorem describes_free {operands es : List Expr} {ms : List Mention} (hes : es.Sublist operands)
    (h : ms = es.map .free) :
    straight.Describes operands ms := h ▸ Mention.Straight.ofFree (List.filter_sublist.trans hes)

end Arrangement

/-- A format string is drafted with its arguments in the holes, or not at all. -/
theorem Converter.draftFormat_arranged {k : Converter} (template : Expr) (args : List Argument) :
    Yields (fun d? =>
        (∃ d order, d? = some d ∧ .ofFormat template (args.map (·.expr)) = Arrangement.filled order ∧
          d.mentions = order.map .free) ∨
        d? = none ∧ .ofFormat template (args.map (·.expr)) = Arrangement.straight)
      (k.draftFormat? template args) := by
  intro s
  have h := draftFormat_yields (k := k) template args s
  unfold Arrangement.ofFormat
  generalize ((k.draftFormat? template args).out s).1 = d? at h
  cases hfilled : template.filled? (args.map (·.expr)) with
  | none =>
    rw [hfilled, Option.map_none, Option.map_eq_none_iff] at h
    exact .inr ⟨h, rfl⟩
  | some order =>
    rw [hfilled, Option.map_some, Option.map_eq_some_iff] at h
    obtain ⟨d, hd, hmentions⟩ := h
    exact .inl ⟨d, order, hd, rfl, hmentions⟩

namespace Rules

variable {k : Converter} {e receiver : Expr} {call : Call}

theorem args_sublist (call : Call) : (call.args.map (·.expr)).Sublist call.operands := List.sublist_append_right ..

theorem arg_sublist (call : Call) (i : Nat) : (call.arg? i).toList.Sublist call.operands := by
  cases h : call.arg? i with
  | none => exact List.nil_sublist _
  | some e =>
    obtain ⟨a, ha, rfl⟩ := Call.arg_mem h
    exact (List.singleton_sublist.mpr (List.mem_map_of_mem ha)).trans (args_sublist call)

theorem operands_eq (hr : call.receiver? = some receiver) : call.operands = receiver :: call.args.map (·.expr) := by
  rw [Call.operands, hr]
  rfl

theorem receiver_sublist (hr : call.receiver? = some receiver) : [receiver].Sublist call.operands := by
  rw [operands_eq hr]
  exact List.singleton_sublist.mpr (List.mem_cons_self ..)

/-! ## Printing -/

def printArrangement : List Expr → Arrangement
  | template :: arg :: args => .ofFormat template (arg :: args)
  | _ => .straight

theorem draftPrinted_yields (args : List Argument) {operands : List Expr} (h : (args.map (·.expr)).Sublist operands) :
    Yields (fun ds => (printArrangement (args.map (·.expr))).Describes operands (ds.flatMap mentions))
      (draftPrinted k args) := by
  have hargs : Yields (fun ds => Arrangement.straight.Describes operands (ds.flatMap mentions))
    (k.draftArguments args) :=
    fun s => Arrangement.describes_free h (flatMap_mentions (draftArguments_yields args s))
  rcases args with _ | ⟨template, _ | ⟨arg, args⟩⟩
  · exact .pure (Arrangement.describes_free (List.nil_sublist operands) rfl)
  · exact hargs
  · refine (draftFormat_arranged template.expr (arg :: args)).bind fun d? hd => ?_
    simp only [List.map_cons, printArrangement] at hd ⊢
    obtain ⟨d, order, rfl, hfilled, hd⟩ | ⟨rfl, hnone⟩ := hd
    · rw [hfilled]
      exact .pure (by simpa [Arrangement.Describes] using hd)
    · rw [hnone]
      exact hargs

theorem draftPrint_yields (hcall : e.call? = some call) :
    Yields (fun d => (printArrangement (call.args.map (·.expr))).Describes call.operands d.mentions)
      (draftPrint k e) := by
  unfold draftPrint
  rw [hcall]
  refine .after _ fun s => (draftPrinted_yields call.args (args_sublist call)).bind fun ds hds => .pure ?_
  simpa using hds

/-! ## Tasks -/

def taskArrangement (call : Call) : Arrangement :=
  match call.name, call.args with
  | "Delay", time :: _ => .delayed time.expr
  | _, _ => .straight

theorem draftTaskArray_yields (args : List Argument) :
    Yields (fun d => d.mentions = (args.map (·.expr)).map .free) (draftTaskArray k args) := by
  have hitems : Yields (fun d => d.mentions = (args.map (·.expr)).map .free)
      (do let items ← k.draftArguments args; return code "[" ++ Draft.joined ", " items ++ code "]") :=
    (draftArguments_yields args).bind fun ds hds => .pure (by simp [flatMap_mentions hds])
  rcases args with _ | ⟨arg, _ | ⟨arg', args⟩⟩
  · exact hitems
  · refine (draft_yields arg.expr).bind fun d hd => .pure ?_
    split <;> simp [hd]
  · exact hitems

theorem draftTaskCall_yields (hr : call.receiver? = some receiver) :
    Yields (fun d => (taskArrangement call).Describes call.operands d.mentions) (draftTaskCall k receiver call) := by
  have hargument := draftArgument_yields (k := k) call 0
  have htasks := draftTaskArray_yields (k := k) call.args
  have hfirst := arg_sublist call 0
  have hall := args_sublist call
  have hreceiver := receiver_sublist hr
  have hnone := Arrangement.describes_free (List.nil_sublist call.operands) rfl
  obtain ⟨receiver?, method, typeArgs, args⟩ := call
  dsimp only [draftTaskCall] at *
  split
  · exact (draft_yields receiver).bind fun d hd => .pure (Arrangement.describes_free hreceiver hd)
  · refine hargument.bind fun d hd => .pure ?_
    cases args with
    | nil => exact Arrangement.describes_free hfirst (by simp [hd, Call.arg?])
    | cons time args => simp [taskArrangement, Arrangement.Describes, hd, Call.arg?, Mention.inside, Mention.free]
  · exact hargument.bind fun d hd => .pure (Arrangement.describes_free hfirst (by simp [hd]))
  · exact htasks.bind fun d hd => .pure (Arrangement.describes_free hall (by simp [hd]))
  · exact htasks.bind fun d hd => .pure (Arrangement.describes_free hall (by simp [hd]))
  · exact hargument.bind fun d hd => .pure (Arrangement.describes_free hfirst (by simp [hd]))
  · have hother : taskArrangement ⟨receiver?, method, typeArgs, args⟩ = .straight := by
      unfold taskArrangement
      split <;> simp_all
    exact .pure (by rw [hother]; exact hnone)

theorem draftTask_yields (hcall : e.call? = some call) (hr : call.receiver? = some receiver) :
    Yields (fun d => (taskArrangement call).Describes call.operands d.mentions) (draftTask k e) := by
  unfold draftTask
  rw [hcall]
  dsimp only
  rw [hr]
  exact draftTaskCall_yields hr

/-! ## Services -/

theorem draftService_yields (hcall : e.call? = some call) :
    Yields (fun d => Arrangement.straight.Describes call.operands d.mentions) (draftService k e) := by
  unfold draftService
  rw [hcall]
  dsimp only
  have hlookup : ∀ {d : Draft} {es : List Expr}, es.Sublist call.operands → d.mentions = es.map Mention.free →
      ∀ method key, Arrangement.straight.Describes call.operands
        (d ++ code "." ++ name method ++ code "(" ++ name key ++ code ")").mentions :=
    fun hes hd method key => Arrangement.describes_free hes (by simp [hd])
  cases hr : call.receiver? with
  | none =>
    have hthis := fun method key => hlookup (d := name k.settings.instanceReceiver) (List.nil_sublist _) rfl method key
    exact .ite (fun _ => .after _ fun _ => .pure (hthis _ _)) fun _ => .pure (hthis _ _)
  | some receiver =>
    refine (draftOperand_yields receiver).bind fun d hd => ?_
    have hprovider := fun method key => hlookup (receiver_sublist hr) hd method key
    exact .ite (fun _ => .after _ fun _ => .pure (hprovider _ _)) fun _ => .pure (hprovider _ _)

/-! ## Maps -/

def mapArrangement (receiver : Expr) (method : String) (args : List Expr) : Arrangement :=
  match method, args with
  | "ContainsKey", [key] => .swapped [key, receiver]
  | "TryGetValue", [key, out] => .swapped [out, receiver, key]
  | _, _ => .straight

theorem draftMapOperation_described {map : Draft} (hm : map.Mentions receiver) (method : String) {ds : List Draft}
    {es : List Expr} (h : List.Forall₂ Mentions ds es) :
    (mapArrangement receiver method es).Describes (receiver :: es) (draftMapOperation map method ds).mentions := by
  have hstraight : ∀ {d : Draft}, d.mentions = map.mentions ++ ds.flatMap mentions →
      Arrangement.straight.Describes (receiver :: es) d.mentions := fun hd =>
    Arrangement.describes_free (List.Sublist.refl _) (by rw [hd, hm, flatMap_mentions h]; rfl)
  unfold draftMapOperation
  split
  case h_1 =>
    obtain _ | ⟨hkey, _ | _⟩ := h
    exact ⟨by simp [hm, hkey], (List.Perm.swap ..).subperm, _, _, List.Sublist.refl _, List.Sublist.refl _⟩
  case h_3 =>
    obtain _ | ⟨hkey, _ | ⟨hout, _ | _⟩⟩ := h
    refine ⟨by simp [hm, hkey, hout], (List.perm_append_singleton _ [receiver, _]).symm.subperm, ?_⟩
    exact ⟨_, receiver, (List.sublist_append_left [_] _).append_left [_],
      (List.sublist_cons_self ..).cons_cons receiver⟩
  case h_8 =>
    have hother : mapArrangement receiver method es = .straight := by
      unfold mapArrangement
      split
      case h_3 => rfl
      all_goals rcases h with _ | ⟨_, _ | ⟨_, _ | _⟩⟩; simp_all
    rw [hother]
    exact hstraight (by simp)
  all_goals exact hstraight (by simp)

theorem draftMapLookup_yields (hcall : e.call? = some call) (hr : call.receiver? = some receiver) :
    Yields (fun d => (mapArrangement receiver call.name (call.args.map (·.expr))).Describes call.operands d.mentions)
      (draftMapLookup k e) := by
  unfold draftMapLookup
  rw [hcall, Option.bind_some, hr, operands_eq hr]
  refine (draftOperand_yields receiver).bind fun map hm => (draftArguments_yields call.args).bind fun ds hds => ?_
  exact .pure (draftMapOperation_described hm call.name hds)

/-! ## Collections -/

theorem mentions_draftOperation {target : Draft} (method : String) (ds : List Draft) (category? : Option Category) :
    (draftOperation target method ds category?).mentions = target.mentions ++ ds.flatMap mentions := by
  unfold draftOperation
  split <;> simp

theorem draftClearMap_yields (receiver : Expr) :
    Yields (fun d => Mention.Straight [receiver] d.mentions) (draftClearMap k receiver) := by
  refine (draftShared_yields .empty receiver).bind ?_
  rintro ⟨target, sh⟩ ⟨ht, hsh⟩
  refine (Yields.freshName "k").bind fun key hkey => .pure (hsh.wrap ?_ (List.Sublist.refl _))
  have hdeletion : Mention.Harmless (target.mentions.map (Mention.inside ⟨.deletion, false, [key]⟩)) :=
    ht.harmless.inside (List.forall_mem_singleton.mpr hkey)
  simpa using ⟨ht.harmless, hdeletion⟩

theorem draftRemoveItem_yields (receiver item : Expr) :
    Yields (fun d => Mention.Straight [receiver, item] d.mentions) (draftRemoveItem k receiver item) := by
  refine (draftShared_yields .empty receiver).bind ?_
  rintro ⟨target, sh⟩ ⟨ht, hsh⟩
  have hremoval : ∀ {index : String}, Script.isSynthetic index = true →
      Mention.Harmless (target.mentions.map (Mention.inside ⟨.removal, false, [index]⟩)) := fun hindex =>
    ht.harmless.inside (List.forall_mem_singleton.mpr hindex)
  refine (draft_yields item).bind fun d hd => ?_
  dsimp only
  by_cases hempty : sh.bindings.isEmpty = true
  · -- nothing is bound, so the receiver is plain, and the item stays where it is
    have hplain : receiver.isPlain = true := by
      have hvalues := hsh.values
      rw [List.isEmpty_iff.mp hempty] at hvalues
      simpa using hvalues.symm
    rw [if_pos hempty, pure_bind]
    refine (Yields.freshName "i").bind fun index hindex => .pure ?_
    have htarget : target.mentions = [.free receiver] := ht.trans (if_pos hplain)
    have hrest : Mention.Straight [receiver, item] ([receiver, item].map .free) := .ofFree List.filter_sublist
    have hall := (hremoval hindex).straight_append hrest
    simpa [DraftSharing.wrap, hempty, htarget, hd] using hall
  · rw [if_neg hempty]
    refine (share_yields hsh hd).bind ?_
    rintro ⟨item, sh⟩ ⟨hi, hsh⟩
    refine (Yields.freshName "i").bind fun index hindex => .pure (hsh.wrap ?_ (List.Sublist.refl _))
    simpa using ⟨hremoval hindex, ht.harmless, hi.harmless⟩

theorem draftCollectionCall_yields (receiver : Expr) (call : Call) (category? : Option Category) :
    Yields (fun d => Mention.Straight (receiver :: call.args.map (·.expr)) d.mentions)
      (draftCollectionCall k receiver call category?) := by
  have hplain : Yields (fun d => Mention.Straight (receiver :: call.args.map (·.expr)) d.mentions)
      (do
        let target ← k.draftOperand receiver
        let args ← k.draftArguments call.args
        return draftOperation target call.name args category?) := by
    refine (draftOperand_yields receiver).bind fun target ht => (draftArguments_yields call.args).bind fun ds hds =>
      .pure ?_
    rw [mentions_draftOperation, ht, flatMap_mentions hds]
    exact Mention.Straight.ofFree List.filter_sublist
  obtain ⟨receiver?, method, typeArgs, args⟩ := call
  dsimp only [draftCollectionCall] at hplain ⊢
  split
  · exact .ite (fun _ => draftClearMap_yields receiver) fun _ => hplain
  · exact .ite (fun _ => hplain) fun _ => draftRemoveItem_yields receiver _
  · exact hplain

theorem draftMethods_yields (hcall : e.call? = some call) (hr : call.receiver? = some receiver) :
    Yields (fun d => Arrangement.straight.Describes call.operands d.mentions) (draftMethods k e) := by
  unfold draftMethods
  rw [hcall, Option.bind_some, hr, operands_eq hr]
  exact draftCollectionCall_yields receiver call _

/-! ## Numbers -/

/-- A number that is read into a variable comes behind it. Which type the receiver is, is
    decided in the session behind the arguments. -/
def numericArrangement (k : Converter) (s : Session) (receiver e : Expr) (call : Call) : Arrangement :=
  match call.name, call.args with
  | "Round", _ => .straight
  | _, [text, out] =>
    let s := ((k.arguments call.args).out s).2
    if (NumberReader.ofReceiver? k.toEnv s receiver).isSome && !isMath k.toEnv s receiver e then
      .swapped [out.expr, text.expr]
    else .straight
  | _, _ => .straight

theorem draftClamp_yields (value low high : Expr) :
    Yields (fun d => d.mentions = [value, low, high].map .free) (draftClamp k value low high) := by
  refine (draft_yields value).bind fun _ hvalue => (draft_yields low).bind fun _ hlow => ?_
  exact (draft_yields high).bind fun _ hhigh => .pure (by simp [hvalue, hlow, hhigh])

theorem draftRoundTo_yields (value digits : Expr) :
    Yields (fun d => Mention.Straight [value, digits] d.mentions) (draftRoundTo k value digits) := by
  refine .ite (fun hplain => ?_) fun _ => ?_
  · refine (draftOperand_yields value).bind fun v hv => (draftOperand_yields digits).bind fun d hd => .pure ?_
    have hmentions : (draftRounded v d).mentions = [value, digits, digits].map .free := by simp [draftRounded, hv, hd]
    rw [hmentions]
    exact .ofFilter (by simp [List.filter_cons, hplain])
  · refine (draftShared_yields .empty value).bind ?_
    rintro ⟨v, sh⟩ ⟨hv, hsh⟩
    refine (draftShared_yields hsh digits).bind ?_
    rintro ⟨d, sh⟩ ⟨hd, hsh⟩
    refine .pure (hsh.wrap ?_ (List.Sublist.refl _))
    simpa [draftRounded] using ⟨hv.harmless, hd.harmless⟩

theorem mentions_draftNumberFrom (reader : NumberReader) {ds : List Draft} (h : ds.length ≠ 2) :
    (draftNumberFrom reader ds).mentions = ds.flatMap mentions := by
  rcases ds with _ | ⟨d, _ | ⟨out, _ | ⟨d', ds⟩⟩⟩
  case cons.cons.nil => exact absurd rfl h
  all_goals cases reader <;> simp [draftNumberFrom, NumberReader.draft]

theorem mentions_draftNumberFrom_into (reader : NumberReader) (text out : Draft) :
    (draftNumberFrom reader [text, out]).mentions = out.mentions ++ text.mentions := by
  cases reader <;> simp [draftNumberFrom, NumberReader.draft]

/-- Drafts leave the sessions of texts. -/
theorem draftArguments_session (args : List Argument) (s : Session) :
    ((k.draftArguments args).out s).2 = ((k.arguments args).out s).2 :=
  (draftArguments_tracks (A := fun _ _ => True) (fun _ _ _ _ => trivial) s).2

theorem numericArrangement_of_length (k : Converter) (s : Session) (receiver e : Expr) (h : call.args.length ≠ 2) :
    numericArrangement k s receiver e call = .straight := by
  unfold numericArrangement
  split
  case h_2 hargs _ => simp [hargs] at h
  all_goals rfl

theorem draftNumericCall_described (receiver e : Expr) (call : Call) (s : Session) :
    (numericArrangement k s receiver e call).Describes call.operands
    ((draftNumericCall k receiver e call).out s).1.mentions := by
  have hargs := args_sublist call
  obtain ⟨receiver?, method, typeArgs, args⟩ := call
  dsimp only [draftNumericCall] at hargs ⊢
  split
  · exact (draftRoundTo_yields _ _ s).mono hargs
  · exact Arrangement.describes_free hargs (draftClamp_yields _ _ _ s)
  · rename_i hround _
    have hds := draftArguments_yields (k := k) args s
    simp only [Emit.out_bind, Emit.out_get, draftArguments_session]
    generalize ((k.draftArguments args).out s).1 = ds at hds
    have hlength := hds.length_eq
    rw [List.length_map] at hlength
    split
    case h_1 reader hreader hmath =>
      by_cases htwo : args.length = 2
      · -- the variable comes in front of the text that is read
        obtain ⟨text, out, rfl⟩ := List.length_eq_two.mp htwo
        obtain _ | ⟨htext, _ | ⟨hout, _ | _⟩⟩ := hds
        have hinto : numericArrangement k s receiver e ⟨receiver?, method, typeArgs, [text, out]⟩ =
            .swapped [out.expr, text.expr] := by
          unfold numericArrangement
          split
          case h_1 hname => exact (hround text out hname rfl).elim
          all_goals simp_all
        rw [hinto]
        refine ⟨by simp [mentions_draftNumberFrom_into, htext, hout], ?_⟩
        exact ⟨(List.Perm.swap ..).subperm.trans hargs.subperm, _, _, List.Sublist.refl _, hargs⟩
      · rw [numericArrangement_of_length k s receiver e htwo]
        exact Arrangement.describes_free hargs
          ((mentions_draftNumberFrom reader (hlength ▸ htwo)).trans (flatMap_mentions hds))
    case h_2 hnot =>
      have hstraight : numericArrangement k s receiver e ⟨receiver?, method, typeArgs, args⟩ = .straight := by
        unfold numericArrangement
        split
        case h_2 =>
          refine if_neg fun hread => ?_
          simp only [Bool.and_eq_true, Bool.not_eq_true', Option.isSome_iff_exists] at hread
          obtain ⟨⟨reader, hreader⟩, hmath⟩ := hread
          exact hnot reader hreader hmath
        all_goals rfl
      rw [hstraight]
      exact Arrangement.describes_free hargs (by simp [flatMap_mentions hds])

theorem memberAccess_of_call (hcall : e.call? = some call) : e.memberAccess? = none := by
  obtain ⟨span, kind⟩ := e
  cases kind with
  | invocation callee typeArgs args => rfl
  | _ => cases hcall

theorem draftNumeric_described (hcall : e.call? = some call) (s : Session) :
    ((call.receiver?.map fun receiver => numericArrangement k s receiver e call).getD .straight).Describes call.operands
      ((draftNumeric k e).out s).1.mentions := by
  unfold draftNumeric
  rw [memberAccess_of_call hcall, hcall]
  have hargs := args_sublist call
  have hnumeric := fun receiver => draftNumericCall_described (k := k) receiver e call s
  obtain ⟨receiver?, method, typeArgs, args⟩ := call
  cases receiver? with
  | some receiver => exact hnumeric receiver
  | none =>
    rcases args with _ | ⟨value, _ | ⟨low, _ | ⟨high, _ | ⟨a, args⟩⟩⟩⟩
    case cons.cons.cons.nil => exact Arrangement.describes_free hargs (draftClamp_yields _ _ _ s)
    all_goals exact Arrangement.describes_free (List.nil_sublist _) rfl

/-! ## Strings -/

def stringArrangement (env : Env) (s : Session) (call : Call) : Arrangement :=
  if isStaticStringCall env s call then
    match call.name, call.args with
    | "Join", separator :: items => .swapped (items.map (·.expr) ++ [separator.expr])
    | "Format", template :: args => .ofFormat template.expr (args.map (·.expr))
    | _, _ => .straight
  else .straight

theorem draftStringify_yields (e : Expr) (call : Call) :
    Yields (fun d => d.mentions = call.receiver?.toList.map .free) (draftStringify k e call) := by
  have hvalue : ∀ {d : Draft}, d.mentions = call.receiver?.toList.map .free →
      (code "String(" ++ d ++ code ")").mentions = call.receiver?.toList.map .free := fun hd => by simp [hd]
  unfold draftStringify
  cases hr : call.receiver? with
  | none => exact .ite (fun _ => .after _ fun _ => .pure rfl) fun _ => .pure rfl
  | some receiver =>
    rw [hr] at hvalue
    exact (draft_yields receiver).bind fun d hd =>
      .ite (fun _ => .after _ fun _ => .pure (hvalue hd)) fun _ => .pure (hvalue hd)

theorem draftSubstring_yields (receiver start length : Expr) :
    Yields (fun d => Mention.Straight [receiver, start, length] d.mentions)
      (draftSubstring k receiver start length) := by
  refine .ite (fun hplain => ?_) fun _ => ?_
  · refine (draftOperand_yields receiver).bind fun target ht => (draft_yields start).bind fun s hs => ?_
    refine (draftOperand_yields length).bind fun l hl => .pure ?_
    have hmentions :
        (target ++ code ".substring(" ++ s ++ code ", " ++ operand s ++ code " + " ++ l ++ code ")").mentions =
        [receiver, start, start, length].map .free := by simp [ht, hs, hl]
    rw [hmentions]
    exact .ofFilter (by simp [List.filter_cons, hplain])
  · refine (draftShared_yields .empty receiver).bind ?_
    rintro ⟨target, sh⟩ ⟨ht, hsh⟩
    refine (draftShared_yields hsh start).bind ?_
    rintro ⟨s, sh⟩ ⟨hs, hsh⟩
    refine (draftShared_yields hsh length).bind ?_
    rintro ⟨l, sh⟩ ⟨hl, hsh⟩
    refine .pure (hsh.wrap ?_ (List.Sublist.refl _))
    simpa using ⟨ht.harmless, hs.harmless, hl.harmless⟩

theorem mentions_draftJoin {separator item : Expr} {items : List Expr} {ds : List Draft}
    (h : List.Forall₂ Mentions ds (separator :: item :: items)) :
    (draftJoin ds).mentions = (item :: items ++ [separator]).map .free := by
  obtain _ | ⟨hseparator, _ | ⟨hitem, _ | ⟨hitem', hrest⟩⟩⟩ := h
  · simp [draftJoin, hseparator, hitem]
  · simp [draftJoin, hseparator, hitem, hitem', flatMap_mentions hrest]

theorem draftStringFunction_yields (env : Env) (s : Session) (hstatic : isStaticStringCall env s call = true) :
    Yields (fun d => (stringArrangement env s call).Describes call.operands d.mentions)
      (draftStringFunction k call) := by
  have hfunction : isStringFunction call.name call.arity = true := ((Bool.and_eq_true ..).mp hstatic).2
  have hfirst := draftArgumentOperand_yields (k := k) call 0
  have hfirstSub := arg_sublist call 0
  have hargs := draftArguments_yields (k := k) call.args
  have hargsSub := args_sublist call
  unfold stringArrangement
  rw [if_pos hstatic]
  clear hstatic
  obtain ⟨receiver?, method, typeArgs, args⟩ := call
  dsimp only [Call.arity] at *
  unfold isStringFunction at hfunction
  split at hfunction
  · exact hfirst.bind fun d hd => .pure (Arrangement.describes_free hfirstSub (by simp [hd]))
  · obtain ⟨arg, rfl⟩ := List.length_eq_one_iff.mp (of_decide_eq_true hfunction)
    refine (draftShared_yields .empty arg.expr).bind ?_
    rintro ⟨value, sh⟩ ⟨hv, hsh⟩
    refine .pure ?_
    refine hsh.wrap ?_ hargsSub
    simpa using hv.harmless
  · obtain _ | ⟨separator, items⟩ := args
    · cases hfunction
    · obtain _ | ⟨item, items⟩ := items
      · cases hfunction
      · refine hargs.bind fun ds hds => .pure ⟨mentions_draftJoin hds, ?_, ?_⟩
        · exact (List.perm_append_singleton separator.expr _).subperm.trans hargsSub.subperm
        · exact ⟨item.expr, separator.expr, (List.sublist_append_right ..).cons_cons _,
            ((List.nil_sublist _).cons_cons item.expr |>.cons_cons separator.expr).trans hargsSub⟩
  · exact hargs.bind fun ds hds => .pure (Arrangement.describes_free hargsSub (by simp [flatMap_mentions hds]))
  · obtain _ | ⟨template, args⟩ := args
    · cases hfunction
    · refine (draftFormat_arranged template.expr args).bind fun d? hd => ?_
      change Yields (fun d : Draft => (Arrangement.ofFormat template.expr (args.map (·.expr))).Describes _ d.mentions) _
      obtain ⟨d, order, rfl, hfilled, hd⟩ | ⟨rfl, hnone⟩ := hd
      · rw [hfilled]
        exact .pure hd
      · rw [hnone]
        exact fun s => Arrangement.describes_free hfirstSub (draft_yields template.expr s)
  · cases hfunction

theorem draftStringCall_yields (call : Call) :
    Yields (fun d => Arrangement.straight.Describes call.operands d.mentions) (draftStringCall k call) := by
  obtain ⟨receiver?, method, typeArgs, args⟩ := call
  dsimp only [draftStringCall]
  split
  · exact .pure (Arrangement.describes_free (List.nil_sublist _) rfl)
  · exact draftSubstring_yields _ _ _
  · refine (draftOperand_yields _).bind fun target ht => (draftArguments_yields args).bind fun ds hds => .pure ?_
    exact Arrangement.describes_free (List.Sublist.refl _) (by simp [Call.operands, ht, flatMap_mentions hds])

theorem draftString_described (hcall : e.call? = some call) (s : Session) :
    (stringArrangement k.toEnv s call).Describes call.operands ((draftString k e).out s).1.mentions := by
  unfold draftString
  rw [memberAccess_of_call hcall, hcall]
  dsimp only
  by_cases hstatic : isStaticStringCall k.toEnv s call = true
  · have hname : call.name ≠ "ToString" := by
      intro hname
      have hfunction := ((Bool.and_eq_true ..).mp hstatic).2
      rw [hname] at hfunction
      cases hfunction
    rw [if_neg hname, Emit.out_bind, Emit.out_get, if_pos hstatic]
    exact draftStringFunction_yields k.toEnv s hstatic s
  · have hstraight : stringArrangement k.toEnv s call = .straight := if_neg hstatic
    rw [hstraight]
    by_cases hname : call.name = "ToString"
    · rw [if_pos hname]
      exact Arrangement.describes_free (List.sublist_append_left ..) (draftStringify_yields e call s)
    · rw [if_neg hname, Emit.out_bind, Emit.out_get, if_neg hstatic]
      exact draftStringCall_yields call s

end Rules

end ComponentScript
