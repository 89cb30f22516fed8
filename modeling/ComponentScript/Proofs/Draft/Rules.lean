/-
  ComponentScript.Proofs.Draft.Rules — drafts of what the built-in rules write.

  The parts of a draft are the receiver and the arguments of a call, or the receiver of a
  member. Functions are made around operands that are mentioned more than once, of which only
  plain ones stay in the bodies, and around the time of a delay.
-/

import ComponentScript.Rules.Builtin
import ComponentScript.Proofs.Convert.OutVariables
import ComponentScript.Proofs.Draft.Sharing

namespace ComponentScript

open Text Draft Converter

variable {k : Converter} {A : Placement} {Y : Expr → Prop} {receiver e : Expr} {call : Call}

/-! ## Calls and members -/

namespace Expr

theorem receiver_evaluated (h : e.call? = some call) (hr : call.receiver? = some receiver) : e.Evaluates receiver := by
  obtain ⟨span, kind⟩ := e
  cases kind with
  | invocation callee typeArgs args =>
    obtain ⟨calleeSpan, callee⟩ := callee
    cases callee with
    | member target name =>
      cases h
      cases hr
      exact .inner (List.mem_cons_self ..) (.inner (List.mem_cons_self ..) (.self _))
    | identifier name => cases h; cases hr
    | _ => cases h
  | _ => cases h

theorem arg_evaluated (h : e.call? = some call) {a : Argument} (ha : a ∈ call.args) : e.Evaluates a.expr := by
  obtain ⟨span, kind⟩ := e
  cases kind with
  | invocation callee typeArgs args =>
    have hargs : call.args = args := by
      obtain ⟨calleeSpan, callee⟩ := callee
      cases callee <;> cases h <;> rfl
    rw [hargs] at ha
    exact .inner (List.mem_cons_of_mem _ (List.mem_map_of_mem ha)) (.self _)
  | _ => cases h

theorem member_evaluated {name : String} (h : e.memberAccess? = some (receiver, name)) : e.Evaluates receiver := by
  obtain ⟨span, kind⟩ := e
  cases kind with
  | member target name => cases h; exact .inner (List.mem_cons_self ..) (.self _)
  | _ => cases h

end Expr

/-- A rule for a call with a receiver. -/
theorem received_tracks {f : Expr → Call → Emit Draft} {g : Expr → Call → Emit String}
    (h : ∀ call receiver, e.call? = some call → call.receiver? = some receiver →
      Tracks (Shows k A) (f receiver call) (g receiver call)) :
    Tracks (Shows k A)
      (match e.call?.bind fun call => call.receiver?.map fun receiver => (receiver, call) with
        | none => return code ""
        | some (receiver, call) => f receiver call)
      (match e.call?.bind fun call => call.receiver?.map fun receiver => (receiver, call) with
        | none => return ""
        | some (receiver, call) => g receiver call) := by
  cases hcall : e.call? with
  | none => exact .pure ⟨rfl, by simp⟩
  | some call =>
    simp only [Option.bind_some]
    cases hr : call.receiver? with
    | none => exact .pure ⟨rfl, by simp⟩
    | some receiver => exact h call receiver hcall hr

namespace Rules

/-! ## Printing -/

def draftPrinted (k : Converter) : List Argument → Emit (List Draft)
  | [] => return []
  | [arg] => k.draftArguments [arg]
  | template :: args => do
    match ← k.draftFormat? template.expr args with
    | some d => return [d]
    | none => k.draftArguments (template :: args)

def draftPrint (k : Converter) (e : Expr) : Emit Draft :=
  match e.call? with
  | none => return code ""
  | some call => do
    let method := (consoleMethod? k.toEnv (← get) call e).getD "log"
    let args ← draftPrinted k call.args
    return code "console." ++ name method ++ code "(" ++ Draft.joined ", " args ++ code ")"

theorem draftPrinted_tracks {args : List Argument} (h : ∀ a ∈ args, A.At a.expr) :
    Tracks (ShowsAll k A) (draftPrinted k args) (printed k args) := by
  rcases args with _ | ⟨template, _ | ⟨arg, args⟩⟩
  · exact .pure .nil
  · exact draftArguments_tracks h
  · refine .bind (draftFormat_tracks template.expr fun a ha => h a (List.mem_cons_of_mem _ ha)) ?_
    rintro d? t? ⟨ht, hd⟩
    subst ht
    cases d? with
    | none => exact draftArguments_tracks h
    | some d => exact .pure (.cons ⟨rfl, hd d rfl⟩ .nil)

theorem draftPrint_tracks (hA : AdmitsParts A e.Evaluates) :
    Tracks (Shows k A) (draftPrint k e) (consolePrint.convert k e) := by
  simp only [draftPrint, consolePrint]
  cases hcall : e.call? with
  | none => exact .pure ⟨rfl, by simp⟩
  | some call =>
    refine .same _ fun s => .bind (draftPrinted_tracks fun a ha => hA.outside (Expr.arg_evaluated hcall ha)) ?_
    rintro ds _ ⟨rfl, hds⟩
    exact .pure ⟨by simp (disch := decide) only [text_append, text_code, text_name, text_joined]; rfl,
      by simpa using hds⟩

/-! ## Tasks -/

def draftTaskArray (k : Converter) : List Argument → Emit Draft
  | [arg] => do
    let d ← k.draft arg.expr
    return if isTaskCollection k.toEnv arg.expr then d else code "[" ++ d ++ code "]"
  | args => do
    let items ← k.draftArguments args
    return code "[" ++ Draft.joined ", " items ++ code "]"

def draftTaskCall (k : Converter) (receiver : Expr) (call : Call) : Emit Draft :=
  match call.name with
  | "ConfigureAwait" => k.draft receiver
  | "Delay" => do
    let time ← k.draftArgument call 0
    return code "new Promise(" ++
      made ⟨.delay, false, ["resolve"]⟩ (code "setTimeout(resolve, " ++ time ++ code ")") ++ code ")"
  | "Run" => do
    let work ← k.draftArgument call 0
    return code "Promise.resolve().then(" ++ work ++ code ")"
  | "WhenAll" => do
    let tasks ← draftTaskArray k call.args
    return code "Promise.all(" ++ tasks ++ code ")"
  | "WhenAny" => do
    let tasks ← draftTaskArray k call.args
    return code "Promise.race(" ++ tasks ++ code ")"
  | "FromResult" => do
    let value ← k.draftArgument call 0
    return code "Promise.resolve(" ++ value ++ code ")"
  | _ => return code "Promise.resolve()"

def draftTask (k : Converter) (e : Expr) : Emit Draft :=
  match e.call? with
  | none => return code "Promise.resolve()"
  | some call =>
    match call.receiver? with
    | none => return code ""
    | some receiver => draftTaskCall k receiver call

theorem draftTaskArray_tracks {args : List Argument} (h : ∀ a ∈ args, A.At a.expr) :
    Tracks (Shows k A) (draftTaskArray k args) (taskArray k args) := by
  have hitems : Tracks (Shows k A)
      (do let items ← k.draftArguments args; return code "[" ++ Draft.joined ", " items ++ code "]")
      (do let items ← k.arguments args; return s!"[{commaList items}]") := by
    refine .bind (draftArguments_tracks h) ?_
    rintro ds _ ⟨rfl, hds⟩
    exact .pure ⟨by simp (disch := decide) only [text_append, text_code, text_joined]; rfl, by simpa using hds⟩
  rcases args with _ | ⟨arg, _ | ⟨arg', args⟩⟩
  · exact hitems
  · refine .bind (draft_tracks (h arg (List.mem_singleton.mpr rfl))) fun d t hd => .pure ?_
    split
    · exact hd
    · exact hd.between (by decide) (by decide)
  · exact hitems

theorem draftTaskCall_tracks (hA : AdmitsParts A Y) (hreceiver : Y receiver) (hargs : ∀ a ∈ call.args, Y a.expr) :
    Tracks (Shows k A) (draftTaskCall k receiver call) (taskCall k receiver call) := by
  have htime := draftArgument_tracks (k := k) (fun a ha => hA.inside (hargs a ha) .delay (by decide) ["resolve"]) 0
  have hargument := draftArgument_tracks (k := k) (fun a ha => hA.outside (hargs a ha)) 0
  have htasks := draftTaskArray_tracks (k := k) (fun a ha => hA.outside (hargs a ha))
  obtain ⟨receiver?, method, typeArgs, args⟩ := call
  dsimp only [draftTaskCall]
  split
  · exact draft_tracks (hA.outside hreceiver)
  · refine htime.bind ?_
    rintro d _ ⟨rfl, hd⟩
    have hend : ∀ t : String, t ++ ")" ++ ")" = t ++ "))" := fun t => String.append_assoc
    refine .pure ⟨?_, by simp [hd]⟩
    simp (disch := decide) only [text_append, text_code, text_made, Made.head, ← String.append_assoc, hend]
    rfl
  · exact hargument.bind fun _ _ hd => .pure (hd.between (by decide) (by decide))
  · exact htasks.bind fun _ _ hd => .pure (hd.between (by decide) (by decide))
  · exact htasks.bind fun _ _ hd => .pure (hd.between (by decide) (by decide))
  · exact hargument.bind fun _ _ hd => .pure (hd.between (by decide) (by decide))
  · dsimp only [taskCall]
    split <;> first | contradiction | exact .pure ⟨rfl, by simp⟩

theorem draftTask_tracks (hA : AdmitsParts A e.Evaluates) :
    Tracks (Shows k A) (draftTask k e) (taskHelpers.convert k e) := by
  simp only [draftTask, taskHelpers]
  cases hcall : e.call? with
  | none => exact .pure ⟨rfl, by simp⟩
  | some call =>
    dsimp only
    cases hr : call.receiver? with
    | none => exact .pure ⟨rfl, by simp⟩
    | some receiver =>
      exact draftTaskCall_tracks hA (Expr.receiver_evaluated hcall hr) fun a ha => Expr.arg_evaluated hcall ha

/-! ## Services -/

def draftService (k : Converter) (e : Expr) : Emit Draft :=
  match e.call? with
  | none => return code ""
  | some call => do
    let key := (k.typeKey? e call.typeArgs.head?).getD ""
    let provider ← match call.receiver? with
      | some receiver => k.draftOperand receiver
      | none => pure (name k.settings.instanceReceiver)
    if call.name = "GetRequiredService" then
      Emit.report (.behaviorGap "invocation" e.span
        s!"missing `{key}` service yields undefined instead of throwing")
    return provider ++ code "." ++ name k.settings.serviceLookupMethod ++ code "(" ++ name (Script.quote key) ++
      code ")"

theorem draftService_tracks (hA : AdmitsParts A e.Evaluates) :
    Tracks (Shows k A) (draftService k e) (serviceLookup.convert k e) := by
  simp only [draftService, serviceLookup]
  cases hcall : e.call? with
  | none => exact .pure ⟨rfl, by simp⟩
  | some call =>
    dsimp only
    generalize (k.typeKey? e call.typeArgs.head?).getD "" = key
    have hlookup : ∀ d t, Shows k A d t → Tracks (Shows k A)
        (do
          if call.name = "GetRequiredService" then
            Emit.report (.behaviorGap "invocation" e.span
              s!"missing `{key}` service yields undefined instead of throwing")
          return d ++ code "." ++ name k.settings.serviceLookupMethod ++ code "(" ++ name (Script.quote key) ++
            code ")")
        (do
          if call.name = "GetRequiredService" then
            Emit.report (.behaviorGap "invocation" e.span
              s!"missing `{key}` service yields undefined instead of throwing")
          return s!"{t}.{k.settings.serviceLookupMethod}({Script.quote key})") := by
      rintro d _ ⟨rfl, hd⟩
      have hend : Shows k A
          (d ++ code "." ++ name k.settings.serviceLookupMethod ++ code "(" ++ name (Script.quote key) ++ code ")")
          s!"{d.text k}.{k.settings.serviceLookupMethod}({Script.quote key})" :=
        ⟨by simp (disch := decide) only [text_append, text_code, text_name]; rfl, by simp [hd]⟩
      exact .ite (fun _ => .same _ fun _ => .pure hend) fun _ => .pure hend
    cases hr : call.receiver? with
    | none => exact hlookup _ _ ⟨rfl, by simp⟩
    | some receiver => exact .bind (draftOperand_tracks (hA.outside (Expr.receiver_evaluated hcall hr))) hlookup

/-! ## Maps -/

def draftMapOperation (map : Draft) (method : String) (args : List Draft) : Draft :=
  match method, args with
  | "ContainsKey", [key] => code "(" ++ key ++ code " in " ++ map ++ code ")"
  | "ContainsValue", [value] => code "Object.values(" ++ map ++ code ").includes(" ++ value ++ code ")"
  | "TryGetValue", [key, out] =>
    code "((" ++ out ++ code " = " ++ map ++ code "[" ++ key ++ code "]) !== undefined)"
  | "GetValueOrDefault", [key] => map ++ code "[" ++ key ++ code "]"
  | "GetValueOrDefault", [key, fallback] =>
    code "(" ++ map ++ code "[" ++ key ++ code "] ?? " ++ fallback ++ code ")"
  | "Add", [key, value] => map ++ code "[" ++ key ++ code "] = " ++ value
  | "Remove", [key] => code "delete " ++ map ++ code "[" ++ key ++ code "]"
  | method, args =>
    map ++ code "." ++ name (Script.camelCase method) ++ code "(" ++ Draft.joined ", " args ++ code ")"

def draftMapLookup (k : Converter) (e : Expr) : Emit Draft :=
  match e.call?.bind fun call => call.receiver?.map fun receiver => (receiver, call) with
  | none => return code ""
  | some (receiver, call) => do
    let map ← k.draftOperand receiver
    let args ← k.draftArguments call.args
    return draftMapOperation map call.name args

theorem draftMapOperation_shows {map : Draft} (hm : map.Fits A) (method : String) {args : List Draft}
    (hargs : ∀ d ∈ args, d.Fits A) :
    Shows k A (draftMapOperation map method args) (mapOperation (map.text k) method (args.map (text k))) := by
  unfold draftMapOperation
  split
  case h_8 =>
    have hother : mapOperation (map.text k) method (args.map (text k)) =
        s!"{map.text k}.{Script.camelCase method}({commaList (args.map (text k))})" := by
      unfold mapOperation
      split
      case h_8 => rfl
      all_goals rcases args with _ | ⟨a, _ | ⟨b, args⟩⟩ <;> simp_all
    rw [hother]
    exact ⟨by simp (disch := decide) only [text_append, text_code, text_name, text_joined]; rfl,
      by simp [hm]; exact hargs⟩
  all_goals
    simp only [List.forall_mem_cons] at hargs
    exact ⟨by simp (disch := decide) only [text_append, text_code]; rfl, by simp [hm, hargs]⟩

theorem draftMapLookup_tracks (hA : AdmitsParts A e.Evaluates) :
    Tracks (Shows k A) (draftMapLookup k e) (mapLookup.convert k e) := by
  simp only [draftMapLookup, mapLookup]
  refine received_tracks fun call receiver hcall hr => ?_
  refine .bind (draftOperand_tracks (hA.outside (Expr.receiver_evaluated hcall hr))) ?_
  rintro map _ ⟨rfl, hm⟩
  refine .bind (draftArguments_tracks fun a ha => hA.outside (Expr.arg_evaluated hcall ha)) ?_
  rintro args _ ⟨rfl, hargs⟩
  exact .pure (draftMapOperation_shows hm call.name hargs)

/-! ## Collections -/

def draftProperty (target : Draft) (property : String) (category? : Option Category) : Draft :=
  match property, category? with
  | "Keys", _ => code "Object.keys(" ++ target ++ code ")"
  | "Values", _ => code "Object.values(" ++ target ++ code ")"
  | _, some .map => code "Object.keys(" ++ target ++ code ").length"
  | _, some .set => target ++ code ".size"
  | _, _ => target ++ code ".length"

def draftProperties (k : Converter) (e : Expr) : Emit Draft :=
  match e.memberAccess? with
  | none => return code ""
  | some (receiver, property) => do
    let target ← k.draftOperand receiver
    return draftProperty target property (k.model.category receiver)

def draftClearMap (k : Converter) (receiver : Expr) : Emit Draft := do
  let (target, sh) ← k.draftShared {} receiver
  let key ← Emit.freshName "k"
  return sh.wrap (code "Object.keys(" ++ target ++ code ").forEach(" ++
    made ⟨.deletion, false, [key]⟩ (code "delete " ++ target ++ code "[" ++ name key ++ code "]") ++ code ")")

def draftRemoveItem (k : Converter) (receiver item : Expr) : Emit Draft := do
  let (target, sh) ← k.draftShared {} receiver
  let d ← k.draft item
  let (item, sh) ← if sh.bindings.isEmpty then pure (d, sh) else sh.share item d
  let index ← Emit.freshName "i"
  return sh.wrap (Draft.call ⟨.removal, false, [index]⟩
    (name index ++ code " >= 0 && " ++ target ++ code ".splice(" ++ name index ++ code ", 1).length > 0")
    [target ++ code ".indexOf(" ++ item ++ code ")"])

def draftOperation (target : Draft) (method : String) (args : List Draft) (category? : Option Category) : Draft :=
  match method, args, category? with
  | "Add", [item], some .set => target ++ code ".add(" ++ item ++ code ")"
  | "Add", [item], _ => target ++ code ".push(" ++ item ++ code ")"
  | "AddRange", [items], _ => target ++ code ".push(..." ++ items ++ code ")"
  | "Insert", [index, item], _ => target ++ code ".splice(" ++ index ++ code ", 0, " ++ item ++ code ")"
  | "RemoveAt", [index], _ => target ++ code ".splice(" ++ index ++ code ", 1)"
  | "Clear", [], _ => code "(" ++ target ++ code ".length = 0)"
  | "Remove", [item], some .set => target ++ code ".delete(" ++ item ++ code ")"
  | method, args, _ =>
    target ++ code "." ++ name (Script.camelCase method) ++ code "(" ++ Draft.joined ", " args ++ code ")"

def draftCollectionCall (k : Converter) (receiver : Expr) (call : Call) (category? : Option Category) : Emit Draft :=
  let plain : Emit Draft := do
    let target ← k.draftOperand receiver
    let args ← k.draftArguments call.args
    return draftOperation target call.name args category?
  match call.name, call.args with
  | "Clear", [] => if category? = some .map then draftClearMap k receiver else plain
  | "Remove", [item] => if category? = some .set then plain else draftRemoveItem k receiver item.expr
  | _, _ => plain

def draftMethods (k : Converter) (e : Expr) : Emit Draft :=
  match e.call?.bind fun call => call.receiver?.map fun receiver => (receiver, call) with
  | none => return code ""
  | some (receiver, call) => draftCollectionCall k receiver call (k.receiverCategory call e)

theorem draftProperty_shows {target : Draft} (ht : target.Fits A) (property : String) (category? : Option Category) :
    Shows k A (draftProperty target property category?) (collectionProperty (target.text k) property category?) := by
  unfold draftProperty
  split
  all_goals
    refine ⟨?_, by simp [ht]⟩
    simp (disch := decide) only [text_append, text_code]
    unfold collectionProperty
    split <;> first | rfl | simp_all

theorem draftProperties_tracks (hA : AdmitsParts A e.Evaluates) :
    Tracks (Shows k A) (draftProperties k e) (collectionProperties.convert k e) := by
  simp only [draftProperties, collectionProperties]
  cases hmember : e.memberAccess? with
  | none => exact .pure ⟨rfl, by simp⟩
  | some access =>
    obtain ⟨receiver, property⟩ := access
    refine .bind (draftOperand_tracks (hA.outside (Expr.member_evaluated hmember))) ?_
    rintro d _ ⟨rfl, hd⟩
    exact .pure (draftProperty_shows hd property _)

/-- A draft that may be in the bodies of functions that share may be in those inside them. -/
theorem fits_shared_inside {d : Draft} (h : d.Fits A.shared) (maker : Maker) (hm : maker ∈ Placement.sharers)
    (params : List String) : d.Fits (A.shared.inside ⟨maker, false, params⟩) :=
  h.mono fun _ _ hp => Placement.shared_inside (hp.2 maker hm params)

theorem draftClearMap_tracks (hA : AdmitsParts A Y) (hreceiver : Y receiver) :
    Tracks (Shows k A) (draftClearMap k receiver) (clearMap k receiver) := by
  refine .bind (draftShared_tracks hA .empty hreceiver) ?_
  rintro ⟨target, sh⟩ ⟨_, sh'⟩ ⟨⟨rfl, ht⟩, hsh⟩
  refine .same _ fun key => .pure (wrap_shows hsh ⟨?_, ?_⟩)
  · have hopen : ").forEach((" = ").forEach(" ++ "(" := rfl
    have harrow : ") => delete " = ") => " ++ "delete " := rfl
    have hend : "])" = "]" ++ ")" := rfl
    simp (disch := decide) only [text_append, text_code, text_name, text_made, Made.head, hopen, harrow, hend,
      toString, String.append_assoc]
    rfl
  · simp [ht, fits_shared_inside ht .deletion (by decide)]

/-- The test whether an item is found, and its removal. -/
theorem draftRemoval_shows {B : Placement} {target item : Draft} (index : String) (ht : target.Fits B)
    (hinside : target.Fits (B.inside ⟨.removal, false, [index]⟩)) (hi : item.Fits B) :
    Shows k B
      (Draft.call ⟨.removal, false, [index]⟩
        (name index ++ code " >= 0 && " ++ target ++ code ".splice(" ++ name index ++ code ", 1).length > 0")
        [target ++ code ".indexOf(" ++ item ++ code ")"])
      s!"(({index}) => {index} >= 0 && {target.text k}.splice({index}, 1).length > 0)({target.text k}.indexOf({item.text k}))" := by
  refine ⟨?_, by simp [ht, hinside, hi]⟩
  have hopen : "((" = "(" ++ "(" := rfl
  have hmiddle : ", 1).length > 0)(" = ", 1).length > 0" ++ ")(" := rfl
  have hend : "))" = ")" ++ ")" := rfl
  simp (disch := decide) only [text_call, text_append, text_code, text_name, List.map_cons, List.map_nil, commaList,
    Made.head, hopen, hmiddle, hend, toString, String.append_assoc, String.intercalate_singleton]
  rfl

theorem draftRemoveItem_tracks (hA : AdmitsParts A Y) (hreceiver : Y receiver) {item : Expr} (hitem : Y item) :
    Tracks (Shows k A) (draftRemoveItem k receiver item) (removeItem k receiver item) := by
  refine .bind (draftShared_tracks hA .empty hreceiver) ?_
  rintro ⟨target, sh⟩ ⟨_, sh'⟩ ⟨⟨rfl, ht⟩, hsh⟩
  have hinside : ∀ index, target.Fits (A.inside ⟨.removal, false, [index]⟩) := fun index =>
    ht.mono fun _ _ hp => hp.2 .removal (by decide) _
  refine .bind (draftOnce_tracks hA hitem) ?_
  rintro d _ ⟨⟨rfl, hd⟩, hplain⟩
  dsimp only
  rw [hsh.isEmpty]
  refine .ite (fun hempty => ?_) fun _ => ?_
  · -- nothing is bound, and the item stays where it is
    have hwrap : ∀ body, sh.wrap body = body := fun body => if_pos hempty
    have hwrap' : ∀ body, sh'.wrap body = body := fun body => if_pos (hsh.isEmpty.trans hempty)
    simp only [pure_bind, hwrap, hwrap']
    refine .same _ fun index => .pure ?_
    exact draftRemoval_shows index (ht.mono fun _ _ hp => hp.1) (hinside index) hd
  · refine .bind (share_tracks hsh ⟨rfl, hd⟩ hplain) ?_
    rintro ⟨item, sh⟩ ⟨_, sh'⟩ ⟨⟨rfl, hi⟩, hsh⟩
    refine .same _ fun index => .pure (wrap_shows hsh ?_)
    exact draftRemoval_shows index ht (fits_shared_inside ht .removal (by decide) _) hi

theorem draftOperation_shows {target : Draft} (ht : target.Fits A) (method : String) {args : List Draft}
    (hargs : ∀ d ∈ args, d.Fits A) (category? : Option Category) :
    Shows k A (draftOperation target method args category?)
      (collectionOperation (target.text k) method (args.map (text k)) category?) := by
  unfold draftOperation
  split
  case h_8 =>
    have hother : collectionOperation (target.text k) method (args.map (text k)) category? =
        s!"{target.text k}.{Script.camelCase method}({commaList (args.map (text k))})" := by
      unfold collectionOperation
      split
      case h_8 => rfl
      all_goals rcases args with _ | ⟨a, _ | ⟨b, args⟩⟩ <;> simp_all
    rw [hother]
    exact ⟨by simp (disch := decide) only [text_append, text_code, text_name, text_joined]; rfl,
      by simp [ht]; exact hargs⟩
  case h_2 hset =>
    have hpush : ∀ item : String, collectionOperation (target.text k) "Add" [item] category? =
        s!"{target.text k}.push({item})" := by
      rcases category? with _ | c
      · exact fun _ => rfl
      · cases c <;> first | exact absurd rfl hset | exact fun _ => rfl
    exact ⟨by simp (disch := decide) only [text_append, text_code, List.map_cons, List.map_nil, hpush]; rfl,
      by simpa [ht] using hargs⟩
  all_goals exact ⟨by simp (disch := decide) only [text_append, text_code]; rfl, by simp_all⟩

theorem draftCollectionCall_tracks (hA : AdmitsParts A Y) (hreceiver : Y receiver) (hargs : ∀ a ∈ call.args, Y a.expr)
    (category? : Option Category) :
    Tracks (Shows k A) (draftCollectionCall k receiver call category?) (collectionCall k receiver call category?) := by
  have hplain : Tracks (Shows k A)
      (do
        let target ← k.draftOperand receiver
        let args ← k.draftArguments call.args
        return draftOperation target call.name args category?)
      (do
        let target ← k.operand receiver
        let args ← k.arguments call.args
        return collectionOperation target call.name args category?) := by
    refine .bind (draftOperand_tracks (hA.outside hreceiver)) ?_
    rintro target _ ⟨rfl, ht⟩
    refine .bind (draftArguments_tracks fun a ha => hA.outside (hargs a ha)) ?_
    rintro args _ ⟨rfl, hargs⟩
    exact .pure (draftOperation_shows ht call.name hargs category?)
  obtain ⟨receiver?, method, typeArgs, args⟩ := call
  dsimp only [draftCollectionCall] at hplain ⊢
  split
  · exact .ite (fun _ => draftClearMap_tracks hA hreceiver) fun _ => hplain
  · refine .ite (fun _ => hplain) fun _ => ?_
    exact draftRemoveItem_tracks hA hreceiver (hargs _ (List.mem_singleton.mpr rfl))
  · dsimp only [collectionCall]
    split <;> first | exact hplain | simp_all

theorem draftMethods_tracks (hA : AdmitsParts A e.Evaluates) :
    Tracks (Shows k A) (draftMethods k e) (collectionMethods.convert k e) := by
  simp only [draftMethods, collectionMethods]
  refine received_tracks fun call receiver hcall hr => ?_
  exact draftCollectionCall_tracks hA (Expr.receiver_evaluated hcall hr) (fun a ha => Expr.arg_evaluated hcall ha) _

/-! ## Numbers -/

def draftClamp (k : Converter) (value low high : Expr) : Emit Draft := do
  let value ← k.draft value
  let low ← k.draft low
  let high ← k.draft high
  return code "Math.min(Math.max(" ++ value ++ code ", " ++ low ++ code "), " ++ high ++ code ")"

def draftRounded (value digits : Draft) : Draft :=
  code "(Math.round(" ++ value ++ code " * 10 ** " ++ digits ++ code ") / 10 ** " ++ digits ++ code ")"

def draftRoundTo (k : Converter) (value digits : Expr) : Emit Draft :=
  if digits.isPlain then do
    let value ← k.draftOperand value
    let digits ← k.draftOperand digits
    return draftRounded value digits
  else do
    let (value, sh) ← k.draftShared {} value
    let (digits, sh) ← k.draftShared sh digits
    return sh.wrap (draftRounded value digits)

def NumberReader.draft (d : Draft) : NumberReader → Draft
  | .integer => code "parseInt(" ++ d ++ code ", 10)"
  | .real => code "parseFloat(" ++ d ++ code ")"

def draftNumberFrom (reader : NumberReader) (args : List Draft) : Draft :=
  match args with
  | [text, out] => code "!Number.isNaN(" ++ out ++ code " = " ++ reader.draft text ++ code ")"
  | _ => reader.draft (Draft.joined ", " args)

def draftNumericCall (k : Converter) (receiver e : Expr) (call : Call) : Emit Draft :=
  match call.name, call.args with
  | "Round", [value, digits] => draftRoundTo k value.expr digits.expr
  | "Clamp", [value, low, high] => draftClamp k value.expr low.expr high.expr
  | method, args => do
    let args ← k.draftArguments args
    let s ← get
    match NumberReader.ofReceiver? k.toEnv s receiver, isMath k.toEnv s receiver e with
    | some reader, false => return draftNumberFrom reader args
    | _, _ => return code "Math." ++ name (mathFunction method) ++ code "(" ++ Draft.joined ", " args ++ code ")"

def draftNumeric (k : Converter) (e : Expr) : Emit Draft :=
  match e.memberAccess?, e.call? with
  | some (_, constant), _ => return name (mathConstant constant)
  | none, none => return code ""
  | none, some call =>
    match call.receiver?, call.args with
    | some receiver, _ => draftNumericCall k receiver e call
    | none, [value, low, high] => draftClamp k value.expr low.expr high.expr
    | none, _ => return code ""

theorem draftClamp_tracks {value low high : Expr} (hvalue : A.At value) (hlow : A.At low) (hhigh : A.At high) :
    Tracks (Shows k A) (draftClamp k value low high) (clamp k value low high) := by
  refine .bind (draft_tracks hvalue) ?_
  rintro value _ ⟨rfl, hvalue⟩
  refine .bind (draft_tracks hlow) ?_
  rintro low _ ⟨rfl, hlow⟩
  refine .bind (draft_tracks hhigh) ?_
  rintro high _ ⟨rfl, hhigh⟩
  exact .pure ⟨by simp (disch := decide) only [text_append, text_code]; rfl, by simp [hvalue, hlow, hhigh]⟩

theorem draftRounded_shows {value digits : Draft} (hvalue : value.Fits A) (hdigits : digits.Fits A) :
    Shows k A (draftRounded value digits) (rounded (value.text k) (digits.text k)) :=
  ⟨by simp (disch := decide) only [draftRounded, text_append, text_code]; rfl, by simp [draftRounded, hvalue, hdigits]⟩

theorem draftRoundTo_tracks (hA : AdmitsParts A Y) {value digits : Expr} (hvalue : Y value) (hdigits : Y digits) :
    Tracks (Shows k A) (draftRoundTo k value digits) (roundTo k value digits) := by
  refine .ite (fun _ => ?_) fun _ => ?_
  · refine .bind (draftOperand_tracks (hA.outside hvalue)) ?_
    rintro value _ ⟨rfl, hvalue⟩
    refine .bind (draftOperand_tracks (hA.outside hdigits)) ?_
    rintro digits _ ⟨rfl, hdigits⟩
    exact .pure (draftRounded_shows hvalue hdigits)
  · refine .bind (draftShared_tracks hA .empty hvalue) ?_
    rintro ⟨value, sh⟩ ⟨_, sh'⟩ ⟨⟨rfl, hvalue⟩, hsh⟩
    refine .bind (draftShared_tracks hA hsh hdigits) ?_
    rintro ⟨digits, sh⟩ ⟨_, sh'⟩ ⟨⟨rfl, hdigits⟩, hsh⟩
    exact .pure (wrap_shows hsh (draftRounded_shows hvalue hdigits))

theorem NumberReader.draft_shows {d : Draft} (hd : d.Fits A) (reader : NumberReader) :
    Shows k A (reader.draft d) (reader.read (d.text k)) := by
  cases reader <;> exact ⟨by simp (disch := decide) only [NumberReader.draft, text_append, text_code]; rfl,
    by simp [NumberReader.draft, hd]⟩

theorem draftNumberFrom_shows (reader : NumberReader) {args : List Draft} (hargs : ∀ d ∈ args, d.Fits A) :
    Shows k A (draftNumberFrom reader args) (numberFrom reader (args.map (text k))) := by
  have hjoined : Shows k A (reader.draft (Draft.joined ", " args)) (reader.read (commaList (args.map (text k)))) := by
    have hfits : (Draft.joined ", " args).Fits A := fits_joined.mpr hargs
    have h := NumberReader.draft_shows (k := k) hfits reader
    rwa [text_joined] at h
  rcases args with _ | ⟨d, _ | ⟨out, _ | ⟨a, args⟩⟩⟩
  case cons.cons.nil =>
    obtain ⟨ht, hd⟩ := NumberReader.draft_shows (k := k) (hargs d (by simp)) reader
    exact ⟨by simp (disch := decide) only [draftNumberFrom, text_append, text_code, ht]; rfl,
      by simp_all [draftNumberFrom]⟩
  all_goals exact hjoined

theorem draftNumericCall_tracks (hA : AdmitsParts A Y) (hargs : ∀ a ∈ call.args, Y a.expr) :
    Tracks (Shows k A) (draftNumericCall k receiver e call) (numericCall k receiver e call) := by
  have hout : ∀ a ∈ call.args, A.At a.expr := fun a ha => hA.outside (hargs a ha)
  have hother : Tracks (Shows k A)
      (do
        let args ← k.draftArguments call.args
        let s ← get
        match NumberReader.ofReceiver? k.toEnv s receiver, isMath k.toEnv s receiver e with
        | some reader, false => return draftNumberFrom reader args
        | _, _ =>
          return code "Math." ++ name (mathFunction call.name) ++ code "(" ++ Draft.joined ", " args ++ code ")")
      (do
        let args ← k.arguments call.args
        let s ← get
        match NumberReader.ofReceiver? k.toEnv s receiver, isMath k.toEnv s receiver e with
        | some reader, false => return numberFrom reader args
        | _, _ => return s!"Math.{mathFunction call.name}({commaList args})") := by
    refine .bind (draftArguments_tracks hout) ?_
    rintro args _ ⟨rfl, hargs⟩
    refine .same _ fun s => ?_
    split
    · exact .pure (draftNumberFrom_shows _ hargs)
    · exact .pure ⟨by simp (disch := decide) only [text_append, text_code, text_name, text_joined]; rfl,
        by simpa using hargs⟩
  obtain ⟨receiver?, method, typeArgs, args⟩ := call
  dsimp only [draftNumericCall] at hother ⊢
  split
  · exact draftRoundTo_tracks hA (hargs _ (by simp)) (hargs _ (by simp))
  · exact draftClamp_tracks (hout _ (by simp)) (hout _ (by simp)) (hout _ (by simp))
  · dsimp only [numericCall]
    split <;> first | exact hother | simp_all

theorem draftNumeric_tracks (hA : AdmitsParts A e.Evaluates) :
    Tracks (Shows k A) (draftNumeric k e) (numericHelpers.convert k e) := by
  simp only [draftNumeric, numericHelpers]
  cases e.memberAccess? with
  | some access => exact .pure ⟨rfl, by simp⟩
  | none =>
    cases hcall : e.call? with
    | none => exact .pure ⟨rfl, by simp⟩
    | some call =>
      have hargs : ∀ a ∈ call.args, e.Evaluates a.expr := fun a ha => Expr.arg_evaluated hcall ha
      have hout : ∀ a ∈ call.args, A.At a.expr := fun a ha => hA.outside (hargs a ha)
      have hnumeric : ∀ receiver,
          Tracks (Shows k A) (draftNumericCall k receiver e call) (numericCall k receiver e call) :=
        fun _ => draftNumericCall_tracks hA hargs
      obtain ⟨receiver?, method, typeArgs, args⟩ := call
      cases receiver? with
      | some receiver => exact hnumeric receiver
      | none =>
        rcases args with _ | ⟨value, _ | ⟨low, _ | ⟨high, _ | ⟨a, args⟩⟩⟩⟩
        case cons.cons.cons.nil => exact draftClamp_tracks (hout _ (by simp)) (hout _ (by simp)) (hout _ (by simp))
        all_goals exact .pure ⟨rfl, by simp⟩

/-! ## Strings -/

def draftStringify (k : Converter) (e : Expr) (call : Call) : Emit Draft := do
  let value ← match call.receiver? with
    | some receiver => k.draft receiver
    | none => pure (name k.settings.instanceReceiver)
  if 0 < call.arity then
    Emit.report (.lossy "invocation" e.span "`ToString` format argument dropped")
  return code "String(" ++ value ++ code ")"

def draftSubstring (k : Converter) (receiver start length : Expr) : Emit Draft :=
  if start.isPlain then do
    let target ← k.draftOperand receiver
    let start ← k.draft start
    let length ← k.draftOperand length
    return target ++ code ".substring(" ++ start ++ code ", " ++ operand start ++ code " + " ++ length ++ code ")"
  else do
    let (target, sh) ← k.draftShared {} receiver
    let (start, sh) ← k.draftShared sh start
    let (length, sh) ← k.draftShared sh length
    return sh.wrap (target ++ code ".substring(" ++ start ++ code ", " ++ start ++ code " + " ++ length ++ code ")")

def draftJoin : List Draft → Draft
  | [] => code "\"\""
  | [separator, items] => operand items ++ code ".join(" ++ separator ++ code ")"
  | separator :: items => code "[" ++ Draft.joined ", " items ++ code "].join(" ++ separator ++ code ")"

def draftStringFunction (k : Converter) (call : Call) : Emit Draft :=
  match call.name, call.args with
  | "IsNullOrEmpty", _ => do return code "!" ++ (← k.draftArgumentOperand call 0)
  | "IsNullOrWhiteSpace", [] => return code "true"
  | "IsNullOrWhiteSpace", arg :: _ => do
    let (value, sh) ← k.draftShared {} arg.expr
    return sh.wrap (code "(!" ++ value ++ code " || !" ++ value ++ code ".trim())")
  | "Join", args => do return draftJoin (← k.draftArguments args)
  | "Concat", args => do
    let items ← k.draftArguments args
    return code "[" ++ Draft.joined ", " items ++ code "].join(\"\")"
  | _, [] => return code "\"\""
  | _, template :: args => do
    match ← k.draftFormat? template.expr args with
    | some d => return d
    | none => k.draft template.expr

def draftStringCall (k : Converter) (call : Call) : Emit Draft :=
  match call.receiver?, call.name, call.args with
  | none, _, _ => return code ""
  | some receiver, "Substring", [start, length] => draftSubstring k receiver start.expr length.expr
  | some receiver, method, args => do
    let target ← k.draftOperand receiver
    let args ← k.draftArguments args
    return target ++ code "." ++ name (stringMethod method) ++ code "(" ++ Draft.joined ", " args ++ code ")"

def draftString (k : Converter) (e : Expr) : Emit Draft :=
  match e.memberAccess?, e.call? with
  | some _, _ => return code "\"\""
  | none, none => return code ""
  | none, some call => do
    if call.name = "ToString" then draftStringify k e call
    else if isStaticStringCall k.toEnv (← get) call then draftStringFunction k call
    else draftStringCall k call

theorem draftStringify_tracks (hA : AdmitsParts A Y)
    (hreceiver : ∀ receiver, call.receiver? = some receiver → Y receiver) :
    Tracks (Shows k A) (draftStringify k e call) (stringify k e call) := by
  have hvalue : ∀ d t, Shows k A d t → Tracks (Shows k A)
      (do
        if 0 < call.arity then
          Emit.report (.lossy "invocation" e.span "`ToString` format argument dropped")
        return code "String(" ++ d ++ code ")")
      (do
        if 0 < call.arity then
          Emit.report (.lossy "invocation" e.span "`ToString` format argument dropped")
        return s!"String({t})") := by
    intro d t hd
    have hend : Shows k A (code "String(" ++ d ++ code ")") s!"String({t})" := hd.between (by decide) (by decide)
    exact .ite (fun _ => .same _ fun _ => .pure hend) fun _ => .pure hend
  unfold draftStringify stringify
  cases hr : call.receiver? with
  | none => exact hvalue _ _ ⟨rfl, by simp⟩
  | some receiver => exact .bind (draft_tracks (hA.outside (hreceiver receiver hr))) hvalue

theorem draftSubstring_tracks (hA : AdmitsParts A Y) (hreceiver : Y receiver) {start length : Expr} (hstart : Y start)
    (hlength : Y length) :
    Tracks (Shows k A) (draftSubstring k receiver start length) (substring k receiver start length) := by
  refine .ite (fun _ => ?_) fun _ => ?_
  · refine .bind (draftOperand_tracks (hA.outside hreceiver)) ?_
    rintro target _ ⟨rfl, ht⟩
    refine .bind (draft_tracks (hA.outside hstart)) ?_
    rintro start _ ⟨rfl, hs⟩
    refine .bind (draftOperand_tracks (hA.outside hlength)) ?_
    rintro length _ ⟨rfl, hl⟩
    exact .pure ⟨by simp (disch := decide) only [text_append, text_code, text_operand]; rfl, by simp [ht, hs, hl]⟩
  · refine .bind (draftShared_tracks hA .empty hreceiver) ?_
    rintro ⟨target, sh⟩ ⟨_, sh'⟩ ⟨⟨rfl, ht⟩, hsh⟩
    refine .bind (draftShared_tracks hA hsh hstart) ?_
    rintro ⟨start, sh⟩ ⟨_, sh'⟩ ⟨⟨rfl, hs⟩, hsh⟩
    refine .bind (draftShared_tracks hA hsh hlength) ?_
    rintro ⟨length, sh⟩ ⟨_, sh'⟩ ⟨⟨rfl, hl⟩, hsh⟩
    exact .pure (wrap_shows hsh ⟨by simp (disch := decide) only [text_append, text_code]; rfl, by simp [ht, hs, hl]⟩)

theorem draftJoin_shows {ds : List Draft} (h : ∀ d ∈ ds, d.Fits A) :
    Shows k A (draftJoin ds) (joined (ds.map (text k))) := by
  rcases ds with _ | ⟨separator, _ | ⟨items, _ | ⟨item, ds⟩⟩⟩ <;>
    exact ⟨by simp (disch := decide) only [draftJoin, text_append, text_code, text_operand, text_joined]; rfl,
      by simp_all [draftJoin]⟩

theorem draftStringFunction_tracks (hA : AdmitsParts A Y) (hargs : ∀ a ∈ call.args, Y a.expr) :
    Tracks (Shows k A) (draftStringFunction k call) (stringFunction k call) := by
  have hout : ∀ a ∈ call.args, A.At a.expr := fun a ha => hA.outside (hargs a ha)
  have hfirst := draftArgumentOperand_tracks (k := k) hout 0
  obtain ⟨receiver?, method, typeArgs, args⟩ := call
  dsimp only [draftStringFunction] at hargs hout ⊢
  split
  · refine hfirst.bind ?_
    rintro d _ ⟨rfl, hd⟩
    exact .pure ⟨by simp (disch := decide) only [text_append, text_code], by simp [hd]⟩
  · exact .pure ⟨rfl, by simp⟩
  · refine .bind (draftShared_tracks hA .empty (hargs _ (List.mem_cons_self ..))) ?_
    rintro ⟨value, sh⟩ ⟨_, sh'⟩ ⟨⟨rfl, hv⟩, hsh⟩
    exact .pure (wrap_shows hsh ⟨by simp (disch := decide) only [text_append, text_code]; rfl, by simp [hv]⟩)
  · refine .bind (draftArguments_tracks hout) ?_
    rintro ds _ ⟨rfl, hds⟩
    exact .pure (draftJoin_shows hds)
  · refine .bind (draftArguments_tracks hout) ?_
    rintro ds _ ⟨rfl, hds⟩
    exact .pure ⟨by simp (disch := decide) only [text_append, text_code, text_joined]; rfl, by simpa using hds⟩
  · dsimp only [stringFunction]
    split <;> first | exact .pure ⟨rfl, by simp⟩ | simp_all
  · dsimp only [stringFunction]
    split
    case h_7 heq _ _ _ _ =>
      cases heq
      refine .bind (draftFormat_tracks _ fun a ha => hout a (List.mem_cons_of_mem _ ha)) ?_
      rintro d? _ ⟨rfl, hd⟩
      cases d? with
      | none => exact draft_tracks (hout _ (List.mem_cons_self ..))
      | some d => exact .pure ⟨rfl, hd d rfl⟩
    all_goals simp_all

theorem draftStringCall_tracks (hA : AdmitsParts A Y)
    (hreceiver : ∀ receiver, call.receiver? = some receiver → Y receiver)
    (hargs : ∀ a ∈ call.args, Y a.expr) : Tracks (Shows k A) (draftStringCall k call) (stringCall k call) := by
  obtain ⟨receiver?, method, typeArgs, args⟩ := call
  dsimp only at hreceiver hargs
  have hother : ∀ receiver, receiver? = some receiver → Tracks (Shows k A)
      (do
        let target ← k.draftOperand receiver
        let args ← k.draftArguments args
        return target ++ code "." ++ name (stringMethod method) ++ code "(" ++ Draft.joined ", " args ++ code ")")
      (do
        let target ← k.operand receiver
        let args ← k.arguments args
        return s!"{target}.{stringMethod method}({commaList args})") := by
    intro receiver hr
    refine .bind (draftOperand_tracks (hA.outside (hreceiver receiver hr))) ?_
    rintro target _ ⟨rfl, ht⟩
    refine .bind (draftArguments_tracks fun a ha => hA.outside (hargs a ha)) ?_
    rintro args _ ⟨rfl, hargs⟩
    exact .pure ⟨by simp (disch := decide) only [text_append, text_code, text_name, text_joined]; rfl,
      by simp [ht]; exact hargs⟩
  dsimp only [draftStringCall]
  split
  · exact .pure ⟨rfl, by simp⟩
  · exact draftSubstring_tracks hA (hreceiver _ rfl) (hargs _ (by simp)) (hargs _ (by simp))
  · dsimp only [stringCall]
    split <;> first | exact hother _ rfl | simp_all

theorem draftString_tracks (hA : AdmitsParts A e.Evaluates) :
    Tracks (Shows k A) (draftString k e) (stringHelpers.convert k e) := by
  simp only [draftString, stringHelpers]
  cases e.memberAccess? with
  | some access => exact .pure ⟨rfl, by simp⟩
  | none =>
    cases hcall : e.call? with
    | none => exact .pure ⟨rfl, by simp⟩
    | some call =>
      have hreceiver : ∀ receiver, call.receiver? = some receiver → e.Evaluates receiver := fun _ hr =>
        Expr.receiver_evaluated hcall hr
      have hargs : ∀ a ∈ call.args, e.Evaluates a.expr := fun a ha => Expr.arg_evaluated hcall ha
      refine .ite (fun _ => draftStringify_tracks hA hreceiver) fun _ => .same _ fun s => ?_
      exact .ite (fun _ => draftStringFunction_tracks hA hargs) fun _ => draftStringCall_tracks hA hreceiver hargs

end Rules

end ComponentScript
