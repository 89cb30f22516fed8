/-
  ComponentScript.Proofs.Draft.Query — drafts of queries and of sort chains.

  The parts of a sort chain are its base and its keys; the keys are in the body of the
  comparison. A range has its start in the body of the function that numbers it. All other
  functions that queries make have no part in their bodies.
-/

import ComponentScript.Proofs.Draft.Rules

namespace ComponentScript

open Text Draft Converter

variable {k : Converter} {A : Placement} {Y : Expr → Prop} {receiver e : Expr} {call : Call}

/-- The base and the keys of a sort chain are evaluated with it. -/
theorem Expr.sortKeys_evaluated {base : Expr} {keys : List SortKey} (h : e.sortKeys? = some (base, keys)) :
    e.Evaluates base ∧ ∀ key ∈ keys, e.Evaluates key.selector := by
  have hreceiver : ∀ {span calleeSpan receiver name typeArgs args x}, Evaluates receiver x →
      Evaluates ⟨span, .invocation ⟨calleeSpan, .member receiver name⟩ typeArgs args⟩ x := fun hx =>
    .inner (List.mem_cons_self ..) (.inner (List.mem_cons_self ..) hx)
  have harg : ∀ {span callee typeArgs arg args}, Evaluates ⟨span, .invocation callee typeArgs (arg :: args)⟩ arg.expr :=
    .inner (List.mem_cons_of_mem _ (List.mem_cons_self ..)) (.self _)
  fun_induction Expr.sortKeys? e generalizing base keys with
  | case1 => cases h
  | case2 =>
    cases h
    exact ⟨hreceiver (.self _), List.forall_mem_singleton.mpr harg⟩
  | case3 =>
    rename_i ih
    obtain ⟨⟨base', keys'⟩, hrec, heq⟩ := Option.map_eq_some_iff.mp h
    cases heq
    obtain ⟨hbase, hkeys⟩ := ih hrec
    refine ⟨hreceiver hbase, List.forall_mem_append.mpr ⟨fun key hk => hreceiver (hkeys key hk), ?_⟩⟩
    exact List.forall_mem_singleton.mpr harg
  | case4 => cases h

namespace Rules

/-! ## Sort chains -/

def draftCompare (left right : String) (key : SortKey) (selector : Draft) : Emit (List Draft) := do
  let x ← Emit.freshName "x"
  let y ← Emit.freshName "y"
  let order := if key.descending then "1 : -1" else "-1 : 1"
  return [
    code "const " ++ name x ++ code " = " ++ selector ++ code "(" ++ name left ++ code "), " ++ name y ++ code " = " ++
      selector ++ code "(" ++ name right ++ code ");",
    code "if (" ++ name x ++ code " !== " ++ name y ++ code ") return " ++ name x ++ code " < " ++ name y ++
      code " ? " ++ name order ++ code ";"]

def draftSort (k : Converter) (e : Expr) : Emit Draft :=
  match e.sortKeys? with
  | none => k.draftDefault none e
  | some (base, keys) => do
    let source ← k.draft base
    let selectors ← keys.mapM fun key => k.draftOperand key.selector
    let left ← Emit.freshName "a"
    let right ← Emit.freshName "b"
    let lines ← (keys.zip selectors).mapM fun (key, selector) => draftCompare left right key selector
    let body := Draft.block (lines.flatten ++ [code "return 0;"]) k.indent
    return code "[..." ++ source ++ code "].sort(" ++ made ⟨.comparison, false, [left, right]⟩ body ++ code ")"

theorem draftCompare_tracks (left right : String) (key : SortKey) {selector : Draft} (h : selector.Fits A) :
    Tracks (ShowsAll k A) (draftCompare left right key selector) (compareLines left right key (selector.text k)) := by
  refine .same _ fun x => .same _ fun y => .pure (.cons ?_ (.cons ?_ .nil))
  · exact ⟨by simp (disch := decide) only [text_append, text_code, text_name]; rfl, by simp [h]⟩
  · exact ⟨by simp (disch := decide) only [text_append, text_code, text_name]; rfl, by simp⟩

theorem draftComparison_tracks (left right : String) {keys : List (SortKey × Draft)} (h : ∀ key ∈ keys, key.2.Fits A) :
    Tracks (fun ds ts => ShowsAll k A ds.flatten ts.flatten)
      (keys.mapM fun (key, selector) => draftCompare left right key selector)
      (keys.mapM fun (key, selector) => compareLines left right key (selector.text k)) := by
  induction keys with
  | nil => exact .pure .nil
  | cons key keys ih =>
    obtain ⟨hkey, hkeys⟩ := List.forall_mem_cons.mp h
    rw [List.mapM_cons, List.mapM_cons]
    refine .bind (draftCompare_tracks left right key.1 hkey) fun ds ts hd => ?_
    exact .bind (ih hkeys) fun dss tss hds => .pure (hd.append hds)

theorem draftSort_tracks (h : Admits A e) (hA : AdmitsParts A e.Evaluates) :
    Tracks (Shows k A) (draftSort k e) (sortChain k e) := by
  unfold draftSort sortChain
  cases hkeys : e.sortKeys? with
  | none => exact draftDefault_tracks none h
  | some chain =>
    obtain ⟨base, keys⟩ := chain
    obtain ⟨hbase, hselectors⟩ := Expr.sortKeys_evaluated hkeys
    refine .bind (draft_tracks (hA.outside hbase)) ?_
    rintro source _ ⟨rfl, hs⟩
    -- the names of the two elements are drawn after the keys are converted
    have hinside : ∀ key ∈ keys, Placement.At (fun f? p => ∀ params, A.inside ⟨.comparison, false, params⟩ f? p)
        key.selector := fun key hk expected? s params =>
      hA.inside (hselectors key hk) .comparison (by decide) params expected? s
    refine .bind (.mapM fun key hk => draftOperand_tracks (hinside key hk)) ?_
    rintro selectors _ ⟨rfl, hsel⟩
    refine .same _ fun left => .same _ fun right => ?_
    have hzip : keys.zip (selectors.map (text k)) = (keys.zip selectors).map fun key => (key.1, key.2.text k) := by
      rw [List.zip_map_right]
      rfl
    rw [hzip, List.mapM_map]
    refine .bind (draftComparison_tracks left right fun key hk =>
      (hsel key.2 (List.of_mem_zip hk).2).mono fun _ _ hp => hp [left, right]) fun dss tss hlines => .pure ?_
    have hblock := hlines.append (.cons ⟨rfl, fits_code "return 0;"⟩ .nil)
    refine ⟨?_, ?_⟩
    · have hopen : "].sort((" = "].sort(" ++ "(" := rfl
      have hparams : commaList [left, right] = left ++ ", " ++ right := rfl
      simp (disch := decide) only [text_append, text_code, text_block, text_made, Made.head, hopen, hparams, toString,
        String.append_assoc]
      rw [hblock.texts]
      rfl
    · simp only [fits_append, fits_made, fits_block, fits_code, and_true, true_and]
      exact ⟨hs, hblock.fits⟩

/-! ## Queries -/

def draftAggregated (source : Draft) : List Draft → Draft
  | [] => source
  | selector :: _ => source ++ code ".map(" ++ selector ++ code ")"

/-- The function that adds up. -/
def adding : Draft := made ⟨.sum, false, ["acc", "v"]⟩ (code "acc + v")

def QueryOp.draft (op : QueryOp) (source : Draft) (category? : Option Category) (inPlace : Bool) (args : List Draft) :
    Draft :=
  let size := name (sizeMember category?)
  match op with
  | .map => source ++ code ".map(" ++ nth args 0 ++ code ")"
  | .filter => source ++ code ".filter(" ++ nth args 0 ++ code ")"
  | .any =>
    if args.isEmpty then code "(" ++ source ++ code "." ++ size ++ code " > 0)"
    else source ++ code ".some(" ++ nth args 0 ++ code ")"
  | .all => source ++ code ".every(" ++ nth args 0 ++ code ")"
  | .first => if args.isEmpty then source ++ code "[0]" else source ++ code ".find(" ++ nth args 0 ++ code ")"
  | .last => if args.isEmpty then source ++ code ".at(-1)" else source ++ code ".findLast(" ++ nth args 0 ++ code ")"
  | .count =>
    if args.isEmpty then source ++ code "." ++ size
    else source ++ code ".filter(" ++ nth args 0 ++ code ").length"
  | .sum => draftAggregated source args ++ code ".reduce(" ++ adding ++ code ", 0)"
  | .least => code "Math.min(..." ++ draftAggregated source args ++ code ")"
  | .greatest => code "Math.max(..." ++ draftAggregated source args ++ code ")"
  | .average =>
    Draft.call ⟨.average, false, ["xs"]⟩ (code "xs.reduce(" ++ adding ++ code ", 0) / xs.length")
      [draftAggregated source args]
  | .skip => source ++ code ".slice(" ++ nth args 0 ++ code ")"
  | .take => source ++ code ".slice(0, " ++ nth args 0 ++ code ")"
  | .distinct => code "[...new Set(" ++ source ++ code ")]"
  | .reverse => if inPlace then source ++ code ".reverse()" else code "[..." ++ source ++ code "].reverse()"
  | .flatMap => source ++ code ".flatMap(" ++ nth args 0 ++ code ")"
  | .fold =>
    match args.length with
    | 1 => source ++ code ".reduce(" ++ nth args 0 ++ code ")"
    | 2 => source ++ code ".reduce(" ++ nth args 1 ++ code ", " ++ nth args 0 ++ code ")"
    | _ => operand (nth args 2) ++ code "(" ++ source ++ code ".reduce(" ++ nth args 1 ++ code ", " ++ nth args 0 ++
      code "))"
  | .contains =>
    if category? = some .set then source ++ code ".has(" ++ nth args 0 ++ code ")"
    else source ++ code ".includes(" ++ nth args 0 ++ code ")"
  | .concat => source ++ code ".concat(" ++ nth args 0 ++ code ")"

def draftFactory (method : String) (args : List Draft) : Draft :=
  match method, args with
  | "Range", [start, count] =>
    code "Array.from(\x7b length: " ++ count ++ code " \x7d, " ++
      made ⟨.range, false, ["_", "i"]⟩ (operand start ++ code " + i") ++ code ")"
  | "Repeat", [value, count] => code "new Array(" ++ count ++ code ").fill(" ++ value ++ code ")"
  | _, _ => code "[]"

def draftQueryCall (k : Converter) (receiver e : Expr) (call : Call) : Emit Draft := do
  let source ← k.draftOperand receiver
  let args ← k.draftArguments call.args
  match QueryOp.ofName? call.name with
  | some op => return op.draft source (k.receiverCategory call e) (k.model.declaringCategory e = some .list) args
  | none =>
    return source ++ code "." ++ name (Script.camelCase call.name) ++ code "(" ++ Draft.joined ", " args ++ code ")"

def draftQuery (k : Converter) (e : Expr) : Emit Draft :=
  match e.call?.bind fun call => call.receiver?.map fun receiver => (receiver, call) with
  | none => return code ""
  | some (receiver, call) => do
    if isFactoryCall k.toEnv (← get) call then return draftFactory call.name (← k.draftArguments call.args)
    else if (SortStep.ofName? call.name).isSome then draftSort k e
    else draftQueryCall k receiver e call

def draftMaterialize (k : Converter) (e : Expr) : Emit Draft :=
  match e.call?.bind fun call => call.receiver?.map fun receiver => (receiver, call) with
  | none => return code ""
  | some (receiver, call) => do
    let d ← k.draft receiver
    return if call.name = "ToHashSet" then code "new Set(" ++ d ++ code ")" else d

theorem draftAggregated_shows {source : Draft} (hs : source.Fits A) {args : List Draft} (hargs : ∀ d ∈ args, d.Fits A) :
    Shows k A (draftAggregated source args) (aggregated (source.text k) (args.map (text k))) := by
  cases args with
  | nil => exact ⟨rfl, hs⟩
  | cons selector args =>
    exact ⟨by simp (disch := decide) only [draftAggregated, text_append, text_code]; rfl, by simp_all [draftAggregated]⟩

theorem QueryOp.draft_shows (op : QueryOp) {source : Draft} (hs : source.Fits A) (category? : Option Category)
    (inPlace : Bool) {args : List Draft} (hargs : ∀ d ∈ args, d.Fits A) :
    Shows k A (op.draft source category? inPlace args)
      (op.render ⟨source.text k, category?, inPlace⟩ (args.map (text k))) := by
  obtain ⟨hat, haf⟩ := draftAggregated_shows (k := k) hs hargs
  have hnth := fits_nth hargs
  have haddingText : adding.text k = "(acc, v) => acc + v" := rfl
  have hsum : ".reduce((acc, v) => acc + v, 0)" = ".reduce(" ++ (adding.text k ++ ", 0)") := by rw [haddingText]; decide
  have haverage : "((xs) => xs.reduce((acc, v) => acc + v, 0) / xs.length)(" =
      "(" ++ (⟨.average, false, ["xs"]⟩ : Made).head ++ ("xs.reduce(" ++ adding.text k ++ ", 0) / xs.length") ++
        ")(" := by
    rw [haddingText]; decide
  have hadding : ∀ {B : Placement}, adding.Fits B := by simp [adding]
  cases op <;> dsimp only [QueryOp.draft]
  case sum =>
    refine ⟨?_, by simp [haf, hadding]⟩
    simp (disch := decide) only [text_append, text_code, hat]
    dsimp only [QueryOp.render]
    simp only [hsum, toString, String.append_assoc]
  case average =>
    refine ⟨?_, by simp [haf, hadding]⟩
    simp (disch := decide) only [text_call, text_append, text_code, List.map_cons, List.map_nil, hat, commaList,
      String.intercalate_singleton]
    dsimp only [QueryOp.render]
    simp only [haverage, toString]
  case fold =>
    split
    case h_1 hlength | h_2 hlength =>
      dsimp only [QueryOp.render]
      rw [List.length_map, hlength]
      exact ⟨by simp (disch := decide) only [text_append, text_code, text_nth]; rfl, by simp [hs, hnth]⟩
    case h_3 =>
      dsimp only [QueryOp.render]
      rw [List.length_map]
      split
      case h_3 => exact ⟨by simp (disch := decide) only [text_append, text_code, text_nth, text_operand]; rfl,
        by simp [hs, hnth]⟩
      all_goals contradiction
  case least => exact ⟨by simp (disch := decide) only [text_append, text_code, hat]; rfl, by simp [haf]⟩
  case greatest => exact ⟨by simp (disch := decide) only [text_append, text_code, hat]; rfl, by simp [haf]⟩
  case any | first | last | count =>
    dsimp only [QueryOp.render]
    rw [List.isEmpty_map]
    split <;> exact ⟨by simp (disch := decide) only [text_append, text_code, text_name, text_nth]; rfl,
      by simp [hs, hnth]⟩
  case contains | reverse =>
    dsimp only [QueryOp.render]
    split <;> exact ⟨by simp (disch := decide) only [text_append, text_code, text_nth]; rfl, by simp [hs, hnth]⟩
  all_goals exact ⟨by simp (disch := decide) only [text_append, text_code, text_nth]; rfl, by simp [hs, hnth]⟩

theorem draftFactory_shows (method : String) {args : List Draft} (hargs : ∀ d ∈ args, d.Fits A)
    (hinside : ∀ d ∈ args, d.Fits (A.inside ⟨.range, false, ["_", "i"]⟩)) :
    Shows k A (draftFactory method args) (factory method (args.map (text k))) := by
  unfold draftFactory
  split
  · have hopen : " \x7d, (_, i) => " = " \x7d, " ++ (⟨.range, false, ["_", "i"]⟩ : Made).head := by decide
    have hend : " + i)" = " + i" ++ ")" := rfl
    refine ⟨?_, by simp_all⟩
    dsimp only [List.map_cons, List.map_nil, factory]
    simp (disch := decide) only [text_append, text_code, text_made, text_operand]
    simp only [hopen, hend, toString, String.append_assoc]
    rfl
  · exact ⟨by simp (disch := decide) only [text_append, text_code]; rfl, by simp_all⟩
  · have hother : factory method (args.map (text k)) = "[]" := by
      unfold factory
      split
      case h_3 => rfl
      all_goals rcases args with _ | ⟨a, _ | ⟨b, _ | ⟨c, args⟩⟩⟩ <;> simp_all
    exact ⟨hother.symm, by simp⟩

theorem draftQueryCall_tracks (hreceiver : A.At receiver) (hargs : ∀ a ∈ call.args, A.At a.expr) :
    Tracks (Shows k A) (draftQueryCall k receiver e call) (queryCall k receiver e call) := by
  refine .bind (draftOperand_tracks hreceiver) ?_
  rintro source _ ⟨rfl, hs⟩
  refine .bind (draftArguments_tracks hargs) ?_
  rintro args _ ⟨rfl, hargs⟩
  cases QueryOp.ofName? call.name with
  | none => exact .pure ⟨by simp (disch := decide) only [text_append, text_code, text_name, text_joined]; rfl,
    by simp [hs]; exact hargs⟩
  | some op => exact .pure (op.draft_shows hs _ _ hargs)

theorem draftQuery_tracks (h : Admits A e) (hA : AdmitsParts A e.Evaluates) :
    Tracks (Shows k A) (draftQuery k e) (sequenceQuery.convert k e) := by
  simp only [draftQuery, sequenceQuery]
  refine received_tracks fun call receiver hcall hr => .same _ fun s => ?_
  have hargs : ∀ a ∈ call.args, A.At a.expr := fun a ha => hA.outside (Expr.arg_evaluated hcall ha)
  refine .ite (fun _ => ?_) fun _ => .ite (fun _ => draftSort_tracks h hA) fun _ => ?_
  · have hboth : ∀ a ∈ call.args,
        Placement.At (fun f? p => A f? p ∧ A.inside ⟨.range, false, ["_", "i"]⟩ f? p) a.expr := fun a ha expected? s =>
      ⟨hargs a ha expected? s, hA.inside (Expr.arg_evaluated hcall ha) .range (by decide) _ expected? s⟩
    refine .bind (draftArguments_tracks hboth) ?_
    rintro args _ ⟨rfl, hfits⟩
    exact .pure (draftFactory_shows call.name (fun d hd => (hfits d hd).mono fun _ _ hp => hp.1) fun d hd =>
      (hfits d hd).mono fun _ _ hp => hp.2)
  · exact draftQueryCall_tracks (hA.outside (Expr.receiver_evaluated hcall hr)) hargs

theorem draftMaterialize_tracks (hA : AdmitsParts A e.Evaluates) :
    Tracks (Shows k A) (draftMaterialize k e) (materialize.convert k e) := by
  simp only [draftMaterialize, materialize]
  refine received_tracks fun call receiver hcall hr => ?_
  refine .bind (draft_tracks (hA.outside (Expr.receiver_evaluated hcall hr))) fun d t hd => .pure ?_
  split
  · exact hd.between (by decide) (by decide)
  · exact hd

end Rules

end ComponentScript
