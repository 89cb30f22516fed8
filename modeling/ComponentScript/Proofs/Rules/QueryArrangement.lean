/-
  ComponentScript.Proofs.Rules.QueryArrangement — where queries place their operands.

  A chain of operators is straight. A fold takes its seed behind the step, a range counts
  before it starts, and the keys of a sort chain are mentioned twice in the comparison.
-/

import ComponentScript.Proofs.Rules.Arrangement

namespace ComponentScript

open Text Draft Converter
open Emit (Yields)

namespace Rules

variable {k : Converter} {e receiver : Expr} {call : Call}

/-! ## Tables -/

def factoryArrangement (method : String) (args : List Expr) : Arrangement :=
  match method, args with
  | "Range", [start, count] => .numbered start count
  | "Repeat", [value, count] => .swapped [count, value]
  | _, _ => .straight

def operatorArrangement (receiver : Expr) (method : String) (args : List Expr) : Arrangement :=
  match method, args with
  | "Aggregate", [seed, step] => .swapped [receiver, step, seed]
  | "Aggregate", [seed, step, result] => .swapped [result, receiver, step, seed]
  | _, _ => .straight

def queryArrangement (env : Env) (s : Session) (receiver e : Expr) (call : Call) : Arrangement :=
  if isFactoryCall env s call then factoryArrangement call.name (call.args.map (·.expr))
  else
    match e.sortKeys? with
    | some (base, keys) => .sorted base (keys.map (·.selector))
    | none => operatorArrangement receiver call.name (call.args.map (·.expr))

theorem draftFactory_described (receiver : Expr) (method : String) {ds : List Draft} {es : List Expr}
    (h : List.Forall₂ Mentions ds es) :
    (factoryArrangement method es).Describes (receiver :: es) (draftFactory method ds).mentions := by
  unfold draftFactory
  split
  · obtain _ | ⟨hstart, _ | ⟨hcount, _ | _⟩⟩ := h
    simp [factoryArrangement, Arrangement.Describes, hstart, hcount, Mention.inside, Mention.free]
  · obtain _ | ⟨hvalue, _ | ⟨hcount, _ | _⟩⟩ := h
    exact ⟨by simp [hvalue, hcount], (List.Perm.swap ..).subperm.trans (List.sublist_cons_self ..).subperm,
      _, _, List.Sublist.refl _, List.sublist_cons_self ..⟩
  · have hother : factoryArrangement method es = .straight := by
      unfold factoryArrangement
      split
      case h_3 => rfl
      all_goals rcases h with _ | ⟨_, _ | ⟨_, _ | _⟩⟩; simp_all
    rw [hother]
    exact Arrangement.describes_free (List.nil_sublist _) rfl

/-! ## Sort chains -/

theorem sortKeys_isSome (h : e.isSortStep = true) : e.sortKeys?.isSome = true := by
  fun_induction Expr.sortKeys? e with
  | case1 span calleeSpan receiver name typeArgs arg args hname =>
    simp [Expr.isSortStep, Expr.call?, hname] at h
  | case2 => rfl
  | case3 span calleeSpan receiver name typeArgs arg args step hname key hchain ih =>
    rw [Bool.or_eq_true, not_or, Bool.not_eq_true', Bool.not_eq_false] at hchain
    rw [Option.isSome_map]
    exact ih hchain.2
  | case4 e hshape =>
    obtain ⟨span, kind⟩ := e
    cases kind with
    | invocation callee typeArgs args =>
      obtain ⟨calleeSpan, callee⟩ := callee
      cases callee with
      | member receiver name =>
        cases args with
        | nil => simp [Expr.isSortStep, Expr.call?, Call.arity] at h
        | cons arg args => exact (hshape _ _ _ _ _ _ _ rfl).elim
      | _ => simp [Expr.isSortStep, Expr.call?] at h
    | _ => cases h

theorem sortStep_of_sortKeys (hcall : e.call? = some call) (h : e.sortKeys?.isSome = true) :
    (SortStep.ofName? call.name).isSome = true := by
  unfold Expr.sortKeys? at h
  split at h
  · cases hcall
    split at h
    case h_1 => cases h
    case h_2 hname => rw [hname]; rfl
  · cases h

theorem draftCompare_yields (left right : String) (key : SortKey) {selector : Draft}
    (h : selector.Mentions key.selector) :
    Yields (fun ds => ds.flatMap mentions = List.replicate 2 (.free key.selector))
      (draftCompare left right key selector) :=
  .after _ fun _ => .after _ fun _ => .pure (by simp [h])

theorem draftComparison_yields (left right : String) {keys : List SortKey} {selectors : List Draft}
    (h : List.Forall₂ Mentions selectors (keys.map (·.selector))) :
    Yields (fun lines => lines.flatten.flatMap mentions =
        (keys.map (·.selector)).flatMap fun e => List.replicate 2 (.free e))
      ((keys.zip selectors).mapM fun (key, selector) => draftCompare left right key selector) := by
  induction keys generalizing selectors with
  | nil => exact .pure rfl
  | cons key keys ih =>
    obtain _ | ⟨hkey, hkeys⟩ := h
    rw [List.zip_cons_cons, List.mapM_cons]
    refine (draftCompare_yields left right key hkey).bind fun ds hds => (ih hkeys).bind fun dss hdss => .pure ?_
    rw [List.flatten_cons, List.flatMap_append, hds, hdss, List.map_cons, List.flatMap_cons]

theorem draftSort_yields {base : Expr} {keys : List SortKey} (hkeys : e.sortKeys? = some (base, keys))
    (operands : List Expr) :
    Yields (fun d => (Arrangement.sorted base (keys.map (·.selector))).Describes operands d.mentions)
      (draftSort k e) := by
  unfold draftSort
  rw [hkeys]
  refine (draft_yields base).bind fun source hs => ?_
  have hselectors := Yields.mapM (fun key : SortKey => draftOperand_yields (k := k) key.selector) keys
  refine hselectors.bind fun selectors hsel => ?_
  refine (Yields.freshName "a").bind fun left hleft => (Yields.freshName "b").bind fun right hright => ?_
  refine (draftComparison_yields left right (List.forall₂_map_right_iff.mpr hsel)).bind fun lines hlines => .pure ?_
  refine ⟨left, right, hleft, hright, ?_⟩
  have hbody : (block (lines.flatten ++ [code "return 0;"]) k.indent).mentions =
      (keys.map (·.selector)).flatMap fun e => List.replicate 2 (.free e) := by
    rw [mentions_block, List.flatMap_append, hlines]
    exact List.append_nil _
  simp only [mentions_append, mentions_code, mentions_made, hbody, hs, List.nil_append, List.append_nil,
    List.map_flatMap, List.map_replicate]
  rfl

/-! ## Operators -/

theorem mentions_draftAggregated (source : Draft) {ds : List Draft} {es : List Expr} (h : List.Forall₂ Mentions ds es) :
    (draftAggregated source ds).mentions = source.mentions ++ es.head?.toList.map .free := by
  obtain _ | ⟨hd, _⟩ := h
  · exact (List.append_nil _).symm
  · simp [draftAggregated, hd]

@[simp] theorem mentions_adding : adding.mentions = [] := rfl

/-- An operator but a fold mentions its source, and then its first argument or nothing. -/
theorem QueryOp.draft_described {op : QueryOp} (hop : op ≠ .fold) {source : Draft} (hs : source.Mentions receiver)
    (category? : Option Category) (inPlace : Bool) {ds : List Draft} {es : List Expr}
    (h : List.Forall₂ Mentions ds es) :
    Arrangement.straight.Describes (receiver :: es) (op.draft source category? inPlace ds).mentions := by
  have hfirst : (nth ds 0).mentions = es.head?.toList.map .free := List.head?_eq_getElem? ▸ mentions_nth h 0
  have haggregated := mentions_draftAggregated source h
  have hhead : es.head?.toList.Sublist es := by
    cases es with
    | nil => exact .slnil
    | cons e es => exact List.singleton_sublist.mpr (List.mem_cons_self ..)
  have halone : ∀ {d : Draft}, d.mentions = [.free receiver] →
    Arrangement.straight.Describes (receiver :: es) d.mentions :=
    Arrangement.describes_free (List.singleton_sublist.mpr (List.mem_cons_self ..))
  have hwith : ∀ {d : Draft}, d.mentions = .free receiver :: es.head?.toList.map .free →
      Arrangement.straight.Describes (receiver :: es) d.mentions :=
        Arrangement.describes_free (hhead.cons_cons receiver)
  cases op with
  | fold => exact absurd rfl hop
  | any | first | last | count =>
    dsimp only [QueryOp.draft]
    split
    · exact halone (by simp [hs])
    · exact hwith (by simp [hs, hfirst])
  | distinct => exact halone (by simp [QueryOp.draft, hs])
  | reverse =>
    dsimp only [QueryOp.draft]
    split <;> exact halone (by simp [hs])
  | contains =>
    dsimp only [QueryOp.draft]
    split <;> exact hwith (by simp [hs, hfirst])
  | sum | least | greatest | average => exact hwith (by simp [QueryOp.draft, hs, haggregated])
  | map | filter | all | skip | take | flatMap | concat => exact hwith (by simp [QueryOp.draft, hs, hfirst])

theorem draftFold_described {source : Draft} (hs : source.Mentions receiver) (category? : Option Category)
    (inPlace : Bool)
    {ds : List Draft} {es : List Expr} (h : List.Forall₂ Mentions ds es) (hes : es.length ∈ QueryOp.arities .fold) :
    (operatorArrangement receiver "Aggregate" es).Describes (receiver :: es)
      (QueryOp.draft .fold source category? inPlace ds).mentions := by
  obtain _ | ⟨hseed, _ | ⟨hstep, _ | ⟨hresult, _ | ⟨_, _⟩⟩⟩⟩ := h
  · simp [QueryOp.arities] at hes
  · exact Arrangement.describes_free (List.Sublist.refl _) (by simp [QueryOp.draft, nth, hs, hseed])
  · exact ⟨by simp [QueryOp.draft, nth, hs, hseed, hstep], ((List.Perm.swap ..).cons receiver).subperm,
      _, _, List.sublist_cons_self .., List.sublist_cons_self ..⟩
  · rename_i seed _ step _ result
    have hfront := (List.perm_append_singleton result [receiver, step, seed]).symm
    have hswap := (List.Perm.swap seed step [result]).cons receiver
    exact ⟨by simp [QueryOp.draft, nth, hs, hseed, hstep, hresult], (hfront.trans hswap).subperm,
      result, receiver, by simp, by simp⟩
  · simp [QueryOp.arities] at hes

theorem eq_aggregate_of_ofName {name : String} (h : QueryOp.ofName? name = some .fold) : name = "Aggregate" := by
  unfold QueryOp.ofName? at h
  split at h <;> first | rfl | cases h

theorem draftQueryCall_yields {op : QueryOp} (hop : QueryOp.ofName? call.name = some op)
    (harity : call.arity ∈ op.arities) (hr : call.receiver? = some receiver) :
    Yields (fun d =>
        (operatorArrangement receiver call.name (call.args.map (·.expr))).Describes call.operands d.mentions)
      (draftQueryCall k receiver e call) := by
  refine (draftOperand_yields receiver).bind fun source hs => (draftArguments_yields call.args).bind fun ds hds => ?_
  rw [operands_eq hr, hop]
  refine .pure ?_
  by_cases hfold : op = .fold
  · subst hfold
    rw [eq_aggregate_of_ofName hop]
    exact draftFold_described hs _ _ hds (by rwa [List.length_map])
  · have hother : operatorArrangement receiver call.name (call.args.map (·.expr)) = .straight := by
      unfold operatorArrangement
      split
      case h_3 => rfl
      all_goals
        rename_i hname _
        rw [hname] at hop
        exact absurd (Option.some.inj hop).symm hfold
    rw [hother]
    exact QueryOp.draft_described hfold hs _ _ hds

theorem ofName_of_sortStep {name : String} (h : (SortStep.ofName? name).isSome = true) :
    QueryOp.ofName? name = none := by
  unfold SortStep.ofName? at h
  split at h <;> first | rfl | cases h

/-- A query that makes no sequence is a sort chain or an operator. -/
theorem query_cases (hcall : e.call? = some call) (hr : call.receiver? = some receiver) {env : Env} {s : Session}
    (happlies : sequenceQuery.applies env s e = true) (hfactory : isFactoryCall env s call ≠ true) :
    ((SortStep.ofName? call.name).isSome = true ∧ ∃ base keys, e.sortKeys? = some (base, keys)) ∨
      ((SortStep.ofName? call.name).isSome ≠ true ∧ e.sortKeys? = none ∧
        ∃ op, QueryOp.ofName? call.name = some op ∧ call.arity ∈ op.arities) := by
  have hquery : isQueryName call.name call.arity = true := by
    simp only [sequenceQuery, hcall, Option.any_some, Bool.or_eq_true, Bool.and_eq_true] at happlies
    exact (happlies.resolve_left hfactory).1
  simp only [isQueryName, Bool.or_eq_true, Bool.and_eq_true, decide_eq_true_eq] at hquery
  by_cases hsort : (SortStep.ofName? call.name).isSome = true
  · rw [ofName_of_sortStep hsort] at hquery
    have harity : call.arity = 1 := (hquery.resolve_left Bool.false_ne_true).2
    have hstep : e.isSortStep = true := by simp [Expr.isSortStep, hcall, hsort, harity, hr]
    obtain ⟨⟨base, keys⟩, hkeys⟩ := Option.isSome_iff_exists.mp (sortKeys_isSome hstep)
    exact .inl ⟨hsort, base, keys, hkeys⟩
  · have hnone : e.sortKeys? = none := Option.not_isSome_iff_eq_none.mp fun h => hsort (sortStep_of_sortKeys hcall h)
    obtain ⟨op, hop, harity⟩ := (Option.any_eq_true ..).mp (hquery.resolve_right fun h => hsort h.1)
    exact .inr ⟨hsort, hnone, op, hop, List.contains_iff_mem.mp harity⟩

theorem draftQuery_described (hcall : e.call? = some call) (hr : call.receiver? = some receiver) (s : Session)
    (happlies : sequenceQuery.applies k.toEnv s e = true) :
    (queryArrangement k.toEnv s receiver e call).Describes call.operands ((draftQuery k e).out s).1.mentions := by
  unfold draftQuery queryArrangement
  rw [hcall, Option.bind_some, hr, Option.map_some]
  dsimp only
  rw [Emit.out_bind, Emit.out_get]
  by_cases hfactory : isFactoryCall k.toEnv s call = true
  · rw [if_pos hfactory, if_pos hfactory, operands_eq hr]
    exact draftFactory_described receiver call.name (draftArguments_yields call.args s)
  · rw [if_neg hfactory, if_neg hfactory]
    obtain ⟨hsort, base, keys, hkeys⟩ | ⟨hsort, hkeys, op, hop, harity⟩ := query_cases hcall hr happlies hfactory
    · rw [if_pos hsort, hkeys]
      exact draftSort_yields hkeys call.operands s
    · rw [if_neg hsort, hkeys]
      exact draftQueryCall_yields hop harity hr s

/-- A query already is an array. -/
theorem draftMaterialize_yields (hcall : e.call? = some call) (hr : call.receiver? = some receiver) :
    Yields (fun d => Arrangement.straight.Describes call.operands d.mentions) (draftMaterialize k e) := by
  unfold draftMaterialize
  rw [hcall, Option.bind_some, hr, Option.map_some]
  refine (draft_yields receiver).bind fun d hd => .pure (Arrangement.describes_free (receiver_sublist hr) ?_)
  split <;> simp [hd]

end Rules

end ComponentScript
