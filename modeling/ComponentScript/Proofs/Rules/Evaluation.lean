/-
  ComponentScript.Proofs.Rules.Evaluation — in which order and how often idioms evaluate the
  operands of a call.

  An idiom writes a draft that does not depend on the texts of the operands (`Idiom.Writes`),
  so its mentions are all that gets from the operands into the text. They are as the
  arrangement of the idiom says (`Idiom.described`). Mostly this is straight: the operands are
  evaluated in source order (`idioms_evaluation_order`), once, and where no name of theirs is
  captured (`idioms_single_evaluation`). It is not for the calls that the tables of the rules
  list: a key is tested before the map is read (`containsKey_key_first`), a range that starts
  at a variable `i` counts from its own index (`range_captures_index`).
-/

import ComponentScript.Proofs.Rules.QueryArrangement
import ComponentScript.Syntax.Build

namespace ComponentScript

open Draft Converter

/-! ## Texts of parts -/

/-- The converter with other texts for expressions, by way of the same sessions. -/
def Converter.withTexts (k : Converter) (τ : Part → String) : Converter :=
  { k with exprAs := fun expected? e => do
      let s ← get
      let _ ← k.exprAs expected? e
      return τ ⟨expected?, e, s⟩ }

namespace Rules

variable {k : Converter} {e receiver : Expr} {call : Call}

theorem draftSort_withTexts (h : e.sortKeys?.isSome = true) (τ : Part → String) :
    draftSort (k.withTexts τ) e = draftSort k e := by
  obtain ⟨chain, hkeys⟩ := Option.isSome_iff_exists.mp h
  unfold draftSort
  rw [hkeys]
  rfl

theorem draftQuery_withTexts (hcall : e.call? = some call) (hr : call.receiver? = some receiver) {s : Session}
    (happlies : sequenceQuery.applies k.toEnv s e = true) (τ : Part → String) :
    (draftQuery (k.withTexts τ) e).out s = (draftQuery k e).out s := by
  have henv : (k.withTexts τ).toEnv = k.toEnv := rfl
  unfold draftQuery
  rw [hcall, Option.bind_some, hr, Option.map_some]
  dsimp only
  rw [Emit.out_bind, Emit.out_bind, Emit.out_get, henv]
  by_cases hfactory : isFactoryCall k.toEnv s call = true
  · rw [if_pos hfactory, if_pos hfactory]
    rfl
  · rw [if_neg hfactory, if_neg hfactory]
    obtain ⟨hsort, base, keys, hkeys⟩ | ⟨hsort, -⟩ := query_cases hcall hr happlies hfactory
    · rw [if_pos hsort, if_pos hsort, draftSort_withTexts (hkeys ▸ rfl)]
    · rw [if_neg hsort, if_neg hsort]
      rfl

/-! ## Idioms -/

/-- A rule for an idiom, with the draft of what it writes and the arrangement of the operands. -/
structure Idiom where
  rule : Rule Expr
  draft : Converter → Expr → Emit Draft
  arrangement : Converter → Session → Expr → Call → Arrangement

/-- An arrangement for calls with a receiver. -/
def arranged (f : Converter → Session → Expr → Expr → Call → Arrangement) (k : Converter) (s : Session) (e : Expr)
    (call : Call) : Arrangement := (call.receiver?.map fun receiver => f k s receiver e call).getD .straight

/-- The built-in idioms. -/
def idioms : List Idiom :=
  [⟨consolePrint, draftPrint, fun _ _ _ call => printArrangement (call.args.map (·.expr))⟩,
   ⟨taskHelpers, draftTask, arranged fun _ _ _ _ call => taskArrangement call⟩,
   ⟨serviceLookup, draftService, fun _ _ _ _ => .straight⟩,
   ⟨numericHelpers, draftNumeric, arranged numericArrangement⟩,
   ⟨stringHelpers, draftString, fun k s _ call => stringArrangement k.toEnv s call⟩,
   ⟨mapLookup, draftMapLookup,
    arranged fun _ _ receiver _ call => mapArrangement receiver call.name (call.args.map (·.expr))⟩,
   ⟨collectionProperties, draftProperties, fun _ _ _ _ => .straight⟩,
   ⟨collectionMethods, draftMethods, fun _ _ _ _ => .straight⟩,
   ⟨materialize, draftMaterialize, fun _ _ _ _ => .straight⟩,
   ⟨sequenceQuery, draftQuery, arranged fun k s receiver e call => queryArrangement k.toEnv s receiver e call⟩]

theorem idioms_rules : idioms.map (·.rule) = builtinExprs.filter (·.priority = Rule.idiom) := rfl

theorem idioms_drafts : ∀ i ∈ idioms, (i.rule, i.draft) ∈ drafts := by
  simp [idioms, drafts]

namespace Idiom

/-- In the session the idiom writes its draft, with the parts' own texts and with any others. -/
structure Writes (i : Idiom) (k : Converter) (s : Session) (e : Expr) : Prop where
  text : ((i.rule.convert k e).out s).1 = ((i.draft k e).out s).1.text k
  uniform : ∀ τ, ((i.rule.convert (k.withTexts τ) e).out s).1 = ((i.draft k e).out s).1.text (k.withTexts τ)

theorem text_draft {i : Idiom} (hi : i ∈ idioms) (k : Converter) (s : Session) (e : Expr) :
    ((i.rule.convert k e).out s).1 = ((i.draft k e).out s).1.text k :=
  (drafts_tracks (Admits.everywhere e) (AdmitsParts.everywhere _) _ (idioms_drafts i hi) s).1.text.symm

/-- The draft of an idiom does not depend on the texts of the operands. -/
theorem draft_withTexts {i : Idiom} (hi : i ∈ idioms) {s : Session} (hcall : e.call? = some call)
    (happlies : i.rule.applies k.toEnv s e = true) (τ : Part → String) :
    (i.draft (k.withTexts τ) e).out s = (i.draft k e).out s := by
  simp only [idioms, List.mem_cons, List.not_mem_nil, or_false] at hi
  rcases hi with rfl | rfl | rfl | rfl | rfl | rfl | rfl | rfl | rfl | rfl
  case inr.inr.inr.inr.inr.inr.inr.inr.inr =>
    cases hr : call.receiver? with
    | none => simp [draftQuery, hcall, hr]
    | some receiver => exact draftQuery_withTexts hcall hr happlies τ
  all_goals rfl

theorem writes {i : Idiom} (hi : i ∈ idioms) {s : Session} (hcall : e.call? = some call)
    (happlies : i.rule.applies k.toEnv s e = true) : i.Writes k s e where
  text := text_draft hi k s e
  uniform τ := by rw [text_draft hi, draft_withTexts hi hcall happlies τ]

/-- The operands are mentioned as the arrangement says. -/
theorem described {i : Idiom} (hi : i ∈ idioms) {s : Session} (hcall : e.call? = some call)
    (happlies : i.rule.applies k.toEnv s e = true) :
    (i.arrangement k s e call).Describes call.operands ((i.draft k e).out s).1.mentions := by
  have hnone : ∀ {d : Draft}, d = code "" → Arrangement.straight.Describes call.operands d.mentions :=
    fun hd => Arrangement.describes_free (List.nil_sublist _) (hd ▸ rfl)
  simp only [idioms, List.mem_cons, List.not_mem_nil, or_false] at hi
  rcases hi with rfl | rfl | rfl | rfl | rfl | rfl | rfl | rfl | rfl | rfl
  · exact draftPrint_yields hcall s
  · dsimp only [arranged]
    cases hr : call.receiver? with
    | none => exact hnone (by simp [draftTask, hcall, hr])
    | some receiver => exact draftTask_yields hcall hr s
  · exact draftService_yields hcall s
  · exact draftNumeric_described hcall s
  · exact draftString_described hcall s
  · dsimp only [arranged]
    cases hr : call.receiver? with
    | none => exact hnone (by simp [draftMapLookup, hcall, hr])
    | some receiver => exact draftMapLookup_yields hcall hr s
  · simp [collectionProperties, memberAccess_of_call hcall] at happlies
  · cases hr : call.receiver? with
    | none => exact hnone (by simp [draftMethods, hcall, hr])
    | some receiver => exact draftMethods_yields hcall hr s
  · cases hr : call.receiver? with
    | none => exact hnone (by simp [draftMaterialize, hcall, hr])
    | some receiver => exact draftMaterialize_yields hcall hr s
  · dsimp only [arranged]
    cases hr : call.receiver? with
    | none => exact hnone (by simp [draftQuery, hcall, hr])
    | some receiver => exact draftQuery_described hcall hr s happlies

end Idiom

end Rules

/-! ## Order of evaluation -/

/-- In which order the built-in idioms mention the operands of a call: straight, those that are
    not plain in source order, and otherwise as the table of the rule says. The swapped ones
    and ranges do turn operands around. -/
theorem idioms_evaluation_order (k : Converter) (s : Session) (e : Expr) (call : Call) (hcall : e.call? = some call) :
    Rules.idioms.map (·.rule) = Rules.builtinExprs.filter (·.priority = Rule.idiom) ∧
    ∀ i ∈ Rules.idioms, i.rule.applies k.toEnv s e = true → i.Writes k s e ∧
      let ms := ((i.draft k e).out s).1.mentions
      match i.arrangement k s e call with
      | .straight => ((ms.filter fun m => !m.expr.isPlain).map (·.expr)).Sublist call.operands
      | .swapped order => ms.map (·.expr) = order ∧ Inverted order call.operands
      | .filled order => ms.map (·.expr) = order
      | .numbered start count => ms.map (·.expr) = [count, start] ∧ [start, count].Sublist call.operands
      | .delayed time => ms.map (·.expr) = [time]
      | .sorted base keys => ms.map (·.expr) = base :: keys.flatMap fun key => [key, key] := by
  refine ⟨Rules.idioms_rules, fun i hi happlies => ⟨Rules.Idiom.writes hi hcall happlies, ?_⟩⟩
  have h := Rules.Idiom.described hi hcall happlies
  have hfree : ∀ es : List Expr, (es.map Mention.free).map (·.expr) = es := fun es =>
    List.map_map.trans (List.map_id es)
  generalize ((i.draft k e).out s).1.mentions = ms at h
  dsimp only
  cases ha : i.arrangement k s e call <;> rw [ha] at h
  case straight => exact h.order
  case swapped order =>
    obtain ⟨rfl, -, hinverted⟩ := h
    exact ⟨hfree order, hinverted⟩
  case filled order =>
    obtain rfl := h
    exact hfree order
  case numbered start count =>
    obtain ⟨rfl, hsource⟩ := h
    exact ⟨rfl, hsource⟩
  case delayed time =>
    obtain rfl := h
    rfl
  case sorted base keys =>
    obtain ⟨a, b, -, -, rfl⟩ := h
    simp [List.map_flatMap]

/-- `load().ContainsKey(next())` -/
def keyTest : Expr := .methodCall (.call (.ident "load") []) "ContainsKey" [.call (.ident "next") []]

/-- The key is evaluated before the map. -/
theorem containsKey_key_first :
    (Engine.convertExpr {} .empty none keyTest).text = "(next() in load())" ∧
    ((Rules.draftMapLookup (Engine.converter {} .empty) keyTest).out {}).1.mentions.map (·.expr) =
      [.call (.ident "next") [], .call (.ident "load") []] := by
  obtain ⟨-, h⟩ := idioms_evaluation_order (Engine.converter {} .empty) {} keyTest _ rfl
  obtain ⟨-, hkey, -⟩ := h _ (List.get_mem Rules.idioms ⟨5, by decide⟩) (by decide +kernel)
  exact ⟨by rw [Engine.builtin_eq]; decide +kernel, hkey⟩

/-! ## Single evaluation -/

/-- How often, and inside of which functions, the built-in idioms mention the operands of a
    call. But for formats, ranges, delays and sort chains, those that are not plain are
    mentioned at most once and outside of functions, and no function captures a name. -/
theorem idioms_single_evaluation (k : Converter) (s : Session) (e : Expr) (call : Call) (hcall : e.call? = some call) :
    Rules.idioms.map (·.rule) = Rules.builtinExprs.filter (·.priority = Rule.idiom) ∧
    ∀ i ∈ Rules.idioms, i.rule.applies k.toEnv s e = true → i.Writes k s e ∧
      let ms := ((i.draft k e).out s).1.mentions
      match i.arrangement k s e call with
      | .straight | .swapped _ =>
        ((ms.filter fun m => !m.expr.isPlain).map (·.expr)).Subperm call.operands ∧
          (∀ m ∈ ms, m.expr.isPlain = false → m.within = []) ∧ ∀ m ∈ ms, ∀ f ∈ m.within, f.Synthetic
      | .filled order => ms = order.map .free
      | .numbered start count => ms = [.free count, ⟨[⟨.range, false, ["_", "i"]⟩], start⟩]
      | .delayed time => ms = [⟨[⟨.delay, false, ["resolve"]⟩], time⟩]
      | .sorted base keys => ∃ a b, Made.Synthetic ⟨.comparison, false, [a, b]⟩ ∧
          ms = .free base :: keys.flatMap fun key => List.replicate 2 ⟨[⟨.comparison, false, [a, b]⟩], key⟩ := by
  refine ⟨Rules.idioms_rules, fun i hi happlies => ⟨Rules.Idiom.writes hi hcall happlies, ?_⟩⟩
  have h := Rules.Idiom.described hi hcall happlies
  generalize ((i.draft k e).out s).1.mentions = ms at h
  dsimp only
  cases ha : i.arrangement k s e call <;> rw [ha] at h
  case straight => exact ⟨h.order.subperm, h.outside, h.hygienic⟩
  case swapped order =>
    obtain ⟨rfl, hsub, -⟩ := h
    refine ⟨?_, List.forall_mem_map.mpr fun _ _ _ => rfl, List.forall_mem_map.mpr fun _ _ => nofun⟩
    rw [Mention.map_filter_free (fun e => !e.isPlain)]
    exact List.filter_sublist.subperm.trans hsub
  case filled order => exact h
  case numbered start count => exact h.1
  case delayed time => exact h
  case sorted base keys =>
    obtain ⟨a, b, ha, hb, hms⟩ := h
    exact ⟨a, b, List.forall_mem_cons.mpr ⟨ha, List.forall_mem_singleton.mpr hb⟩, hms⟩

/-- `Enumerable.Range(i, n)` -/
def rangeFrom : Expr := .methodCall (.ident "Enumerable") "Range" [.ident "i", .ident "n"]

/-- A range that starts at a variable `i` starts at the index of each element instead. -/
theorem range_captures_index :
    (Engine.convertExpr {} .empty none rangeFrom).text = "Array.from(\x7b length: n \x7d, (_, i) => i + i)" ∧
    ((Rules.draftQuery (Engine.converter {} .empty) rangeFrom).out {}).1.mentions =
      [.free (.ident "n"), ⟨[⟨.range, false, ["_", "i"]⟩], .ident "i"⟩] := by
  obtain ⟨-, h⟩ := idioms_single_evaluation (Engine.converter {} .empty) {} rangeFrom _ rfl
  obtain ⟨-, hrange⟩ := h _ (List.get_mem Rules.idioms ⟨9, by decide⟩) (by decide +kernel)
  exact ⟨by rw [Engine.builtin_eq]; decide +kernel, hrange⟩

end ComponentScript
