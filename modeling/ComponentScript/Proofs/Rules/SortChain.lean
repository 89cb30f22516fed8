/-
  ComponentScript.Proofs.Rules.SortChain — a sort chain compares by its keys, in order.

  `Expr.sorted` writes a chain as the source has it, a first key and further keys over any
  base; `sortKeys?_sorted` reads base and keys back. The chain sorts with a comparator, which is
  read from its lines and run.

  - `sortChain_compares`: where the selectors are terms, the comparator runs to the end for any
    values of the keys, and gives the sign of their lexicographic comparison.
  - Operands with flat templates are terms (`Engine.isTerm_operand`). The necessity of this: a
    selector with a `??` that the operand scan misses, as that of `Expr.tickedLookup`, is left
    without parentheses. If what is in front of `??` is not null, no key is asked, and all
    elements compare equal.
-/

import ComponentScript.Proofs.Convert.FlatTemplates
import ComponentScript.Proofs.Convert.FreshNames
import ComponentScript.Proofs.Convert.HiddenOperators
import ComponentScript.Proofs.Convert.LexicallyClosed
import ComponentScript.Proofs.Script.Comparator
import ComponentScript.Rules.Query

namespace ComponentScript

open Script Text

/-! ## Chains -/

def SortStep.methodName (step : SortStep) : String :=
  (if step.isFirst then "OrderBy" else "ThenBy") ++ (if step.descending then "Descending" else "")

theorem SortStep.ofName?_methodName (step : SortStep) : ofName? step.methodName = some step := by
  obtain ⟨descending, isFirst⟩ := step
  cases descending <;> cases isFirst <;> rfl

/-- A key of a chain, as the source calls it. -/
structure SortLink where
  key : Argument
  descending : Bool
  typeArgs : List TypeRef := []
  methodSpan : Span := {}
  span : Span := {}

namespace SortLink

def sortKey (l : SortLink) : SortKey := ⟨l.key.expr, l.descending⟩

/-- The call on a receiver, as the first key of a chain or as a further one. -/
def call (l : SortLink) (isFirst : Bool) (receiver : Expr) : Expr :=
  ⟨l.span, .invocation ⟨l.methodSpan, .member receiver (SortStep.methodName ⟨l.descending, isFirst⟩)⟩
    l.typeArgs [l.key]⟩

variable (l : SortLink) (receiver : Expr)

theorem call?_call (isFirst : Bool) : (l.call isFirst receiver).call? =
    some ⟨some receiver, SortStep.methodName ⟨l.descending, isFirst⟩, l.typeArgs, [l.key]⟩ := rfl

theorem isSortStep_call (isFirst : Bool) : (l.call isFirst receiver).isSortStep = true := by
  rw [Expr.isSortStep, call?_call, Option.any_some, SortStep.ofName?_methodName]
  rfl

theorem sortKeys?_first : (l.call true receiver).sortKeys? = some (receiver, [l.sortKey]) := by
  rw [call, Expr.sortKeys?, SortStep.ofName?_methodName]
  rfl

/-- A further key joins the chain in front of it. -/
theorem sortKeys?_further {base : Expr} {keys : List SortKey} (hstep : receiver.isSortStep = true)
    (hkeys : receiver.sortKeys? = some (base, keys)) :
    (l.call false receiver).sortKeys? = some (base, keys ++ [l.sortKey]) := by
  rw [call, Expr.sortKeys?, SortStep.ofName?_methodName]
  simp only [hstep, hkeys, Bool.not_true, Bool.or_self, Bool.false_eq_true, if_false, Option.map_some]
  rfl

end SortLink

/-- `base.OrderBy(first).ThenBy(..)`, each key in its direction. -/
def Expr.sorted (base : Expr) (first : SortLink) (further : List SortLink) : Expr :=
  further.foldl (fun e l => l.call false e) (first.call true base)

/-- Further keys join whatever chain they are called on. -/
theorem Expr.sortKeys?_foldl {e base : Expr} {keys : List SortKey} (hstep : e.isSortStep = true)
    (hkeys : e.sortKeys? = some (base, keys)) (further : List SortLink) :
    (further.foldl (fun e l => l.call false e) e).sortKeys? = some (base, keys ++ further.map (·.sortKey)) := by
  induction further generalizing e keys with
  | nil => rw [List.map_nil, List.append_nil, List.foldl_nil, hkeys]
  | cons l further ih =>
    have := ih (l.isSortStep_call e false) (l.sortKeys?_further e hstep hkeys)
    rwa [List.append_assoc, List.singleton_append] at this

/-- However long the chain is, its base is what the first key is called on. -/
theorem Expr.sortKeys?_sorted (base : Expr) (first : SortLink) (further : List SortLink) :
    (base.sorted first further).sortKeys? = some (base, (first :: further).map (·.sortKey)) :=
  sortKeys?_foldl (first.isSortStep_call base true) (first.sortKeys?_first base) further

/-! ## Emission -/

namespace Rules

/-- The keys of a chain with the texts of their selectors, named from a count on. -/
def comparedKeys (n : Nat) : List (SortKey × String) → List ComparedKey
  | [] => []
  | (key, selector) :: keys =>
    ⟨Synthetic.name ⟨"x", n⟩, Synthetic.name ⟨"y", n + 1⟩, selector, key.descending⟩ :: comparedKeys (n + 2) keys

theorem map_selector_comparedKeys (n : Nat) (keys : List (SortKey × String)) :
    (comparedKeys n keys).map (·.selector) = keys.map (·.2) := by
  induction keys generalizing n with
  | nil => rfl
  | cons key keys ih => rw [comparedKeys, List.map_cons, List.map_cons, ih]

theorem map_descending_comparedKeys (n : Nat) (keys : List (SortKey × String)) :
    (comparedKeys n keys).map (·.descending) = keys.map (·.1.descending) := by
  induction keys generalizing n with
  | nil => rfl
  | cons key keys ih => rw [comparedKeys, List.map_cons, List.map_cons, ih]

theorem compareLines_out (left right : String) (key : SortKey) (selector : String) (s : Session) :
    (compareLines left right key selector).out s =
      ((comparedKeys s.counter [(key, selector)]).flatMap (·.lines left right),
        { s with counter := s.counter + 2 }) := by
  rw [comparedKeys, comparedKeys, List.flatMap_cons, List.flatMap_nil, List.append_nil]
  rfl

theorem mapM_compareLines_out (left right : String) (keys : List (SortKey × String)) (s : Session) :
    (((keys.mapM fun (key, selector) => compareLines left right key selector).out s).1).flatten =
      (comparedKeys s.counter keys).flatMap (·.lines left right) := by
  induction keys generalizing s with
  | nil => rfl
  | cons key keys ih =>
    simp only [List.mapM_cons, Emit.out_bind, Emit.out_pure, List.flatten_cons, compareLines_out, ih]
    simp [comparedKeys]

/-- The comparator by keys, named from a count on. -/
def comparator (n : Nat) (keys : List (SortKey × String)) : Comparator :=
  ⟨Synthetic.name ⟨"a", n⟩, Synthetic.name ⟨"b", n + 1⟩, comparedKeys (n + 2) keys⟩

theorem name_ne {stem next : String} {m n : Nat} (hstem : endsInDigit stem = false) (hnext : endsInDigit next = false)
    (hn : m ≠ n) : Synthetic.name ⟨stem, m⟩ ≠ Synthetic.name ⟨next, n⟩ :=
  fun heq => hn (Synthetic.number_eq (n := ⟨stem, m⟩) (i := ⟨next, n⟩) hstem hnext heq)

/-- A name that was drawn before those of the keys is none of them. -/
theorem notMem_names {stem : String} {m n : Nat} (hstem : endsInDigit stem = false) (hn : m < n)
    (keys : List (SortKey × String)) : Synthetic.name ⟨stem, m⟩ ∉ (comparedKeys n keys).flatMap (·.names) := by
  induction keys generalizing n with
  | nil => exact List.not_mem_nil
  | cons key keys ih =>
    refine List.not_mem_cons_of_ne_of_not_mem (name_ne hstem (by decide) (by omega)) ?_
    exact List.not_mem_cons_of_ne_of_not_mem (name_ne hstem (by decide) (by omega)) (ih (by omega))

/-- Two names that are drawn one after the other, and those of the keys behind them. -/
theorem nodup_cons_cons {stem next : String} {n : Nat} {keys : List (SortKey × String)}
    (hstem : endsInDigit stem = false) (hnext : endsInDigit next = false)
    (hkeys : ((comparedKeys (n + 2) keys).flatMap (·.names)).Nodup) :
    (Synthetic.name ⟨stem, n⟩ :: Synthetic.name ⟨next, n + 1⟩ ::
      (comparedKeys (n + 2) keys).flatMap (·.names)).Nodup := by
  refine List.nodup_cons.mpr ⟨?_, List.nodup_cons.mpr ⟨notMem_names hnext (by omega) keys, hkeys⟩⟩
  exact List.not_mem_cons_of_ne_of_not_mem (name_ne hstem hnext (by omega)) (notMem_names hstem (by omega) keys)

theorem nodup_names_comparedKeys (n : Nat) (keys : List (SortKey × String)) :
    ((comparedKeys n keys).flatMap (·.names)).Nodup := by
  induction keys generalizing n with
  | nil => exact List.nodup_nil
  | cons key keys ih => exact nodup_cons_cons (by decide) (by decide) (ih (n + 2))

theorem nodup_names_comparator (n : Nat) (keys : List (SortKey × String)) : (comparator n keys).names.Nodup :=
  nodup_cons_cons (by decide) (by decide) (nodup_names_comparedKeys (n + 2) keys)

/-- All of its names are fresh ones. -/
theorem names_comparator (n : Nat) (keys : List (SortKey × String)) :
    ∀ name ∈ (comparator n keys).names, isIdentifier name = true ∧ name ∉ keywords := by
  have hfresh : ∀ {stem : String} (n : Nat), isIdentifier stem = true →
      isIdentifier (Synthetic.name ⟨stem, n⟩) = true ∧ Synthetic.name ⟨stem, n⟩ ∉ keywords :=
    fun n hstem => ⟨Synthetic.isIdentifier hstem, Synthetic.notMem_keywords _⟩
  have hkeys : ∀ n, ∀ name ∈ (comparedKeys n keys).flatMap (·.names), isIdentifier name = true ∧ name ∉ keywords := by
    induction keys with
    | nil => exact fun _ => List.forall_mem_nil _
    | cons key keys ih =>
      intro n
      refine List.forall_mem_cons.mpr ⟨hfresh n (by decide +kernel), List.forall_mem_cons.mpr ⟨?_, ih (n + 2)⟩⟩
      exact hfresh (n + 1) (by decide +kernel)
  refine List.forall_mem_cons.mpr ⟨hfresh n (by decide +kernel), List.forall_mem_cons.mpr ⟨?_, hkeys (n + 2)⟩⟩
  exact hfresh (n + 1) (by decide +kernel)

theorem sortChain_out (k : Converter) {e base : Expr} {keys : List SortKey} (he : e.sortKeys? = some (base, keys))
    (s : Session) :
    let source := (k.expr base).out s
    let selectors := (keys.mapM fun key => k.operand key.selector).out source.2
    ((sortChain k e).out s).1 =
      s!"[...{source.1}].sort({(comparator selectors.2.counter (keys.zip selectors.1)).text k.indent})" := by
  intro source selectors
  have hlines : (comparator selectors.2.counter (keys.zip selectors.1)).lines =
      (((keys.zip selectors.1).mapM fun (key, selector) => compareLines (Synthetic.name ⟨"a", selectors.2.counter⟩)
        (Synthetic.name ⟨"b", selectors.2.counter + 1⟩) key selector).out
          { selectors.2 with counter := selectors.2.counter + 2 }).1.flatten ++ ["return 0;"] := by
    rw [mapM_compareLines_out]
    rfl
  rw [Comparator.text, ← Comparator.block_lines, hlines, sortChain, he]
  show _ ++ "].sort((" ++ _ ++ _ ++ _ ++ _ ++ _ ++ ")" = _ ++ "].sort(" ++ ("(" ++ _ ++ _ ++ _ ++ _ ++ _) ++ ")"
  rw [show "].sort((" = "].sort(" ++ "(" by decide]
  simp only [String.append_assoc]
  rfl

end Rules

/-- A chain is left to the rule for sorting, since none of its calls makes a sequence. -/
theorem Expr.sequenceQuery_sorted (k : Converter) (base : Expr) (first : SortLink) (further : List SortLink) :
    Rules.sequenceQuery.convert k (base.sorted first further) = Rules.sortChain k (base.sorted first further) := by
  have hlast : ∃ (l : SortLink) (isFirst : Bool) (receiver : Expr),
    base.sorted first further = l.call isFirst receiver := by
    rcases List.eq_nil_or_concat further with rfl | ⟨further, l, rfl⟩
    · exact ⟨first, true, base, rfl⟩
    · refine ⟨l, false, base.sorted first further, ?_⟩
      rw [sorted, List.concat_eq_append, List.foldl_append]
      rfl
  obtain ⟨l, isFirst, receiver, hlast⟩ := hlast
  rw [hlast]
  have hfactory : ∀ s, Rules.isFactoryCall k.toEnv s
      ⟨some receiver, SortStep.methodName ⟨l.descending, isFirst⟩, l.typeArgs, [l.key]⟩ = false := by
    intro s
    cases l.descending <;> cases isFirst <;> exact Bool.and_false _
  refine Emit.ext_out fun s => ?_
  simp only [Rules.sequenceQuery, SortLink.call?_call, Option.bind_some, Option.map_some, Emit.out_bind, Emit.out_get,
    hfactory, SortStep.ofName?_methodName, Bool.false_eq_true, if_false, Option.isSome_some, if_true]

/-! ## Selectors -/

/-- An operand with flat templates is a term. -/
theorem Engine.isTerm_operand {m : Model} {s : Session} (hs : s.Tidy) {e : Expr} (hnamed : (Node.expr e).WellNamed)
    (hflat : e.Flat m false) :
    let t := (((({} : Engine).converter m).operand e).out s).1
    t ∉ keywords → IsTerm t := by
  intro t hkeyword
  have hclosed := (Converter.expr_closed (Engine.converter_closing Engine.builtin_closing m) hnamed s hs.namesCatches).1
  refine IsTerm.operand hclosed fun hbare => ?_
  obtain ⟨hne, htight⟩ := (Engine.flat_reads_plain hflat hs).1.whole.operand_eq_iff.mp hbare
  refine ⟨hne, htight, ?_⟩
  rw [← hbare]
  exact hkeyword

/-- The rule for queries sorts a chain of any length, on any base, with a comparator that has the
    operands of its keys as selectors, in order and each in its direction. The comparator is read
    from its lines, and run for any elements and any meaning of the terms in it:
    - if the selectors are terms, the result is the sign of the lexicographic comparison by the
      keys, which is 0 if and only if all keys are equal;
    - if the only selector is two terms with `??` between them, the result is 0 whatever the keys
      are, unless the first term, which is not a call, is null.

    With the built-in rules and the default settings, the operands of well-named expressions with
    flat templates are terms, keywords apart. The expression `Expr.tickedLookup` is an operand as
    it is, with its `??`. -/
theorem sortChain_compares (k : Converter) (base : Expr) (first : SortLink) (further : List SortLink) (s : Session) :
    let links := first :: further
    let e := base.sorted first further
    let source := (k.expr base).out s
    let selectors := ((links.map (·.sortKey)).mapM fun key => k.operand key.selector).out source.2
    e.sortKeys? = some (base, links.map (·.sortKey)) ∧
    (∃ c : Comparator,
      ((Rules.sequenceQuery.convert k e).out s).1 = s!"[...{source.1}].sort({c.text k.indent})" ∧
      c.keys.map (·.selector) = selectors.1 ∧ c.keys.map (·.descending) = links.map (·.descending) ∧
      ∀ {E V : Type} [LinearOrder V] (μ : KeyMeaning E V) (l r : E),
        let f : KeyValues E V := fun i key => μ.call i key.selector
        ((∀ t ∈ selectors.1, IsTerm t) →
          c.run μ l r = some (sign (f.lexicographic l r 0 c.keys)) ∧
          (c.run μ l r = some 0 ↔ ∀ (i : Nat) (key : ComparedKey), c.keys[i]? = some key → f i key l = f i key r)) ∧
        ∀ u w v, selectors.1 = [u ++ " ?? " ++ w] → IsTerm u → KeyTerm.read u = .other u → IsTerm w →
          μ.other 0 u = some v → c.run μ l r = some 0) ∧
    (∀ (m : Model) (r : Session) (x : Expr), r.Tidy → (Node.expr x).WellNamed → x.Flat m false →
      let t := (((({} : Engine).converter m).operand x).out r).1
      t ∉ keywords → IsTerm t) ∧
    ∀ settings m (r : Session) span table other, r.isBound table → r.isBound other → isIdentifier table = true →
      isIdentifier other = true → table ∉ keywords → other ∉ keywords →
      let u := table ++ "[" ++ tickTemplate ++ "]"
      (((({ settings := settings } : Engine).converter m).operand (.tickedLookup span table other)).out r).1 =
        u ++ " ?? " ++ other ∧ IsTerm u ∧ KeyTerm.read u = .other u ∧ IsTerm other := by
  intro links e source selectors
  have hkeys : e.sortKeys? = some (base, links.map (·.sortKey)) := base.sortKeys?_sorted first further
  have hlength : (links.map (·.sortKey)).length = selectors.1.length := (Emit.length_mapM _ _ _).symm
  let c := Rules.comparator selectors.2.counter ((links.map (·.sortKey)).zip selectors.1)
  have hselectors : c.keys.map (·.selector) = selectors.1 :=
    (Rules.map_selector_comparedKeys _ _).trans (List.map_snd_zip (Nat.le_of_eq hlength.symm))
  have hrun : ∀ {E V : Type} [LinearOrder V] {μ : KeyMeaning E V} {f : KeyValues E V},
      (∀ (i : Nat) (key : ComparedKey), c.keys[i]? = some key → key.Selects μ i (f i key)) →
      ∀ l r, c.run μ l r = some (sign (f.lexicographic l r 0 c.keys)) :=
    fun hsel => c.run_eq (Rules.names_comparator _ _) (Rules.nodup_names_comparator _ _) hsel
  refine ⟨hkeys, ⟨c, ?_, hselectors, ?_, fun {E V} _ μ l r => ⟨?_, ?_⟩⟩, ?_, ?_⟩
  · rw [Expr.sequenceQuery_sorted]
    exact Rules.sortChain_out k hkeys s
  · have hfst := congrArg (List.map (·.descending)) (List.map_fst_zip (Nat.le_of_eq hlength))
    rw [List.map_map, List.map_map] at hfst
    exact (Rules.map_descending_comparedKeys _ _).trans hfst
  · intro hterms
    have hresult : c.run μ l r =
        some (sign (KeyValues.lexicographic (fun i key => μ.call i key.selector) l r 0 c.keys)) := by
      refine hrun (fun i key hkey => ComparedKey.selects_term (hterms _ ?_)) l r
      rw [← hselectors]
      exact List.mem_map_of_mem (List.mem_of_getElem? hkey)
    refine ⟨hresult, ?_⟩
    rw [hresult, Option.some_inj, sign_eq_zero_iff, KeyValues.lexicographic_eq_iff]
    simp only [Nat.zero_add]
  · intro u w v hone hu hother hw hv
    have hresult : c.run μ l r =
        some (sign (KeyValues.lexicographic (fun i _ e => (μ.other i u).getD (μ.call i w e)) l r 0 c.keys)) := by
      refine hrun (fun i key hkey => ComparedKey.selects_coalesce hu hother hw ?_) l r
      have hmem : key.selector ∈ [u ++ " ?? " ++ w] := by
        rw [← hone, ← hselectors]
        exact List.mem_map_of_mem (List.mem_of_getElem? hkey)
      exact List.mem_singleton.mp hmem
    have hlength : c.keys.length = 1 := by rw [← List.length_map, hselectors, hone, List.length_singleton]
    rw [hresult, Option.some_inj, sign_eq_zero_iff, KeyValues.lexicographic_eq_iff]
    intro j key hkey
    -- the only key has the value in front of `??` for both elements
    obtain ⟨hj, -⟩ := List.getElem?_eq_some_iff.mp hkey
    obtain rfl : j = 0 := by omega
    rw [Nat.zero_add, hv, Option.getD_some, Option.getD_some]
  · exact fun m r x hr hnamed hflat => Engine.isTerm_operand hr hnamed hflat
  · intro settings m r span table other ht ho htable hother hkt hko u
    have hu : IsTerm u := isTerm_lookup (isTerm_of_isIdentifier htable hkt)
    refine ⟨?_, hu, KeyTerm.read_other ?_, isTerm_of_isIdentifier hother hko⟩
    · have htext := Engine.tickedLookup_out settings m span ht (operand_name htable) ho
      simp only [Converter.operand, Emit.out_bind, Emit.out_pure, htext]
      exact operand_tickedLookup htable hother
    · have hlist : u.toList = (table ++ "[" ++ tickTemplate).toList ++ [']'] := String.toList_append
      rw [hlist, List.getLast?_concat]
      decide

/-- A chain of two named selectors compares by both of them, the second descending. With a lookup
    that is not null in front of the selector, different keys compare equal. -/
theorem sortChain_compares_named :
    let k := ({} : Engine).converter Model.empty
    let s : Session := ({} : Session).openScope ["xs", "byName", "byAge", "table"]
    let name (x : String) : Expr := ⟨{}, .identifier x⟩
    let named : Expr := (name "xs").sorted { key := .positional (name "byName"), descending := false }
      [{ key := .positional (name "byAge"), descending := true }]
    let looked : Expr := (name "xs").sorted
      { key := .positional (.tickedLookup {} "table" "byName"), descending := false } []
    (∃ c : Comparator,
      ((Rules.sequenceQuery.convert k named).out s).1 = s!"[...xs].sort({c.text k.indent})" ∧
      let μ : KeyMeaning (Nat × Nat) Nat := ⟨fun i _ e => if i = 0 then e.1 else e.2, fun _ _ => none⟩
      ∀ l r, c.run μ l r = some (sign ((compare l.1 r.1).then (compare l.2 r.2).swap))) ∧
    ∃ c : Comparator,
      ((Rules.sequenceQuery.convert k looked).out s).1 = s!"[...xs].sort({c.text k.indent})" ∧
      c.run ⟨fun _ _ key => key, fun _ _ => some 7⟩ 1 2 = some 0 := by
  intro k s name named looked
  have hbound : ∀ x ∈ ["xs", "byName", "byAge", "table"], s.isBound x = true := by decide
  have hout : ∀ x ∈ ["xs", "byName", "byAge", "table"], (k.expr (name x)).out s = (x, s) :=
    fun x hx => Engine.bound_out {} .empty {} (hbound x hx)
  have hname : ∀ x ∈ ["byName", "byAge", "table"], isIdentifier x = true ∧ x ∉ keywords := by decide +kernel
  obtain ⟨⟨hbyName, hkeyName⟩, ⟨hbyAge, hkeyAge⟩, htable, hkeyTable⟩ :=
    And.intro (hname "byName" (by decide)) (And.intro (hname "byAge" (by decide)) (hname "table" (by decide)))
  constructor
  · obtain ⟨-, ⟨c, htext, -, hdescending, hrun⟩, -⟩ := sortChain_compares k (name "xs")
      { key := .positional (name "byName"), descending := false }
      [{ key := .positional (name "byAge"), descending := true }] s
    simp only [hout "xs" (by decide), List.map_cons, List.map_nil, SortLink.sortKey, List.mapM_cons, List.mapM_nil,
      Argument.positional, Converter.operand, Emit.out_bind, Emit.out_pure, hout "byName" (by decide),
      hout "byAge" (by decide), operand_name hbyName, operand_name hbyAge] at htext hdescending hrun
    have hterms : ∀ t ∈ ["byName", "byAge"], IsTerm t := List.forall_mem_cons.mpr
      ⟨isTerm_of_isIdentifier hbyName hkeyName, List.forall_mem_singleton.mpr (isTerm_of_isIdentifier hbyAge hkeyAge)⟩
    obtain ⟨first, keys, hkeys, hfirst, hrest⟩ := List.map_eq_cons_iff.mp hdescending
    obtain ⟨second, keys', rfl, hsecond, hnil⟩ := List.map_eq_cons_iff.mp hrest
    obtain rfl := List.map_eq_nil_iff.mp hnil
    refine ⟨c, htext, fun l r => ?_⟩
    rw [((hrun _ l r).1 hterms).1, hkeys]
    simp only [KeyValues.lexicographic, KeyValues.orderBy, hfirst, hsecond, Ordering.then_eq]
    rfl
  · obtain ⟨-, ⟨c, htext, -, -, hrun⟩, -, hlooked⟩ := sortChain_compares k (name "xs")
      { key := .positional (.tickedLookup {} "table" "byName"), descending := false } [] s
    obtain ⟨hselector, hu, hother, hw⟩ := hlooked {} .empty s {} "table" "byName" (hbound _ (by decide))
      (hbound _ (by decide)) htable hbyName hkeyTable hkeyName
    have hselectors : (([(SortLink.sortKey
        { key := .positional (.tickedLookup {} "table" "byName"), descending := false })].mapM
          fun key => k.operand key.selector).out s).1 =
        ["table" ++ "[" ++ tickTemplate ++ "]" ++ " ?? " ++ "byName"] := by
      rw [← hselector, List.mapM_cons]
      rfl
    simp only [hout "xs" (by decide)] at htext hrun
    exact ⟨c, htext, (hrun _ 1 2).2 _ _ 7 hselectors hu hother hw rfl⟩

end ComponentScript
