/-
  ComponentScript.Proofs.Convert.SharedOperands — operands that are bound once.

  Operands are shared one after the other (`Turn`): each is converted in the session that the
  one before it has left, and unless it is plain a name is drawn for it then. The conversions
  may draw any number of names in between, and share operands of their own.

  - `Converter.sharedAll_out`: what is bound and what stands for the operands, turn by turn.
  - `Converter.computed_ordered`: where no conversion counts back, the names are drawn with
    rising numbers, so they are different.
  - `sharedOperands_bound_once`: both together, and what becomes of a body.
-/

import ComponentScript.Convert.Sharing
import ComponentScript.Proofs.Convert.FreshNames
import ComponentScript.Proofs.Script.ArrowCall

namespace ComponentScript

open Script

/-! ## Steps that never count back -/

def Emit.Counting {α : Type} (m : Emit α) : Prop := ∀ s : Session, s.counter ≤ (m.out s).2.counter

theorem Emit.Counting.freshName (stem : String) : (Emit.freshName stem).Counting := fun s => Nat.le_succ s.counter

theorem Emit.Counting.composes : Emit.Composes Emit.Counting where
  pure _ _ := Nat.le_refl _
  bind hm hf s := Nat.le_trans (hm s) (hf _ _)
  look hf s := hf s s
  freshName _ := Counting.freshName _
  bindName name s := by
    rw [Emit.out_bindName]
    unfold Session.bind
    split <;> exact Nat.le_refl _
  report _ _ := Nat.le_refl _
  withScope names hm s := hm (s.openScope names)
  withCatch binding hm s := hm (s.openCatch binding)

/-- The stems may be any, also such that end in digits. -/
theorem Emit.OnlyDraws.counting {α : Type} {m : Emit α} (h : m.OnlyDraws) : m.Counting := by
  induction h with
  | pure a => exact Counting.composes.pure a
  | look f _ ih => exact Counting.composes.look ih
  | draw stem f _ ih => exact Counting.composes.bind (Counting.freshName stem) ih

theorem Engine.Admissible.counting {g : Engine} (hg : g.Admissible) : g.Passes Emit.Counting where
  exprRules r hr k hk e := by
    rcases hg.exprRules r hr with hbuiltin | hdraws
    · exact (Rules.builtinExprs_calling r hbuiltin).passes Emit.Counting.composes k hk e
    · exact (hdraws k e).counting
  stmtRules r hr k hk x := by
    rcases hg.stmtRules r hr with hbuiltin | hdraws
    · exact (Rules.builtinStmts_calling r hbuiltin).passes Emit.Counting.composes k hk x
    · exact (hdraws k x).counting

/-! ## Turns -/

/-- The turn of an operand, which is converted in the session. -/
structure Turn where
  expr : Expr
  session : Session

namespace Turn

variable (k : Converter) (t : Turn)

def isComputed : Bool := !t.expr.isPlain

/-- The text of the operand, and the session then. -/
def converted : String × Session := (k.expr t.expr).out t.session

def text : String := (t.converted k).1

/-- The name that is drawn behind the conversion, and the session then. -/
def drawn : String × Session := (Emit.freshName "v").out (t.converted k).2

def param : String := (t.drawn k).1

/-- What stands for the operand. -/
def standIn : String := if t.expr.isPlain then operand (t.text k) else t.param k

/-- The session that the next operand is converted in. -/
def next : Session := if t.expr.isPlain then (t.converted k).2 else (t.drawn k).2

/-- The name with its number. -/
def synthetic : Synthetic := ⟨"v", (t.converted k).2.counter⟩

theorem param_eq : t.param k = (t.synthetic k).name := rfl

theorem readable_synthetic : (t.synthetic k).Readable := (rfl : endsInDigit "v" = false)

theorem isItem_param : IsItem (t.param k) := by
  have hbare : Bare (t.synthetic k).stem := show Bare "v" by decide
  rw [param_eq]
  exact (Synthetic.isOperand hbare).isItem

end Turn

namespace Converter

variable (k : Converter)

/-- The turns of the operands, from a session on. -/
def turns (s : Session) : List Expr → List Turn
  | [] => []
  | e :: es => ⟨e, s⟩ :: turns (Turn.next k ⟨e, s⟩) es

/-- The turns that a name is drawn in. -/
def computed (s : Session) (es : List Expr) : List Turn := (k.turns s es).filter Turn.isComputed

theorem turns_expr (s : Session) (es : List Expr) : (k.turns s es).map (·.expr) = es := by
  induction es generalizing s with
  | nil => rfl
  | cons e es ih => rw [turns, List.map_cons, ih]

theorem computed_cons (s : Session) (e : Expr) (es : List Expr) :
    k.computed s (e :: es) = [⟨e, s⟩].filter Turn.isComputed ++ k.computed (Turn.next k ⟨e, s⟩) es := by
  rw [computed, turns, ← List.singleton_append, List.filter_append]
  rfl

/-! ## What a run gives -/

theorem shared_out (sh : Sharing) (e : Expr) (s : Session) :
    (k.shared sh e).out s =
      ((Turn.standIn k ⟨e, s⟩,
        ⟨sh.bindings ++ ([⟨e, s⟩].filter Turn.isComputed).map fun t => (t.param k, t.text k)⟩),
          Turn.next k ⟨e, s⟩) := by
  cases h : e.isPlain <;>
    simp [shared, Sharing.share, Turn.standIn, Turn.next, Turn.isComputed, Turn.text, Turn.converted, Turn.param,
      Turn.drawn, h]

theorem sharedAll_cons (sh : Sharing) (e : Expr) (es : List Expr) :
    k.sharedAll sh (e :: es) =
      k.shared sh e >>= fun r => k.sharedAll r.2 es >>= fun rs => pure (r.1 :: rs.1, rs.2) := rfl

/-- The operands have their texts in order, and those that are not plain are bound in order,
    each by its name. -/
theorem sharedAll_out (sh : Sharing) (es : List Expr) (s : Session) :
    ((k.sharedAll sh es).out s).1 =
      ((k.turns s es).map (·.standIn k),
        ⟨sh.bindings ++ (k.computed s es).map fun t => (t.param k, t.text k)⟩) := by
  induction es generalizing sh s with
  | nil => simp [sharedAll, turns, computed]
  | cons e es ih =>
    rw [sharedAll_cons, Emit.out_bind, shared_out, Emit.out_bind, Emit.out_pure, ih, computed_cons, List.map_append,
      List.append_assoc]
    rfl

/-! ## The names -/

variable {k : Converter}

/-- No turn has a number below the counter of the first session. -/
theorem counter_le_number (hk : k.Has Emit.Counting) {s : Session} {es : List Expr} {t : Turn} (ht : t ∈ k.turns s es) :
    s.counter ≤ (t.synthetic k).number := by
  induction es generalizing s with
  | nil => exact absurd ht List.not_mem_nil
  | cons e es ih =>
    have hconverted : s.counter ≤ (Turn.converted k ⟨e, s⟩).2.counter := hk.exprAs none e s
    have hnext : (Turn.converted k ⟨e, s⟩).2.counter ≤ (Turn.next k ⟨e, s⟩).counter := by
      unfold Turn.next
      split
      · exact Nat.le_refl _
      · exact Nat.le_succ _
    rcases List.mem_cons.mp ht with rfl | ht
    · exact hconverted
    · exact Nat.le_trans (Nat.le_trans hconverted hnext) (ih ht)

theorem next_counter {t : Turn} (h : t.isComputed = true) : (t.next k).counter = (t.synthetic k).number + 1 := by
  have hplain : t.expr.isPlain = false := by simpa [Turn.isComputed] using h
  rw [Turn.next, hplain]
  rfl

/-- The names have rising numbers, whatever is drawn in between. -/
theorem computed_ordered (hk : k.Has Emit.Counting) (s : Session) (es : List Expr) :
    (k.computed s es).Pairwise fun t u => (t.synthetic k).number < (u.synthetic k).number := by
  induction es generalizing s with
  | nil => exact .nil
  | cons e es ih =>
    rw [computed_cons, List.pairwise_append]
    refine ⟨(List.pairwise_singleton _ _).filter _, ih _, fun t ht u hu => ?_⟩
    obtain ⟨hmem, hcomputed⟩ := List.mem_filter.mp ht
    obtain rfl := List.mem_singleton.mp hmem
    have hnext := next_counter (k := k) hcomputed
    have hle := counter_le_number hk (List.mem_of_mem_filter hu)
    omega

theorem computed_params_nodup (hk : k.Has Emit.Counting) (s : Session) (es : List Expr) :
    ((k.computed s es).map (·.param k)).Nodup := by
  rw [List.Nodup, List.pairwise_map]
  refine (computed_ordered hk s es).imp fun {t u} hlt heq => ?_
  rw [Turn.param_eq, Turn.param_eq] at heq
  have hnumber := Synthetic.number_eq (t.readable_synthetic k) (u.readable_synthetic k) heq
  omega

theorem shared_takes (hk : k.Accounted) (sh : Sharing) (e : Expr) (s : Session) :
    ∃ ns, (k.shared sh e).Takes s ns ∧ (∀ n ∈ ns, n.Readable) ∧
      (([⟨e, s⟩].filter Turn.isComputed).map (·.param k)).Sublist (ns.map Synthetic.name) := by
  obtain ⟨ns, hns, hr⟩ := hk.exprAs none e s
  by_cases h : e.isPlain = true
  · have hshare : (sh.share e (Turn.text k ⟨e, s⟩)).Takes (Turn.converted k ⟨e, s⟩).2 [] := by
      rw [Sharing.share, if_pos h]
      exact .pure _ _
    refine ⟨ns ++ [], .bind hns hshare, by rwa [List.append_nil], ?_⟩
    rw [List.filter_cons_of_neg (by simp [Turn.isComputed, h])]
    exact List.nil_sublist _
  · have hshare : (sh.share e (Turn.text k ⟨e, s⟩)).Takes (Turn.converted k ⟨e, s⟩).2
        ([Turn.synthetic k ⟨e, s⟩] ++ []) := by
      rw [Sharing.share, if_neg h]
      exact .bind (.freshName "v" _) (.pure _ _)
    refine ⟨ns ++ ([Turn.synthetic k ⟨e, s⟩] ++ []), .bind hns hshare, ?_, ?_⟩
    · exact List.forall_mem_append.mpr ⟨hr, List.forall_mem_singleton.mpr (Turn.readable_synthetic k ⟨e, s⟩)⟩
    · rw [List.filter_cons_of_pos (by simp [Turn.isComputed, h]), List.map_append]
      exact List.sublist_append_right _ _

/-- The names are among all that are taken in the course of it, also by the conversions. -/
theorem sharedAll_takes (hk : k.Accounted) (sh : Sharing) (es : List Expr) (s : Session) :
    ∃ ns, (k.sharedAll sh es).Takes s ns ∧ (∀ n ∈ ns, n.Readable) ∧
      ((k.computed s es).map (·.param k)).Sublist (ns.map Synthetic.name) := by
  induction es generalizing sh s with
  | nil => exact ⟨[], .pure _ s, List.forall_mem_nil _, List.Sublist.refl _⟩
  | cons e es ih =>
    obtain ⟨ns, hns, hr, hsub⟩ := shared_takes hk sh e s
    have hout := k.shared_out sh e s
    obtain ⟨is, his, hi, hsub'⟩ := ih ((k.shared sh e).out s).1.2 ((k.shared sh e).out s).2
    refine ⟨ns ++ (is ++ []), ?_, ?_, ?_⟩
    · rw [sharedAll_cons]
      exact .bind hns (.bind his (.pure _ _))
    · rw [List.append_nil]
      exact List.forall_mem_append.mpr ⟨hr, hi⟩
    · rw [computed_cons, List.append_nil, List.map_append, List.map_append]
      rw [hout] at hsub'
      exact hsub.append hsub'

end Converter

/-! ## The body -/

namespace Sharing

variable {sh : Sharing}

theorem wrap_of_nil (h : sh.bindings = []) (body : String) : sh.wrap body = body := by
  rw [wrap, isEmpty, h]
  rfl

theorem wrap_of_ne_nil (h : sh.bindings ≠ []) (body : String) :
    sh.wrap body = ArrowCall.text ⟨sh.bindings.map (·.1), body, sh.bindings.map (·.2)⟩ := by
  have hempty : sh.isEmpty = false := by simpa [isEmpty] using h
  rw [wrap, hempty]
  rfl

end Sharing

theorem Converter.computed_eq_nil_iff {k : Converter} {s : Session} {es : List Expr} :
    k.computed s es = [] ↔ ∀ e ∈ es, e.isPlain = true := by
  have hmem : ∀ e, e ∈ es ↔ ∃ t ∈ k.turns s es, t.expr = e := fun e => by
    rw [← List.mem_map, turns_expr]
  rw [computed, List.filter_eq_nil_iff]
  constructor
  · intro hnone e he
    obtain ⟨t, ht, rfl⟩ := (hmem e).mp he
    simpa [Turn.isComputed] using hnone t ht
  · intro hplain t ht
    simpa [Turn.isComputed] using hplain t.expr ((hmem t.expr).mpr ⟨t, ht, rfl⟩)

/-- Shared operands. With the built-in rules and any rules that never count back, in every
    model, from every session and for every list of operands: those that are not plain are bound
    in order, each by a name that is drawn right behind its conversion, and these names are
    different. Where all names can be read, they also differ from those that the conversions
    take. What stands for an operand that is bound is its name, and for a plain one its text as
    an operand. A body stays as it is if all operands are plain; else it becomes the body of one
    function, which is called with the bound texts in order. -/
theorem sharedOperands_bound_once (g : Engine) (hg : g.Passes Emit.Counting) (m : Model) (s : Session)
    (es : List Expr) :
    let k := g.converter m
    let turns := k.turns s es
    let computed := turns.filter Turn.isComputed
    let run := ((k.sharedAll {} es).out s).1
    turns.map (·.expr) = es ∧
      run.2.bindings = computed.map (fun t => (t.param k, t.text k)) ∧
      (computed.map (·.param k)).Nodup ∧
      (g.Accounted → ∃ ns, (k.sharedAll {} es).Takes s ns ∧ (computed.map (·.param k)).Sublist (ns.map Synthetic.name) ∧
        (ns.map Synthetic.name).Nodup) ∧
      run.1 = turns.map (fun t => if t.expr.isPlain then operand (t.text k) else t.param k) ∧
      ((∀ e ∈ es, e.isPlain = true) → ∀ body, run.2.wrap body = body) ∧
      ((∃ e ∈ es, e.isPlain = false) → ∀ body,
        let call : ArrowCall := ⟨computed.map (·.param k), body, computed.map (·.text k)⟩
        run.2.wrap body = call.text ∧
          (IsItem body → (∀ t ∈ computed, IsItem (t.text k)) → ArrowCall.read? (run.2.wrap body) = some call)) := by
  intro k turns computed run
  have hk : k.Has Emit.Counting := Engine.converter_has Emit.Counting.composes hg m
  have hrun : run = (turns.map (·.standIn k), ⟨computed.map fun t => (t.param k, t.text k)⟩) := k.sharedAll_out {} es s
  have hbindings : run.2.bindings = computed.map fun t => (t.param k, t.text k) := by rw [hrun]
  refine ⟨k.turns_expr s es, hbindings, Converter.computed_params_nodup hk s es, ?_, congrArg Prod.fst hrun, ?_, ?_⟩
  · intro hnames
    obtain ⟨ns, hns, hr, hsub⟩ := Converter.sharedAll_takes (Engine.converter_accounted hnames m) {} es s
    exact ⟨ns, hns, hsub, hns.nodup hr⟩
  · intro hplain body
    have hnone : computed = [] := Converter.computed_eq_nil_iff.mpr hplain
    exact Sharing.wrap_of_nil (by rw [hbindings, hnone, List.map_nil]) body
  · rintro ⟨e, he, hplain⟩ body call
    have hsome : run.2.bindings ≠ [] := by
      intro hnil
      rw [hbindings, List.map_eq_nil_iff] at hnil
      exact Bool.false_ne_true (hplain.symm.trans (Converter.computed_eq_nil_iff.mp hnil e he))
    have hwrap : run.2.wrap body = call.text := by
      rw [Sharing.wrap_of_ne_nil hsome, hbindings, List.map_map, List.map_map]
      rfl
    refine ⟨hwrap, fun hbody hvalues => ?_⟩
    rw [hwrap]
    exact ArrowCall.read_text (List.forall_mem_map.mpr fun t _ => t.isItem_param k) hbody
      (List.forall_mem_map.mpr hvalues)

/-- The second operand draws a name for a literal by a rule of one's own, and the third shares two
    operands inside. -/
theorem sharedOperands_bound_once_nested :
    let g : Engine := { exprRules := .ofList (.fixed Expr.kindName "named-literal" 200 (some ["literal"]) "held"
      (some "v1") :: Rules.builtinExprs) }
    let round : Expr := .methodCall (.ident "Math") "Round" [.call (.ident "rate") [], .call (.ident "places") []]
    let es : List Expr := [.member (.ident "row") "Name", .call (.ident "next") [.int 1], round]
    let run := (((g.converter Model.empty).sharedAll {} es).out {}).1
    g.Passes Emit.Counting ∧ run.1 = ["row.name", "__v1", "__v4"] ∧
      run.2.bindings = [("__v1", "next(held__v10)"),
        ("__v4", "((__v2, __v3) => (Math.round(__v2 * 10 ** __v3) / 10 ** __v3))(rate(), places())")] ∧
      (run.2.bindings.map (·.1)).Nodup ∧
      ArrowCall.read? (run.2.wrap "row.name + __v1 * __v4") =
        some ⟨run.2.bindings.map (·.1), "row.name + __v1 * __v4", run.2.bindings.map (·.2)⟩ := by
  intro g round es run
  have hg : g.Passes Emit.Counting := by
    refine Engine.Admissible.counting ⟨fun r hr => ?_, (Engine.builtin_admissible {}).stmtRules⟩
    rcases List.mem_cons.mp (RuleSet.mem_ofList.mp hr) with rfl | hr
    · exact .inr (Rule.fixed_onlyDraws _ _ _ _ _ _)
    · exact .inl hr
  have hexprs : g.exprRules = ⟨.fixed Expr.kindName "named-literal" 200 (some ["literal"]) "held" (some "v1") ::
      Rules.builtinExprs⟩ := congrArg RuleSet.mk (List.mergeSort_of_pairwise (by decide))
  have hstmts : g.stmtRules = ⟨Rules.builtinStmts⟩ := congrArg Engine.stmtRules (Engine.builtin_eq {})
  have hrun : run.1 = ["row.name", "__v1", "__v4"] ∧ run.2.bindings = [("__v1", "next(held__v10)"),
      ("__v4", "((__v2, __v3) => (Math.round(__v2 * 10 ** __v3) / 10 ** __v3))(rate(), places())")] := by
    show (((Engine.converter ⟨g.exprRules, g.stmtRules, {}⟩ Model.empty).sharedAll {} es).out {}).1.1 = _ ∧
      (((Engine.converter ⟨g.exprRules, g.stmtRules, {}⟩ Model.empty).sharedAll {} es).out {}).1.2.bindings = _
    rw [hexprs, hstmts]
    decide +kernel
  have hitems : ∀ b ∈ run.2.bindings, IsItem b.2 := by
    rw [hrun.2]
    decide +kernel
  have hcomputed : ∃ e ∈ es, e.isPlain = false := ⟨round, by simp [es], rfl⟩
  obtain ⟨-, hbindings, hnodup, -, -, -, hcall⟩ := sharedOperands_bound_once g hg Model.empty {} es
  obtain ⟨-, hread⟩ := hcall hcomputed "row.name + __v1 * __v4"
  refine ⟨hg, hrun.1, hrun.2, ?_, ?_⟩
  · rw [hbindings, List.map_map]
    exact hnodup
  · rw [hbindings, List.map_map, List.map_map]
    rw [hbindings] at hitems
    have hvalues := List.forall_mem_map.mp hitems
    exact hread (by decide +kernel) hvalues

end ComponentScript
