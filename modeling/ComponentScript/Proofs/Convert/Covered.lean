/-
  ComponentScript.Proofs.Convert.Covered — conversions of parts in lockstep give
  conversions of whole constructs in lockstep.

  `Covered L π k k' ps`: on every node among or inside the parts `ps`, at the place that the
  scopes on the way lead to, the converters `k` and `k'` run in lockstep and the models know
  the same about it. Each construct is then in lockstep too: it only goes to its own parts,
  and it is at the place the scopes say when it does (`CallsFrom.lockstep`).
-/

import ComponentScript.Proofs.Convert.Retexted

namespace ComponentScript

/-- At the places `π`, the converters treat an expression alike: the models give the same
    symbol and the same type, and its conversions run in lockstep. -/
structure ExprInStep (L : Ledger) (π : Places) (k k' : Converter) (e : Expr) : Prop where
  symbol : k.model.symbolOf e = k'.model.symbolOf e
  type : k.model.typeOf e = k'.model.typeOf e
  exprAs : ∀ expected?, Lockstep L π π (k.exprAs expected? e) (k'.exprAs expected? e)

def Node.InStep (L : Ledger) (π : Places) (k k' : Converter) : Node → Prop
  | .expr e => ExprInStep L π k k' e
  | .stmt s => Lockstep L π π (k.stmt s) (k'.stmt s)
  | .pattern _ => True

/-- The converters treat all nodes among and inside `ps` alike, under whatever is caught. -/
def Covered (L : Ledger) (π : Places) (k k' : Converter) (ps : Parts) : Prop :=
  ∀ b x, Within ps b x → ∀ c, x.InStep L (π.enter b c) k k'

/-- Two runs over the same nodes. -/
abbrev Runs.same {k k' : Converter} (h : k.settings = k'.settings) ( catching : Prop) : Runs :=
  ⟨k, k', h, .same, fun _ => True, catching⟩

/-- What the runs need of the parts they go to: where nothing is caught on the way, only what
    is so under the places themselves. -/
def Runs.Covers (P : Runs) (L : Ledger) (π : Places) (ps : Parts) : Prop :=
  ∀ c, (c = [] ∨ P.catching) → ∀ b x, Within ps b x → x.InStep L (π.enter b c) P.k P.k'

theorem Covered.covers {L : Ledger} {π : Places} {k k' : Converter} {ps : Parts} (h : Covered L π k k' ps)
    (hset : k.settings = k'.settings) : (Runs.same hset True).Covers L π ps :=
  fun c _ b x hx => h b x hx c

/-- Where the models know the same about a node and about what the runs go to, they know the
    same about all there is to ask. -/
theorem Runs.Covers.knows {P : Runs} {L : Ledger} {π : Places} {x : Node} (h : P.Covers L π x.parts)
    (hx : ∀ e, x = .expr e →
      P.k.model.symbolOf e = P.k'.model.symbolOf e ∧ P.k.model.typeOf e = P.k'.model.typeOf e) : P.Knows x := by
  intro b e hw
  cases hw with
  | here hmem => cases List.mem_singleton.mp hmem; exact hx e rfl
  | deeper hmem hw =>
    cases List.mem_singleton.mp hmem
    have he : ExprInStep L (π.enter _ []) P.k P.k' e := h [] (.inl rfl) _ _ hw
    exact ⟨he.symbol, he.type⟩

theorem Draws.within {R : Node → Prop} {xs ps : Parts} (h : Draws R xs ps) {b : Scopes} {x : Node}
    (hx : Within xs b x) : Within ps b x := by
  have hall : ∀ p ∈ xs, Within ps p.1 p.2 := by
    refine h.forall_mem (fun b x hx q hq => ?_) fun p hp => .here hp
    obtain ⟨q, hmem, rfl⟩ := List.mem_map.mp hq
    exact hx.trans (.here hmem)
  cases hx with
  | here hmem => exact hall _ hmem
  | deeper hmem hw => exact (hall _ hmem).trans hw

theorem CallsFrom.lockstep {P : Runs} (hφ : P.φ = .same) {L : Ledger} {b c : Scopes} {ps : Parts} {α : Type}
    {m m' : Emit α} (h : CallsFrom P b c ps m m') {π : Places} (hπ : π.Alike) (hps : P.Covers L π ps) :
    Lockstep L (π.enter b []) (π.enter c []) m m' := by
  induction h generalizing π with
  | pure a => exact .pure a
  | bind _ _ ihm ihf =>
    refine .bind (ihm hπ fun c hc b x hx => ?_) fun a => ihf a hπ fun c hc b x hx => ?_
    · exact hps c hc b x (hx.mono fun _ hp => List.mem_append_left _ hp)
    · exact hps c hc b x (hx.mono fun _ hp => List.mem_append_right _ hp)
  | expr expected? e =>
    have he : ExprInStep L (π.enter _ []) P.k P.k' e := hps [] (.inl rfl) _ _ (.here (List.mem_singleton.mpr rfl))
    rw [hφ, Expr.retext_same]
    exact he.exprAs expected?
  | stmt x =>
    rw [hφ, Stmt.retext_same]
    exact hps [] (.inl rfl) _ (.stmt x) (.here (List.mem_singleton.mpr rfl))
  | look _ ih => exact .get fun s s' hl => ih s s' (funext (hl.isBound_eq (hπ.enter _ _))) hπ hps
  | freshName _ => exact .freshName _
  | @bindName b names name =>
    have hname : Lockstep L ((π.enter b []).enter [names] []) ((π.enter b []).enter [names ++ [name]] [])
        (Emit.bindName name) (Emit.bindName name) := .bindName names name
    rwa [Places.enter_enter, Places.enter_enter] at hname
  | report d _ => exact .report d
  | @withScope b α ps m m' names names' _ ih =>
    have hbody := ih hπ hps
    refine .withScope names names' ?_
    rw [Places.enter_enter, Places.enter_enter]
    exact hbody
  | @withCatch b α ps m m' binding hcatch _ ih =>
    have hbody : Lockstep L ((π.enter [] [binding]).enter b []) ((π.enter [] [binding]).enter b []) m m' := by
      refine ih (hπ.enter [] [binding]) fun c hc b x hx => ?_
      rw [Places.enter_enter, List.append_nil]
      exact hps _ (.inr hcatch) b x hx
    refine .withCatch binding ?_
    rw [Places.enter_enter, List.append_nil] at hbody
    rwa [Places.enter_enter]
  | draws hd _ ih => exact ih hπ fun c hc b x hx => hps c hc b x (hd.within hx)

end ComponentScript
