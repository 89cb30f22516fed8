/-
  ComponentScript.Proofs.Convert.FlatTemplates — expressions whose templates are not nested.

  The operand scan knows no substitutions, so a template must not have backticks inside of
  one. `Node.FlatTemplate` says so of a single node: what it substitutes is free of backticks,
  and its texts do not form a substitution of their own. `Engine.flat_reads`: the text of an
  expression with flat templates everywhere can be read.
-/

import ComponentScript.Proofs.Rules.QueryChain

namespace ComponentScript

open Script Text

section

variable (m : Model)

/-! ## Templates and what they substitute -/

/-- The texts that an expression has as they are, in a literal or a key. -/
def Expr.quoted (e : Expr) : List String :=
  match e.kind with
  | .literal (.string s) => [s]
  | .literal (.char c) => [String.ofList [c]]
  | .objectCreation _ _ (some (.object members)) | .anonymousObject members => members.map (·.name)
  | .nameOf name => [String.ofList (afterLast '.' name.toList)]
  | _ => []

/-- The expression becomes a template, and `x` is substituted in it: an interpolated string, or
    a call that formats its arguments wherever it stands. -/
inductive Expr.Substitutes (e x : Expr) : Prop
  | part {parts : List InterpolationPart} : e.kind = .interpolated parts →
      x ∈ parts.filterMap InterpolationPart.expr? → Substitutes e x
  | argument {s : Session} {call : Call} {a : Argument} : e.call? = some call →
      becomesTemplate ⟨{}, m⟩ s call e = true → a ∈ call.args.tail → a.expr = x → Substitutes e x

/-- The node itself is written without backticks. -/
def Node.Tickless : Node → Prop
  | .expr e => (∀ parts, e.kind ≠ .interpolated parts) ∧
      (∀ s call, e.call? = some call → becomesTemplate ⟨{}, m⟩ s call e = false) ∧
      ∀ t ∈ e.quoted, '\x60' ∉ t.toList
  | _ => True

/-- The operands of the node fit into their chains. -/
def Node.Chained : Node → Prop
  | .expr e =>
    match e.kind with
    | .binary op left right => op.Chains m left right
    | .assignment _ target _ => target.outer m = .neutral
    | .invocation .. => e.FallbackChains m
    | _ => True
  | .pattern (.constant value) => value.outer m = .neutral
  | .pattern (.relational op value) => op.joiner? = none ∧ value.outer m = .neutral
  | _ => True

/-- If the node is a template, what it substitutes has no backticks, and none of its texts
    runs into a brace of the next. -/
def Node.FlatTemplate : Node → Prop
  | .expr e => (∀ parts, e.kind = .interpolated parts → ¬ InterpolationPart.Straddles parts) ∧
      ∀ x, e.Substitutes m x → (Node.expr x).Everywhere (Node.Tickless m)
  | _ => True

end

variable {m : Model} {w : Watch}

theorem Node.Tickless.not_substitutes {e x : Expr} (h : (Node.expr e).Tickless m) : ¬ e.Substitutes m x := by
  obtain ⟨hkind, hcalls, -⟩ := h
  intro hx
  cases hx with
  | part hparts => exact hkind _ hparts
  | argument hc htemplate =>
    rw [hcalls _ _ hc] at htemplate
    cases htemplate

/-- A node that is neither a call nor an interpolated string is no template. -/
theorem Node.FlatTemplate.of_plain {e : Expr} (hcall : e.call? = none) (hkind : ∀ parts, e.kind ≠ .interpolated parts) :
    (Node.expr e).FlatTemplate m := by
  refine ⟨fun parts hparts => absurd hparts (hkind parts), fun x hx => ?_⟩
  cases hx with
  | part hparts => exact absurd hparts (hkind _)
  | argument hc =>
    rw [hcall] at hc
    cases hc

/-- What is substituted stands directly inside the expression. -/
theorem Expr.Substitutes.within {e x : Expr} (h : e.Substitutes m x) : Within (Node.expr e).parts [] (.expr x) := by
  obtain ⟨span, kind⟩ := e
  cases h with
  | part hkind hx =>
    cases hkind
    exact .here (List.mem_map_of_mem hx)
  | argument hc _ ha hx =>
    subst hx
    cases kind with
    | invocation callee typeArgs args =>
      refine .here (List.mem_cons_of_mem _ ?_)
      obtain ⟨calleeSpan, calleeKind⟩ := callee
      cases calleeKind with
      | member | identifier =>
        cases hc
        exact List.mem_map_of_mem (List.mem_map_of_mem (List.mem_of_mem_tail ha))
      | _ => cases hc
    | _ => cases hc

/-- A node is readable if its templates are flat, if it is chained where that counts and if it has
    no backticks where there must be none. -/
theorem Node.FlatTemplate.readable {x : Node} (h : x.FlatTemplate m) (hchains : w.strict = true → x.Chained m)
    (hticks : w.ticks = false → x.Tickless m) : x.Readable m w := by
  cases x with
  | expr e =>
    have hquotable : ∀ t ∈ e.quoted, w.Quotable t := by
      intro t ht hmem
      cases hw : w.ticks with
      | true => rfl
      | false => exact absurd hmem ((hticks hw).2.2 t ht)
    obtain ⟨span, kind⟩ := e
    cases kind with
    | interpolated parts =>
      refine ⟨?_, h.1 parts rfl⟩
      cases hw : w.ticks with
      | true => rfl
      | false => exact absurd rfl ((hticks hw).1 parts)
    | literal value =>
      cases value with
      | string | char => exact hquotable _ (List.mem_singleton.mpr rfl)
      | _ => trivial
    | binary | assignment | invocation => exact hchains
    | objectCreation type? args i? =>
      rcases i? with _ | ms | es | ds
      · trivial
      · exact fun m hm => hquotable m.name (List.mem_map_of_mem hm)
      · trivial
      · trivial
    | anonymousObject ms => exact fun m hm => hquotable m.name (List.mem_map_of_mem hm)
    | nameOf name => exact hquotable _ (List.mem_singleton.mpr rfl)
    | _ => trivial
  | stmt s => trivial
  | pattern p =>
    cases p with
    | constant | relational => exact hchains
    | _ => trivial

/-! ## Whole trees -/

/-- An expression that can be converted to text that can be read: it is spelled plainly, its
    templates are flat and, for a strict reader, its operands fit into their chains. -/
structure Expr.Flat (m : Model) (strict : Bool) (e : Expr) : Prop where
  spelled : e.PlainlySpelled
  templates : (Node.expr e).Everywhere (Node.FlatTemplate m)
  chains : strict = true → (Node.expr e).Everywhere (Node.Chained m)

namespace Expr.Flat

variable {strict : Bool} {e x : Expr}

theorem inside {b : Scopes} (h : e.Flat m strict) (hx : Within [([], .expr e)] b (.expr x)) : x.Flat m strict where
  spelled := Node.Everywhere.inside h.spelled hx
  templates := h.templates.inside hx
  chains hs := (h.chains hs).inside hx

/-- The node and all nodes inside it are fit for every reader that may read their backticks. -/
theorem fit (h : e.Flat m strict) (hstrict : w.strict = strict)
    (hticks : w.ticks = false → (Node.expr e).Everywhere (Node.Tickless m)) : (Node.expr e).Fit m w := by
  refine Node.everywhere_iff.mpr fun b y hy => ⟨?_, ?_⟩
  · refine (Node.everywhere_iff.mp h.spelled b y hy).mono (fun _ => inert_of_isIdentifier) fun t ht c hc => ?_
    exact isActive_eq_false (by decide +kernel) (List.all_eq_true.mp ht c hc)
  · refine (Node.everywhere_iff.mp h.templates b y hy).readable ?_ ?_
    · exact fun hw => Node.everywhere_iff.mp (h.chains (hstrict ▸ hw)) b y hy
    · exact fun hw => Node.everywhere_iff.mp (hticks hw) b y hy

theorem suited {hole : Expr → Prop} {scopes : Scopes} (h : e.Flat m strict) (hstrict : w.strict = strict)
    (hticks : w.ticks = false → (Node.expr e).Everywhere (Node.Tickless m))
    (hhole : ∀ b y x, Within [([], .expr e)] b (.expr y) → y.Substitutes m x → hole x) :
    (Node.expr e).Suited w hole ⟨{}, m⟩ scopes where
  fit := h.fit hstrict hticks
  holes b y hy s _ := by
    refine ⟨fun call hc htemplate => ⟨?_, fun a ha => hhole b y _ hy (.argument hc htemplate ha rfl)⟩,
      fun parts hparts x hx => hhole b y x hy (.part hparts hx)⟩
    cases hw : w.ticks with
    | true => rfl
    | false =>
      have hnone := (Node.everywhere_iff.mp (hticks hw) b _ hy).2.1 s call hc
      rw [hnone] at htemplate
      cases htemplate

end Expr.Flat

/-- Without backticks anywhere, the text can be substituted. -/
theorem Engine.tickless_emits {strict : Bool} {x : Expr} (h : x.Flat m strict)
    (hticks : (Node.expr x).Everywhere (Node.Tickless m)) :
    Emits (Watch.Whole ⟨strict, false⟩) ((({} : Engine).converter m).expr x) := by
  intro s hs
  have hsuited : (Node.expr x).Suited ⟨strict, false⟩ (fun _ => False) ⟨{}, m⟩ s.scopes :=
    h.suited rfl (fun _ => hticks) fun b y z hy hz => (Node.everywhere_iff.mp hticks b _ hy).not_substitutes hz
  have hreads := suited_reads m (fun _ hfalse => hfalse.elim) hs hsuited none nofun
  exact ⟨hreads.1.whole, hreads.2⟩

/-- The text of an expression with flat templates can be read. -/
theorem Engine.flat_reads {strict : Bool} {e : Expr} (h : e.Flat m strict) {s : Session} (hs : s.Tidy)
    {expected? : Option TypeRef}
    (hx : TypeInert expected?) :
    EmitsAt s (Watch.Shaped ⟨strict, true⟩ (e.outer m)) ((({} : Engine).converter m).exprAs expected? e) := by
  let hole : Expr → Prop := fun x => x.Flat m strict ∧ (Node.expr x).Everywhere (Node.Tickless m)
  have hsuited : (Node.expr e).Suited ⟨strict, true⟩ hole ⟨{}, m⟩ s.scopes := by
    refine h.suited rfl (by rintro ⟨⟩) fun b y x hy hx => ?_
    have hflat : y.Flat m strict := h.inside hy
    exact ⟨hflat.inside hx.within.inside, hflat.templates.1.2 x hx⟩
  exact suited_reads m (fun x hhole => tickless_emits hhole.1 hhole.2) hs hsuited expected? hx

/-- Also where no type is expected. -/
theorem Engine.flat_reads_plain {strict : Bool} {e : Expr} (h : e.Flat m strict) {s : Session} (hs : s.Tidy) :
    EmitsAt s (Watch.Shaped ⟨strict, true⟩ (e.outer m)) ((({} : Engine).converter m).expr e) :=
  flat_reads h hs (by rintro _ ⟨⟩)

end ComponentScript
