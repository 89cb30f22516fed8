/-
  ComponentScript.Proofs.Convert.LexicalScope — names are resolved by the lexical scopes
  around them.

  Scopes live in the session, so what a bare name becomes depends on where the session
  stands when the name is reached. A conversion of a node in some session happens in a run
  when replacing that conversion, and no other, can change the outcome of the run
  (`Converts`). `Reaches`: the conversions that happen in the course of converting a tree.

  `Reaches.within`: whatever is reached lies inside the tree, and the scopes open there are
  those of its position followed by those the conversion started with. `lexical_scoping`:
  a bare name that some scope of its position binds becomes itself, through any nesting, and
  any other bare name becomes what it would become where the conversion started.
-/

import ComponentScript.Component.Convert
import ComponentScript.Proofs.Convert.Restores

namespace ComponentScript

/-! ## Whole trees -/

/-- What is converted as a whole, in one session. -/
inductive Tree where
  | expr (expected? : Option TypeRef) (e : Expr)
  | stmt (x : Stmt)
  | statements (xs : List Stmt)
  | method (m : MethodDecl) (body : MethodBody)

namespace Tree

open Parts in
def parts : Tree → Parts
  | expr _ e => [Parts.expr [] e]
  | stmt x => [([], .stmt x)]
  | statements xs => Parts.statements [] xs
  | method m body =>
    let scope := [m.params.map (·.name)]
    params scope m.params ++
      match body with
      | .block xs => Parts.statements scope xs
      | .expression e => [Parts.expr scope e]

/-- The texts of a tree, with a converter for its nodes. -/
def convert (t : Tree) (k : Converter) : Emit (List String) :=
  match t with
  | expr expected? e => do return [← k.exprAs expected? e]
  | stmt x => do return [← k.stmt x]
  | statements xs => k.statements xs
  | method m body => do
    let (params, text) ← k.method m body
    return params ++ [text]

variable {L : Ledger} {π : Places} {k k' : Converter} {hset : k.settings = k'.settings} {catching : Prop}

theorem statements_calls {b : Scopes} (xs : List Stmt) :
    CallsFrom (Runs.same hset catching) b b (Parts.statements b xs) (k.statements xs) (k'.statements xs) := by
  have h := Converter.statements_calls (P := Runs.same hset catching) (b := b) xs
  simpa only [Stmt.retext_same, List.map_id'] using h

theorem exprAs_calls {b : Scopes} (expected? : Option TypeRef) (e : Expr) :
    CallsFrom (Runs.same hset catching) b b [Parts.expr b e] (k.exprAs expected? e) (k'.exprAs expected? e) := by
  have h := CallsFrom.expr (P := Runs.same hset catching) (b := b) expected? e
  rwa [Expr.retext_same] at h

theorem methodLines_calls {b : Scopes} (m : MethodDecl) (body : MethodBody) :
    CallsFrom (Runs.same hset catching) b b
      (match body with
        | .block xs => Parts.statements b xs
        | .expression e => [Parts.expr b e])
      (k.methodLines m body) (k'.methodLines m body) := by
  cases body with
  | block xs => exact statements_calls xs
  | expression e => exact .ite (fun _ => (exprAs_calls _ e).thenPure _) fun _ => (exprAs_calls _ e).thenPure _

theorem method_calls (m : MethodDecl) (body : MethodBody) :
    Calls (Runs.same hset catching) (method m body).parts (k.method m body) (k'.method m body) := by
  have hparams := Converter.eachParam_calls (P := Runs.same hset catching) (b := [m.params.map (·.name)]) m.params
  rw [← retextParams_eq, retextParams_same] at hparams
  unfold Converter.method
  rw [Converter.indent_eq (Runs.same hset catching)]
  exact .withScope _ (.bind hparams fun texts => (methodLines_calls m body).thenPure _)

theorem convert_calls (t : Tree) : Calls (Runs.same hset catching) t.parts (t.convert k) (t.convert k') := by
  cases t with
  | expr expected? e => exact (exprAs_calls expected? e).thenPure _
  | stmt x =>
    have hx := CallsFrom.stmt (P := Runs.same hset catching) (b := []) x
    rw [Stmt.retext_same] at hx
    exact hx.thenPure _
  | statements xs => exact statements_calls xs
  | method m body => exact (method_calls m body).thenPure _

theorem convert_lockstep (hset : k.settings = k'.settings) (hπ : π.Alike) {t : Tree} (h : Covered L π k k' t.parts) :
    Lockstep L π π (t.convert k) (t.convert k') :=
  t.convert_calls.lockstep rfl hπ (h.covers hset)

end Tree

/-! ## The conversions that happen in a run -/

/-- In the session `s`, both converters do the same with the node. -/
def Node.SameIn (k k' : Converter) (s : Session) : Node → Prop
  | .expr e => ∀ expected?, (k.exprAs expected? e).out s = (k'.exprAs expected? e).out s
  | .stmt x => (k.stmt x).out s = (k'.stmt x).out s
  | .pattern _ => True

/-- The step `f`, started in `s`, converts the node `x` in the session `s'`: its outcome is
    another one with some converter that does something else there and nowhere else. -/
def Converts {α : Type} (k : Converter) (f : Converter → Emit α) (s : Session) (x : Node) (s' : Session) : Prop :=
  ∃ k' : Converter, k.toEnv = k'.toEnv ∧ (∀ y t, ¬ (y = x ∧ t = s') → y.SameIn k k' t) ∧
    (f k).out s ≠ (f k').out s

/-- In the course of converting the tree from the session `s`, the node is converted in the
    session `s'`: for the tree itself, or for another node that is. -/
inductive Reaches (g : Engine) (m : Model) (t : Tree) (s : Session) : Node → Session → Prop
  | tree {x : Node} {s' : Session} : Converts (g.converter m) t.convert s x s' → Reaches g m t s x s'
  | expr {expected? : Option TypeRef} {e : Expr} {x : Node} {s' s'' : Session} :
      Reaches g m t s (.expr e) s' →
      Converts (g.converter m) (fun k => (g.step k).exprAs expected? e) s' x s'' → Reaches g m t s x s''
  | stmt {y : Stmt} {x : Node} {s' s'' : Session} :
      Reaches g m t s (.stmt y) s' →
      Converts (g.converter m) (fun k => (g.step k).stmt y) s' x s'' → Reaches g m t s x s''

/-! ## Where they happen -/

theorem Emit.Restores.lockstep {α : Type} {m m' : Emit α} {p : Place} (hm : m.Restores)
    (heq : ∀ s : Session, s.place = p → m.out s = m'.out s) : Lockstep Ledger.same (.both p) (.both p) m m' := by
  intro s s' hl
  obtain rfl := hl.eq
  have hplace : (m.out s).2.place = p := by
    have hs : s.place = p := hl.left
    rw [← hs]
    unfold Session.place
    rw [(hm s).scopes, (hm s).catches]
  rw [← heq s hl.left]
  exact ⟨rfl, hplace, hplace, rfl, rfl⟩

variable {g : Engine} {m : Model} {t : Tree} {k : Converter}

/-- Converters that do the same with a node wherever the session stands at `p` run in
    lockstep there. -/
theorem Node.inStep_of_sameIn {k' : Converter} {p : Place} {y : Node} (hk : k.EntryPointsRestore)
    (henv : k.toEnv = k'.toEnv) (h : ∀ r : Session, r.place = p → y.SameIn k k' r) :
    y.InStep Ledger.same (.both p) k k' := by
  cases y with
  | expr e =>
    refine ⟨by rw [henv], by rw [henv], fun expected? => (hk.exprAs expected? e).lockstep fun r hr => ?_⟩
    exact h r hr expected?
  | stmt y => exact (hk.stmt y).lockstep h
  | pattern q => trivial

/-- A step that only goes to the nodes inside `ps` converts no other, and none at another
    place. -/
theorem Converts.within {α : Type} {f : Converter → Emit α} {ps : Parts} {s s' : Session} {x : Node}
    (h : Converts k f s x s') (hk : k.EntryPointsRestore)
    (hf : ∀ k', k.toEnv = k'.toEnv → Covered Ledger.same (.both s.place) k k' ps →
      Lockstep Ledger.same (.both s.place) (.both s.place) (f k) (f k')) :
    ∃ b, Within ps b x ∧ s'.scopes = b ++ s.scopes := by
  refine Classical.byContradiction fun hnone => ?_
  obtain ⟨k', henv, hsame, hne⟩ := h
  refine hne ((hf k' henv fun b y hy c => ?_).out_eq rfl)
  -- at the place of `y` the session cannot be `s'` if `y` is `x`
  have hy' : ∀ r : Session, r.place = s.place.enter b c → y.SameIn k k' r := by
    intro r hr
    refine hsame y r fun heq => hnone ⟨b, heq.1 ▸ hy, ?_⟩
    rw [← heq.2]
    exact congrArg Place.scopes hr
  exact Node.inStep_of_sameIn hk henv hy'

/-- What is reached lies inside the tree, under the scopes of its position. -/
theorem Reaches.within (hg : g.Local) (hk : (g.converter m).EntryPointsRestore) {s s' : Session} {x : Node}
    (h : Reaches g m t s x s') : ∃ b, Within t.parts b x ∧ s'.scopes = b ++ s.scopes := by
  induction h with
  | tree hc => exact hc.within hk fun k' henv hcov => Tree.convert_lockstep (by rw [henv]) (.refl _) hcov
  | expr _ hc ih =>
    obtain ⟨b, hb, hs⟩ := ih
    obtain ⟨c, hw, hs'⟩ := hc.within hk fun k' henv hcov =>
      (Engine.step_expr_inStep hg henv (.refl _) hcov).exprAs _
    exact ⟨c ++ b, hb.trans hw, by rw [hs', hs, List.append_assoc]⟩
  | stmt _ hc ih =>
    obtain ⟨b, hb, hs⟩ := ih
    obtain ⟨c, hw, hs'⟩ := hc.within hk fun k' henv hcov => Engine.step_stmt_inStep hg henv (.refl _) hcov
    exact ⟨c ++ b, hb.trans hw, by rw [hs', hs, List.append_assoc]⟩

/-! ## Bare names -/

theorem Session.isBound_iff (s : Session) (name : String) : s.isBound name ↔ name ∈ s.scopes.flatten := by
  unfold isBound
  simp only [List.any_eq_true, List.contains_iff_mem, List.mem_flatten]

/-- Nothing but whether the name is bound matters about the session. -/
theorem Env.identifier_congr (env : Env) {s s' : Session} (e : Expr) {name : String}
    (h : s.isBound name = s'.isBound name) : env.identifier s e name = env.identifier s' e name := by
  unfold Env.identifier
  rw [h]

theorem Env.identifier_bound (env : Env) {s : Session} (e : Expr) {name : String} (h : s.isBound name) :
    env.identifier s e name = name := by
  unfold Env.identifier
  rw [if_pos h]

/-- No built-in rule is about bare names. -/
theorem Rules.builtinExprs_identifier (env : Env) (s : Session) (span : Span) (name : String) :
    (RuleSet.ofList builtinExprs).find? env s ⟨span, .identifier name⟩ = none := by
  have hnone : ∀ r ∈ builtinExprs, r.applies env s ⟨span, .identifier name⟩ = false := by
    simp only [builtinExprs, List.forall_mem_cons]
    exact ⟨rfl, rfl, rfl, rfl, rfl, rfl, rfl, rfl, rfl, rfl, rfl, List.forall_mem_nil _⟩
  refine List.find?_eq_none.mpr fun r hr => ?_
  rw [hnone r (RuleSet.mem_ofList.mp hr)]
  exact Bool.false_ne_true

theorem Engine.converter_identifier (settings : Settings) (m : Model) (expected? : Option TypeRef) (span : Span)
    (name : String) (s : Session) :
    ((({ settings := settings } : Engine).converter m).exprAs expected? ⟨span, .identifier name⟩).out s =
      (Env.identifier ⟨settings, m⟩ s ⟨span, .identifier name⟩ name, s) := by
  rw [converter_exprAs (builtin_local settings)]
  dsimp only [step]
  rw [Emit.out_bind, Emit.out_get]
  dsimp only
  rw [Rules.builtinExprs_identifier]
  rfl

/-- Names are lexically scoped. With the built-in rules, whatever the settings and the model:
    each conversion of a bare name in the course of converting a tree happens under the
    scopes of its position in the tree. If one of them binds the name, it stays as it is.
    Otherwise none of them matters: it becomes what it would become where the conversion
    started. -/
theorem lexical_scoping (settings : Settings) (m : Model) (t : Tree) (s s' : Session) (span : Span) (name : String)
    (h : Reaches { settings := settings } m t s (.expr ⟨span, .identifier name⟩) s') :
    ∃ b, Within t.parts b (.expr ⟨span, .identifier name⟩) ∧ s'.scopes = b ++ s.scopes ∧
      ∀ expected?,
        ((({ settings := settings } : Engine).converter m).exprAs expected? ⟨span, .identifier name⟩).out s' =
          (if name ∈ b.flatten then name else Env.identifier ⟨settings, m⟩ s ⟨span, .identifier name⟩ name, s') := by
  have hadm : Engine.Admissible { settings := settings } :=
    ⟨fun r hr => .inl (RuleSet.mem_ofList.mp hr), fun r hr => .inl (RuleSet.mem_ofList.mp hr)⟩
  have hk := (Engine.converter_steady hadm m).entryPoints
  obtain ⟨b, hb, hs⟩ := h.within (Engine.builtin_local settings) hk
  refine ⟨b, hb, hs, fun expected? => ?_⟩
  rw [Engine.converter_identifier]
  have hbound : s'.isBound name ↔ name ∈ b.flatten ∨ s.isBound name := by
    rw [Session.isBound_iff, Session.isBound_iff, hs, List.flatten_append, List.mem_append]
  by_cases hin : name ∈ b.flatten
  · rw [if_pos hin, Env.identifier_bound _ _ (hbound.mpr (.inl hin))]
  · rw [if_neg hin]
    have : s'.isBound name = s.isBound name :=
      Bool.eq_iff_iff.mpr (hbound.trans ⟨fun h => h.resolve_left hin, .inr⟩)
    rw [Env.identifier_congr _ _ this]

open Classical in
/-- The converter that draws one more name when it converts the expression in the session. -/
noncomputable def Converter.markedAt (k : Converter) (e : Expr) (s : Session) : Converter :=
  { k with exprAs := fun expected? e' s' =>
      let out := (k.exprAs expected? e').out s'
      if e' = e ∧ s' = s then (out.1, { out.2 with counter := out.2.counter + 1 }) else out }

/-- A mark shows in the outcome only where the conversion happens. -/
theorem converts_of_mark {α : Type} {f : Converter → Emit α} {e : Expr} {s s' : Session}
    (h : (f k).out s ≠ (f (k.markedAt e s')).out s) : Converts k f s (.expr e) s' := by
  refine ⟨k.markedAt e s', rfl, fun y r hy => ?_, h⟩
  cases y with
  | expr e' =>
    intro expected?
    have hne : ¬ (e' = e ∧ r = s') := fun heq => hy ⟨congrArg Node.expr heq.1, heq.2⟩
    exact (if_neg hne).symm
  | stmt x => rfl
  | pattern q => trivial

/-- The parameter of a method, in its body. -/
theorem lexical_scoping_parameter :
    let e : Expr := ⟨{}, .identifier "Total"⟩
    let s' : Session := { scopes := [["Total"]] }
    let t : Tree := .method ⟨"Sum", {}, [⟨"Total", none, none, false⟩], none, false, none⟩ (.expression e)
    Reaches {} Model.empty t {} (.expr e) s' ∧
      ((({} : Engine).converter Model.empty).exprAs none e).out s' = ("Total", s') := by
  intro e s' t
  have hreach : Reaches {} Model.empty t {} (.expr e) s' := by
    refine .tree (converts_of_mark fun heq => ?_)
    -- the counter at the end is the one behind the body
    have hend : ∀ k : Converter, ((t.convert k).out {}).2.counter = ((k.exprAs none e).out s').2.counter :=
      fun _ => rfl
    have hcount := congrArg (·.2.counter) heq
    simp only [hend] at hcount
    have hmark : (({} : Engine).converter Model.empty |>.markedAt e s' |>.exprAs none e).out s' = _ :=
      if_pos ⟨rfl, rfl⟩
    rw [hmark] at hcount
    exact Nat.succ_ne_self _ hcount.symm
  obtain ⟨b, _, hb, hout⟩ := lexical_scoping {} Model.empty t {} s' {} "Total" hreach
  have hin : "Total" ∈ b.flatten := by
    rw [List.append_nil] at hb
    rw [← hb]
    decide
  refine ⟨hreach, ?_⟩
  rw [hout none, if_pos hin]

end ComponentScript
