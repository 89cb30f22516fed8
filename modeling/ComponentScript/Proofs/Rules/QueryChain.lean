/-
  ComponentScript.Proofs.Rules.QueryChain — chains of query operators keep their order.

  A chain of operators with one argument each (`Expr.queried`) becomes the operand it starts
  from, followed by one call for each operator in source order, each around the text of its
  argument (`queryChain_in_order`). Between links there are no parentheses: each text built so
  far is scanned again, and the scan gets through it because it gets through the texts of all
  arguments (`Watch.Whole.scanned`). No other rule takes a link (`find_call`). The base is
  converted before the first argument and each argument before the next, so whatever they
  report and all fresh names come in that order.
-/

import ComponentScript.Proofs.Convert.LegibleTrees

namespace ComponentScript

open Script Text

/-! ## Chains -/

/-- The operators with one argument that become one call, with what is written in front of
    the argument. -/
def queryCalls : List (String × String) :=
  [("Select", ".map("), ("Where", ".filter("), ("Any", ".some("), ("All", ".every("), ("First", ".find("),
   ("FirstOrDefault", ".find("), ("Single", ".find("), ("SingleOrDefault", ".find("), ("Last", ".findLast("),
   ("LastOrDefault", ".findLast("), ("SelectMany", ".flatMap("), ("Skip", ".slice("), ("Take", ".slice(0, "),
   ("Concat", ".concat(")]

/-- An operator of a chain with its argument, as the source calls it. -/
structure QueryLink where
  name : String
  opening : String
  known : (name, opening) ∈ queryCalls
  arg : Argument
  typeArgs : List TypeRef := []
  methodSpan : Span := {}
  span : Span := {}

namespace QueryLink

/-- The call on a receiver. -/
def call (l : QueryLink) (receiver : Expr) : Expr :=
  ⟨l.span, .invocation ⟨l.methodSpan, .member receiver l.name⟩ l.typeArgs [l.arg]⟩

/-- The call behind the text of its receiver. -/
def append (source : String) (l : QueryLink) (arg : String) : String := source ++ l.opening ++ arg ++ ")"

end QueryLink

/-- The chain of calls on a base. -/
def Expr.queried (base : Expr) (links : List QueryLink) : Expr := links.foldl (fun e l => l.call e) base

/-- The calls of a chain in their order, behind the text of the base. -/
def queriedText (source : String) (links : List QueryLink) (args : List String) : String :=
  (links.zip args).foldl (fun text p => p.1.append text p.2) source

/-- The receivers that static methods of other rules are called on. -/
def Expr.isNamed (names : List String) (e : Expr) : Bool :=
  match e.kind with
  | .identifier name | .member _ name => names.contains name
  | _ => false

/-- The converter with the built-in rules and the default settings that resolves nothing. -/
abbrev Converter.bare : Converter := ({} : Engine).converter Model.empty

theorem Converter.bare_restores (e : Expr) : (bare.expr e).Restores :=
  (Engine.converter_steady (Engine.builtin_admissible {}) Model.empty).entryPoints.exprAs none e

/-! ## No other rule -/

/-- The names that static methods of mathematics and of strings are called on. -/
def staticNames : List String := ["Math", "MathF", "string", "String"]

theorem isTypeName_of_isNamed {types : List String} (htypes : types.all staticNames.contains = true) {receiver : Expr}
    (h : receiver.isNamed staticNames = false) (env : Env) (s : Session) : env.isTypeName s types receiver = false := by
  have hnames : ∀ name, staticNames.contains name = false → types.contains name = false := by
    intro name hname
    refine Bool.eq_false_iff.mpr fun hm => ?_
    have := List.all_eq_true.mp htypes name (List.contains_iff_mem.mp hm)
    rw [hname] at this
    cases this
  obtain ⟨span, kind⟩ := receiver
  cases kind with
  | identifier name =>
    show (types.contains name && _) = false
    rw [hnames name h, Bool.false_and]
  | member inner name =>
    show (types.contains name && _) = false
    rw [hnames name h, Bool.false_and]
  | _ => rfl

namespace QueryLink

open Rules

variable (l : QueryLink) {receiver : Expr} {s : Session}

/-- What holds of all names holds of the name. -/
theorem of_names (p : String → Bool) (h : queryCalls.all (fun c => p c.1) = true) : p l.name = true :=
  List.all_eq_true.mp h _ l.known

theorem call?_call (receiver : Expr) :
    (l.call receiver).call? = some ⟨some receiver, l.name, l.typeArgs, [l.arg]⟩ := rfl

theorem consolePrint_applies (env : Env) : consolePrint.applies env s (l.call receiver) = false := by
  have hstream : (l.name = "WriteLine" || l.name = "Write" : Bool) = false := by
    simpa using l.of_names (fun name => !(name = "WriteLine" || name = "Write")) (by decide)
  have hmethod : consoleMethodOf? l.name = none := by
    simpa using l.of_names (fun name => (consoleMethodOf? name).isNone) (by decide)
  show (consoleMethod? env s ⟨some receiver, l.name, l.typeArgs, [l.arg]⟩ (l.call receiver)).isSome = false
  simp [consoleMethod?, hstream, hmethod]

theorem taskHelpers_applies (env : Env) : taskHelpers.applies env s (l.call receiver) = false := by
  have hname : (l.name = "ConfigureAwait" || isTaskMethod l.name 1 : Bool) = false := by
    simpa using l.of_names (fun name => !(name = "ConfigureAwait" || isTaskMethod name 1)) (by decide)
  rw [Bool.or_eq_false_iff] at hname
  show isTaskCall env s ⟨some receiver, l.name, l.typeArgs, [l.arg]⟩ (l.call receiver) = false
  simp only [isTaskCall, hname, Call.arity, List.length_singleton, Bool.false_and, Bool.and_false, Bool.or_self]

theorem serviceLookup_applies (env : Env) : serviceLookup.applies env s (l.call receiver) = false := by
  have hname : (l.name = "GetService" || l.name = "GetRequiredService" : Bool) = false := by
    simpa using l.of_names (fun name => !(name = "GetService" || name = "GetRequiredService")) (by decide)
  show isServiceCall ⟨some receiver, l.name, l.typeArgs, [l.arg]⟩ = false
  simp only [isServiceCall, hname, Bool.false_and]

theorem numericHelpers_applies (hr : receiver.isNamed staticNames = false) :
    numericHelpers.applies {} s (l.call receiver) = false := by
  have hname : (l.name = "Parse" || l.name = "TryParse" : Bool) = false := by
    simpa using l.of_names (fun name => !(name = "Parse" || name = "TryParse")) (by decide)
  rw [Bool.or_eq_false_iff] at hname
  have hmath : isMath {} s receiver (l.call receiver) = false := isTypeName_of_isNamed (by decide) hr {} s
  show isNumericCall {} s ⟨some receiver, l.name, l.typeArgs, [l.arg]⟩ (l.call receiver) = false
  simp only [isNumericCall, hmath, hname, Bool.false_and, Bool.or_self]

theorem stringHelpers_applies (hr : receiver.isNamed staticNames = false) :
    stringHelpers.applies {} s (l.call receiver) = false := by
  have hname : (l.name = "ToString" || isStringMethod l.name 1 : Bool) = false := by
    simpa using l.of_names (fun name => !(name = "ToString" || isStringMethod name 1)) (by decide)
  rw [Bool.or_eq_false_iff] at hname
  have hstatic : isStaticStringCall {} s ⟨some receiver, l.name, l.typeArgs, [l.arg]⟩ = false := by
    show (Env.isTypeName {} s stringTypes receiver && _) = false
    rw [isTypeName_of_isNamed (by decide) hr, Bool.false_and]
  have hcall : isStringCall {} s ⟨some receiver, l.name, l.typeArgs, [l.arg]⟩ = false := by
    show (isStringMethod l.name 1 && _ && _) = false
    rw [hname.2, Bool.false_and, Bool.false_and]
  show (l.name = "ToString" || if isStaticStringCall {} s ⟨some receiver, l.name, l.typeArgs, [l.arg]⟩ then _
    else isStringCall {} s ⟨some receiver, l.name, l.typeArgs, [l.arg]⟩ : Bool) = false
  simp only [hname.1, hstatic, hcall, Bool.false_or, Bool.false_eq_true, if_false]

theorem mapLookup_applies (env : Env) : mapLookup.applies env s (l.call receiver) = false := by
  have hname := l.of_names
    (fun name => !(["ContainsKey", "ContainsValue", "GetValueOrDefault", "Remove"].contains name)) (by decide)
  simp only [List.contains_cons, List.contains_nil, Bool.or_false, Bool.not_eq_true', Bool.or_eq_false_iff,
    beq_eq_false_iff_ne] at hname
  show isMapCall env s ⟨some receiver, l.name, l.typeArgs, [l.arg]⟩ (l.call receiver) = false
  simp [isMapCall, Call.arity, hname]

theorem collectionMethods_applies (env : Env) : collectionMethods.applies env s (l.call receiver) = false := by
  have hname := l.of_names (fun name => !(["Add", "AddRange", "RemoveAt", "Remove"].contains name)) (by decide)
  simp only [List.contains_cons, List.contains_nil, Bool.or_false, Bool.not_eq_true', Bool.or_eq_false_iff,
    beq_eq_false_iff_ne] at hname
  show (isOnCollection env s (l.call receiver) receiver && isChange l.name 1 _) = false
  simp [isChange, hname]

theorem materialize_applies (env : Env) : materialize.applies env s (l.call receiver) = false := by
  have hname : materializers.contains l.name = false := by
    simpa using l.of_names (fun name => !materializers.contains name) (by decide)
  show (materializers.contains l.name && _ && _) = false
  rw [hname, Bool.false_and, Bool.false_and]

theorem sequenceQuery_applies (hr : Env.isStaticReceiver {} s receiver = false) :
    sequenceQuery.applies {} s (l.call receiver) = true := by
  have hname : isQueryName l.name 1 = true := l.of_names (isQueryName · 1) (by decide)
  show (_ || (isQueryName l.name 1 && (!Env.isStaticReceiver {} s receiver && _))) = true
  rw [hname, hr]
  exact Bool.or_true _

/-- A link is left to the rule for queries. -/
theorem find_call (hstatic : Env.isStaticReceiver {} s receiver = false)
    (hnamed : receiver.isNamed staticNames = false) :
    ({} : Engine).exprRules.find? {} s (l.call receiver) = some sequenceQuery := by
  rw [show ({} : Engine).exprRules = ⟨builtinExprs⟩ by rw [Engine.builtin_eq]]
  have hproperties : collectionProperties.applies {} s (l.call receiver) = false := rfl
  simp only [RuleSet.find?, builtinExprs, List.find?_cons, l.consolePrint_applies, l.taskHelpers_applies,
    l.serviceLookup_applies, l.numericHelpers_applies hnamed, l.stringHelpers_applies hnamed, l.mapLookup_applies,
    hproperties, l.collectionMethods_applies, l.materialize_applies, l.sequenceQuery_applies hstatic]

/-- The operator puts its call behind the text of the receiver. -/
theorem render_eq (source : QuerySource) (arg : String) :
    ∃ op, QueryOp.ofName? l.name = some op ∧ op.render source [arg] = l.append source.text arg := by
  have hall : ∀ c ∈ queryCalls, ∃ op, QueryOp.ofName? c.1 = some op ∧
      op.render source [arg] = source.text ++ c.2 ++ arg ++ ")" := by
    simp only [queryCalls, List.forall_mem_cons]
    exact ⟨⟨_, rfl, rfl⟩, ⟨_, rfl, rfl⟩, ⟨_, rfl, rfl⟩, ⟨_, rfl, rfl⟩, ⟨_, rfl, rfl⟩, ⟨_, rfl, rfl⟩, ⟨_, rfl, rfl⟩,
      ⟨_, rfl, rfl⟩, ⟨_, rfl, rfl⟩, ⟨_, rfl, rfl⟩, ⟨_, rfl, rfl⟩, ⟨_, rfl, rfl⟩, ⟨_, rfl, rfl⟩, ⟨_, rfl, rfl⟩,
      List.forall_mem_nil _⟩
  exact hall _ l.known

/-- With the built-in rules, the receiver becomes an operand, then the argument is converted,
    then the call is put behind. -/
theorem convert_call (hstatic : Env.isStaticReceiver {} s receiver = false)
    (hnamed : receiver.isNamed staticNames = false) (expected? : Option TypeRef) :
    (Converter.bare.exprAs expected? (l.call receiver)).out s = (do
      let source ← Converter.bare.operand receiver
      let arg ← Converter.bare.expr l.arg.expr
      return l.append source arg : Emit String).out s := by
  set k := Converter.bare with hk
  have hfactory : isFactoryCall {} s ⟨some receiver, l.name, l.typeArgs, [l.arg]⟩ = false := by
    simp [isFactoryCall, Call.arity]
  have hsort : SortStep.ofName? l.name = none := by
    simpa using l.of_names (fun name => (SortStep.ofName? name).isNone) (by decide)
  have henv : k.toEnv = {} := rfl
  rw [Engine.converter_exprAs (Engine.builtin_local {}), Engine.step_exprAs_out, henv, l.find_call hstatic hnamed]
  show (sequenceQuery.convert k (l.call receiver)).out s = _
  simp only [sequenceQuery, l.call?_call, Option.bind_some, Option.map_some, Emit.out_bind, Emit.out_get, henv,
    hfactory, hsort, Bool.false_eq_true, if_false, Option.isSome_none, queryCall]
  generalize (k.operand receiver).out s = source
  have hargs : (k.arguments [l.arg]).out source.2 =
      ([((k.expr l.arg.expr).out source.2).1], ((k.expr l.arg.expr).out source.2).2) := rfl
  obtain ⟨op, hop, hrender⟩ := l.render_eq ⟨source.1, _, _⟩ ((k.expr l.arg.expr).out source.2).1
  rw [hargs, hop]
  exact congrArg (·, _) hrender

end QueryLink

/-! ## Texts of chains -/

/-- With the call behind it, a text that the operand scan gets through is still one. -/
theorem QueryLink.scanned_append (l : QueryLink) {w : Watch} {source arg : String}
    (hs : source.toList.foldlM Place.next (.code 0) = some (.code 0)) (ha : w.Whole arg) :
    (l.append source arg).toList.foldlM Place.next (.code 0) = some (.code 0) := by
  have hopening : l.opening.toList.foldlM Place.next (.code 0) = some (.code 1) := by
    have hall : queryCalls.all (fun c => c.2.toList.foldlM Place.next (.code 0) = some (.code 1)) = true := by decide
    exact of_decide_eq_true (List.all_eq_true.mp hall _ l.known)
  simp only [append, String.toList_append, List.foldlM_append, hs, hopening, ha.scanned Nat.one_ne_zero,
    Option.bind_eq_bind, Option.bind_some]
  rfl

/-- It stays without parentheses. -/
theorem operand_of_scanned {t : String} (hne : t ≠ "") (h : t.toList.foldlM Place.next (.code 0) = some (.code 0)) :
    operand t = t := by
  unfold operand isSimpleOperand
  rw [h, if_pos]
  simp [hne]

theorem QueryLink.append_ne (l : QueryLink) (source arg : String) : l.append source arg ≠ "" := by
  intro h
  have hlist := congrArg String.toList h
  simp [append] at hlist

/-! ## Templates -/

/-- Nothing in the expression, converted in the session, becomes a template literal. -/
def Expr.TemplateFree (env : Env) (s : Session) (x : Expr) : Prop :=
  ∀ b y, Within [([], .expr x)] b (.expr y) → (∀ parts, y.kind ≠ .interpolated parts) ∧
    ∀ call, y.call? = some call → becomesTemplate env { s with scopes := b ++ s.scopes } call y = false

/-- Whether a call becomes a template depends on the names in scope only. -/
theorem becomesTemplate_congr (env : Env) {s s' : Session} (h : s.scopes = s'.scopes) (call : Call) (e : Expr) :
    becomesTemplate env s call e = becomesTemplate env s' call e := by
  have hbound : s.isBound = s'.isBound := by
    unfold Session.isBound
    rw [h]
  have htype : env.isTypeName s = env.isTypeName s' := by
    unfold Env.isTypeName
    rw [hbound]
  unfold becomesTemplate Rules.consoleMethod? Rules.isErrorStream Rules.isStaticStringCall Env.isMemberOf
  rw [hbound, htype]

/-- A character of a number. -/
def isNumberChar (c : Char) : Bool := isAlphanumeric c || c = '_' || c = '.' || c = '+' || c = '-'

/-- The names of an expression and of all nodes inside it are identifiers, its numbers are
    written as such, and none of it is text that was not understood. -/
def Expr.PlainlySpelled (x : Expr) : Prop :=
  (Node.expr x).Everywhere (Node.Spelled (isIdentifier · = true) (·.toList.all isNumberChar = true))

/-- A reader that does not look for chains takes any literal and any operand. -/
theorem Node.readable_of_lenient (m : Model) {x : Node} (h : ∀ e parts, x = .expr e → e.kind ≠ .interpolated parts) :
    x.Readable m ⟨false, true⟩ := by
  have hquotable : ∀ s, Watch.Quotable ⟨false, true⟩ s := fun _ _ => rfl
  cases x with
  | expr e =>
    obtain ⟨span, kind⟩ := e
    cases kind with
    | interpolated parts => exact absurd rfl (h _ parts rfl)
    | literal value =>
      cases value with
      | string | char => exact hquotable _
      | _ => trivial
    | binary | assignment | invocation => exact nofun
    | objectCreation type? args i? =>
      rcases i? with _ | ms | es | ds
      · trivial
      · exact fun m _ => hquotable m.name
      · trivial
      · trivial
    | anonymousObject ms => exact fun m _ => hquotable m.name
    | nameOf name => exact hquotable _
    | _ => trivial
  | stmt s => trivial
  | pattern p =>
    cases p with
    | constant | relational => exact nofun
    | _ => trivial

/-- Such an expression is suited for such a reader. -/
theorem Expr.TemplateFree.suited {env : Env} {s r : Session} {x : Expr} (h : x.TemplateFree env s)
    (hx : x.PlainlySpelled) (hr : r.scopes = s.scopes) :
    (Node.expr x).Suited ⟨false, true⟩ (fun _ => False) env r.scopes where
  fit := by
    refine Node.everywhere_iff.mpr fun b y hy => ⟨?_, Node.readable_of_lenient _ ?_⟩
    · refine (Node.everywhere_iff.mp hx b y hy).mono (fun _ => inert_of_isIdentifier) fun t ht c hc => ?_
      exact isActive_eq_false (by decide +kernel) (List.all_eq_true.mp ht c hc)
    · rintro e parts rfl
      exact (h b e hy).1 parts
  holes b e he r' hr' := by
    obtain ⟨hkind, hcalls⟩ := h b e he
    refine ⟨fun call hc htemplate => ?_, fun parts hparts => absurd hparts (hkind parts)⟩
    have hscopes : r'.scopes = ({ s with scopes := b ++ s.scopes } : Session).scopes := by rw [hr', hr]
    rw [becomesTemplate_congr env hscopes, hcalls call hc] at htemplate
    cases htemplate

/-! ## Whole chains -/

theorem Session.Tidy.continues {s r : Session} (hs : s.Tidy) (hr : s.Continues r) : r.Tidy := by
  unfold Session.Tidy
  rwa [hr.catches]

/-- What an expression without templates becomes while the session goes on. -/
theorem Expr.TemplateFree.whole {s r : Session} (hs : s.Tidy) {x : Expr} (h : x.TemplateFree {} s)
    (hx : x.PlainlySpelled) (hr : s.Continues r) : Watch.Whole ⟨false, true⟩ ((Converter.bare.expr x).out r).1 := by
  have hsuited : (Node.expr x).Suited ⟨false, true⟩ (fun _ => False) {} r.scopes := h.suited hx hr.scopes
  have hreads := Engine.suited_reads Model.empty (fun _ hfalse => hfalse.elim) (hs.continues hr) hsuited
  exact (hreads none nofun).1.whole

/-- In the session, the expression becomes an operand as `m` says, and can be the receiver of
    a link. -/
structure Receiver (s : Session) (e : Expr) (m : Emit String) : Prop where
  value : Env.isStaticReceiver {} s e = false
  named : e.isNamed staticNames = false
  converts : (Converter.bare.operand e).out s = m.out s
  restores : s.Continues (m.out s).2
  scanned : (m.out s).1.toList.foldlM Place.next (.code 0) = some (.code 0)

/-- The receiver, then the argument, then the call. -/
def QueryLink.step (m : Emit String) (l : QueryLink) : Emit String := do
  let source ← m
  let arg ← Converter.bare.expr l.arg.expr
  return l.append source arg

namespace Receiver

variable {s : Session} {e : Expr} {m : Emit String}

theorem convert_call (h : Receiver s e m) (l : QueryLink) (expected? : Option TypeRef) :
    (Converter.bare.exprAs expected? (l.call e)).out s = (l.step m).out s := by
  rw [l.convert_call h.value h.named]
  simp only [QueryLink.step, Emit.out_bind, h.converts]

/-- With a link, a receiver is one again. -/
theorem step (h : Receiver s e m) (hs : s.Tidy) (l : QueryLink) (harg : l.arg.expr.TemplateFree {} s)
    (hspelled : l.arg.expr.PlainlySpelled) : Receiver s (l.call e) (l.step m) := by
  have hscanned : ((l.step m).out s).1.toList.foldlM Place.next (.code 0) = some (.code 0) :=
    l.scanned_append h.scanned (harg.whole hs hspelled h.restores)
  have hne : ((l.step m).out s).1 ≠ "" := l.append_ne _ _
  refine ⟨rfl, rfl, ?_, h.restores.trans (Converter.bare_restores l.arg.expr _), hscanned⟩
  calc (Converter.bare.operand (l.call e)).out s
      = (operand ((l.step m).out s).1, ((l.step m).out s).2) :=
        congrArg (fun r => (operand r.1, r.2)) (h.convert_call l none)
    _ = (l.step m).out s := by rw [operand_of_scanned hne hscanned]

/-- Links are converted one after the other. -/
theorem convert_queried (h : Receiver s e m) (hs : s.Tidy) (first : QueryLink) (further : List QueryLink)
    (hargs : ∀ l ∈ first :: further, l.arg.expr.TemplateFree {} s ∧ l.arg.expr.PlainlySpelled)
    (expected? : Option TypeRef) :
    (Converter.bare.exprAs expected? (e.queried (first :: further))).out s =
      ((first :: further).foldl QueryLink.step m).out s := by
  induction further generalizing e m first with
  | nil => exact h.convert_call first expected?
  | cons second further ih =>
    obtain ⟨⟨hfree, hspelled⟩, hfurther⟩ := List.forall_mem_cons.mp hargs
    exact ih (h.step hs first hfree hspelled) second hfurther

end Receiver

/-- The base is converted, then all arguments, and the calls are put behind the base. -/
theorem foldl_step_eq (links : List QueryLink) (m : Emit String) :
    links.foldl QueryLink.step m = (do
      let source ← m
      let args ← links.mapM fun l => Converter.bare.expr l.arg.expr
      return queriedText source links args) := by
  induction links generalizing m with
  | nil => simp [queriedText]
  | cons l links ih =>
    rw [List.foldl_cons, ih]
    simp only [QueryLink.step, List.mapM_cons, bind_assoc, pure_bind]
    rfl

/-- A chain of query operators becomes the base as an operand and one call for each operator, in
    their order, with the converted arguments. -/
theorem queryChain_in_order (s : Session) (hcaught : ∀ binding ∈ s.catches, isIdentifier binding = true) (base : Expr)
    (hvalue : Env.isStaticReceiver {} s base = false) (hnamed : base.isNamed staticNames = false) (first : QueryLink)
    (further : List QueryLink)
    (hparts : ∀ x ∈ base :: (first :: further).map (·.arg.expr), x.TemplateFree {} s ∧ x.PlainlySpelled)
    (expected? : Option TypeRef) :
    let links := first :: further
    (Converter.bare.exprAs expected? (base.queried links)).out s = (do
      let source ← Converter.bare.operand base
      let args ← links.mapM fun l => Converter.bare.expr l.arg.expr
      return queriedText source links args : Emit String).out s := by
  intro links
  have hs : s.Tidy := fun binding hb => inert_of_isIdentifier (hcaught binding hb)
  obtain ⟨⟨hfree, hspelled⟩, hargs⟩ := List.forall_mem_cons.mp hparts
  have hbase : Receiver s base (Converter.bare.operand base) :=
    { value := hvalue
      named := hnamed
      converts := rfl
      restores := Converter.bare_restores base s
      scanned := (hfree.whole hs hspelled (.refl s)).operand_scanned }
  rw [hbase.convert_queried hs first further (List.forall_mem_map.mp hargs), foldl_step_eq]

/-- A node that is plain by itself: no call, no interpolated string, and spelled plainly. -/
def Node.Plain (x : Node) : Prop :=
  x.Spelled (isIdentifier · = true) (·.toList.all isNumberChar = true) ∧
    match x with
    | .expr ⟨_, .invocation ..⟩ | .expr ⟨_, .interpolated _⟩ => False
    | _ => True

/-- Such nodes make no templates. -/
theorem Expr.templateFree_of_plain {env : Env} {s : Session} {x : Expr} (h : (Node.expr x).Everywhere Node.Plain) :
    x.TemplateFree env s ∧ x.PlainlySpelled := by
  have hplain := Node.everywhere_iff.mp h
  refine ⟨fun b y hy => ⟨?_, ?_⟩, Node.everywhere_iff.mpr fun b y hy => (hplain b y hy).1⟩
  · rintro parts hkind
    obtain ⟨span, kind⟩ := y
    cases hkind
    exact (hplain b _ hy).2
  · rintro call hcall
    obtain ⟨span, kind⟩ := y
    cases kind with
    | invocation => exact (hplain b _ hy).2.elim
    | _ => cases hcall

theorem queryChain_in_order_filter_map :
    let name (n : String) : Expr := ⟨{}, .identifier n⟩
    let base : Expr := ⟨{}, .binary .coalesce (name "items") (name "spare")⟩
    let bracket : Expr := ⟨{}, .literal (.string ") (")⟩
    let keep : Expr := ⟨{}, .lambda [{ name := "x" }] (.expr ⟨{}, .binary .ne (name "x") bracket⟩) false⟩
    let label : Expr := ⟨{}, .lambda [{ name := "y" }] (.expr ⟨{}, .member (name "y") "Label"⟩) false⟩
    let filter : QueryLink := { name := "Where", opening := ".filter(", known := by decide, arg := { expr := keep } }
    let map : QueryLink := { name := "Select", opening := ".map(", known := by decide, arg := { expr := label } }
    ((Converter.bare.expr (base.queried [filter, map])).out {}).1 =
      "(items ?? spare).filter((x) => x !== \") (\").map((y) => y.label)" := by
  intro name base bracket keep label filter map
  have hname : ∀ n, isIdentifier n = true → (Node.expr (name n)).Everywhere Node.Plain := fun n hn =>
    Node.everywhere_of_parts ⟨hn, trivial⟩ (List.forall_mem_nil _)
  have hbracket : (Node.expr bracket).Everywhere Node.Plain :=
    Node.everywhere_of_parts ⟨trivial, trivial⟩ (List.forall_mem_nil _)
  have hbase : (Node.expr base).Everywhere Node.Plain := by
    refine Node.everywhere_of_parts ⟨trivial, trivial⟩ ?_
    exact List.forall_mem_cons.mpr ⟨hname _ rfl, List.forall_mem_singleton.mpr (hname _ rfl)⟩
  have hkeep : (Node.expr keep).Everywhere Node.Plain := by
    refine Node.everywhere_of_parts ⟨List.forall_mem_singleton.mpr ⟨rfl, nofun⟩, trivial⟩ ?_
    refine List.forall_mem_singleton.mpr (Node.everywhere_of_parts ⟨trivial, trivial⟩ ?_)
    exact List.forall_mem_cons.mpr ⟨hname _ rfl, List.forall_mem_singleton.mpr hbracket⟩
  have hlabel : (Node.expr label).Everywhere Node.Plain := by
    refine Node.everywhere_of_parts ⟨List.forall_mem_singleton.mpr ⟨rfl, nofun⟩, trivial⟩ ?_
    refine List.forall_mem_singleton.mpr (Node.everywhere_of_parts ⟨rfl, trivial⟩ ?_)
    exact List.forall_mem_singleton.mpr (hname _ rfl)
  have hparts : ∀ x ∈ base :: [filter, map].map (·.arg.expr), x.TemplateFree {} {} ∧ x.PlainlySpelled := by
    refine List.forall_mem_cons.mpr ⟨Expr.templateFree_of_plain hbase, List.forall_mem_cons.mpr ⟨?_, ?_⟩⟩
    · exact Expr.templateFree_of_plain hkeep
    · exact List.forall_mem_singleton.mpr (Expr.templateFree_of_plain hlabel)
  have hchain := queryChain_in_order {} (List.forall_mem_nil _) base rfl rfl filter [map] hparts none
  refine (congrArg Prod.fst hchain).trans ?_
  rw [Converter.bare, Engine.builtin_eq]
  decide +kernel

end ComponentScript
