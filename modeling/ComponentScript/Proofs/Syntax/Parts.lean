/-
  ComponentScript.Proofs.Syntax.Parts — the nodes inside a node, with the scopes that open
  on the way to them.

  The parts of a node are its direct inner nodes. A part comes with the scopes its position
  opens, the innermost first: the parameters of a lambda or a local function over its
  defaults and its body, the variables of a loop over its body, the resources declared so
  far over later resources and the body, the functions of a statement list over the whole
  list, the variable of a catch clause over its filter. A resource declaration without a
  body opens its scope over the statements behind it.

  `Within ps b x`: the node `x` is one of the parts `ps` or lies inside one, and the scopes
  `b` are open there. `within_depth_lt`: what lies inside a node is less deep.
-/

import ComponentScript.Convert.Converter
import ComponentScript.Syntax.Walk

namespace ComponentScript

/-- Open scopes, the innermost first. -/
abbrev Scopes := List (List String)

/-- A node of a tree. -/
inductive Node where
  | expr (e : Expr)
  | stmt (s : Stmt)
  | pattern (p : Pattern)

/-- Inner nodes with the scopes that open on the way to them. -/
abbrev Parts := List (Scopes × Node)

namespace Parts

/-- An expression under the scopes `b`. -/
def expr (b : Scopes) (e : Expr) : Scopes × Node := (b, .expr e)

def exprs (b : Scopes) (es : List Expr) : Parts := es.map (expr b)

/-- The scope of the functions that a statement list declares, if there are any. -/
def functionScope (ss : List Stmt) : Scopes :=
  if (Converter.localFunctions ss).isEmpty then [] else [Converter.localFunctions ss]

/-- The statements of a list under the scopes `b`. -/
def sequence (b : Scopes) : List Stmt → Parts
  | [] => []
  | s :: rest => (b, .stmt s) ::
    match s.kind with
    | .resource ds _ none _ => sequence (functionScope rest ++ ds.map (·.name) :: b) rest
    | _ => sequence b rest

/-- The statements of a list with its functions in scope. -/
def statements (b : Scopes) (ss : List Stmt) : Parts := sequence (functionScope ss ++ b) ss

/-- A statement in the place of a block; one that is no block is a list of its own. -/
def body (b : Scopes) (s : Stmt) : Scopes × Node :=
  match s.kind with
  | .block _ => (b, .stmt s)
  | _ => (functionScope [s] ++ b, .stmt s)

/-- The values of resources, each under the names of those before it. -/
def acquired (seen : List String) : List Declarator → Parts
  | [] => []
  | d :: ds => exprs [seen] d.init?.toList ++ acquired (seen ++ [d.name]) ds

def params (b : Scopes) (ps : List Param) : Parts := exprs b (ps.filterMap (·.default?))

def declarators (ds : List Declarator) : Parts := exprs [] (ds.filterMap (·.init?))

def arguments (args : List Argument) : Parts := exprs [] (args.map (·.expr))

def initializer (i? : Option Initializer) : Parts := exprs [] (i?.toList.flatMap Initializer.exprs)

def arm (a : SwitchArm) : Parts := ([], .pattern a.pattern) :: exprs [] a.exprs

def clause (c : CatchClause) : Parts :=
  exprs (c.name?.toList.map fun name => [name]) c.filter?.toList ++ [body [] c.body]

def label : SwitchLabel → Parts
  | .constant value => [expr [] value]
  | .pattern pattern guard? => ([], .pattern pattern) :: exprs [] guard?.toList
  | .otherwise => []

def switchSection (s : SwitchSection) : Parts :=
  s.labels.flatMap label ++ statements [] s.statements

def forInit : Option ForInit → Parts
  | none => []
  | some (.declaration _ ds) => declarators ds
  | some (.expressions es) => exprs [] es

end Parts

open Parts in
/-- The direct inner nodes of an expression. -/
def Expr.parts (e : Expr) : Parts :=
  match e.kind with
  | .identifier _ | .this | .base | .literal _ | .nameOf _ | .defaultOf _ | .other .. => []
  | .interpolated parts => exprs [] (parts.filterMap InterpolationPart.expr?)
  | .binary _ left right => exprs [] [left, right]
  | .unary _ operand => [expr [] operand]
  | .assignment _ target value => exprs [] [target, value]
  | .member receiver _ => [expr [] receiver]
  | .conditionalMember receiver _ => [expr [] receiver]
  | .elementAccess receiver index => exprs [] [receiver, index]
  | .invocation callee _ args => expr [] callee :: arguments args
  | .objectCreation _ args initializer? => arguments args ++ initializer initializer?
  | .anonymousObject members => exprs [] (members.map (·.value))
  | .arrayCreation _ size? elements => exprs [] (size?.toList ++ elements)
  | .conditional condition whenTrue whenFalse => exprs [] [condition, whenTrue, whenFalse]
  | .lambda ps body _ =>
    let scope := [ps.map (·.name)]
    params scope ps ++
      match body with
      | .expr e => [expr scope e]
      | .block s => [Parts.body scope s]
  | .await operand => [expr [] operand]
  | .cast _ operand => [expr [] operand]
  | .patternTest operand pattern => [expr [] operand, ([], .pattern pattern)]
  | .parenthesized inner => [expr [] inner]
  | .switchExpr scrutinee arms => expr [] scrutinee :: arms.flatMap arm

open Parts in
def Pattern.parts : Pattern → Parts
  | .discard | .type _ => []
  | .constant value => [expr [] value]
  | .relational _ value => [expr [] value]
  | .property _ subpatterns => subpatterns.map fun p => ([], .pattern p.pattern)
  | .not pattern => [([], .pattern pattern)]
  | .and left right => [([], .pattern left), ([], .pattern right)]
  | .or left right => [([], .pattern left), ([], .pattern right)]

open Parts in
/-- The direct inner nodes of a statement. -/
def Stmt.parts (s : Stmt) : Parts :=
  match s.kind with
  | .breaks | .continues | .empty | .other .. => []
  | .block ss => Parts.statements [] ss
  | .declaration _ ds _ => declarators ds
  | .expression e => [Parts.expr [] e]
  | .branch condition thenBranch elseBranch? =>
    Parts.expr [] condition :: (thenBranch :: elseBranch?.toList).map (body [])
  | .whileLoop condition s => [Parts.expr [] condition, body [] s]
  | .doLoop s condition => [body [] s, Parts.expr [] condition]
  | .forLoop init? condition? updates s =>
    forInit init? ++ exprs [] (condition?.toList ++ updates) ++ [body [] s]
  | .forEach target iterable s _ => [Parts.expr [] iterable, body [target.names] s]
  | .returns value? => exprs [] value?.toList
  | .throws value? => exprs [] value?.toList
  | .tryCatch s catches finally? =>
    body [] s :: catches.flatMap clause ++ finally?.toList.map (body [])
  | .resource ds resource? body? _ =>
    let scope := [ds.map (·.name)]
    acquired [] ds ++ exprs scope resource?.toList ++ body?.toList.map (body scope)
  | .switchStmt scrutinee sections => Parts.expr [] scrutinee :: sections.flatMap switchSection
  | .lock target s => [Parts.expr [] target, body [] s]
  | .localFunction _ ps s _ =>
    let scope := [ps.map (·.name)]
    params scope ps ++ [body scope s]
  | .yields value? => exprs [] value?.toList

def Node.parts : Node → Parts
  | .expr e => e.parts
  | .stmt s => s.parts
  | .pattern p => p.parts

/-- A node is among the parts `ps` or inside one of them, with the scopes `b` open there. -/
inductive Within : Parts → Scopes → Node → Prop
  | here {ps : Parts} {b : Scopes} {x : Node} : (b, x) ∈ ps → Within ps b x
  | deeper {ps : Parts} {b c : Scopes} {x y : Node} : (b, x) ∈ ps → Within x.parts c y →
      Within ps (c ++ b) y

namespace Within

theorem mono {ps qs : Parts} (h : ∀ p ∈ ps, p ∈ qs) {b : Scopes} {x : Node} (hx : Within ps b x) :
    Within qs b x := by
  cases hx with
  | here hm => exact .here (h _ hm)
  | deeper hm hd => exact .deeper (h _ hm) hd

theorem trans {ps : Parts} {b c : Scopes} {x y : Node} (hx : Within ps b x) (hy : Within x.parts c y) :
    Within ps (c ++ b) y := by
  induction hx with
  | here hm => exact .deeper hm hy
  | deeper hm _ ih => rw [← List.append_assoc]; exact .deeper hm (ih hy)

/-- A node with all nodes inside it. -/
theorem inside {x y : Node} {b : Scopes} (h : Within x.parts b y) : Within [([], x)] b y := by
  have hin : Within [([], x)] (b ++ []) y := .deeper (List.mem_singleton.mpr rfl) h
  rwa [List.append_nil] at hin

theorem self (x : Node) : Within [([], x)] [] x := .here (List.mem_singleton.mpr rfl)

/-- The node itself, or a node inside it. -/
theorem of_singleton {x y : Node} {b : Scopes} (h : Within [([], x)] b y) : b = [] ∧ y = x ∨ Within x.parts b y := by
  cases h with
  | here hm => cases List.mem_singleton.mp hm; exact .inl ⟨rfl, rfl⟩
  | deeper hm h =>
    cases List.mem_singleton.mp hm
    rw [List.append_nil]
    exact .inr h

/-- What is inside a node that is inside another. -/
theorem enter {x y z : Node} {b c : Scopes} (hy : Within x.parts b y) (hz : Within [([], y)] c z) :
    Within [([], x)] (c ++ b) z := by
  rcases hz.of_singleton with ⟨rfl, rfl⟩ | hz
  · exact hy.inside
  · exact hy.inside.trans hz

end Within

/-! ## Depth -/

def Node.depth : Node → Nat
  | .expr e => e.depth
  | .stmt s => s.depth
  | .pattern p => p.depth

namespace Parts

/-- No part is deeper than `n`. -/
def AtMost (n : Nat) (ps : Parts) : Prop := ∀ p ∈ ps, p.2.depth ≤ n

theorem atMost_append {n : Nat} {ps qs : Parts} (hp : AtMost n ps) (hq : AtMost n qs) :
    AtMost n (ps ++ qs) := by
  intro p h
  rcases List.mem_append.mp h with h | h
  · exact hp p h
  · exact hq p h

theorem AtMost.mono {m n : Nat} {ps : Parts} (h : AtMost m ps) (hmn : m ≤ n) : AtMost n ps :=
  fun p hp => Nat.le_trans (h p hp) hmn

theorem atMost_exprs {n : Nat} {es : List Expr} (b : Scopes) (h : ∀ e ∈ es, e.depth ≤ n) :
    AtMost n (exprs b es) := by
  intro p hp
  obtain ⟨e, he, rfl⟩ := List.mem_map.mp hp
  exact h e he

/-- A measure of lists that takes the maximum bounds the measure of every member. -/
theorem le_of_mem_of_max {α : Type} {f : α → Nat} {g : List α → Nat}
    (hg : ∀ a as, g (a :: as) = max (f a) (g as)) {a : α} {as : List α} (h : a ∈ as) : f a ≤ g as := by
  induction as with
  | nil => cases h
  | cons x xs ih =>
    rw [hg]
    rcases List.mem_cons.mp h with rfl | h
    · exact Nat.le_max_left ..
    · exact Nat.le_trans (ih h) (Nat.le_max_right ..)

theorem depth_le_depthExpr? {e : Expr} {e? : Option Expr} (h : e ∈ e?.toList) : e.depth ≤ depthExpr? e? := by
  cases e? with
  | none => cases h
  | some x => obtain rfl := List.mem_singleton.mp h; exact Nat.le_refl _

theorem depth_le_depthStmt? {s : Stmt} {s? : Option Stmt} (h : s ∈ s?.toList) : s.depth ≤ depthStmt? s? := by
  cases s? with
  | none => cases h
  | some x => obtain rfl := List.mem_singleton.mp h; exact Nat.le_refl _

theorem expr_depth (b : Scopes) (e : Expr) : (expr b e).2.depth = e.depth := rfl

theorem body_depth (b : Scopes) (s : Stmt) : (body b s).2.depth = s.depth := by
  unfold body
  split <;> rfl

theorem atMost_sequence {n : Nat} {ss : List Stmt} (h : ∀ s ∈ ss, s.depth ≤ n) :
    ∀ b, AtMost n (sequence b ss) := by
  induction ss with
  | nil => intro b p hp; cases hp
  | cons s rest ih =>
    intro b p hp
    have hrest := ih fun x hx => h x (List.mem_cons_of_mem _ hx)
    rw [sequence] at hp
    rcases List.mem_cons.mp hp with rfl | hp
    · exact h s (List.mem_cons_self ..)
    · split at hp
      · exact hrest _ p hp
      · exact hrest _ p hp

theorem atMost_acquired {n : Nat} {ds : List Declarator} (h : ∀ d ∈ ds, ∀ e ∈ d.init?.toList, e.depth ≤ n) :
    ∀ seen, AtMost n (acquired seen ds) := by
  induction ds with
  | nil => intro seen p hp; cases hp
  | cons d ds ih =>
    intro seen
    rw [acquired]
    refine atMost_append (atMost_exprs _ (h d (List.mem_cons_self ..))) ?_
    exact ih (fun x hx => h x (List.mem_cons_of_mem _ hx)) _

theorem param_depth_le {ps : List Param} : ∀ e ∈ ps.filterMap (·.default?), e.depth ≤ depthParams ps := by
  intro e he
  obtain ⟨p, hp, hd⟩ := List.mem_filterMap.mp he
  refine Nat.le_trans ?_ (le_of_mem_of_max (fun _ _ => by rw [depthParams]) hp)
  obtain ⟨name, type?, default?, isRest⟩ := p
  exact depth_le_depthExpr? (Option.mem_toList.mpr hd)

theorem declarator_depth_le {ds : List Declarator} {d : Declarator} (hd : d ∈ ds) :
    ∀ e ∈ d.init?.toList, e.depth ≤ depthDeclarators ds := by
  intro e he
  refine Nat.le_trans ?_ (le_of_mem_of_max (fun _ _ => by rw [depthDeclarators]) hd)
  obtain ⟨name, init?⟩ := d
  exact depth_le_depthExpr? he

theorem atMost_declarators (ds : List Declarator) : AtMost (depthDeclarators ds) (declarators ds) := by
  refine atMost_exprs _ fun e he => ?_
  obtain ⟨d, hd, hi⟩ := List.mem_filterMap.mp he
  exact declarator_depth_le hd e (Option.mem_toList.mpr hi)

theorem atMost_arguments (args : List Argument) : AtMost (depthArguments args) (arguments args) := by
  refine atMost_exprs _ fun e he => ?_
  obtain ⟨a, ha, rfl⟩ := List.mem_map.mp he
  exact Argument.depth_expr_le ha

theorem atMost_initializer (i? : Option Initializer) : AtMost (depthInitializer? i?) (initializer i?) := by
  refine atMost_exprs _ fun e he => ?_
  obtain ⟨i, hi, hx⟩ := List.mem_flatMap.mp he
  cases i? with
  | none => cases hi
  | some j =>
    obtain rfl := List.mem_singleton.mp hi
    exact Initializer.depth_le_of_mem_exprs hx

theorem atMost_arm (a : SwitchArm) : AtMost a.depth (arm a) := by
  intro p hp
  rcases List.mem_cons.mp hp with rfl | hp
  · obtain ⟨pattern, guard?, value⟩ := a
    exact Nat.le_max_left ..
  · exact atMost_exprs _ (fun e he => SwitchArm.depth_le_of_mem_exprs he) p hp

theorem atMost_clause (c : CatchClause) : AtMost c.depth (clause c) := by
  obtain ⟨type?, name?, filter?, body⟩ := c
  refine atMost_append (atMost_exprs _ fun e he => ?_) fun p hp => ?_
  · exact Nat.le_trans (depth_le_depthExpr? he) (Nat.le_max_left ..)
  · obtain rfl := List.mem_singleton.mp hp
    rw [body_depth]
    exact Nat.le_max_right ..

theorem atMost_label (l : SwitchLabel) : AtMost l.depth (label l) := by
  cases l with
  | constant value => intro p hp; obtain rfl := List.mem_singleton.mp hp; exact Nat.le_refl _
  | pattern pattern guard? =>
    intro p hp
    rcases List.mem_cons.mp hp with rfl | hp
    · exact Nat.le_max_left ..
    · exact (atMost_exprs _ fun e he => Nat.le_trans (depth_le_depthExpr? he) (Nat.le_max_right ..)) p hp
  | otherwise => intro p hp; cases hp

theorem atMost_switchSection (s : SwitchSection) : AtMost s.depth (switchSection s) := by
  obtain ⟨labels, statements⟩ := s
  refine atMost_append (fun p hp => ?_) (atMost_sequence (fun x hx => ?_) _)
  · obtain ⟨l, hl, hp⟩ := List.mem_flatMap.mp hp
    refine Nat.le_trans (Nat.le_trans (atMost_label l p hp) ?_) (Nat.le_max_left ..)
    exact le_of_mem_of_max (fun _ _ => by rw [depthLabels]) hl
  · exact Nat.le_trans (le_of_mem_of_max (fun _ _ => by rw [depthStmts]) hx) (Nat.le_max_right ..)

theorem atMost_forInit (i? : Option ForInit) : AtMost (depthForInit? i?) (forInit i?) := by
  rcases i? with _ | ⟨type?, ds⟩ | es
  · intro p hp; cases hp
  · exact atMost_declarators ds
  · exact atMost_exprs _ fun e he => Expr.depth_le_depthExprs he

end Parts

theorem Pattern.atMost_parts (p : Pattern) : Parts.AtMost p.depth p.parts := by
  cases p with
  | property type? subpatterns =>
    intro q hq
    obtain ⟨sub, hs, rfl⟩ := List.mem_map.mp hq
    refine Nat.le_trans ?_ (Parts.le_of_mem_of_max (fun _ _ => by rw [depthSubpatterns]) hs)
    cases sub
    exact Nat.le_refl _
  | discard | type => intro q hq; cases hq
  | constant | relational | not => intro q hq; obtain rfl := List.mem_singleton.mp hq; exact Nat.le_refl _
  | and left right | or left right =>
    intro q hq
    rcases List.mem_cons.mp hq with rfl | hq
    · exact Nat.le_max_left ..
    · obtain rfl := List.mem_singleton.mp hq
      exact Nat.le_max_right ..

theorem Expr.atMost_parts (e : Expr) : Parts.AtMost e.kind.depth e.parts := by
  obtain ⟨span, kind⟩ := e
  cases kind with
  | identifier | this | base | literal | nameOf | defaultOf | other => intro p hp; cases hp
  | unary | member | conditionalMember | await | cast | parenthesized =>
    intro p hp; obtain rfl := List.mem_singleton.mp hp; exact Nat.le_refl _
  | interpolated parts =>
    refine Parts.atMost_exprs _ fun e he => ?_
    obtain ⟨p, hp, hx⟩ := List.mem_filterMap.mp he
    refine Nat.le_trans ?_ (InterpolationPart.depth_le_depthParts hp)
    cases p with
    | text => cases hx
    | expr => cases hx; exact Nat.le_refl _
  | binary | assignment | elementAccess =>
    refine Parts.atMost_exprs _ fun e he => ?_
    simp only [List.mem_cons, List.not_mem_nil, or_false] at he
    simp only [ExprKind.depth]
    rcases he with rfl | rfl <;> omega
  | conditional =>
    refine Parts.atMost_exprs _ fun e he => ?_
    simp only [List.mem_cons, List.not_mem_nil, or_false] at he
    simp only [ExprKind.depth]
    rcases he with rfl | rfl | rfl <;> omega
  | invocation callee typeArgs args =>
    intro p hp
    rcases List.mem_cons.mp hp with rfl | hp
    · exact Nat.le_max_left ..
    · exact Nat.le_trans (Parts.atMost_arguments args p hp) (Nat.le_max_right ..)
  | objectCreation type? args initializer? =>
    exact Parts.atMost_append ((Parts.atMost_arguments args).mono (Nat.le_max_left ..))
      ((Parts.atMost_initializer initializer?).mono (Nat.le_max_right ..))
  | anonymousObject members =>
    refine Parts.atMost_exprs _ fun e he => ?_
    obtain ⟨m, hm, rfl⟩ := List.mem_map.mp he
    exact MemberInit.depth_value_le hm
  | arrayCreation elementType? size? elements =>
    refine Parts.atMost_exprs _ fun e he => ?_
    rcases List.mem_append.mp he with he | he
    · exact Nat.le_trans (Parts.depth_le_depthExpr? he) (Nat.le_max_left ..)
    · exact Nat.le_trans (Expr.depth_le_depthExprs he) (Nat.le_max_right ..)
  | lambda ps body isAsync =>
    refine Parts.atMost_append ((Parts.atMost_exprs _ Parts.param_depth_le).mono (Nat.le_max_left ..)) ?_
    cases body with
    | expr e => intro p hp; obtain rfl := List.mem_singleton.mp hp; exact Nat.le_max_right ..
    | block s =>
      intro p hp
      obtain rfl := List.mem_singleton.mp hp
      rw [Parts.body_depth]
      exact Nat.le_max_right ..
  | patternTest operand pattern =>
    intro p hp
    rcases List.mem_cons.mp hp with rfl | hp
    · exact Nat.le_max_left ..
    · obtain rfl := List.mem_singleton.mp hp
      exact Nat.le_max_right ..
  | switchExpr scrutinee arms =>
    intro p hp
    rcases List.mem_cons.mp hp with rfl | hp
    · exact Nat.le_max_left ..
    · obtain ⟨a, ha, hp⟩ := List.mem_flatMap.mp hp
      exact Nat.le_trans (Nat.le_trans (Parts.atMost_arm a p hp) (SwitchArm.depth_le_depthArms ha))
        (Nat.le_max_right ..)

theorem Stmt.atMost_parts (s : Stmt) : Parts.AtMost s.kind.depth s.parts := by
  obtain ⟨span, kind⟩ := s
  cases kind with
  | breaks | continues | empty | other => intro p hp; cases hp
  | expression e => intro p hp; obtain rfl := List.mem_singleton.mp hp; exact Nat.le_refl _
  | returns | throws | yields => exact Parts.atMost_exprs _ fun e he => Parts.depth_le_depthExpr? he
  | block ss =>
    exact Parts.atMost_sequence (fun s hs => Parts.le_of_mem_of_max (fun _ _ => by rw [depthStmts]) hs) _
  | declaration type? ds isConst => exact Parts.atMost_declarators ds
  | branch condition thenBranch elseBranch? =>
    intro p hp
    rcases List.mem_cons.mp hp with rfl | hp
    · exact Nat.le_max_left ..
    · obtain ⟨s, hs, rfl⟩ := List.mem_map.mp hp
      rw [Parts.body_depth]
      refine Nat.le_trans ?_ (Nat.le_max_right ..)
      rcases List.mem_cons.mp hs with rfl | hs
      · exact Nat.le_max_left ..
      · exact Nat.le_trans (Parts.depth_le_depthStmt? hs) (Nat.le_max_right ..)
  | whileLoop condition body | doLoop body condition | lock condition body | forEach target condition body =>
    intro p hp
    simp only [Stmt.parts, List.mem_cons, List.not_mem_nil, or_false] at hp
    simp only [StmtKind.depth]
    rcases hp with rfl | rfl <;> simp only [Parts.body_depth, Parts.expr_depth] <;> omega
  | forLoop init? condition? updates body =>
    refine Parts.atMost_append (Parts.atMost_append ?_ (Parts.atMost_exprs _ fun e he => ?_)) fun p hp => ?_
    · refine (Parts.atMost_forInit init?).mono ?_
      simp only [StmtKind.depth]
      omega
    · simp only [StmtKind.depth]
      rcases List.mem_append.mp he with he | he
      · have := Parts.depth_le_depthExpr? he; omega
      · have := Expr.depth_le_depthExprs he; omega
    · obtain rfl := List.mem_singleton.mp hp
      simp only [Parts.body_depth, StmtKind.depth]
      omega
  | tryCatch body catches finally? =>
    refine Parts.atMost_append (fun p hp => ?_) fun p hp => ?_
    · rcases List.mem_cons.mp hp with rfl | hp
      · rw [Parts.body_depth]
        exact Nat.le_max_left ..
      · obtain ⟨c, hc, hp⟩ := List.mem_flatMap.mp hp
        have hd : c.depth ≤ depthClauses catches := Parts.le_of_mem_of_max (fun _ _ => by rw [depthClauses]) hc
        have := Parts.atMost_clause c p hp
        simp only [StmtKind.depth]
        omega
    · obtain ⟨s, hs, rfl⟩ := List.mem_map.mp hp
      have := Parts.depth_le_depthStmt? hs
      simp only [Parts.body_depth, StmtKind.depth]
      omega
  | resource ds resource? body? isAwait =>
    refine Parts.atMost_append (Parts.atMost_append ?_ (Parts.atMost_exprs _ fun e he => ?_)) fun p hp => ?_
    · exact (Parts.atMost_acquired (fun d hd => Parts.declarator_depth_le hd) _).mono (Nat.le_max_left ..)
    · have := Parts.depth_le_depthExpr? he
      simp only [StmtKind.depth]
      omega
    · obtain ⟨s, hs, rfl⟩ := List.mem_map.mp hp
      have := Parts.depth_le_depthStmt? hs
      simp only [Parts.body_depth, StmtKind.depth]
      omega
  | switchStmt scrutinee sections =>
    intro p hp
    rcases List.mem_cons.mp hp with rfl | hp
    · exact Nat.le_max_left ..
    · obtain ⟨s, hs, hp⟩ := List.mem_flatMap.mp hp
      refine Nat.le_trans (Nat.le_trans (Parts.atMost_switchSection s p hp) ?_) (Nat.le_max_right ..)
      exact Parts.le_of_mem_of_max (fun _ _ => by rw [depthSections]) hs
  | localFunction name ps body isAsync =>
    refine Parts.atMost_append ((Parts.atMost_exprs _ Parts.param_depth_le).mono (Nat.le_max_left ..)) ?_
    intro p hp
    obtain rfl := List.mem_singleton.mp hp
    rw [Parts.body_depth]
    exact Nat.le_max_right ..

theorem Node.atMost_parts (x : Node) : Parts.AtMost x.depth x.parts := by
  cases x with
  | expr e => obtain ⟨span, kind⟩ := e; exact (Expr.atMost_parts _).mono (Nat.le_succ _)
  | stmt s => obtain ⟨span, kind⟩ := s; exact (Stmt.atMost_parts _).mono (Nat.le_succ _)
  | pattern p => exact Pattern.atMost_parts p

theorem Within.depth_le {n : Nat} {ps : Parts} {b : Scopes} {x : Node} (h : Within ps b x)
    (hn : Parts.AtMost n ps) : x.depth ≤ n := by
  induction h generalizing n with
  | here hm => exact hn _ hm
  | deeper hm _ ih => exact ih ((Node.atMost_parts _).mono (hn _ hm))

/-- What lies inside an expression is less deep. -/
theorem Expr.within_depth_lt {e : Expr} {b : Scopes} {x : Node} (h : Within e.parts b x) :
    x.depth < e.depth := by
  obtain ⟨span, kind⟩ := e
  exact Nat.lt_succ_of_le (h.depth_le (Expr.atMost_parts _))

/-- What lies inside a statement is less deep. -/
theorem Stmt.within_depth_lt {s : Stmt} {b : Scopes} {x : Node} (h : Within s.parts b x) :
    x.depth < s.depth := by
  obtain ⟨span, kind⟩ := s
  exact Nat.lt_succ_of_le (h.depth_le (Stmt.atMost_parts _))

end ComponentScript
