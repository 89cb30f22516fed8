/-
  ComponentScript.Proofs.Convert.OutVariables — the variables that the arguments of a
  statement declare, and where the script declares them.

  A call or a constructor may take `out var n`: the argument declares `n` in the block the
  statement stands in (`Stmt.OutVariable`: the call is one of the statement's own
  expressions, at any depth, but not in a nested statement). A script has no such arguments,
  so `n` has to be declared in front.

  - `stmt_eq_defaultStmt`: with the built-in rules, the text of every statement is its text
    by kind behind `let n;` lines.
  - `stmt_declares_outVariables`: the lines declare each name once, and they declare `n`
    exactly if the statement is an expression, a declaration, a return, a conditional or a
    `while` loop and some call evaluated with it takes `out var n` (`Stmt.Fronted`). A
    branch behind `else` that needs such lines is braced, so that they stand in a block.

  The other statements, constructors, and the calls in lambdas and in patterns get no
  declaration: `throwsOut_undeclared`, `constructsOut_undeclared`.
-/

import ComponentScript.Proofs.Convert.Rounds
import ComponentScript.Proofs.Convert.Writes
import ComponentScript.Syntax.Build

namespace ComponentScript

open Text

/-! ## Out variables of a statement -/

/-- The variables that the arguments of a call or of a constructor declare. -/
def Expr.outVariables (e : Expr) : List String :=
  match e.kind with
  | .invocation _ _ args | .objectCreation _ args _ => args.filterMap Argument.declared?
  | _ => []

/-- The expression is among the parts `ps` or inside one, with no statement on the way. -/
inductive Owned : Parts → Expr → Prop
  | here {ps : Parts} {b : Scopes} {e : Expr} : Parts.expr b e ∈ ps → Owned ps e
  | inExpr {ps : Parts} {b : Scopes} {x e : Expr} : Parts.expr b x ∈ ps → Owned x.parts e → Owned ps e
  | inPattern {ps : Parts} {b : Scopes} {p : Pattern} {e : Expr} : (b, .pattern p) ∈ ps → Owned p.parts e →
      Owned ps e

/-- The expression `x` is `e` or lies inside it, in no lambda and in no pattern. -/
inductive Expr.Evaluates : Expr → Expr → Prop
  | self (e : Expr) : Evaluates e e
  | inner {e c x : Expr} : c ∈ e.shallowChildren → Evaluates c x → Evaluates e x

def Expr.isInvocation (e : Expr) : Bool :=
  match e.kind with
  | .invocation .. => true
  | _ => false

namespace Stmt

/-- An argument in the statement's own expressions declares `n`. -/
def OutVariable (s : Stmt) (n : String) : Prop := ∃ e, Owned s.parts e ∧ n ∈ e.outVariables

/-- The kinds of statements that get declarations in front. -/
def takesDeclarations (s : Stmt) : Bool :=
  match s.kind with
  | .expression _ | .declaration .. | .returns _ | .branch .. | .whileLoop .. => true
  | _ => false

/-- A call that is evaluated with the statement, of a kind that gets declarations in front,
    declares `n`. -/
def Fronted (s : Stmt) (n : String) : Prop :=
  s.takesDeclarations ∧ ∃ b e call, Parts.expr b e ∈ s.parts ∧ e.Evaluates call ∧ call.isInvocation ∧
    n ∈ call.outVariables

end Stmt

/-! ## The walk over what is evaluated together -/

theorem Expr.mem_walkShallow {e x : Expr} : x ∈ e.walkShallow ↔ e.Evaluates x := by
  constructor
  · intro h
    fun_induction Expr.walkShallow e with
    | case1 e ih =>
      rcases List.mem_cons.mp h with rfl | h
      · exact .self _
      · obtain ⟨⟨c, hc⟩, -, hx⟩ := List.mem_flatMap.mp h
        exact .inner hc (ih ⟨c, hc⟩ hx)
  · intro h
    induction h with
    | self e => rw [walkShallow]; exact List.mem_cons_self ..
    | inner hc _ ih =>
      rw [walkShallow]
      exact List.mem_cons_of_mem _ (List.mem_flatMap.mpr ⟨⟨_, hc⟩, List.mem_attach _ _, ih⟩)

theorem Expr.mem_declaredHere {e : Expr} {n : String} :
    n ∈ e.declaredHere ↔ e.isInvocation ∧ n ∈ e.outVariables := by
  obtain ⟨span, kind⟩ := e
  cases kind <;> simp [declaredHere, isInvocation, outVariables]

theorem Parts.expr_ne_body {b c : Scopes} {e : Expr} {s : Stmt} : (b, Node.expr e) ≠ Parts.body c s := by
  unfold Parts.body
  split <;> exact fun h => nomatch congrArg Prod.snd h

/-- The roots of a statement that gets declarations are its direct expressions. -/
theorem Stmt.mem_hoistRoots {s : Stmt} {e : Expr} :
    e ∈ s.hoistRoots ↔ s.takesDeclarations ∧ ∃ b, Parts.expr b e ∈ s.parts := by
  obtain ⟨span, kind⟩ := s
  cases kind with
  | expression x => simp [hoistRoots, takesDeclarations, parts, Parts.expr]
  | whileLoop condition body => simp [hoistRoots, takesDeclarations, parts, Parts.expr_ne_body, Parts.expr]
  | branch condition thenBranch elseBranch? =>
    simp [hoistRoots, takesDeclarations, parts, Parts.expr_ne_body, Parts.expr_ne_body.symm, Parts.expr]
  | declaration type? ds isConst =>
    simp [hoistRoots, takesDeclarations, parts, Parts.declarators, Parts.exprs, Parts.expr]
  | returns value? => simp [hoistRoots, takesDeclarations, parts, Parts.exprs, Parts.expr]
  | _ => simp [hoistRoots, takesDeclarations]

/-! ## The declarations in front of a statement -/

/-- A list of names with one more, unless it is there already. -/
theorem addNew_spec {seen : List String} (name : String) (h : seen.Nodup) :
    (if seen.contains name then seen else seen ++ [name]).Nodup ∧
    ∀ n, n ∈ (if seen.contains name then seen else seen ++ [name]) ↔ n ∈ seen ∨ n = name := by
  by_cases hm : name ∈ seen
  · rw [if_pos (List.contains_iff_mem.mpr hm)]
    refine ⟨h, fun n => ⟨.inl, ?_⟩⟩
    rintro (hn | rfl)
    · exact hn
    · exact hm
  · rw [if_neg fun hc => hm (List.contains_iff_mem.mp hc)]
    refine ⟨List.nodup_append.mpr ⟨h, (List.nodup_cons.mpr ⟨List.not_mem_nil, List.nodup_nil⟩), ?_⟩, fun n => by simp⟩
    rintro a ha b hb rfl
    exact hm (List.mem_singleton.mp hb ▸ ha)

theorem foldl_addNew_spec {names : List String} : ∀ {seen : List String}, seen.Nodup →
    (names.foldl (fun seen name => if seen.contains name then seen else seen ++ [name]) seen).Nodup ∧
    ∀ n, n ∈ names.foldl (fun seen name => if seen.contains name then seen else seen ++ [name]) seen ↔
      n ∈ seen ∨ n ∈ names := by
  induction names with
  | nil => intro seen h; simpa using h
  | cons name names ih =>
    intro seen h
    obtain ⟨hadded, hmem⟩ := addNew_spec name h
    obtain ⟨hnodup, hall⟩ := ih hadded
    rw [List.foldl_cons]
    refine ⟨hnodup, fun n => ?_⟩
    rw [hall, hmem, List.mem_cons, or_assoc]

theorem Stmt.hoisted_nodup (s : Stmt) : s.hoisted.Nodup := (foldl_addNew_spec List.nodup_nil).1

theorem Stmt.mem_hoisted {s : Stmt} {n : String} : n ∈ s.hoisted ↔ s.Fronted n := by
  have hfold : n ∈ s.hoisted ↔ n ∈ s.hoistRoots.flatMap fun e => e.walkShallow.flatMap Expr.declaredHere := by
    refine ((foldl_addNew_spec List.nodup_nil).2 n).trans ?_
    simp
  rw [hfold, Fronted]
  simp only [List.mem_flatMap, mem_hoistRoots, Expr.mem_walkShallow, Expr.mem_declaredHere]
  constructor
  · rintro ⟨e, ⟨hs, b, hb⟩, call, hcall, hn⟩
    exact ⟨hs, b, e, call, hb, hcall, hn⟩
  · rintro ⟨hs, b, e, call, hb, hcall, hn⟩
    exact ⟨e, ⟨hs, b, hb⟩, call, hcall, hn⟩

/-- Only a statement of a kind that gets declarations needs any. -/
theorem Stmt.hoisted_eq_nil {s : Stmt} (h : s.takesDeclarations = false) : s.hoisted = [] := by
  refine List.eq_nil_iff_forall_not_mem.mpr fun n hn => ?_
  have hs := (mem_hoisted.mp hn).1
  rw [h] at hs
  cases hs

/-- What is fronted is an out variable of the statement. -/
theorem Stmt.Fronted.outVariable {s : Stmt} {n : String} (h : s.Fronted n) : s.OutVariable n := by
  obtain ⟨-, b, e, call, he, hcall, -, hn⟩ := h
  refine ⟨call, ?_, hn⟩
  have howned : ∀ {e call : Expr}, e.Evaluates call → ∀ {ps : Parts} {b : Scopes}, Parts.expr b e ∈ ps →
      Owned ps call := by
    intro e call h
    induction h with
    | self e => exact fun he => .here he
    | inner hc _ ih => exact fun he => .inExpr he (ih (Expr.mem_parts_of_mem_shallowChildren hc))
  exact howned hcall he

/-- A statement without declarations is its text by kind. -/
theorem Converter.defaultStmt_eq_stmtByKind {k : Converter} {x : Stmt} (h : x.takesDeclarations = false) :
    k.defaultStmt x = k.stmtByKind x := by
  unfold defaultStmt
  rw [Stmt.hoisted_eq_nil h]
  exact bind_pure _

namespace Rules

/-- The built-in rules for statements agree with the conversion by kind. -/
theorem builtinStmts_convert {k : Converter} {env : Env} {s : Session} {x : Stmt} :
    ∀ r ∈ builtinStmts, r.applies env s x = true → r.convert k x = k.defaultStmt x := by
  obtain ⟨span, kind⟩ := x
  intro r hr happ
  simp only [builtinStmts, List.mem_cons, List.not_mem_nil, or_false] at hr
  rcases hr with rfl | rfl | rfl
  · cases kind with
    | forEach => rw [Converter.defaultStmt_eq_stmtByKind rfl]; rfl
    | _ => exact absurd happ Bool.false_ne_true
  · cases kind with
    | resource => rw [Converter.defaultStmt_eq_stmtByKind rfl]; rfl
    | _ => exact absurd happ Bool.false_ne_true
  · cases kind with
    | switchStmt => rw [Converter.defaultStmt_eq_stmtByKind rfl]; rfl
    | _ => exact absurd happ Bool.false_ne_true

end Rules

namespace Engine

/-- With the built-in rules, every statement is its text by kind behind its declarations. -/
theorem step_stmt_eq_defaultStmt (settings : Settings) (k : Converter) (x : Stmt) :
    (step { settings := settings } k).stmt x = k.defaultStmt x := by
  refine Emit.ext_out fun s => ?_
  rw [step_stmt_out]
  split
  · next r hr =>
    have happ := List.find?_some hr
    rw [Rules.builtinStmts_convert r (RuleSet.mem_ofList.mp (List.mem_of_find?_eq_some hr)) happ]
  · rfl

theorem stmt_eq_defaultStmt (settings : Settings) (m : Model) (x : Stmt) :
    (converter { settings := settings } m).stmt x = (converter { settings := settings } m).defaultStmt x := by
  rw [converter_stmt (builtin_local settings), step_stmt_eq_defaultStmt]

/-- Whatever the settings, the model and the session: the text of a statement is its text by
    kind behind one `let` line for each name that is fronted, out variables all of them. A
    branch behind `else` with such lines is braced. -/
theorem stmt_declares_outVariables (settings : Settings) (m : Model) (x : Stmt) (s : Session) :
    ∃ names : List String, names.Nodup ∧
      (∀ n ∈ names, x.OutVariable n) ∧
      (∀ n, x.OutVariable n → (n ∈ names ↔ x.Fronted n)) ∧
      ((converter { settings := settings } m).stmt x).out s =
        (joinLines (names.map (fun n => s!"let {n};") ++
          [(((converter { settings := settings } m).stmtByKind x).out s).1]),
         (((converter { settings := settings } m).stmtByKind x).out s).2) ∧
      (names = [] ∨ (converter { settings := settings } m).elseBranch x =
        (converter { settings := settings } m).block x) := by
  refine ⟨x.hoisted, x.hoisted_nodup, fun n hn => (Stmt.mem_hoisted.mp hn).outVariable,
    fun n _ => Stmt.mem_hoisted, ?_, ?_⟩
  · rw [stmt_eq_defaultStmt]
    rfl
  · unfold Converter.elseBranch
    cases hx : x.hoisted with
    | nil => exact .inl rfl
    | cons name names => exact .inr (by simp)

end Engine

/-! ## Out variables that stay undeclared -/

/-- `throw fail(out var code);` -/
def throwsOut : Stmt := .of (.throws (some (.of (.invocation (.ident "fail") [] [.outVar "code"]))))

/-- `new Reader(out var size);` -/
def constructsOut : Stmt := .expr (.of (.objectCreation (some (.named "Reader")) [.outVar "size"] none))

theorem throwsOut_undeclared :
    throwsOut.OutVariable "code" ∧ (({} : Engine).convertStmt .empty throwsOut).text = "throw fail(code);" := by
  refine ⟨⟨_, .here (List.mem_singleton.mpr rfl), List.mem_singleton.mpr rfl⟩, ?_⟩
  rw [Engine.builtin_eq]
  decide +kernel

theorem constructsOut_undeclared :
    constructsOut.OutVariable "size" ∧ (({} : Engine).convertStmt .empty constructsOut).text = "new Reader(size);" := by
  refine ⟨⟨_, .here (List.mem_singleton.mpr rfl), List.mem_singleton.mpr rfl⟩, ?_⟩
  rw [Engine.builtin_eq]
  decide +kernel

end ComponentScript
