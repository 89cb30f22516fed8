/-
  ComponentScript.Proofs.Convert.Handlers — what becomes of catch clauses.

  The script has one catch clause for all clauses of a statement. Its body is a chain of
  branches. `Catching` is the binding of the error with one `Handler` for each clause up to
  the first that takes every error; `Converter.catching` produces it, and its text is the text
  of the clauses (`catchClauses_eq`).

  `Handler.chain_run`: the branches are read back from the text, with their conditions. If the
  tests of each clause are one alternative each where there are two of them, then the block
  that runs is that of the first clause that accepts, and if none does the error is thrown
  again. By induction over the clauses: the condition of a clause holds if and only if the
  clause accepts (`Handler.value?_condition`), and it has no test if and only if the clause
  accepts everything.
-/

import ComponentScript.Proofs.Convert.CaughtFrame
import ComponentScript.Proofs.Script.IfChain

namespace ComponentScript

open Script Text

/-! ## Clauses -/

namespace CatchClause

/-- Whether the clause takes an error, by the outcomes of its type test and of its filter.
    Without a type, and with the root of all errors, there is no type test. -/
def accepts (c : CatchClause) (isInstance passes : Bool) : Bool :=
  (c.type?.all (·.simpleName = "Exception") || isInstance) && (c.filter?.isNone || passes)

/-- The clauses up to the first that takes every error. -/
def upToUnconditional : List CatchClause → List CatchClause
  | [] => []
  | c :: rest => if c.accepts false false then [c] else c :: upToUnconditional rest

/-- The first clause that takes the error, when the tests of the clause at `i` come to
    `isInstance i` and `passes i`. -/
def first? (clauses : List CatchClause) (isInstance passes : Nat → Bool) (start : Nat) : Option (CatchClause × Nat) :=
  (clauses.zipIdx start).find? fun x => x.1.accepts (isInstance x.2) (passes x.2)

/-- The line that gives the error the name it has in the clause. -/
def declaration (c : CatchClause) (error : String) : List String :=
  (c.name?.map fun name => s!"const {name} = {error};").toList

/-- The filter as it is asked of the error: under the name that the clause gives it, or as an
    operand. -/
def filterText (c : CatchClause) (error text : String) : String :=
  match c.name? with
  | some name => s!"(({name}) => {text})({error})"
  | none => Script.operand text

/-- Where the filter is converted: the name of the error is bound there. -/
def filterSession (c : CatchClause) (s : Session) : Session := c.name?.elim s fun name => s.openScope [name]

theorem errorType?_isNone (c : CatchClause) : c.errorType?.isNone = c.type?.all (·.simpleName = "Exception") := by
  unfold errorType?
  cases c.type? with
  | none => rfl
  | some type => by_cases h : type.simpleName = "Exception" <;> simp [h]

theorem isCatchAll_eq (c : CatchClause) : c.isCatchAll = c.accepts false false := by
  unfold isCatchAll accepts
  rw [errorType?_isNone, Bool.or_false, Bool.or_false, Bool.and_comm]

theorem accepts_of_unconditional {c : CatchClause} (h : c.accepts false false) (isInstance passes : Bool) :
    c.accepts isInstance passes := by
  unfold accepts at h ⊢
  cases isInstance <;> cases passes <;> simp_all

theorem upToUnconditional_initial (clauses : List CatchClause) : upToUnconditional clauses <+: clauses := by
  induction clauses with
  | nil => exact List.prefix_rfl
  | cons c rest ih =>
    unfold upToUnconditional
    split
    · exact ⟨rest, rfl⟩
    · exact List.prefix_cons_inj c |>.mpr ih

theorem first?_cons (c : CatchClause) (rest : List CatchClause) (isInstance passes : Nat → Bool) (i : Nat) :
    first? (c :: rest) isInstance passes i =
      if c.accepts (isInstance i) (passes i) then some (c, i) else first? rest isInstance passes (i + 1) := by
  unfold first?
  rw [List.zipIdx_cons, List.find?_cons]
  cases c.accepts (isInstance i) (passes i) <;> rfl

end CatchClause

/-! ## Tests -/

/-- What is asked of an error. -/
inductive CatchTest where
  | instanceOf (type : String)
  | filter (text : String)

namespace CatchTest

def text (error : String) : CatchTest → String
  | instanceOf type => s!"{error} instanceof {type}"
  | filter text => text

def holds (isInstance passes : Bool) : CatchTest → Bool
  | instanceOf _ => isInstance
  | filter _ => passes

/-- The tests of a clause, with the texts of filters. -/
def ofClause (c : CatchClause) (filterText : Expr → String) : List CatchTest :=
  (c.errorType?.map instanceOf).toList ++ (c.filter?.map fun e => filter (filterText e)).toList

theorem all_holds (c : CatchClause) (filterText : Expr → String) (isInstance passes : Bool) :
    (ofClause c filterText).all (holds isInstance passes) = c.accepts isInstance passes := by
  unfold ofClause CatchClause.accepts
  rw [← CatchClause.errorType?_isNone]
  cases c.errorType? <;> cases c.filter? <;> simp [holds]

theorem isEmpty_ofClause (c : CatchClause) (filterText : Expr → String) :
    (ofClause c filterText).isEmpty = c.accepts false false := by
  unfold ofClause CatchClause.accepts
  rw [← CatchClause.errorType?_isNone]
  cases c.errorType? <;> cases c.filter? <;> rfl

end CatchTest

/-! ## Handlers -/

/-- What becomes of a clause, and in which sessions its filter and its body are converted. -/
structure Handler where
  clause : CatchClause
  filterAt : Session
  bodyAt : Session
  tests : List CatchTest
  lines : List String

/-- What follows the word `catch`. -/
structure Catching where
  binding : String
  /-- Whether the only clause names the error itself. -/
  isDirect : Bool
  handlers : List Handler

namespace Handler

/-- All tests, as the condition of a branch. -/
def condition (error : String) (h : Handler) : String := " && ".intercalate (h.tests.map (CatchTest.text error))

/-- The handlers in turn; behind the last, the error is thrown again. -/
def chain (error indent : String) : List Handler → Script.IfChain
  | [] => .always (Script.block [s!"throw {error};"] indent)
  | h :: rest =>
    let block := Script.block h.lines indent
    if h.tests.isEmpty then .always block else .branch (h.condition error) block (chain error indent rest)

/-- The handler of its clause, in a statement whose clauses are converted from the session
    `s` on: the tests are those of the clause, the filter is converted outside of what the
    clause catches and the body inside of it. -/
structure Of (k : Converter) (error : String) (isDirect : Bool) (s : Session) (h : Handler) : Prop where
  filterAt : ∃ r, s.Continues r ∧ h.filterAt = h.clause.filterSession r
  bodyAt : ∃ r, s.Continues r ∧ h.bodyAt = r.openCatch error
  tests : h.tests = CatchTest.ofClause h.clause fun e => h.clause.filterText error ((k.expr e).out h.filterAt).1
  lines : h.lines = (if isDirect then [] else h.clause.declaration error) ++
    ((k.statements h.clause.body.statements).out h.bodyAt).1

/-- The first clause always has a handler, the others if it does not take every error. -/
theorem head_of_clauses {hs : List Handler} {c : CatchClause} {rest : List CatchClause}
    (h : hs.map (·.clause) = CatchClause.upToUnconditional (c :: rest)) :
    ∃ h hs', hs = h :: hs' ∧ h.clause = c ∧
      (¬ c.accepts false false = true → hs'.map (·.clause) = CatchClause.upToUnconditional rest) := by
  unfold CatchClause.upToUnconditional at h
  split at h
  · next huncond =>
    obtain ⟨x, hs', rfl, hc, -⟩ := List.map_eq_cons_iff.mp h
    exact ⟨x, hs', rfl, hc, fun hnot => absurd huncond hnot⟩
  · obtain ⟨x, hs', rfl, hc, hrest⟩ := List.map_eq_cons_iff.mp h
    exact ⟨x, hs', rfl, hc, fun _ => hrest⟩

/-! ## Handlers at work -/

/-- Every text of the handler ends what it starts. -/
structure Closed (error : String) (h : Handler) : Prop where
  tests : ∀ t ∈ h.tests, Script.Closed (t.text error)
  lines : ∀ line ∈ h.lines, Script.Closed line

/-- The tests, each read by itself, have the given outcomes. -/
def Outcomes (error : String) (v : String → Bool) (isInstance passes : Bool) (h : Handler) : Prop :=
  ∀ t ∈ h.tests, Condition.value? v (t.text error) = some (t.holds isInstance passes)

/-- If there are two tests, neither comes apart at `||`. -/
def Joinable (error : String) (h : Handler) : Prop :=
  2 ≤ h.tests.length → ∀ t ∈ h.tests, ∃ tests, Condition.read (t.text error) = some [tests]

theorem value?_condition {error : String} {v : String → Bool} {isInstance passes : Bool} {h : Handler}
    (hne : h.tests ≠ []) (hv : h.Outcomes error v isInstance passes) (hj : h.Joinable error) :
    Condition.value? v (h.condition error) = some (h.tests.all (·.holds isInstance passes)) := by
  unfold condition
  rcases hlist : h.tests with _ | ⟨t, _ | ⟨u, rest⟩⟩
  · exact absurd hlist hne
  · have hone := hv t (by rw [hlist]; exact List.mem_cons_self ..)
    simpa using hone
  · rw [← hlist]
    have hsingle := hj (by rw [hlist]; simp)
    have houtcome : ∀ t ∈ h.tests.map (CatchTest.text error),
        Condition.value? v t = some ((Condition.value? v t).getD false) := by
      intro t ht
      obtain ⟨test, htest, rfl⟩ := List.mem_map.mp ht
      rw [hv test htest, Option.getD_some]
    rw [Condition.value?_all (by simpa using hne) (List.forall_mem_map.mpr hsingle) houtcome, List.all_map]
    refine congrArg some (Bool.eq_iff_iff.mpr ?_)
    rw [List.all_eq_true, List.all_eq_true]
    refine forall₂_congr fun t ht => ?_
    rw [Function.comp_apply, hv t ht, Option.getD_some]

/-- Where the chain ends in a branch that throws, the binding has to be closed, too. -/
theorem chain_wellFormed {error indent : String} (hi : Script.Markless indent) {hs : List Handler}
    (hclosed : ∀ h ∈ hs, h.Closed error) (herr : Script.Closed error ∨ hs.any (·.tests.isEmpty) = true) :
    (chain error indent hs).WellFormed := by
  induction hs with
  | nil =>
    rcases herr with herr | hany
    · have hthrow : Script.Closed s!"throw {error};" := (Script.Leads.start rfl).hole herr |>.lit rfl
      exact Script.isBraced_block hi (List.forall_mem_singleton.mpr hthrow)
    · cases hany
  | cons h rest ih =>
    obtain ⟨hh, hrest⟩ := List.forall_mem_cons.mp hclosed
    have hblock := Script.isBraced_block hi hh.lines
    unfold chain
    cases hempty : h.tests.isEmpty with
    | true => exact hblock
    | false =>
      have hcondition : Script.Closed (h.condition error) :=
        Script.closed_intercalate (by decide) (List.forall_mem_map.mpr hh.tests)
      have hafter : Script.Closed error ∨ rest.any (·.tests.isEmpty) = true := by simpa [hempty] using herr
      exact ⟨hcondition, hblock, ih hrest hafter⟩

/-- The block that runs is that of the first clause that takes the error. -/
theorem chain_run (error indent : String) {isInstance passes : Nat → Bool} {v : Nat → String → Bool}
    {clauses : List CatchClause} {hs : List Handler}
    (hclauses : hs.map (·.clause) = CatchClause.upToUnconditional clauses)
    (htests : ∀ h ∈ hs, ∃ filterText, h.tests = CatchTest.ofClause h.clause filterText)
    (hjoin : ∀ h ∈ hs, h.Joinable error) (i : Nat)
    (hv : ∀ h j, (h, j) ∈ hs.zipIdx i → h.Outcomes error (v j) (isInstance j) (passes j)) :
    match CatchClause.first? clauses isInstance passes i with
    | some (c, j) => ∃ h, (h, j) ∈ hs.zipIdx i ∧ h.clause = c ∧
        (chain error indent hs).run v i = some (Script.block h.lines indent)
    | none => (chain error indent hs).run v i = some (Script.block [s!"throw {error};"] indent) := by
  induction clauses generalizing hs i with
  | nil =>
    obtain rfl := List.map_eq_nil_iff.mp hclauses
    rfl
  | cons c rest ih =>
    obtain ⟨h, hs', rfl, hc, hrest⟩ := head_of_clauses hclauses
    obtain ⟨filterText, htest⟩ := htests h (List.mem_cons_self ..)
    rw [hc] at htest
    have hempty : h.tests.isEmpty = c.accepts false false := by rw [htest, CatchTest.isEmpty_ofClause]
    rw [CatchClause.first?_cons]
    unfold chain
    rw [hempty]
    by_cases huncond : c.accepts false false = true
    · rw [if_pos huncond, if_pos (CatchClause.accepts_of_unconditional huncond _ _)]
      exact ⟨h, List.mem_cons_self .., hc, rfl⟩
    · -- the condition holds if and only if the clause accepts
      have hne : h.tests ≠ [] := fun hnil => huncond (hempty.symm.trans (by rw [hnil]; rfl))
      have hvalue : Condition.value? (v i) (h.condition error) = some (c.accepts (isInstance i) (passes i)) := by
        rw [value?_condition hne (hv h i (List.mem_cons_self ..)) (hjoin h (List.mem_cons_self ..)), htest,
          CatchTest.all_holds]
      rw [if_neg huncond, Script.IfChain.run_branch hvalue]
      by_cases hacc : c.accepts (isInstance i) (passes i) = true
      · rw [if_pos hacc, if_pos hacc]
        exact ⟨h, List.mem_cons_self .., hc, rfl⟩
      · rw [if_neg hacc, if_neg hacc]
        have hlater := ih (hrest huncond) (fun h' hm => htests h' (List.mem_cons_of_mem _ hm))
          (fun h' hm => hjoin h' (List.mem_cons_of_mem _ hm)) (i + 1) fun h' j hm => hv h' j (List.mem_cons_of_mem _ hm)
        cases hf : CatchClause.first? rest isInstance passes (i + 1) with
        | none =>
          rw [hf] at hlater
          exact hlater
        | some found =>
          rw [hf] at hlater
          obtain ⟨h', hm, hrun⟩ := hlater
          exact ⟨h', List.mem_cons_of_mem _ hm, hrun⟩

end Handler

namespace Catching

/-- The branches of the handlers. -/
def chain (x : Catching) (indent : String) : Script.IfChain := Handler.chain x.binding indent x.handlers

def text (x : Catching) (indent : String) : String :=
  let body := (x.chain indent).text
  if x.isDirect then s!"({x.binding}) {body}" else s!"({x.binding}) {Script.block [body] indent}"

end Catching

/-! ## The conversion of clauses -/

namespace Converter

variable (k : Converter)

def handlerTests (error : String) (c : CatchClause) : Emit (List CatchTest) := do
  let filter? ← c.filter?.mapM (k.catchFilter error c.name?)
  return (c.errorType?.map CatchTest.instanceOf).toList ++ (filter?.map CatchTest.filter).toList

def handler (error : String) (isDirect : Bool) (c : CatchClause) : Emit Handler := do
  let before ← get
  let tests ← k.handlerTests error c
  let outside ← get
  let lines ← Emit.withCatch error (k.statements c.body.statements)
  let declaration := if isDirect then [] else c.declaration error
  return ⟨c, c.filterSession before, outside.openCatch error, tests, declaration ++ lines⟩

def handlers (error : String) : List CatchClause → Emit (List Handler)
  | [] => return []
  | c :: rest => do
    let h ← k.handler error false c
    if c.accepts false false then return [h] else return h :: (← handlers error rest)

/-- What follows the word `catch`, as data. -/
def catching (clauses : List CatchClause) : Emit Catching :=
  match clauses.head?.filter (·.accepts false false) with
  | some c => do
    let binding ← c.name?.elim (Emit.freshName "err") pure
    return ⟨binding, true, [← k.handler binding true c]⟩
  | none => do
    let error ← Emit.freshName "err"
    return ⟨error, false, ← k.handlers error clauses⟩

variable {k}

theorem catchFilter_out (error : String) (c : CatchClause) (filter : Expr) (s : Session) :
    ((k.catchFilter error c.name? filter).out s).1 =
      c.filterText error ((k.expr filter).out (c.filterSession s)).1 := by
  unfold catchFilter CatchClause.filterText CatchClause.filterSession
  cases c.name? <;> rfl

theorem handlerTests_out (error : String) (c : CatchClause) (s : Session) :
    ((k.handlerTests error c).out s).1 =
      CatchTest.ofClause c fun e => c.filterText error ((k.expr e).out (c.filterSession s)).1 := by
  unfold handlerTests CatchTest.ofClause
  simp only [← catchFilter_out]
  cases c.filter? <;> rfl

theorem handlerTests_unconditional {c : CatchClause} (h : c.accepts false false) (error : String) :
    k.handlerTests error c = pure [] := by
  unfold CatchClause.accepts at h
  rw [← CatchClause.errorType?_isNone, Bool.or_false, Bool.or_false, Bool.and_eq_true, Option.isNone_iff_eq_none,
    Option.isNone_iff_eq_none] at h
  unfold handlerTests
  rw [h.1, h.2]
  rfl

theorem catchTests_eq (error : String) (c : CatchClause) :
    k.catchTests error c = (List.map (CatchTest.text error)) <$> k.handlerTests error c := by
  unfold catchTests handlerTests
  rw [map_bind]
  refine bind_congr fun filter? => ?_
  cases c.errorType? <;> cases filter? <;> rfl

theorem catchBody_eq (error : String) (c : CatchClause) :
    k.catchBody error c = (fun lines => Script.block (c.declaration error ++ lines) k.indent) <$>
      Emit.withCatch error (k.statements c.body.statements) := rfl

theorem catchChain_eq (error : String) (clauses : List CatchClause) :
    k.catchChain error clauses =
      (fun hs => (Handler.chain error k.indent hs).text) <$> k.handlers error clauses := by
  induction clauses with
  | nil => rfl
  | cons c rest ih =>
    refine Emit.ext_out fun s => ?_
    have htests := handlerTests_out (k := k) error c s
    have hempty : ((k.handlerTests error c).out s).1.isEmpty = c.accepts false false := by
      rw [htests, CatchTest.isEmpty_ofClause]
    unfold catchChain handlers handler
    rw [catchTests_eq, catchBody_eq, ih]
    simp only [Emit.out_bind, Emit.out_map, Emit.out_get, Emit.out_pure, List.isEmpty_map, hempty]
    by_cases huncond : c.accepts false false = true
    · simp only [huncond, if_true, Emit.out_pure, Handler.chain, hempty]
      rfl
    · simp only [huncond, Bool.false_eq_true, if_false, Emit.out_bind, Emit.out_map, Emit.out_pure, Handler.chain,
        hempty]
      rfl

/-- The text of the clauses. -/
theorem catchClauses_eq (clauses : List CatchClause) :
    k.catchClauses clauses = (fun x => x.text k.indent) <$> k.catching clauses := by
  have hall : CatchClause.isCatchAll = fun c => c.accepts false false := funext CatchClause.isCatchAll_eq
  unfold catchClauses catching
  rw [hall]
  cases hhead : clauses.head?.filter fun c => c.accepts false false with
  | some c =>
    have huncond : c.accepts false false = true := (Option.filter_eq_some_iff.mp hhead).2
    have hdirect : ∀ binding : String, (do
        let body ← Emit.withCatch binding (k.block c.body)
        return s!"({binding}) {body}") =
        (fun x : Catching => x.text k.indent) <$> do return ⟨binding, true, [← k.handler binding true c]⟩ := by
      intro binding
      unfold handler
      rw [handlerTests_unconditional huncond]
      rfl
    dsimp only
    rw [map_bind]
    cases c.name? with
    | none => exact bind_congr hdirect
    | some name => exact bind_congr hdirect
  | none =>
    dsimp only
    rw [map_bind]
    refine bind_congr fun error => ?_
    rw [catchChain_eq]
    rfl

/-! ## Handlers and their clauses -/

theorem EntryPointsRestore.catchFilter (hk : k.EntryPointsRestore) (error : String) (name? : Option String)
    (filter : Expr) : (k.catchFilter error name? filter).Restores := by
  cases name? with
  | none => exact (hk.exprAs none filter).bind fun _ => .pure _
  | some name => exact ((hk.exprAs none filter).withScope [name]).bind fun _ => .pure _

theorem EntryPointsRestore.handlerTests (hk : k.EntryPointsRestore) (error : String) (c : CatchClause) :
    (k.handlerTests error c).Restores :=
  (Emit.Restores.optionMapM (hk.catchFilter error c.name?)).bind fun _ => .pure _

theorem EntryPointsRestore.handler (hk : k.EntryPointsRestore) (error : String) (isDirect : Bool) (c : CatchClause) :
    (k.handler error isDirect c).Restores := by
  intro s
  have hbody := (hk.statements c.body.statements).withCatch error
  exact (hk.handlerTests error c s).trans (hbody _)

theorem handler_of (hk : k.EntryPointsRestore) (error : String) (isDirect : Bool) (c : CatchClause) {s r : Session}
    (hr : s.Continues r) : ((k.handler error isDirect c).out r).1.Of k error isDirect s where
  filterAt := ⟨r, hr, rfl⟩
  bodyAt := ⟨_, hr.trans (hk.handlerTests error c r), rfl⟩
  tests := handlerTests_out error c r
  lines := rfl

theorem handlers_clauses (error : String) (clauses : List CatchClause) (s : Session) :
    ((k.handlers error clauses).out s).1.map (·.clause) = CatchClause.upToUnconditional clauses := by
  induction clauses generalizing s with
  | nil => rfl
  | cons c rest ih =>
    unfold handlers CatchClause.upToUnconditional
    rw [Emit.out_bind]
    split
    · rfl
    · rw [Emit.out_bind, Emit.out_pure, List.map_cons, ih]
      rfl

theorem handlers_of (hk : k.EntryPointsRestore) (error : String) (clauses : List CatchClause) {s r : Session}
    (hr : s.Continues r) : ∀ h ∈ ((k.handlers error clauses).out r).1, h.Of k error false s := by
  induction clauses generalizing r with
  | nil => exact List.forall_mem_nil _
  | cons c rest ih =>
    have hhead := handler_of hk error false c hr
    have hnext := hr.trans (hk.handler error false c r)
    unfold handlers
    rw [Emit.out_bind]
    split
    · exact List.forall_mem_singleton.mpr hhead
    · exact List.forall_mem_cons.mpr ⟨hhead, ih hnext⟩

/-- Behind a clause that takes every error, clauses are not looked at. -/
theorem handlers_append (error : String) (before after : List CatchClause) {c : CatchClause}
    (h : c.accepts false false) :
    k.handlers error (before ++ c :: after) = k.handlers error (before ++ [c]) := by
  induction before with
  | nil =>
    unfold handlers
    simp only [List.nil_append, h, if_true]
  | cons d before ih =>
    rw [List.cons_append, List.cons_append]
    unfold handlers
    rw [ih]

theorem catching_append (before after : List CatchClause) {c : CatchClause} (h : c.accepts false false) :
    k.catching (before ++ c :: after) = k.catching (before ++ [c]) := by
  have hhead : (before ++ c :: after).head? = (before ++ [c]).head? := by cases before <;> rfl
  unfold catching
  simp only [hhead, handlers_append _ before after h]

/-- What the clauses become: a handler for each up to the first that takes every error. -/
theorem catching_handlers (hk : k.EntryPointsRestore) (clauses : List CatchClause) (s : Session) :
    let x := ((k.catching clauses).out s).1
    x.isDirect = clauses.head?.any (·.accepts false false) ∧
      x.handlers.map (·.clause) = CatchClause.upToUnconditional clauses ∧
      ∀ h ∈ x.handlers, h.Of k x.binding x.isDirect s := by
  have hfresh := Emit.Restores.freshName "err"
  unfold catching
  cases clauses with
  | nil => exact ⟨rfl, rfl, List.forall_mem_nil _⟩
  | cons c rest =>
    rw [List.head?_cons, Option.filter_some]
    by_cases huncond : c.accepts false false = true
    · rw [if_pos huncond]
      refine ⟨by rw [Option.any_some, huncond]; rfl, ?_, ?_⟩
      · rw [CatchClause.upToUnconditional, if_pos huncond]
        rfl
      · have hbinding : (c.name?.elim (Emit.freshName "err") pure).Restores := by
          cases c.name? with
          | none => exact hfresh
          | some name => exact .pure name
        exact List.forall_mem_singleton.mpr (handler_of hk _ true c (hbinding s))
    · rw [if_neg huncond]
      dsimp only [Emit.out_bind, Emit.out_pure]
      refine ⟨by rw [Option.any_some, Bool.eq_false_iff.mpr huncond], ?_, ?_⟩
      · exact handlers_clauses _ _ _
      · exact handlers_of hk _ _ (hfresh s)

end Converter

/-! ## Try statements -/

namespace Engine

variable (settings : Settings) (m : Model)

theorem stmt_tryCatch (span : Span) (body : Stmt) (clauses : List CatchClause) (finally? : Option Stmt) :
    (converter { settings := settings } m).stmt ⟨span, .tryCatch body clauses finally?⟩ =
      (converter { settings := settings } m).tryCatch body clauses finally? := by
  rw [stmt_eq_defaultStmt, Converter.defaultStmt_eq_stmtByKind rfl]
  rfl

/-- A statement with clauses: what is tried, what catches, and what is done in the end. -/
theorem stmt_tryCatch_text (span : Span) (body : Stmt) {clauses : List CatchClause} (hne : clauses ≠ [])
    (finally? : Option Stmt) (s : Session) :
    let k := converter { settings := settings } m
    let tried := (k.block body).out s
    let catching := (k.catching clauses).out tried.2
    let final := finally?.elim "" fun x => " finally " ++ ((k.block x).out catching.2).1
    ((k.stmt ⟨span, .tryCatch body clauses finally?⟩).out s).1 =
      s!"try {tried.1} catch {catching.1.text k.indent}{final}" := by
  intro k tried catching final
  have hempty : clauses.isEmpty = false := List.isEmpty_eq_false_iff.mpr hne
  rw [stmt_tryCatch]
  unfold Converter.tryCatch
  rw [hempty, Converter.catchClauses_eq]
  have hassoc : s!"try {tried.1} catch {catching.1.text k.indent}{final}" =
      s!"try {tried.1}" ++ (" catch " ++ catching.1.text k.indent) ++ final := by
    simp only [String.append_assoc]
    rfl
  rw [hassoc]
  cases finally? with
  | none => rfl
  | some x => rfl

end Engine

end ComponentScript
