/-
  ComponentScript.Convert.Session — the state of one conversion.

  A session holds the names bound by enclosing functions, the names that caught errors are
  bound to, the number of the next synthetic name, and the diagnostics so far. It starts
  empty with every top-level call, so the same tree always gets the same names.
-/

import ComponentScript.Diagnostic

namespace ComponentScript

structure Session where
  /-- The open scopes, the innermost first. -/
  scopes : List (List String) := []
  /-- The bindings of the enclosing catch clauses, the innermost first. -/
  catches : List String := []
  /-- The number of the next synthetic name. It is not bounded, so that a session which draws
      more names than a machine word can count is like any other. -/
  counter : Nat := 0
  diagnostics : List Diagnostic := []

namespace Session

def isBound (s : Session) (name : String) : Bool := s.scopes.any fun scope => scope.contains name

/-- Adds a name to the innermost scope; without one, opens it. -/
def bind (s : Session) (name : String) : Session :=
  match s.scopes with
  | [] => { s with scopes := [[name]] }
  | scope :: rest => { s with scopes := (scope ++ [name]) :: rest }

def openScope (s : Session) (names : List String) : Session :=
  { s with scopes := names :: s.scopes }

def closeScope (s : Session) : Session := { s with scopes := s.scopes.tail }

def openCatch (s : Session) (binding : String) : Session :=
  { s with catches := binding :: s.catches }

def closeCatch (s : Session) : Session := { s with catches := s.catches.tail }

def report (s : Session) (d : Diagnostic) : Session :=
  { s with diagnostics := s.diagnostics ++ [d] }

end Session

/-- A step of a conversion: it produces a result and moves the session on. -/
abbrev Emit := StateM Session

namespace Emit

def report (d : Diagnostic) : Emit Unit := modify (·.report d)

/-- A name that no other call of the session returns. -/
def freshName (stem : String) : Emit String := do
  let s ← get
  set { s with counter := s.counter + 1 }
  return s!"__{stem}{s.counter}"

/-- Adds a name to the innermost scope. -/
def bindName (name : String) : Emit Unit := modify (·.bind name)

/-- Runs a step with `names` bound. -/
def withScope {α : Type} (names : List String) (step : Emit α) : Emit α := do
  modify (·.openScope names)
  let a ← step
  modify (·.closeScope)
  return a

/-- Runs a step with `binding` as the name of the caught error. -/
def withCatch {α : Type} (binding : String) (step : Emit α) : Emit α := do
  modify (·.openCatch binding)
  let a ← step
  modify (·.closeCatch)
  return a

/-- The name of the error caught by the enclosing clause. -/
def caught : Emit (Option String) := do
  return (← get).catches.head?

/-- Emits source text as it is and reports its node. -/
def verbatim (nodeKind : String) (span : Span) (text : String) : Emit String := do
  report (.unsupported nodeKind span)
  return text

end Emit

end ComponentScript
