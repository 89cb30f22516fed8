/-
  ComponentScript.Proofs.Syntax.Spelling — the names and numbers of nodes.

  `Node.Spelled N M x`: the names that the node `x` has by itself are as `N` says, its number
  is as `M` says, and it is no source text that was not understood. A type counts by its
  name without qualification, arity and ranks, and a member path by each of its names. The
  names inside of literals, `nameof` and initializers are free: they are quoted where needed.
-/

import ComponentScript.Proofs.Syntax.Everywhere

namespace ComponentScript

open Text

section

variable (N M : String → Prop)

/-- The name that the type is written by. -/
def TypeSpelled (type? : Option TypeRef) : Prop := ∀ type ∈ type?, N type.simpleName

def ParamsSpelled (ps : List Param) : Prop := ∀ p ∈ ps, N p.name ∧ TypeSpelled N p.type?

def DeclaratorsSpelled (ds : List Declarator) : Prop := ∀ d ∈ ds, N d.name

/-- An expression by itself: its names are as `N` says and its numbers as `M` says, and it is
    no source text that was not understood. -/
def Expr.Spelled (e : Expr) : Prop :=
  match e.kind with
  | .identifier name | .member _ name | .conditionalMember _ name => N name
  | .literal (.number text) => M text
  | .objectCreation type? _ _ => TypeSpelled N type?
  | .lambda ps _ _ => ParamsSpelled N ps
  | .other .. => False
  | _ => True

/-- A pattern by itself; a member may be a path of names. -/
def Pattern.Spelled : Pattern → Prop
  | .type t => N t.simpleName
  | .property type? ps => TypeSpelled N type? ∧ ∀ p ∈ ps, ∀ part ∈ splitOn '.' p.name.toList, N (String.ofList part)
  | _ => True

def Stmt.Spelled (s : Stmt) : Prop :=
  match s.kind with
  | .declaration type? ds _ | .forLoop (some (.declaration type? ds)) _ _ _ =>
    TypeSpelled N type? ∧ DeclaratorsSpelled N ds
  | .forEach target _ _ _ => ∀ name ∈ target.names, N name
  | .tryCatch _ clauses _ => ∀ c ∈ clauses, TypeSpelled N c.type? ∧ ∀ name ∈ c.name?, N name
  | .resource ds _ _ _ => DeclaratorsSpelled N ds
  | .localFunction name ps _ _ => N name ∧ ParamsSpelled N ps
  | .other .. => False
  | _ => True

def Node.Spelled : Node → Prop
  | .expr e => e.Spelled N M
  | .stmt s => s.Spelled N
  | .pattern p => p.Spelled N

end

section

variable {N M N' M' : String → Prop}

theorem TypeSpelled.mono (hN : ∀ t, N t → N' t) {type? : Option TypeRef} (h : TypeSpelled N type?) :
    TypeSpelled N' type? :=
  fun type ht => hN _ (h type ht)

theorem ParamsSpelled.mono (hN : ∀ t, N t → N' t) {ps : List Param} (h : ParamsSpelled N ps) : ParamsSpelled N' ps :=
  fun p hp => ⟨hN _ (h p hp).1, (h p hp).2.mono hN⟩

theorem DeclaratorsSpelled.mono (hN : ∀ t, N t → N' t) {ds : List Declarator} (h : DeclaratorsSpelled N ds) :
    DeclaratorsSpelled N' ds :=
  fun d hd => hN _ (h d hd)

theorem Expr.Spelled.mono (hN : ∀ t, N t → N' t) (hM : ∀ t, M t → M' t) {e : Expr} (h : e.Spelled N M) :
    e.Spelled N' M' := by
  obtain ⟨span, kind⟩ := e
  cases kind with
  | identifier | member | conditionalMember => exact hN _ h
  | literal value =>
    cases value with
    | number text => exact hM _ h
    | _ => trivial
  | objectCreation type? args i? => exact TypeSpelled.mono hN h
  | lambda ps body isAsync => exact ParamsSpelled.mono hN h
  | other => exact h.elim
  | _ => trivial

theorem Pattern.Spelled.mono (hN : ∀ t, N t → N' t) {p : Pattern} (h : p.Spelled N) : p.Spelled N' := by
  cases p with
  | type t => exact hN _ h
  | property type? ps => exact ⟨h.1.mono hN, fun p hp part hpart => hN _ (h.2 p hp part hpart)⟩
  | _ => trivial

theorem Stmt.Spelled.mono (hN : ∀ t, N t → N' t) {s : Stmt} (h : s.Spelled N) : s.Spelled N' := by
  obtain ⟨span, kind⟩ := s
  cases kind with
  | declaration type? ds isConst => exact ⟨TypeSpelled.mono hN h.1, DeclaratorsSpelled.mono hN h.2⟩
  | forLoop init? c? updates body =>
    rcases init? with _ | ⟨type?, ds⟩ | es
    · trivial
    · exact ⟨TypeSpelled.mono hN h.1, DeclaratorsSpelled.mono hN h.2⟩
    · trivial
  | forEach target iterable body isAwait => exact fun name hm => hN _ (h name hm)
  | tryCatch body clauses finally? =>
    exact fun c hc => ⟨TypeSpelled.mono hN (h c hc).1, fun name hm => hN _ ((h c hc).2 name hm)⟩
  | resource ds e? body? isAwait => exact DeclaratorsSpelled.mono hN h
  | localFunction name ps body isAsync => exact ⟨hN _ h.1, ParamsSpelled.mono hN h.2⟩
  | other => exact h.elim
  | _ => trivial

theorem Node.Spelled.mono (hN : ∀ t, N t → N' t) (hM : ∀ t, M t → M' t) {x : Node} (h : x.Spelled N M) :
    x.Spelled N' M' := by
  cases x with
  | expr e => exact Expr.Spelled.mono hN hM h
  | stmt s => exact Stmt.Spelled.mono hN h
  | pattern p => exact Pattern.Spelled.mono hN h

end

end ComponentScript
