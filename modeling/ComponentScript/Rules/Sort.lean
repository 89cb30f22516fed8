/-
  ComponentScript.Rules.Sort — chains of sort keys.

  A chain of one first key and further keys becomes one sort of a copy, with a comparison
  that goes through the keys in order.
-/

import ComponentScript.Convert.Expression

namespace ComponentScript

/-- One operator of a sort chain. -/
structure SortStep where
  descending : Bool
  /-- Whether it starts a chain: what is in front of it is the base. -/
  isFirst : Bool
  deriving DecidableEq

def SortStep.ofName? : String → Option SortStep
  | "OrderBy" => some ⟨false, true⟩
  | "OrderByDescending" => some ⟨true, true⟩
  | "ThenBy" => some ⟨false, false⟩
  | "ThenByDescending" => some ⟨true, false⟩
  | _ => none

structure SortKey where
  selector : Expr
  descending : Bool

namespace Expr

/-- Whether an expression is a sort operator with one key, on a receiver. -/
def isSortStep (e : Expr) : Bool :=
  e.call?.any fun call =>
    (SortStep.ofName? call.name).isSome && call.arity = 1 && call.receiver?.isSome

/-- The base of a sort chain and its keys in source order. A further key without a chain in
    front of it sorts on its own. -/
def sortKeys? : Expr → Option (Expr × List SortKey)
  | ⟨_, .invocation ⟨_, .member receiver name⟩ _ (arg :: _)⟩ =>
    match SortStep.ofName? name with
    | none => none
    | some step =>
      let key : SortKey := ⟨arg.expr, step.descending⟩
      if step.isFirst || !receiver.isSortStep then some (receiver, [key])
      else (sortKeys? receiver).map fun (base, keys) => (base, keys ++ [key])
  | _ => none

end Expr

namespace Rules

/-- The lines that compare two elements by one key. -/
def compareLines (left right : String) (key : SortKey) (selector : String) :
    Emit (List String) := do
  let x ← Emit.freshName "x"
  let y ← Emit.freshName "y"
  let order := if key.descending then "1 : -1" else "-1 : 1"
  return [s!"const {x} = {selector}({left}), {y} = {selector}({right});",
    s!"if ({x} !== {y}) return {x} < {y} ? {order};"]

def sortChain (k : Converter) (e : Expr) : Emit String :=
  match e.sortKeys? with
  | none => k.defaultExpr none e
  | some (base, keys) => do
    let source ← k.expr base
    let selectors ← keys.mapM fun key => k.operand key.selector
    let left ← Emit.freshName "a"
    let right ← Emit.freshName "b"
    let lines ← (keys.zip selectors).mapM fun (key, selector) =>
      compareLines left right key selector
    let body := Script.block (lines.flatten ++ ["return 0;"]) k.indent
    return s!"[...{source}].sort(({left}, {right}) => {body})"

end Rules

end ComponentScript
