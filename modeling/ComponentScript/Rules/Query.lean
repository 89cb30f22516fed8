/-
  ComponentScript.Rules.Query — queries over sequences, as array methods.

  An operator converts its receiver first and its arguments after it, so a chain keeps its
  order from left to right.
-/

import ComponentScript.Rules.Sort

namespace ComponentScript.Rules

open Text

/-- Whether a call is of a query operator on a value, not of a method of the same name of
    some other type. -/
def isSequenceCall (env : Env) (s : Session) (call : Call) (e : Expr) : Bool :=
  match call.receiver? with
  | none => false
  | some receiver =>
    !env.isStaticReceiver s receiver &&
      match env.model.declaringCategory e with
      | some c => c.isSequenceLike
      | none => (env.model.category receiver).all fun c => c.isSequenceLike || c = .string

/-! ## Operators -/

inductive QueryOp where
  | map | filter | any | all | first | last | count | sum | least | greatest | average
  | skip | take | distinct | reverse | flatMap | fold | contains | concat
  deriving DecidableEq

namespace QueryOp

def ofName? : String → Option QueryOp
  | "Select" => some .map
  | "Where" => some .filter
  | "Any" => some .any
  | "All" => some .all
  | "First" | "FirstOrDefault" | "Single" | "SingleOrDefault" => some .first
  | "Last" | "LastOrDefault" => some .last
  | "Count" => some .count
  | "Sum" => some .sum
  | "Min" => some .least
  | "Max" => some .greatest
  | "Average" => some .average
  | "Skip" => some .skip
  | "Take" => some .take
  | "Distinct" => some .distinct
  | "Reverse" => some .reverse
  | "SelectMany" => some .flatMap
  | "Aggregate" => some .fold
  | "Contains" => some .contains
  | "Concat" => some .concat
  | _ => none

/-- The numbers of arguments an operator takes. -/
def arities : QueryOp → List Nat
  | .map | .filter | .all | .skip | .take | .flatMap | .contains | .concat => [1]
  | .any | .first | .last | .count | .sum | .least | .greatest | .average => [0, 1]
  | .distinct | .reverse => [0]
  | .fold => [1, 2, 3]

end QueryOp

/-- The member that holds the size of a sequence. -/
def sizeMember (category? : Option Category) : String :=
  if category? = some .set then "size" else "length"

/-- What an operator is applied to. -/
structure QuerySource where
  text : String
  category? : Option Category
  /-- Whether the operator is the list's own method, which works in place. -/
  inPlace : Bool

/-- The elements that an aggregate goes over: the source, or what a selector makes of it. -/
def aggregated (source : String) : List String → String
  | [] => source
  | selector :: _ => s!"{source}.map({selector})"

/-- An operator with the texts of its arguments. -/
def QueryOp.render (op : QueryOp) (source : QuerySource) (args : List String) : String :=
  let src := source.text
  let size := sizeMember source.category?
  let arg (i : Nat) : String := args[i]?.getD ""
  match op with
  | .map => s!"{src}.map({arg 0})"
  | .filter => s!"{src}.filter({arg 0})"
  | .any =>
    if args.isEmpty then s!"({src}.{size} > 0)"
    else s!"{src}.some({arg 0})"
  | .all => s!"{src}.every({arg 0})"
  | .first => if args.isEmpty then s!"{src}[0]" else s!"{src}.find({arg 0})"
  | .last => if args.isEmpty then s!"{src}.at(-1)" else s!"{src}.findLast({arg 0})"
  | .count =>
    if args.isEmpty then s!"{src}.{size}"
    else s!"{src}.filter({arg 0}).length"
  | .sum => s!"{aggregated src args}.reduce((acc, v) => acc + v, 0)"
  | .least => s!"Math.min(...{aggregated src args})"
  | .greatest => s!"Math.max(...{aggregated src args})"
  | .average =>
    s!"((xs) => xs.reduce((acc, v) => acc + v, 0) / xs.length)({aggregated src args})"
  | .skip => s!"{src}.slice({arg 0})"
  | .take => s!"{src}.slice(0, {arg 0})"
  | .distinct => s!"[...new Set({src})]"
  | .reverse => if source.inPlace then s!"{src}.reverse()" else s!"[...{src}].reverse()"
  | .flatMap => s!"{src}.flatMap({arg 0})"
  | .fold =>
    match args.length with
    | 1 => s!"{src}.reduce({arg 0})"
    | 2 => s!"{src}.reduce({arg 1}, {arg 0})"
    | _ => s!"{Script.operand (arg 2)}({src}.reduce({arg 1}, {arg 0}))"
  | .contains =>
    if source.category? = some .set then s!"{src}.has({arg 0})" else s!"{src}.includes({arg 0})"
  | .concat => s!"{src}.concat({arg 0})"

/-! ## Sequences made from nothing -/

/-- Whether a call makes a sequence. -/
def isFactoryCall (env : Env) (s : Session) (call : Call) : Bool :=
  call.receiver?.any (env.isTypeName s ["Enumerable"]) &&
    match call.name, call.arity with
    | "Range", 2 | "Repeat", 2 | "Empty", 0 => true
    | _, _ => false

def factory (name : String) (args : List String) : String :=
  match name, args with
  | "Range", [start, count] =>
    s!"Array.from(\x7b length: {count} \x7d, (_, i) => {Script.operand start} + i)"
  | "Repeat", [value, count] => s!"new Array({count}).fill({value})"
  | _, _ => "[]"

/-! ## Rules -/

def isQueryName (name : String) (arity : Nat) : Bool :=
  (QueryOp.ofName? name).any (·.arities.contains arity) ||
    ((SortStep.ofName? name).isSome && arity = 1)

def queryCall (k : Converter) (receiver e : Expr) (call : Call) : Emit String := do
  let text ← k.operand receiver
  let args ← k.arguments call.args
  match QueryOp.ofName? call.name with
  | some op =>
    let inPlace := k.model.declaringCategory e = some .list
    return op.render ⟨text, k.receiverCategory call e, inPlace⟩ args
  | none => return s!"{text}.{Script.camelCase call.name}({commaList args})"

def sequenceQuery : Rule Expr where
  name := "sequence-query"
  priority := Rule.idiom
  applies env s e :=
    e.call?.any fun call =>
      isFactoryCall env s call || (isQueryName call.name call.arity && isSequenceCall env s call e)
  convert k e :=
    match e.call?.bind fun call => call.receiver?.map fun receiver => (receiver, call) with
    | none => return ""
    | some (receiver, call) => do
      if isFactoryCall k.toEnv (← get) call then return factory call.name (← k.arguments call.args)
      else if (SortStep.ofName? call.name).isSome then sortChain k e
      else queryCall k receiver e call

/-- The methods that turn a query into a collection. -/
def materializers : List String := ["ToList", "ToArray", "AsEnumerable", "ToHashSet"]

/-- A query already is an array; only a set is made anew. -/
def materialize : Rule Expr where
  name := "materialize"
  priority := Rule.idiom
  applies env s e :=
    e.call?.any fun call =>
      materializers.contains call.name && call.arity = 0 && isSequenceCall env s call e
  convert k e :=
    match e.call?.bind fun call => call.receiver?.map fun receiver => (receiver, call) with
    | none => return ""
    | some (receiver, call) => do
      let text ← k.expr receiver
      return if call.name = "ToHashSet" then s!"new Set({text})" else text

end ComponentScript.Rules
