/-
  ComponentScript.Rules.Collection — sizes and views of collections, and changes to lists
  and sets.
-/

import ComponentScript.Convert.Sharing
import ComponentScript.Script.Name

namespace ComponentScript.Rules

open Text

/-- Whether a member is one of a collection or a string. An unresolved member counts, unless
    it is one of the component itself. -/
def isCollectionMember (env : Env) (e receiver : Expr) : Bool :=
  match receiver.kind with
  | .this | .base => false
  | _ => (env.model.declaringCategory e).all fun c => c.isSequenceLike || c = .map || c = .string

/-- Whether a member is one of a value that is a collection. -/
def isOnCollection (env : Env) (s : Session) (e receiver : Expr) : Bool :=
  !env.isStaticReceiver s receiver && isCollectionMember env e receiver

/-- A property of a collection. -/
def collectionProperty (target name : String) (category? : Option Category) : String :=
  match name, category? with
  | "Keys", _ => s!"Object.keys({target})"
  | "Values", _ => s!"Object.values({target})"
  | _, some .map => s!"Object.keys({target}).length"
  | _, some .set => s!"{target}.size"
  | _, _ => s!"{target}.length"

def collectionProperties : Rule Expr where
  name := "collection-properties"
  priority := Rule.idiom
  applies env s e :=
    match e.memberAccess? with
    | none => false
    | some (receiver, name) =>
      isOnCollection env s e receiver &&
        match name with
        | "Count" | "Length" => true
        | "Keys" | "Values" => (env.model.category receiver).all (· = .map)
        | _ => false
  convert k e :=
    match e.memberAccess? with
    | none => return ""
    | some (receiver, name) => do
      let target ← k.operand receiver
      return collectionProperty target name (k.model.category receiver)

/-! ## Methods -/

/-- Whether a method changes a collection of the family. -/
def isChange (name : String) (arity : Nat) (category? : Option Category) : Bool :=
  let listLike := category?.all fun c => c = .list || c = .sequence
  match name, arity with
  | "Add", 1 => listLike || category? = some .set
  | "AddRange", 1 | "Insert", 2 | "RemoveAt", 1 => listLike
  | "Clear", 0 => category? ≠ some .set
  | "Remove", 1 => category? = some .list || category? = some .set
  | _, _ => false

/-- Deletes every entry of a map. -/
def clearMap (k : Converter) (receiver : Expr) : Emit String := do
  let (target, sh) ← k.shared {} receiver
  let key ← Emit.freshName "k"
  return sh.wrap s!"Object.keys({target}).forEach(({key}) => delete {target}[{key}])"

/-- Removes the first occurrence of an item from a list and tells whether there was one. If
    the list is bound, the item is too, so that it is evaluated after the list. -/
def removeItem (k : Converter) (receiver item : Expr) : Emit String := do
  let (target, sh) ← k.shared {} receiver
  let text ← k.expr item
  let (item, sh) ← if sh.isEmpty then pure (text, sh) else sh.share item text
  let index ← Emit.freshName "i"
  return sh.wrap
    s!"(({index}) => {index} >= 0 && {target}.splice({index}, 1).length > 0)({target}.indexOf({item}))"

/-- A change of a collection that mentions it once. -/
def collectionOperation (target name : String) (args : List String)
    (category? : Option Category) : String :=
  match name, args, category? with
  | "Add", [item], some .set => s!"{target}.add({item})"
  | "Add", [item], _ => s!"{target}.push({item})"
  | "AddRange", [items], _ => s!"{target}.push(...{items})"
  | "Insert", [index, item], _ => s!"{target}.splice({index}, 0, {item})"
  | "RemoveAt", [index], _ => s!"{target}.splice({index}, 1)"
  | "Clear", [], _ => s!"({target}.length = 0)"
  | "Remove", [item], some .set => s!"{target}.delete({item})"
  | name, args, _ => s!"{target}.{Script.camelCase name}({commaList args})"

def collectionCall (k : Converter) (receiver : Expr) (call : Call) (category? : Option Category) :
    Emit String :=
  let plain : Emit String := do
    let target ← k.operand receiver
    let args ← k.arguments call.args
    return collectionOperation target call.name args category?
  match call.name, call.args with
  | "Clear", [] => if category? = some .map then clearMap k receiver else plain
  | "Remove", [item] => if category? = some .set then plain else removeItem k receiver item.expr
  | _, _ => plain

def collectionMethods : Rule Expr where
  name := "collection-methods"
  priority := Rule.idiom
  applies env s e :=
    match e.call?.bind fun call => call.receiver?.map fun receiver => (receiver, call) with
    | none => false
    | some (receiver, call) =>
      isOnCollection env s e receiver &&
        isChange call.name call.arity (env.receiverCategory call e)
  convert k e :=
    match e.call?.bind fun call => call.receiver?.map fun receiver => (receiver, call) with
    | none => return ""
    | some (receiver, call) => collectionCall k receiver call (k.receiverCategory call e)

end ComponentScript.Rules
