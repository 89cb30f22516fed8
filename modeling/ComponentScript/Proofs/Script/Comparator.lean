/-
  ComponentScript.Proofs.Script.Comparator — functions that compare two elements, read and run.

  Such a function goes through keys. For each it names the values of the two elements, and it
  returns if they differ; behind the last key it returns 0. Its lines are read from their
  texts and run over names for the elements and for the values. A name that is declared twice,
  or that is used for what it does not stand for, ends a run without a result.

  - `readValue`: a value is terms with `??` between them. A term that ends in a name in
    parentheses is a call of what is in front of these; what another term means is not looked
    at.
  - `ComparedKey.selects_term`: a selector that is a term is called. `selects_coalesce`: behind
    `??` only the last term is, and if the first is not null the elements are not asked.
  - `Comparator.run_eq`: the result is the sign of the lexicographic comparison by what the
    selectors give.
-/

import Mathlib.Order.Compare
import Mathlib.Order.Lattice
import ComponentScript.Proofs.Script.Terms

namespace ComponentScript.Script

open Text

theorem words_intercalate {ts : List String} (hne : ts ≠ []) (h : ∀ t ∈ ts, words t = some [t]) :
    words (" ".intercalate ts) = some ts := by
  induction ts with
  | nil => exact absurd rfl hne
  | cons t ts ih =>
    obtain ⟨ht, hts⟩ := List.forall_mem_cons.mp h
    cases ts with
    | nil => rwa [String.intercalate_singleton]
    | cons u us =>
      rw [String.intercalate_cons_cons]
      exact words_append ht (ih (List.cons_ne_nil _ _) hts)

/-! ## Values -/

inductive KeyTerm where
  | call (function argument : String)
  | other (text : String)
  deriving DecidableEq

namespace KeyTerm

/-- A name in the last parentheses is the argument of what is in front of them. -/
def read (t : String) : KeyTerm :=
  let cs := t.toList.reverse.tail
  let argument := cs.takeWhile (· ≠ '(')
  let function := String.ofList (cs.drop (argument.length + 1)).reverse
  let argument := String.ofList argument.reverse
  if t = function ++ ("(" ++ argument ++ ")") ∧ IsTerm function ∧ isIdentifier argument = true then
    .call function argument
  else .other t

example : read "f(g)(a)" = .call "f(g)" "a" ∧ read "f(g(a))" = .other "f(g(a))" ∧ read "(a)" = .other "(a)" := by
  decide +kernel

theorem read_call {function argument : String} (hf : IsTerm function) (ha : isIdentifier argument = true) :
    read (function ++ ("(" ++ argument ++ ")")) = .call function argument := by
  have hnone : ∀ c ∈ argument.toList.reverse, c ≠ '(' := by
    rintro _ hc rfl
    exact absurd (continuesIdentifier_of_isIdentifier ha _ (List.mem_reverse.mp hc)) (by decide +kernel)
  have htail : (function ++ ("(" ++ argument ++ ")")).toList.reverse.tail =
      argument.toList.reverse ++ '(' :: function.toList.reverse := by simp
  have hargument : (argument.toList.reverse ++ '(' :: function.toList.reverse).takeWhile (· ≠ '(') =
      argument.toList.reverse := by
    rw [List.takeWhile_append_of_pos fun c hc => decide_eq_true (hnone c hc), List.takeWhile_cons_of_neg (by decide),
      List.append_nil]
  have hfunction : (argument.toList.reverse ++ '(' :: function.toList.reverse).drop
      (argument.toList.reverse.length + 1) = function.toList.reverse := by
    rw [List.drop_length_add_append]
    rfl
  unfold read
  simp only [htail, hargument, hfunction, List.reverse_reverse, String.ofList_toList]
  rw [if_pos ⟨trivial, hf, ha⟩]

/-- Calls end in a parenthesis. -/
theorem read_other {t : String} (h : t.toList.getLast? ≠ some ')') : read t = .other t := by
  have hcall : ∀ f a : String, (f ++ ("(" ++ a ++ ")")).toList.getLast? = some ')' := by
    intro f a
    have hlist : (f ++ ("(" ++ a ++ ")")).toList = (f ++ ("(" ++ a)).toList ++ [')'] := by simp
    rw [hlist, List.getLast?_concat]
  unfold read
  dsimp only
  rw [if_neg]
  rintro ⟨ht, -, -⟩
  exact h (ht ▸ hcall _ _)

end KeyTerm

def readTerm : List String → Option KeyTerm
  | [t] => if IsTerm t then some (.read t) else none
  | _ => none

/-- The terms of a value, the words of which are given. -/
def readTerms (ws : List String) : Option (List KeyTerm) := (ws.splitOn "??").mapM readTerm

def readValue (t : String) : Option (List KeyTerm) := (words t).bind readTerms

theorem readValue_term {t : String} (h : IsTerm t) : readValue t = some [.read t] := by
  have hsign : "??" ∉ [t] := by simpa using (h.ne (by decide +kernel)).symm
  rw [readValue, h.words, Option.bind_some, readTerms, List.splitOn_eq_singleton hsign, List.mapM_cons, readTerm,
    if_pos h]
  rfl

theorem readValue_coalesce {t u : String} (ht : IsTerm t) {ts : List KeyTerm} (hu : readValue u = some ts) :
    readValue (t ++ " ?? " ++ u) = some (.read t :: ts) := by
  obtain ⟨ws, hws, hread⟩ := Option.bind_eq_some_iff.mp hu
  have hsign : "??" ∉ [t] := by simpa using (ht.ne (by decide +kernel)).symm
  have hwords : words (t ++ " ?? " ++ u) = some ([t] ++ "??" :: ws) := by
    have hcoalesce : words "??" = some ["??"] := by decide
    simpa [String.append_assoc] using words_append (words_append ht.words hcoalesce) hws
  unfold readTerms at hread
  rw [readValue, hwords, Option.bind_some, readTerms, List.splitOn_append_cons_self, List.splitOn_eq_singleton hsign,
    List.singleton_append, List.mapM_cons, readTerm, if_pos ht, hread]
  rfl

/-! ## Lines -/

inductive CompareLine where
  /-- Two names for values. -/
  | declare (x : String) (left : List KeyTerm) (y : String) (right : List KeyTerm)
  /-- Return, if two values differ: one result if the first is less, and another if not. -/
  | decideBy (x y : String) (less greater : Int)
  | give (result : Int)
  deriving DecidableEq

namespace CompareLine

def readSign (t : String) : Option Int := [-1, 0, 1].find? fun n => toString n = t

/-- A name, its sign and its value. -/
def readBinding (t : String) : Option (String × List KeyTerm) := do
  match ← words t with
  | x :: sign :: ws => if sign = "=" then (readTerms ws).map (x, ·) else none
  | _ => none

def ofBindings : List String → Option CompareLine
  | [l, r] => do
    let (x, left) ← readBinding l
    let (y, right) ← readBinding r
    return .declare x left y right
  | _ => none

def ofWords : List String → Option CompareLine
  | [word, result] => if word = "return" then (readSign result).map give else none
  | [word, condition, action, x, sign, y, question, less, colon, greater] => do
    if [word, condition, action, sign, question, colon] = ["if", s!"({x} !== {y})", "return", "<", "?", ":"] then
      return .decideBy x y (← readSign less) (← readSign greater)
    else none
  | _ => none

/-- The line of a text, which ends in a semicolon. -/
def read? (t : String) : Option CompareLine :=
  let cs := t.toList.dropLast
  if t = String.ofList cs ++ ";" then
    match behind "const " cs with
    | some cs => (listItems cs).bind ofBindings
    | none => (words (String.ofList cs)).bind ofWords
  else none

example : read? "const x = f(a), y = u ?? f(b);" =
      some (.declare "x" [.call "f" "a"] "y" [.other "u", .call "f" "b"]) ∧
    read? "if (x !== y) return x < y ? -1 : 1;" = some (.decideBy "x" "y" (-1) 1) ∧
    read? "if (x !== y) return y < x ? -1 : 1;" = none := by
  decide +kernel

theorem read_statement (t : String) : read? (t ++ ";") =
    match behind "const " t.toList with
    | some cs => (listItems cs).bind ofBindings
    | none => (words t).bind ofWords := by
  have hfront : (t ++ ";").toList.dropLast = t.toList := by simp
  unfold read?
  dsimp only
  rw [hfront, String.ofList_toList]
  exact if_pos rfl

variable {x y : String} (hx : IsTerm x) (hy : IsTerm y)
include hx

theorem readBinding_text {value : String} {ts : List KeyTerm} (h : readValue value = some ts) :
    readBinding (x ++ " = " ++ value) = some (x, ts) := by
  obtain ⟨ws, hws, hread⟩ := Option.bind_eq_some_iff.mp h
  have hwords : words (x ++ " = " ++ value) = some (x :: "=" :: ws) := by
    have hsign : words "=" = some ["="] := by decide
    simpa [String.append_assoc] using words_append (words_append hx.words hsign) hws
  rw [readBinding, hwords, Option.bind_eq_bind, Option.bind_some]
  dsimp only
  rw [if_pos rfl, hread]
  rfl

theorem isItem_binding {value : String} (h : IsItem value) : IsItem (x ++ " = " ++ value) := by
  have hsign : IsItem " = " := by decide
  exact (hx.isItem.append hsign).append h

include hy

theorem read_declare {l r : String} {left right : List KeyTerm} (hl : readValue l = some left)
    (hr : readValue r = some right) (hli : IsItem l) (hri : IsItem r) :
    read? s!"const {x} = {l}, {y} = {r};" = some (.declare x left y right) := by
  have hitems : ∀ t ∈ [x ++ " = " ++ l, y ++ " = " ++ r], IsItem t :=
    List.forall_mem_cons.mpr ⟨isItem_binding hx hli, List.forall_mem_singleton.mpr (isItem_binding hy hri)⟩
  have htext : s!"const {x} = {l}, {y} = {r};" = "const " ++ commaList [x ++ " = " ++ l, y ++ " = " ++ r] ++ ";" := by
    show "const " ++ x ++ " = " ++ l ++ ", " ++ y ++ " = " ++ r ++ ";" = _
    rw [commaList, String.intercalate_cons_cons, String.intercalate_singleton]
    simp only [String.append_assoc]
  rw [htext, read_statement, String.toList_append, behind_append]
  dsimp only
  rw [listItems_commaList hitems, Option.bind_some, ofBindings, readBinding_text hx hl, readBinding_text hy hr]
  rfl

theorem read_decision {less greater : String} {a b : Int} (hless : words less = some [less])
    (hgreater : words greater = some [greater]) (ha : readSign less = some a) (hb : readSign greater = some b) :
    read? ("if (" ++ x ++ " !== " ++ y ++ ") return " ++ x ++ " < " ++ y ++ " ? " ++
      (less ++ " : " ++ greater) ++ ";") =
      some (.decideBy x y a b) := by
  have hcondition : IsTerm ("(" ++ x ++ " !== " ++ y ++ ")") := by
    have hclosed : Closed (x ++ " !== " ++ y) := (Leads.first hx.closed).lit rfl |>.hole hy.closed
    simpa only [String.append_assoc] using IsTerm.parenthesized hclosed
  have hwords : ∀ t ∈ ["if", "(" ++ x ++ " !== " ++ y ++ ")", "return", x, "<", y, "?", less, ":", greater],
      words t = some [t] := by
    simp only [List.forall_mem_cons, hcondition.words, hx.words, hy.words, hless, hgreater]
    decide
  have htext : "if (" ++ x ++ " !== " ++ y ++ ") return " ++ x ++ " < " ++ y ++ " ? " ++
    (less ++ " : " ++ greater) ++ ";" =
      " ".intercalate ["if", "(" ++ x ++ " !== " ++ y ++ ")", "return", x, "<", y, "?", less, ":", greater] ++ ";" := by
    refine String.toList_inj.mp ?_
    simp
  have hkeyword : behind "const " (" ".intercalate
      ["if", "(" ++ x ++ " !== " ++ y ++ ")", "return", x, "<", y, "?", less, ":", greater]).toList = none := by
    simp [behind]
  have hof : ofWords ["if", "(" ++ x ++ " !== " ++ y ++ ")", "return", x, "<", y, "?", less, ":", greater] =
      (do return .decideBy x y (← readSign less) (← readSign greater)) := if_pos rfl
  rw [htext, read_statement, hkeyword]
  dsimp only
  rw [words_intercalate (List.cons_ne_nil _ _) hwords, Option.bind_some, hof, ha, hb]
  rfl

theorem read_decideBy (descending : Bool) :
    let order := if descending then "1 : -1" else "-1 : 1"
    read? s!"if ({x} !== {y}) return {x} < {y} ? {order};" =
      some (if descending then .decideBy x y 1 (-1) else .decideBy x y (-1) 1) := by
  have hone : words "1" = some ["1"] ∧ readSign "1" = some 1 := by decide
  have hminus : words "-1" = some ["-1"] ∧ readSign "-1" = some (-1) := by decide
  intro order
  cases descending with
  | true =>
    have horder : order = "1" ++ " : " ++ "-1" := by decide
    rw [horder]
    exact read_decision hx hy hone.1 hminus.1 hone.2 hminus.2
  | false =>
    have horder : order = "-1" ++ " : " ++ "1" := by decide
    rw [horder]
    exact read_decision hx hy hminus.1 hone.1 hminus.2 hone.2

end CompareLine

/-! ## Runs -/

section Run

variable {E V : Type}

/-- What the script means by the terms of its `i`-th declaration: a function gives a value of an
    element, and another term is a value or null. Nothing ties them to the same texts in other
    declarations. -/
structure KeyMeaning (E V : Type) where
  call : Nat → String → E → V
  other : Nat → String → Option V

/-- What the names stand for: elements, or values of keys. -/
abbrev KeyNames (E V : Type) := List (String × (E ⊕ V))

namespace KeyNames

def element? (names : KeyNames E V) (name : String) : Option E := (names.lookup name).bind (·.getLeft?)

def value? (names : KeyNames E V) (name : String) : Option V := (names.lookup name).bind (·.getRight?)

/-- A name is declared once. -/
def declare? (names : KeyNames E V) (name : String) (v : E ⊕ V) : Option (KeyNames E V) :=
  if (names.lookup name).isSome then none else some ((name, v) :: names)

end KeyNames

variable (μ : KeyMeaning E V)

/-- The value of a term, if there is one; null is none. -/
def KeyTerm.value? (i : Nat) (names : KeyNames E V) : KeyTerm → Option (Option V)
  | .call function argument => (names.element? argument).map fun e => some (μ.call i function e)
  | .other t => some (μ.other i t)

/-- The first that is not null. -/
def KeyMeaning.value? (i : Nat) (names : KeyNames E V) : List KeyTerm → Option V
  | [] => none
  | t :: ts => do (← t.value? μ i names).or (KeyMeaning.value? i names ts)

variable [LinearOrder V]

/-- The result of lines, the first of which has the declaration `i` if it is one. -/
def CompareLine.run : Nat → KeyNames E V → List CompareLine → Option Int
  | _, _, [] => none
  | i, names, .declare x left y right :: lines => do
    let names' ← names.declare? x (.inr (← μ.value? i names left))
    let names'' ← names'.declare? y (.inr (← μ.value? i names' right))
    run (i + 1) names'' lines
  | i, names, .decideBy x y less greater :: lines => do
    let a ← names.value? x
    let b ← names.value? y
    if a ≠ b then some (if a < b then less else greater) else run i names lines
  | _, _, .give result :: _ => some result

end Run

/-! ## Comparators -/

/-- A key of a comparison: the names of its two values, its selector and its direction. -/
structure ComparedKey where
  x : String
  y : String
  selector : String
  descending : Bool

namespace ComparedKey

def names (key : ComparedKey) : List String := [key.x, key.y]

def lines (left right : String) (key : ComparedKey) : List String :=
  let order := if key.descending then "1 : -1" else "-1 : 1"
  [s!"const {key.x} = {key.selector}({left}), {key.y} = {key.selector}({right});",
    s!"if ({key.x} !== {key.y}) return {key.x} < {key.y} ? {order};"]

end ComparedKey

/-- A function of two elements that goes through keys. -/
structure Comparator where
  left : String
  right : String
  keys : List ComparedKey

namespace Comparator

def lines (c : Comparator) : List String := c.keys.flatMap (·.lines c.left c.right) ++ ["return 0;"]

def text (c : Comparator) (indent : String) : String :=
  s!"({c.left}, {c.right}) => " ++ ("\x7b\n" ++ indentLines (joinLines c.lines) indent ++ "\n\x7d")

theorem lines_ne_empty (c : Comparator) : ∀ line ∈ c.lines, line ≠ "" := by
  have hend : ∀ {t u : String}, u ≠ "" → t ++ u ≠ "" := fun hu h => hu (String.append_eq_empty_iff.mp h).2
  refine List.forall_mem_append.mpr ⟨?_, List.forall_mem_singleton.mpr (by decide)⟩
  refine List.forall_mem_flatMap.mpr fun key _ => ?_
  exact List.forall_mem_cons.mpr ⟨hend (by decide), List.forall_mem_singleton.mpr (hend (by decide))⟩

/-- No line is lost when the lines are put in braces. -/
theorem block_lines (c : Comparator) (indent : String) :
    block c.lines indent = "\x7b\n" ++ indentLines (joinLines c.lines) indent ++ "\n\x7d" := by
  have hfilter : c.lines.filter (· ≠ "") = c.lines :=
    List.filter_eq_self.mpr fun line hline => decide_eq_true (c.lines_ne_empty line hline)
  rw [block, hfilter, if_neg]
  simp [lines]

def names (c : Comparator) : List String := c.left :: c.right :: c.keys.flatMap (·.names)

end Comparator

/-- A comparison as a number. -/
def sign : Ordering → Int
  | .lt => -1
  | .eq => 0
  | .gt => 1

theorem sign_eq_zero_iff {o : Ordering} : sign o = 0 ↔ o = .eq := by
  cases o <;> simp [sign]

section Run

variable {E V : Type} [LinearOrder V]

/-- The result for two elements, as the lines say. -/
def Comparator.run (μ : KeyMeaning E V) (c : Comparator) (l r : E) : Option Int := do
  let lines ← c.lines.mapM CompareLine.read?
  let names ← KeyNames.declare? [] c.left (.inl l)
  let names ← names.declare? c.right (.inl r)
  CompareLine.run μ 0 names lines

/-- What the selector of the `i`-th key gives for an element. -/
abbrev KeyValues (E V : Type) := Nat → ComparedKey → E → V

namespace KeyValues

variable (f : KeyValues E V) (l r : E)

/-- How two elements compare by the `i`-th key. -/
def orderBy (i : Nat) (key : ComparedKey) : Ordering :=
  let order := compare (f i key l) (f i key r)
  if key.descending then order.swap else order

/-- The first key that tells the elements apart decides. -/
def lexicographic (i : Nat) : List ComparedKey → Ordering
  | [] => .eq
  | key :: keys => (f.orderBy l r i key).then (lexicographic (i + 1) keys)

variable {f l r}

theorem orderBy_eq_iff {i : Nat} {key : ComparedKey} : f.orderBy l r i key = .eq ↔ f i key l = f i key r := by
  unfold orderBy
  cases key.descending with
  | false => exact compare_eq_iff_eq
  | true => exact Ordering.swap_eq_eq.trans compare_eq_iff_eq

/-- Elements compare equal if all their keys are. -/
theorem lexicographic_eq_iff {i : Nat} {keys : List ComparedKey} : f.lexicographic l r i keys = .eq ↔
    ∀ (j : Nat) (key : ComparedKey), keys[j]? = some key → f (i + j) key l = f (i + j) key r := by
  induction keys generalizing i with
  | nil => simp [lexicographic]
  | cons key keys ih =>
    rw [lexicographic, Ordering.then_eq_eq, orderBy_eq_iff, ih]
    constructor
    · rintro ⟨hfirst, hrest⟩ j other hj
      cases j with
      | zero =>
        obtain rfl : key = other := Option.some.inj hj
        exact hfirst
      | succ j =>
        have := hrest j other hj
        rwa [show i + 1 + j = i + (j + 1) by omega] at this
    · intro h
      refine ⟨h 0 key rfl, fun j other hj => ?_⟩
      have := h (j + 1) other hj
      rwa [show i + (j + 1) = i + 1 + j by omega] at this

end KeyValues

end Run

/-! ## Keys at work -/

namespace ComparedKey

variable {E V : Type} {μ : KeyMeaning E V} {i : Nat} {key : ComparedKey}

/-- Behind the selector, a name in parentheses makes a value, which is what `f` gives for the
    element of that name. -/
def Selects (μ : KeyMeaning E V) (i : Nat) (key : ComparedKey) (f : E → V) : Prop :=
  ∀ argument, isIdentifier argument = true →
    let value := key.selector ++ ("(" ++ argument ++ ")")
    IsItem value ∧ ∃ ts, readValue value = some ts ∧
      ∀ names e, KeyNames.element? names argument = some e → μ.value? i names ts = some (f e)

theorem selects_term (h : IsTerm key.selector) : key.Selects μ i (μ.call i key.selector) := by
  intro argument harg value
  have hcall : IsTerm value := h.call (markless_of_isIdentifier harg).closed
  refine ⟨hcall.isItem, _, readValue_term hcall, fun names e he => ?_⟩
  rw [KeyTerm.read_call h harg, KeyMeaning.value?, KeyTerm.value?, he]
  rfl

/-- Parentheses belong to what is behind `??`. -/
theorem selects_coalesce {u w : String} (hu : IsTerm u) (hother : KeyTerm.read u = .other u) (hw : IsTerm w)
    (hsel : key.selector = u ++ " ?? " ++ w) :
    key.Selects μ i fun e => (μ.other i u).getD (μ.call i w e) := by
  intro argument harg value
  have hvalue : value = u ++ " ?? " ++ (w ++ ("(" ++ argument ++ ")")) := by
    rw [← String.append_assoc, ← hsel]
  have hcall := hw.call (markless_of_isIdentifier harg).closed
  have hsign : IsItem " ?? " := by decide
  rw [hvalue]
  refine ⟨(hu.isItem.append hsign).append hcall.isItem, _, readValue_coalesce hu (readValue_term hcall),
    fun names e he => ?_⟩
  rw [KeyTerm.read_call hw harg, hother]
  simp only [KeyMeaning.value?, KeyTerm.value?, he]
  cases μ.other i u <;> rfl

variable {names : KeyNames E V} {left right : String} {l r : E} {f : KeyValues E V}

/-- How the second line decides. -/
def decision (key : ComparedKey) : CompareLine :=
  if key.descending then .decideBy key.x key.y 1 (-1) else .decideBy key.x key.y (-1) 1

/-- The lines of the key as they are read. -/
theorem read_lines (hx : IsTerm key.x) (hy : IsTerm key.y) (hleft : isIdentifier left = true)
    (hright : isIdentifier right = true) {g : E → V} (hsel : key.Selects μ i g) :
    ∃ tl tr, (key.lines left right).mapM CompareLine.read? = some [.declare key.x tl key.y tr, key.decision] ∧
      (∀ names e, KeyNames.element? names left = some e → μ.value? i names tl = some (g e)) ∧
      ∀ names e, KeyNames.element? names right = some e → μ.value? i names tr = some (g e) := by
  obtain ⟨hli, tl, hl, hlv⟩ := hsel left hleft
  obtain ⟨hri, tr, hr, hrv⟩ := hsel right hright
  have hdeclare := CompareLine.read_declare hx hy hl hr hli hri
  have hdecide := CompareLine.read_decideBy hx hy key.descending
  have htext : s!"const {key.x} = {key.selector}({left}), {key.y} = {key.selector}({right});" =
      "const " ++ key.x ++ " = " ++ (key.selector ++ ("(" ++ left ++ ")")) ++ ", " ++ key.y ++ " = " ++
        (key.selector ++ ("(" ++ right ++ ")")) ++ ";" := by
    show "const " ++ key.x ++ " = " ++ key.selector ++ "(" ++ left ++ "), " ++ key.y ++ " = " ++ key.selector ++ "(" ++
      right ++ ");" = _
    refine String.toList_inj.mp ?_
    simp
  refine ⟨tl, tr, ?_, hlv, hrv⟩
  have hboth : ∀ {d e : String} {a b : CompareLine}, CompareLine.read? d = some a → CompareLine.read? e = some b →
      [d, e].mapM CompareLine.read? = some [a, b] := by
    intro d e a b hd he
    rw [List.mapM_cons, List.mapM_cons, hd, he]
    rfl
  exact hboth (htext ▸ hdeclare) hdecide

/-- The names after a key has been looked at. -/
def declared (key : ComparedKey) (f : KeyValues E V) (i : Nat) (l r : E) (names : KeyNames E V) : KeyNames E V :=
  (key.y, .inr (f i key r)) :: (key.x, .inr (f i key l)) :: names

theorem lookup_declared {name : String} (hx : name ≠ key.x) (hy : name ≠ key.y) :
    (key.declared f i l r names).lookup name = names.lookup name := by
  rw [declared, List.lookup_cons, beq_false_of_ne hy, List.lookup_cons, beq_false_of_ne hx]

/-- New names are in no element's way. -/
theorem element?_declared (hx : names.lookup key.x = none) (hy : names.lookup key.y = none) {name : String} {e : E}
    (he : names.element? name = some e) : (key.declared f i l r names).element? name = some e := by
  have hne : ∀ {other : String}, names.lookup other = none → name ≠ other := by
    rintro other hnone rfl
    rw [KeyNames.element?, hnone] at he
    cases he
  rw [KeyNames.element?, lookup_declared (hne hx) (hne hy)]
  exact he

variable [LinearOrder V]

/-- Values that differ give what their order is worth in the direction of the key. -/
theorem run_decideBy (key : ComparedKey) (rest : List CompareLine) (hx : names.value? key.x = some (f i key l))
    (hy : names.value? key.y = some (f i key r)) :
    CompareLine.run μ (i + 1) names (key.decision :: rest) =
      if f.orderBy l r i key = .eq then CompareLine.run μ (i + 1) names rest
      else some (sign (f.orderBy l r i key)) := by
  by_cases heq : f i key l = f i key r
  · rw [if_pos (KeyValues.orderBy_eq_iff.mpr heq)]
    unfold decision
    cases key.descending <;> simp [CompareLine.run, hx, hy, heq]
  · rw [if_neg (mt KeyValues.orderBy_eq_iff.mp heq)]
    unfold decision
    rcases lt_or_gt_of_ne heq with hlt | hgt
    · have hord : compare (f i key l) (f i key r) = .lt := compare_lt_iff_lt.mpr hlt
      cases hd : key.descending <;> simp [CompareLine.run, hx, hy, heq, hlt, KeyValues.orderBy, hord, hd, sign]
    · have hord : compare (f i key l) (f i key r) = .gt := compare_gt_iff_gt.mpr hgt
      cases hd : key.descending <;> simp [CompareLine.run, hx, hy, heq, hgt.not_gt, KeyValues.orderBy, hord, hd, sign]

/-- A key decides if its values differ, and leaves it to the lines behind it if not. -/
theorem run_lines (key : ComparedKey) {tl tr : List KeyTerm} (rest : List CompareLine)
    (htl : ∀ names e, KeyNames.element? names left = some e → μ.value? i names tl = some (f i key e))
    (htr : ∀ names e, KeyNames.element? names right = some e → μ.value? i names tr = some (f i key e))
    (hl : names.element? left = some l) (hr : names.element? right = some r)
    (hx : names.lookup key.x = none) (hy : names.lookup key.y = none) (hxy : key.x ≠ key.y) :
    CompareLine.run μ i names (.declare key.x tl key.y tr :: key.decision :: rest) =
      if f.orderBy l r i key = .eq then CompareLine.run μ (i + 1) (key.declared f i l r names) rest
      else some (sign (f.orderBy l r i key)) := by
  -- the element is still there once the first value has its name
  have hne : right ≠ key.x := by
    rintro rfl
    rw [KeyNames.element?, hx] at hr
    cases hr
  have hr' : KeyNames.element? ((key.x, .inr (f i key l)) :: names) right = some r := by
    rw [KeyNames.element?, List.lookup_cons, beq_false_of_ne hne]
    exact hr
  have hy' : List.lookup key.y ((key.x, (.inr (f i key l) : E ⊕ V)) :: names) = none := by
    rw [List.lookup_cons, beq_false_of_ne hxy.symm]
    exact hy
  have hdeclare : ∀ lines, CompareLine.run μ i names (.declare key.x tl key.y tr :: lines) =
      CompareLine.run μ (i + 1) (key.declared f i l r names) lines := by
    intro lines
    rw [CompareLine.run, htl names l hl]
    simp only [KeyNames.declare?, hx, hy', htr _ r hr', Option.bind_eq_bind, Option.bind_some, Option.isSome_none,
      Bool.false_eq_true, if_false]
    rfl
  rw [hdeclare]
  refine run_decideBy key rest ?_ ?_
  · rw [KeyNames.value?, declared, List.lookup_cons, beq_false_of_ne hxy, List.lookup_cons, beq_self_eq_true]
    rfl
  · rw [KeyNames.value?, declared, List.lookup_cons, beq_self_eq_true]
    rfl

end ComparedKey

namespace Comparator

variable {E V : Type} [LinearOrder V] {μ : KeyMeaning E V} {f : KeyValues E V}

/-- The lines of the keys from the `i`-th on can be read, and they run with the elements at hand
    and none of the names taken. -/
theorem run_keys {left right : String} (hleft : isIdentifier left = true) (hright : isIdentifier right = true)
    (keys : List ComparedKey) (i : Nat) (hterms : ∀ name ∈ keys.flatMap (·.names), IsTerm name)
    (hnodup : (keys.flatMap (·.names)).Nodup)
    (hsel : ∀ (j : Nat) (key : ComparedKey), keys[j]? = some key → key.Selects μ (i + j) (f (i + j) key)) :
    ∃ lines, (keys.flatMap (·.lines left right) ++ ["return 0;"]).mapM CompareLine.read? = some lines ∧
      ∀ {l r : E} {names : KeyNames E V}, names.element? left = some l → names.element? right = some r →
        (∀ name ∈ keys.flatMap (·.names), names.lookup name = none) →
        CompareLine.run μ i names lines = some (sign (f.lexicographic l r i keys)) := by
  induction keys generalizing i with
  | nil =>
    have hgive : CompareLine.read? "return 0;" = some (.give 0) := by decide +kernel
    refine ⟨[.give 0], ?_, fun _ _ _ => rfl⟩
    rw [List.flatMap_nil, List.nil_append, List.mapM_cons, hgive]
    rfl
  | cons key keys ih =>
    have hnames : (key :: keys).flatMap (·.names) = key.x :: key.y :: keys.flatMap (·.names) := rfl
    rw [hnames] at hterms hnodup ⊢
    obtain ⟨hxt, hterms⟩ := List.forall_mem_cons.mp hterms
    obtain ⟨hyt, hterms⟩ := List.forall_mem_cons.mp hterms
    simp only [List.nodup_cons, List.mem_cons, not_or] at hnodup
    obtain ⟨⟨hxy, hxkeys⟩, hykeys, hnodup⟩ := hnodup
    have hfirst : key.Selects μ i (f i key) := hsel 0 key rfl
    obtain ⟨tl, tr, hread, htl, htr⟩ := ComparedKey.read_lines hxt hyt hleft hright hfirst
    obtain ⟨lines, hlines, hrun⟩ := ih (i + 1) hterms hnodup fun j other hj => by
      have hother := hsel (j + 1) other hj
      rwa [show i + (j + 1) = i + 1 + j by omega] at hother
    refine ⟨.declare key.x tl key.y tr :: key.decision :: lines, ?_, fun hl hr hfree => ?_⟩
    · rw [List.flatMap_cons, List.append_assoc, List.mapM_append, hread, hlines]
      rfl
    · obtain ⟨hx, hfree⟩ := List.forall_mem_cons.mp hfree
      obtain ⟨hy, hfree⟩ := List.forall_mem_cons.mp hfree
      rw [key.run_lines lines htl htr hl hr hx hy hxy, KeyValues.lexicographic]
      split
      case isFalse hne =>
        -- this key decides
        cases ho : f.orderBy _ _ i key with
        | eq => exact absurd ho hne
        | lt => rfl
        | gt => rfl
      case isTrue heq =>
        rw [heq, Ordering.then]
        refine hrun (ComparedKey.element?_declared hx hy hl)
          (ComparedKey.element?_declared hx hy hr) fun name hname => ?_
        rw [ComparedKey.lookup_declared (ne_of_mem_of_not_mem hname hxkeys) (ne_of_mem_of_not_mem hname hykeys)]
        exact hfree name hname

/-- With different names a comparator runs to its end, whatever the values are. -/
theorem run_eq (c : Comparator) (hnames : ∀ name ∈ c.names, isIdentifier name = true ∧ name ∉ keywords)
    (hnodup : c.names.Nodup)
    (hsel : ∀ (i : Nat) (key : ComparedKey), c.keys[i]? = some key → key.Selects μ i (f i key)) (l r : E) :
    c.run μ l r = some (sign (f.lexicographic l r 0 c.keys)) := by
  obtain ⟨⟨hleft, -⟩, hnames⟩ := List.forall_mem_cons.mp hnames
  obtain ⟨⟨hright, -⟩, hnames⟩ := List.forall_mem_cons.mp hnames
  simp only [names, List.nodup_cons, List.mem_cons, not_or] at hnodup
  obtain ⟨⟨hlr, hlkeys⟩, hrkeys, hnodup⟩ := hnodup
  obtain ⟨lines, hread, hrun⟩ := run_keys (f := f) hleft hright c.keys 0
    (fun name hname => isTerm_of_isIdentifier (hnames name hname).1 (hnames name hname).2) hnodup
    (by simpa only [Nat.zero_add] using hsel)
  have hstart : c.run μ l r = CompareLine.run μ 0 [(c.right, .inl r), (c.left, .inl l)] lines := by
    simp only [run, Comparator.lines, hread, KeyNames.declare?, List.lookup_nil, List.lookup_cons,
      beq_false_of_ne (Ne.symm hlr), Option.bind_eq_bind, Option.bind_some, Option.isSome_none,
      Bool.false_eq_true, if_false]
  rw [hstart]
  refine hrun ?_ ?_ fun name hname => ?_
  · rw [KeyNames.element?, List.lookup_cons, beq_false_of_ne hlr, List.lookup_cons, beq_self_eq_true]
    rfl
  · rw [KeyNames.element?, List.lookup_cons, beq_self_eq_true]
    rfl
  · rw [List.lookup_cons, beq_false_of_ne (ne_of_mem_of_not_mem hname hrkeys), List.lookup_cons,
      beq_false_of_ne (ne_of_mem_of_not_mem hname hlkeys), List.lookup_nil]

end Comparator

end ComponentScript.Script
