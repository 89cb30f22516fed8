/-
  ComponentScript.Proofs.Script.Chains — script text read for its operator chains.

  The reader goes through a text character by character. It follows literals and brackets as
  the scan does, and on each level of brackets it knows what the chain of operators there has
  been joined by: by `??`, or by `&&` and `||`. Commas, semicolons, colons and the question
  mark of a conditional break a chain. A strict reader stops where a chain would be joined by
  both.
-/

import ComponentScript.Proofs.Script.Names

namespace ComponentScript.Script

open Text

/-! ## Names -/

/-- A character that means something to the reader. -/
def isActive (c : Char) : Bool :=
  isMark c || c = '\x27' || c = '\x5c' || c = ',' || c = ';' || c = ':' || c = '?' || c = '&' || c = '|'

variable {c : Char}

theorem isActive_eq_false {p : Char → Bool} (hp : "\"`()[]\x7b\x7d'\\,;:?&|".toList.any p = false)
    (h : p c = true) : isActive c = false := by
  cases ha : isActive c with
  | false => rfl
  | true =>
    have hc : c ∈ "\"`()[]\x7b\x7d'\\,;:?&|".toList := by
      simp only [isActive, isMark, isOpening, isClosing, Bool.or_eq_true, decide_eq_true_eq, or_assoc] at ha
      rcases ha with rfl | rfl | rfl | rfl | rfl | rfl | rfl | rfl | rfl | rfl | rfl | rfl | rfl | rfl | rfl | rfl <;> decide
    exact absurd h (List.any_eq_false.mp hp _ hc)

theorem isActive_of_plain (h : (c.isAlphanum || c = ' ') = true) : isActive c = false :=
  isActive_eq_false (p := fun c => c.isAlphanum || c = ' ') (by decide) h

/-- The text has no such characters, as names and numbers. -/
def Inert (t : String) : Prop := ∀ c ∈ t.toList, isActive c = false

instance : DecidablePred Inert := fun t => List.decidableBAll (isActive · = false) t.toList

/-! ## The reader -/

/-- What joins the operands of a chain. -/
inductive Joiner where
  /-- `??` -/
  | coalesce
  /-- `&&` or `||` -/
  | logical
  deriving DecidableEq

/-- Why the reader stops. -/
inductive Fault where
  /-- A chain has both kinds of operators. -/
  | mixed
  /-- A closing bracket has no partner. -/
  | bracket
  | lineBreak
  /-- An apostrophe or a backslash in code, or a backtick inside a substitution. -/
  | mark
  /-- The sign of an operator runs into what follows. -/
  | sign
  deriving DecidableEq

/-- The sign of an operator as far as it has been read. -/
inductive Pending where
  | none | question | questions | ampersand | bar | doubled
  deriving DecidableEq

/-- What closes a bracket. -/
def closer : Frame → Char
  | .paren => ')'
  | .bracket => ']'
  | .brace | .substitution => '\x7d'

/-- Where the reader is. Each open bracket keeps what the chain around it is joined by. -/
structure Reading where
  literal? : Option Scan.Literal := none
  pending : Pending := .none
  /-- Whether templates may start here. -/
  ticks : Bool := true
  link? : Option Joiner := none
  frames : List (Frame × Option Joiner) := []
  deriving DecidableEq

namespace Reading

/-- What a chain is joined by behind one more operator. Only a strict reader keeps track. -/
def joined (strict : Bool) (a : Joiner) : Option Joiner → Except Fault (Option Joiner)
  | none => .ok ((some a).filter fun _ => strict)
  | some b => if strict && a ≠ b then .error .mixed else .ok (some b)

def rest (r : Reading) : Reading := { r with pending := .none }

def join (strict : Bool) (a : Joiner) (r : Reading) : Except Fault Reading :=
  (joined strict a r.link?).map fun link? => { r with pending := .none, link? := link? }

def enter (f : Frame) (r : Reading) : Reading := { r with link? := none, frames := (f, r.link?) :: r.frames }

/-- Back to the chain around a bracket. A brace ends a substitution, too, and goes on with its
    template. -/
def leave (r : Reading) (c : Char) : Except Fault Reading :=
  match r.frames with
  | [] => .error .bracket
  | (f, link?) :: frames =>
    if c = '\x7d' && f = .substitution then
      .ok { r with literal? := some .template, ticks := true, link? := link?, frames := frames }
    else if closer f = c then .ok { r with link? := link?, frames := frames }
    else .error .bracket

/-- What a character that is neither a quote nor a bracket does to the chain. -/
def note (r : Reading) (c : Char) : Reading :=
  if c = ',' || c = ';' || c = ':' then { r with link? := none }
  else if c = '?' then { r with pending := .question }
  else if c = '&' then { r with pending := .ampersand }
  else if c = '|' then { r with pending := .bar }
  else r

/-- One character of code that no sign is open in front of. Letters, digits and blanks come
    first because there are so many of them. -/
def nextAtRest (r : Reading) (c : Char) : Except Fault Reading :=
  if c.isAlphanum || c = ' ' then .ok r
  else if c = '\x22' then .ok { r with literal? := some .string }
  else if c = '\x60' then if r.ticks then .ok { r with literal? := some .template } else .error .mark
  else if c = '\x27' || c = '\x5c' then .error .mark
  else if c = '(' then .ok (r.enter .paren)
  else if c = '[' then .ok (r.enter .bracket)
  else if c = '\x7b' then .ok (r.enter .brace)
  else if isClosing c then r.leave c
  else .ok (r.note c)

/-- What the sign that is open does once it is known to be complete. -/
def complete (strict : Bool) (r : Reading) : Except Fault Reading :=
  match r.pending with
  | .none | .ampersand | .bar => .ok r.rest
  | .question => .ok { r.rest with link? := none }
  | .questions => r.join strict .coalesce
  | .doubled => r.join strict .logical

/-- One more character of a sign. -/
def extend (r : Reading) (c : Char) : Except Fault Reading :=
  match r.pending with
  | .question =>
    if c = '?' then .ok { r with pending := .questions } else if c = '.' then .ok r.rest else .error .sign
  | .questions => if c = '=' then .ok r.rest else .error .sign
  | .ampersand =>
    if c = '&' then .ok { r with pending := .doubled } else if c = '=' then .ok r.rest else .error .sign
  | .bar => if c = '|' then .ok { r with pending := .doubled } else if c = '=' then .ok r.rest else .error .sign
  | _ => .error .sign

/-- One character of code. A blank or a closing bracket completes a sign. -/
def nextInCode (strict : Bool) (r : Reading) (c : Char) : Except Fault Reading :=
  if r.pending = .none then r.nextAtRest c
  else if c = ' ' then r.complete strict
  else if isClosing c then (r.complete strict).bind fun r' => r'.nextAtRest c
  else r.extend c

/-- Inside a literal the reader goes where the scan goes, also into a substitution. -/
def follow (r : Reading) (s : Scan) : Reading :=
  { r with
    literal? := s.literal?
    ticks := if s.frames.isEmpty then r.ticks else false
    link? := if s.frames.isEmpty then r.link? else none
    frames := s.frames.map (·, r.link?) ++ r.frames }

/-- The place after one more character. -/
def next (strict : Bool) (r : Reading) (c : Char) : Except Fault Reading :=
  match r.literal? with
  | none => r.nextInCode strict c
  | some l =>
    if Scan.isLineBreak c then .error .lineBreak
    else if c = '\x60' && !r.ticks then .error .mark
    else .ok (r.follow (Scan.nextInLiteral [] c l))

/-- The place after the characters. -/
def run (strict : Bool) (r : Reading) (cs : List Char) : Except Fault Reading := cs.foldlM (next strict) r

variable (strict : Bool)

@[simp] theorem run_nil (r : Reading) : r.run strict [] = .ok r := rfl

theorem run_cons (r : Reading) (c : Char) (cs : List Char) :
    r.run strict (c :: cs) = (r.next strict c).bind fun r' => r'.run strict cs := rfl

theorem run_append (r : Reading) (cs ds : List Char) :
    r.run strict (cs ++ ds) = (r.run strict cs).bind fun r' => r'.run strict ds := List.foldlM_append

variable {strict}

theorem run_append_of {r r' : Reading} {cs : List Char} (h : r.run strict cs = .ok r') (ds : List Char) :
    r.run strict (cs ++ ds) = r'.run strict ds := by
  rw [run_append, h]
  rfl

theorem run_cons_eq_ok {r r' : Reading} {cs : List Char} (h : r.run strict (c :: cs) = .ok r') :
    ∃ r'', r.next strict c = .ok r'' ∧ r''.run strict cs = .ok r' := by
  rw [run_cons] at h
  cases hn : r.next strict c with
  | error e => rw [hn] at h; cases h
  | ok r'' => rw [hn] at h; exact ⟨r'', rfl, h⟩

theorem run_cons_of {r r' : Reading} (h : r.next strict c = .ok r') (cs : List Char) :
    r.run strict (c :: cs) = r'.run strict cs := by
  rw [run_cons, h]
  rfl

end Reading

namespace Reading

/-! ## Steps -/

theorem note_of_isActive {r : Reading} (h : isActive c = false) : r.note c = r := by
  simp only [isActive, Bool.or_eq_false_iff, decide_eq_false_iff_not] at h
  simp [note, h]

def opener? (c : Char) : Option Frame :=
  if c = '(' then some .paren else if c = '[' then some .bracket else if c = '\x7b' then some .brace else none

/-- All that one character can do. -/
inductive Step (strict : Bool) : Reading → Char → Reading → Prop
  | note {r : Reading} {c : Char} : r.literal? = none → r.pending = .none → isMark c = false → c ≠ '\x27' → c ≠ '\x5c' →
      Step strict r c (r.note c)
  | string {r : Reading} : r.literal? = none → r.pending = .none →
    Step strict r '\x22' { r with literal? := some .string }
  | template {r : Reading} : r.literal? = none → r.pending = .none → r.ticks = true →
      Step strict r '\x60' { r with literal? := some .template }
  | enter {r : Reading} {c : Char} {f : Frame} : r.literal? = none → r.pending = .none → opener? c = some f →
      Step strict r c (r.enter f)
  | leave {r r' : Reading} {c : Char} : r.literal? = none → r.pending = .none → isClosing c = true →
    r.leave c = .ok r' →
      Step strict r c r'
  | complete {r r' : Reading} : r.literal? = none → r.pending ≠ .none → r.complete strict = .ok r' →
      Step strict r ' ' r'
  | close {r r' r'' : Reading} {c : Char} : r.literal? = none → r.pending ≠ .none → isClosing c = true →
      r.complete strict = .ok r' → r'.leave c = .ok r'' → Step strict r c r''
  | extend {r r' : Reading} {c : Char} : r.literal? = none → r.pending ≠ .none → isClosing c = false → c ≠ ' ' →
      r.extend c = .ok r' → Step strict r c r'
  | literal {r : Reading} {c : Char} {l : Scan.Literal} : r.literal? = some l → Scan.isLineBreak c = false →
      (c = '\x60' → r.ticks = true) → Step strict r c (r.follow (Scan.nextInLiteral [] c l))

theorem nextAtRest_of_isClosing {r : Reading} (h : isClosing c = true) :
    r.nextAtRest c = r.leave c := by
  simp only [isClosing, Bool.or_eq_true, decide_eq_true_eq] at h
  rcases h with (rfl | rfl) | rfl <;> rfl

theorem nextAtRest_of_isActive {r : Reading} (h : isActive c = false) :
    r.nextAtRest c = .ok r := by
  simp only [isActive, isMark, isOpening, isClosing, Bool.or_eq_false_iff, decide_eq_false_iff_not] at h
  simp [nextAtRest, note, isClosing, h]

theorem nextAtRest_of_isMark {r : Reading} (h : isMark c = false) (hq : c ≠ '\x27')
    (hb : c ≠ '\x5c') : r.nextAtRest c = .ok (r.note c) := by
  simp only [isMark, isOpening, isClosing, Bool.or_eq_false_iff, decide_eq_false_iff_not] at h
  by_cases hplain : (c.isAlphanum || c = ' ') = true
  · have := nextAtRest_of_isActive (r := r) (isActive_of_plain hplain)
    rw [this, note_of_isActive (isActive_of_plain hplain)]
  · simp [nextAtRest, isClosing, h, hq, hb, hplain]

theorem step_of_nextAtRest {strict : Bool} {r r' : Reading} (hl : r.literal? = none) (hp : r.pending = .none)
    (h : r.nextAtRest c = .ok r') : Step strict r c r' := by
  by_cases hclosing : isClosing c = true
  · exact .leave hl hp hclosing (nextAtRest_of_isClosing hclosing ▸ h)
  by_cases hbad : c = '\x27' ∨ c = '\x5c'
  · rcases hbad with rfl | rfl <;> cases h
  rw [not_or] at hbad
  cases hmark : isMark c with
  | false =>
    rw [nextAtRest_of_isMark hmark hbad.1 hbad.2] at h
    cases h
    exact .note hl hp hmark hbad.1 hbad.2
  | true =>
    simp only [isMark, hclosing, Bool.or_false, isOpening, Bool.or_eq_true, decide_eq_true_eq] at hmark
    rcases hmark with (rfl | rfl) | (rfl | rfl) | rfl
    · cases h
      exact .string hl hp
    · have htick : r.nextAtRest '\x60' =
          if r.ticks then .ok { r with literal? := some .template } else .error .mark := rfl
      rw [htick] at h
      split at h
      · next ht => cases h; exact .template hl hp ht
      · cases h
    · cases h
      exact .enter hl hp rfl
    · cases h
      exact .enter hl hp rfl
    · cases h
      exact .enter hl hp rfl

theorem step_of_next {strict : Bool} {r r' : Reading} (h : r.next strict c = .ok r') :
    Step strict r c r' := by
  unfold next at h
  split at h
  · next hl =>
    unfold nextInCode at h
    split at h
    · next hp => exact step_of_nextAtRest hl hp h
    · next hp =>
      split at h
      · next hc => subst hc; exact .complete hl hp h
      · next hc =>
        split at h
        · next hclosing =>
          cases hcomplete : r.complete strict with
          | error e => rw [hcomplete] at h; cases h
          | ok r'' =>
            rw [hcomplete] at h
            exact .close hl hp hclosing hcomplete ((nextAtRest_of_isClosing hclosing).symm.trans h)
        · next hclosing => exact .extend hl hp (Bool.not_eq_true _ ▸ hclosing) hc h
  · next l hl =>
    split at h
    · cases h
    · next hbreak =>
      split at h
      · cases h
      · next htick =>
        cases h
        refine .literal hl (Bool.not_eq_true _ ▸ hbreak) fun hc => ?_
        simpa [hc] using htick

theorem next_rest {strict : Bool} {r : Reading} (hl : r.literal? = none) (hp : r.pending = .none) :
    r.next strict c = r.nextAtRest c := by
  simp only [next, nextInCode, hl, hp, if_true]

theorem next_of_step {strict : Bool} {r r' : Reading} (h : Step strict r c r') :
    r.next strict c = .ok r' := by
  cases h with
  | note hl hp hm hq hb => rw [next_rest hl hp, nextAtRest_of_isMark hm hq hb]
  | string hl hp => rw [next_rest hl hp]; rfl
  | template hl hp ht =>
    rw [next_rest hl hp]
    exact if_pos ht
  | enter hl hp hc =>
    rw [next_rest hl hp]
    unfold opener? at hc
    split at hc
    · next h => subst h; cases hc; rfl
    split at hc
    · next h => subst h; cases hc; rfl
    split at hc
    · next h => subst h; cases hc; rfl
    · cases hc
  | leave hl hp hc h => rw [next_rest hl hp, nextAtRest_of_isClosing hc, h]
  | complete hl hp h => simp only [next, nextInCode, hl, if_neg hp, if_true, h]
  | close hl hp hc h h' =>
    have hblank : c ≠ ' ' := by rintro rfl; cases hc
    simp only [next, nextInCode, hl, if_neg hp, if_neg hblank, hc, if_true, h, Except.bind,
      nextAtRest_of_isClosing hc, h']
  | extend hl hp hc hblank h =>
    simp only [next, nextInCode, hl, if_neg hp, if_neg hblank, hc, Bool.false_eq_true, if_false, h]
  | literal hl hbreak htick =>
    have hmark : (c = '\x60' && !r.ticks) = false := by
      by_cases hc : c = '\x60'
      · simp [hc, htick hc]
      · simp [hc]
    simp only [next, hl, hbreak, hmark, Bool.false_eq_true, if_false]

end Reading

namespace Reading

variable {strict : Bool} {r r' : Reading} {c : Char}

/-- A bracket is left for the chain around it, or a substitution for its template. -/
theorem leave_cases (h : r.leave c = .ok r') : ∃ f link? frames, r.frames = (f, link?) :: frames ∧
    (f ≠ .substitution ∧ r' = { r with link? := link?, frames := frames } ∨
      f = .substitution ∧ c = '\x7d' ∧
        r' = { r with literal? := some .template, ticks := true, link? := link?, frames := frames }) := by
  unfold leave at h
  split at h
  · cases h
  · next f link? frames hframes =>
    refine ⟨f, link?, frames, hframes, ?_⟩
    split at h
    · next hsub =>
      simp only [Bool.and_eq_true, decide_eq_true_eq] at hsub
      cases h
      exact .inr ⟨hsub.2, hsub.1, rfl⟩
    · next hsub =>
      split at h
      · next hcloser =>
        cases h
        refine .inl ⟨?_, rfl⟩
        rintro rfl
        exact hsub (by simp [← hcloser, closer])
      · cases h

/-- A sign that is complete changes nothing but the chain. -/
theorem complete_cases (h : r.complete strict = .ok r') :
    ∃ link', r' = { r with pending := .none, link? := link' } := by
  have hjoin : ∀ a, r.join strict a = .ok r' → ∃ link', r' = { r with pending := .none, link? := link' } := by
    intro a h
    unfold join at h
    cases hj : joined strict a r.link? with
    | error e => rw [hj] at h; cases h
    | ok link' => rw [hj] at h; cases h; exact ⟨link', rfl⟩
  unfold complete at h
  split at h
  · cases h; exact ⟨r.link?, rfl⟩
  · cases h; exact ⟨r.link?, rfl⟩
  · cases h; exact ⟨r.link?, rfl⟩
  · cases h; exact ⟨none, rfl⟩
  · exact hjoin _ h
  · exact hjoin _ h

/-- A sign that goes on is still open, or is one that leaves chains alone. -/
theorem extend_cases (h : r.extend c = .ok r') :
    (∃ pending, r' = { r with pending := pending }) ∧ c ∈ ['?', '.', '=', '&', '|'] := by
  unfold extend at h
  repeat' split at h
  all_goals first | cases h; done | next hc => subst hc; cases h; exact ⟨⟨_, rfl⟩, by decide⟩

theorem extend_of_pending {q : Reading} (hq : q.pending = r.pending) (h : r.extend c = .ok r') :
    q.extend c = .ok { q with pending := r'.pending } := by
  unfold extend at h ⊢
  rw [hq]
  cases hp : r.pending <;> simp only [hp] at h ⊢ <;> repeat' split at h
  all_goals first | cases h; done | skip
  all_goals cases h; simp_all [rest]

theorem note_cases (r : Reading) (c : Char) :
    r.note c = { r with link? := none } ∨ ∃ pending, r.note c = { r with pending := pending } := by
  unfold note
  repeat' split
  · exact .inl rfl
  all_goals exact .inr ⟨_, rfl⟩

theorem nextInLiteral_frames (c : Char) (l : Scan.Literal) :
    (Scan.nextInLiteral [] c l).frames = [] ∨ (Scan.nextInLiteral [] c l).frames = [.substitution] := by
  cases l <;> simp only [Scan.nextInLiteral, Scan.nextInTemplate] <;> repeat' split
  all_goals simp

/-- In a literal there is nothing to be done, unless a substitution starts. -/
theorem follow_cases (r : Reading) (c : Char) (l : Scan.Literal) :
    (∃ literal?, r.follow (Scan.nextInLiteral [] c l) = { r with literal? := literal? }) ∨
      l = .templateDollar ∧ c = '\x7b' ∧ r.follow (Scan.nextInLiteral [] c l) =
        { r with literal? := none, ticks := false, link? := none, frames := (.substitution, r.link?) :: r.frames } := by
  have hplain : ∀ literal?, r.follow ⟨literal?, []⟩ = { r with literal? := literal? } := by
    intro literal?
    simp [follow]
  cases l <;> simp only [Scan.nextInLiteral, Scan.nextInTemplate] <;> repeat' split
  all_goals first | exact .inl ⟨_, hplain _⟩ | skip
  next hc => exact .inr ⟨trivial, hc, by simp [follow]⟩

end Reading

/-! ## Operands -/

namespace Reading

/-- Whether a substitution is open. -/
def substituted (fs : List (Frame × Option Joiner)) : Bool := fs.any (·.1 = .substitution)

/-- How many brackets are open around the code, or around the template it is substituted in. -/
def depth : List (Frame × Option Joiner) → Nat
  | [] => 0
  | (f, _) :: fs => if f = .substitution || substituted fs then depth fs else depth fs + 1

/-- The place of the operand scan, inside `b` more brackets. A template is one literal for it,
    with all its substitutions. -/
def place (b : Nat) (r : Reading) : Place :=
  let d := b + depth r.frames
  if substituted r.frames then if r.literal? = some .stringEscape then .escaped d '\x60' else .quoted d '\x60'
  else
    match r.literal? with
    | none => .code d
    | some .string => .quoted d '\x22'
    | some .stringEscape => .escaped d '\x22'
    | some .template | some .templateDollar => .quoted d '\x60'
    | some .templateEscape => .escaped d '\x60'

/-- Around a substitution there is no other. -/
def Single : List (Frame × Option Joiner) → Prop
  | [] => True
  | (f, _) :: fs => (f = .substitution → substituted fs = false) ∧ Single fs

/-- Templates are not nested. -/
structure Unnested (r : Reading) : Prop where
  inside : substituted r.frames = true →
    r.ticks = false ∧ (r.literal? = none ∨ r.literal? = some .string ∨ r.literal? = some .stringEscape)
  single : Single r.frames

theorem substituted_cons (f : Frame) (link? : Option Joiner) (fs : List (Frame × Option Joiner)) :
    substituted ((f, link?) :: fs) = (f = .substitution || substituted fs) := rfl

variable {strict : Bool} {r r' : Reading} {c : Char}

/-- A character that is no mark leaves the operand scan where it is, or ends it outside of all
    brackets. -/
theorem place_quiet (b : Nat) (hl : r.literal? = none) (hm : isMark c = false) (hq : c ≠ '\x27') (hb : c ≠ '\x5c') :
    (r.place b).next c = some (r.place b) ∨
      (r.place b).next c = none ∧ r.place b = .code 0 ∧ isOperandChar c = false := by
  simp only [isMark, isOpening, isClosing, Bool.or_eq_false_iff, decide_eq_false_iff_not] at hm
  cases hs : substituted r.frames with
  | true => simp [place, hs, hl, Place.next, hb, hm]
  | false =>
    have hplace : r.place b = .code (b + depth r.frames) := by simp [place, hs, hl]
    rw [hplace]
    generalize b + depth r.frames = d
    by_cases hd : 0 < d ∨ isOperandChar c = true
    · left
      simp [Place.next, isQuoteMark, isOpening, isClosing, hm, hq, hd]
    · right
      rw [not_or] at hd
      have hzero : d = 0 := by omega
      simp [Place.next, isQuoteMark, isOpening, isClosing, hm, hq, hzero, hd.2]

theorem opener?_cases {f : Frame} (h : opener? c = some f) : isOpening c = true ∧ f ≠ .substitution := by
  unfold opener? at h
  repeat' split at h
  all_goals first | cases h; done | next hc => subst hc; cases h; exact ⟨by decide, by decide⟩

theorem unnested_leave (hu : r.Unnested) (hl : r.literal? = none) (h : r.leave c = .ok r') : r'.Unnested := by
  obtain ⟨f, link?, frames, hframes, hr⟩ := leave_cases h
  obtain ⟨hinside, hsingle⟩ := hu
  rw [hframes] at hinside hsingle
  rcases hr with ⟨-, rfl⟩ | ⟨hf, -, rfl⟩
  · refine ⟨fun hs => ?_, hsingle.2⟩
    exact ⟨(hinside (by rw [substituted_cons, show substituted frames = true from hs, Bool.or_true])).1, .inl hl⟩
  · refine ⟨fun hs => ?_, hsingle.2⟩
    rw [hsingle.1 hf] at hs
    cases hs

theorem Step.unnested (hu : r.Unnested) (h : Step strict r c r') : r'.Unnested := by
  cases h with
  | note hl hp =>
    rcases note_cases r c with h | ⟨pending, h⟩ <;> rw [h]
    · exact ⟨hu.inside, hu.single⟩
    · exact ⟨hu.inside, hu.single⟩
  | string => exact ⟨fun hs => ⟨(hu.inside hs).1, .inr (.inl rfl)⟩, hu.single⟩
  | template _ _ ht =>
    refine ⟨fun hs => ?_, hu.single⟩
    have := (hu.inside hs).1
    rw [ht] at this
    cases this
  | enter hl hp hc =>
    have hne := (opener?_cases hc).2
    refine ⟨fun hs => ?_, fun h => absurd h hne, hu.single⟩
    rw [Reading.enter, substituted_cons, decide_eq_false hne, Bool.false_or] at hs
    exact hu.inside hs
  | leave hl hp hc h => exact unnested_leave hu hl h
  | complete hl hp h =>
    obtain ⟨link', rfl⟩ := complete_cases h
    exact ⟨hu.inside, hu.single⟩
  | close hl hp hc h h' =>
    obtain ⟨link', rfl⟩ := complete_cases h
    exact unnested_leave (r := { r with pending := .none, link? := link' }) ⟨hu.inside, hu.single⟩ hl h'
  | extend hl hp hc hb h =>
    obtain ⟨⟨pending, rfl⟩, -⟩ := extend_cases h
    exact ⟨hu.inside, hu.single⟩
  | literal hl hbreak htick =>
    rename_i l
    rcases follow_cases r c l with ⟨literal?, h⟩ | ⟨rfl, rfl, h⟩
    · have hliteral : literal? = (Scan.nextInLiteral [] c l).literal? := (congrArg Reading.literal? h).symm
      rw [h]
      refine ⟨fun hs => ⟨(hu.inside hs).1, ?_⟩, hu.single⟩
      rcases (hu.inside hs).2 with h | h | h <;> rw [hl] at h <;> cases h
      · simp only [hliteral, Scan.nextInLiteral]
        repeat' split
        all_goals simp
      · exact .inr (.inl hliteral)
    · rw [h]
      have hs : substituted r.frames = false := by
        cases hs : substituted r.frames with
        | false => rfl
        | true =>
          have := (hu.inside hs).2
          simp [hl] at this
      exact ⟨fun _ => ⟨rfl, .inl rfl⟩, fun _ => hs, hu.single⟩

theorem place_leave (b : Nat) (hu : r.Unnested) (hl : r.literal? = none) (hc : isClosing c = true)
    (h : r.leave c = .ok r') : (r.place b).next c = some (r'.place b) := by
  obtain ⟨f, link?, frames, hframes, hr⟩ := leave_cases h
  have hsingle := hu.single
  rw [hframes] at hsingle
  have hnot : isQuoteMark c = false ∧ isOpening c = false ∧ c ≠ '\x5c' ∧ c ≠ '\x60' := by
    simp only [isClosing, Bool.or_eq_true, decide_eq_true_eq] at hc
    rcases hc with (rfl | rfl) | rfl <;> decide
  rcases hr with ⟨hf, rfl⟩ | ⟨hf, -, rfl⟩
  · cases hs : substituted frames with
    | true => simp [place, hframes, substituted_cons, hs, hl, depth, Place.next, hnot]
    | false =>
      have : b + (depth frames + 1) - 1 = b + depth frames := by omega
      simp [place, hframes, substituted_cons, hs, hl, depth, Place.next, hnot, hf, hc, this]
  · simp [place, hframes, substituted_cons, hl, depth, Place.next, hnot, hf, hsingle.1 hf]

theorem place_literal (b : Nat) (hu : r.Unnested) {l : Scan.Literal} (hl : r.literal? = some l)
    (htick : c = '\x60' → r.ticks = true) :
    (r.place b).next c = some ((r.follow (Scan.nextInLiteral [] c l)).place b) := by
  cases hs : substituted r.frames with
  | true =>
    -- only strings are read inside a substitution, and without backticks
    have hc : c ≠ '\x60' := fun hc => by
      have := (hu.inside hs).1
      rw [htick hc] at this
      cases this
    rcases (hu.inside hs).2 with h | h | h <;> rw [hl] at h <;> cases h
    · by_cases hquote : c = '\x22'
      · subst hquote
        simp [place, follow, hs, hl, Place.next, Scan.nextInLiteral]
      by_cases hescape : c = '\x5c'
      · subst hescape
        simp [place, follow, hs, hl, Place.next, Scan.nextInLiteral]
      simp [place, follow, hs, hl, Place.next, Scan.nextInLiteral, hc, hquote, hescape]
    · simp [place, follow, hs, hl, Place.next, Scan.nextInLiteral]
  | false =>
    cases l with
    | stringEscape => simp [place, follow, hs, hl, Place.next, Scan.nextInLiteral]
    | templateEscape => simp [place, follow, hs, hl, Place.next, Scan.nextInLiteral]
    | string =>
      by_cases hquote : c = '\x22'
      · subst hquote
        simp [place, follow, hs, hl, Place.next, Scan.nextInLiteral]
      by_cases hescape : c = '\x5c'
      · subst hescape
        simp [place, follow, hs, hl, Place.next, Scan.nextInLiteral]
      simp [place, follow, hs, hl, Place.next, Scan.nextInLiteral, hquote, hescape]
    | template | templateDollar =>
      by_cases htick : c = '\x60'
      · subst htick
        simp [place, follow, hs, hl, Place.next, Scan.nextInLiteral, Scan.nextInTemplate]
      by_cases hescape : c = '\x5c'
      · subst hescape
        simp [place, follow, hs, hl, Place.next, Scan.nextInLiteral, Scan.nextInTemplate]
      by_cases hdollar : c = '$'
      · subst hdollar
        simp [place, follow, hs, hl, Place.next, Scan.nextInLiteral, Scan.nextInTemplate]
      by_cases hbrace : c = '\x7b'
      · subst hbrace
        simp [place, follow, hs, hl, substituted_cons, depth, Place.next, Scan.nextInLiteral, Scan.nextInTemplate]
      simp [place, follow, hs, hl, Place.next, Scan.nextInLiteral, Scan.nextInTemplate, htick, hescape, hdollar, hbrace]

/-- The operand scan goes along with the reader, or ends outside of all brackets. -/
theorem Step.place_next (b : Nat) (hu : r.Unnested) (h : Step strict r c r') :
    (r.place b).next c = some (r'.place b) ∨
      (r.place b).next c = none ∧ r.place b = .code 0 ∧ isOperandChar c = false := by
  cases h with
  | note hl hp hm hq hb =>
    have hplace : (r.note c).place b = r.place b := by
      rcases note_cases r c with h | ⟨pending, h⟩ <;> rw [h] <;> rfl
    rw [hplace]
    exact place_quiet b hl hm hq hb
  | string hl hp =>
    left
    cases hs : substituted r.frames with
    | true => simp [place, hs, hl, Place.next]
    | false => simp [place, hs, hl, Place.next, isQuoteMark]
  | template hl hp ht =>
    left
    cases hs : substituted r.frames with
    | true =>
      have := (hu.inside hs).1
      rw [ht] at this
      cases this
    | false => simp [place, hs, hl, Place.next, isQuoteMark]
  | enter hl hp hc =>
    left
    obtain ⟨hopen, hf⟩ := opener?_cases hc
    have hnot : isQuoteMark c = false ∧ c ≠ '\x5c' ∧ c ≠ '\x60' := by
      simp only [isOpening, Bool.or_eq_true, decide_eq_true_eq] at hopen
      rcases hopen with (rfl | rfl) | rfl <;> decide
    cases hs : substituted r.frames with
    | true => simp [place, Reading.enter, substituted_cons, hs, hl, depth, Place.next, hnot]
    | false => simp [place, Reading.enter, substituted_cons, hs, hl, hf, depth, Place.next, hnot, hopen, Nat.add_assoc]
  | leave hl hp hc h => exact .inl (place_leave b hu hl hc h)
  | complete hl hp h =>
    obtain ⟨link', rfl⟩ := complete_cases h
    exact place_quiet b hl (by decide) (by decide) (by decide)
  | close hl hp hc h h' =>
    obtain ⟨link', rfl⟩ := complete_cases h
    exact .inl (place_leave (r := { r with pending := .none, link? := link' }) b ⟨hu.inside, hu.single⟩ hl hc h')
  | extend hl hp hc hb h =>
    obtain ⟨⟨pending, rfl⟩, hc⟩ := extend_cases h
    have hquiet : ['?', '.', '=', '&', '|'].all (fun c => !isMark c && c ≠ '\x27' && c ≠ '\x5c') = true := by decide
    have hsign := List.all_eq_true.mp hquiet c hc
    simp only [Bool.and_eq_true, Bool.not_eq_true', decide_eq_true_eq] at hsign
    exact place_quiet b hl hsign.1.1 hsign.1.2 hsign.2
  | literal hl hbreak htick =>
    rename_i l
    exact .inl (place_literal b hu hl htick)

theorem place_ne_code_zero (r : Reading) {b : Nat} (hb : b ≠ 0) : r.place b ≠ .code 0 := by
  unfold place
  dsimp only
  repeat' split
  all_goals simp [hb]

/-- The operand scan along a whole text, from inside of brackets or where it gets through. -/
theorem run_place {b : Nat} {cs : List Char} (hu : r.Unnested) (h : r.run strict cs = .ok r')
    (hb : b ≠ 0 ∨ (cs.foldlM Place.next (r.place b)).isSome = true) :
    cs.foldlM Place.next (r.place b) = some (r'.place b) := by
  induction cs generalizing r with
  | nil => cases h; rfl
  | cons c cs ih =>
    obtain ⟨r'', hn, hrest⟩ := run_cons_eq_ok h
    have hstep := step_of_next hn
    rw [List.foldlM_cons] at hb ⊢
    rcases hstep.place_next b hu with hnext | ⟨hnone, hzero, -⟩
    · rw [hnext] at hb ⊢
      exact ih (hstep.unnested hu) hrest hb
    · rw [hnone] at hb
      rcases hb with hb | hb
      · exact absurd hzero (place_ne_code_zero r hb)
      · cases hb

/-! ## A text on another level -/

/-- The chain and the brackets of two readers, of which the second stands on a level that is
    joined by `base`, inside the brackets `fs`, and the first does not. -/
inductive Stacked (base : Option Joiner) (fs : List (Frame × Option Joiner)) :
    Option Joiner → List (Frame × Option Joiner) → Option Joiner → List (Frame × Option Joiner) → Prop
  | ground (link? : Option Joiner) : Stacked base fs link? [] base fs
  | frame {link? link' : Option Joiner} {gs hs : List (Frame × Option Joiner)} (f : Frame) (inner? : Option Joiner) :
      Stacked base fs link? gs link' hs → Stacked base fs inner? ((f, link?) :: gs) inner? ((f, link') :: hs)

/-- The second reader is at the same place of the text as the first, on another level. -/
structure Above (base : Option Joiner) (fs : List (Frame × Option Joiner)) (r q : Reading) : Prop where
  literal : q.literal? = r.literal?
  pending : q.pending = r.pending
  ticks : q.ticks = r.ticks
  stacked : Stacked base fs r.link? r.frames q.link? q.frames

variable {base : Option Joiner} {fs : List (Frame × Option Joiner)} {q : Reading}

/-- Outside of all brackets, an operand has no signs that break a chain. -/
theorem note_of_isOperandChar (r : Reading) (h : isOperandChar c = true) :
    r.note c = if c = '?' then { r with pending := .question } else r := by
  have hc : ∀ d, isOperandChar d = false → c ≠ d := by
    rintro d hd rfl
    rw [h] at hd
    cases hd
  simp [note, hc ',' (by decide +kernel), hc ';' (by decide +kernel), hc ':' (by decide +kernel),
    hc '&' (by decide +kernel), hc '|' (by decide +kernel)]

theorem Above.leave (ha : Above base fs r q) (h : r.leave c = .ok r') :
    ∃ q', q.leave c = .ok q' ∧ Above base fs r' q' := by
  obtain ⟨literal?, pending, ticks, link?, frames⟩ := r
  obtain ⟨_, _, _, qlink?, qframes⟩ := q
  obtain ⟨hl, hp, ht, hstacked⟩ := ha
  cases hl; cases hp; cases ht
  cases hstacked with
  | ground => cases h
  | frame f inner? hrest =>
    simp only [Reading.leave] at h ⊢
    split at h
    · next hsub => cases h; exact ⟨_, if_pos hsub, rfl, rfl, rfl, hrest⟩
    · next hsub =>
      split at h
      · next hcloser => cases h; exact ⟨_, (if_neg hsub).trans (if_pos hcloser), rfl, rfl, rfl, hrest⟩
      · cases h

theorem Above.complete (ha : Above base fs r q) (hframes : r.frames ≠ []) (h : r.complete strict = .ok r') :
    ∃ q', q.complete strict = .ok q' ∧ Above base fs r' q' := by
  obtain ⟨literal?, pending, ticks, link?, frames⟩ := r
  obtain ⟨_, _, _, qlink?, qframes⟩ := q
  obtain ⟨hl, hp, ht, hstacked⟩ := ha
  cases hl; cases hp; cases ht
  cases hstacked with
  | ground => exact absurd rfl hframes
  | frame f inner? hrest =>
    rename_i outer? outer' gs hs
    have hjoin : ∀ a, join strict a ⟨literal?, pending, ticks, link?, (f, outer?) :: gs⟩ = .ok r' →
        ∃ q', join strict a ⟨literal?, pending, ticks, link?, (f, outer') :: hs⟩ = .ok q' ∧ Above base fs r' q' := by
      intro a h
      unfold join at h ⊢
      cases hj : joined strict a link? with
      | error e => rw [hj] at h; cases h
      | ok link' => rw [hj] at h; cases h; exact ⟨_, rfl, rfl, rfl, rfl, .frame f link' hrest⟩
    cases pending with
    | none | ampersand | bar | question => cases h; exact ⟨_, rfl, rfl, rfl, rfl, .frame f _ hrest⟩
    | questions | doubled => exact hjoin _ h

theorem Above.note (ha : Above base fs r q) (hc : r.frames = [] → isOperandChar c = true) :
    Above base fs (r.note c) (q.note c) := by
  obtain ⟨literal?, pending, ticks, link?, frames⟩ := r
  obtain ⟨_, _, _, qlink?, qframes⟩ := q
  obtain ⟨hl, hp, ht, hstacked⟩ := ha
  cases hl; cases hp; cases ht
  cases hstacked with
  | ground =>
    rw [note_of_isOperandChar _ (hc rfl), note_of_isOperandChar _ (hc rfl)]
    split <;> exact ⟨rfl, rfl, rfl, .ground link?⟩
  | frame f inner? hrest =>
    unfold Reading.note
    repeat' split
    all_goals exact ⟨rfl, rfl, rfl, .frame f _ hrest⟩

/-- On another level a step of an operand is the same, for an operand has no operators outside
    of its brackets. -/
theorem Step.above (h : Step strict r c r') (ha : Above base fs r q) (hp : (r.place 0).next c ≠ none) :
    ∃ q', Step strict q c q' ∧ Above base fs r' q' := by
  have hl : q.literal? = r.literal? := ha.literal
  have hpending : q.pending = r.pending := ha.pending
  have hground : r.literal? = none → r.frames = [] → r.place 0 = .code 0 := by
    intro hnone hframes
    simp [place, hnone, hframes, substituted, depth]
  cases h with
  | note hnone hrest hm hq hb =>
    refine ⟨q.note c, .note (hl.trans hnone) (hpending.trans hrest) hm hq hb, ha.note fun hframes => ?_⟩
    rcases place_quiet 0 hnone hm hq hb with h | ⟨h, -⟩
    · rw [hground hnone hframes] at h
      simp only [isMark, isOpening, isClosing, Bool.or_eq_false_iff, decide_eq_false_iff_not] at hm
      simpa [Place.next, isQuoteMark, isOpening, isClosing, hm, hq] using h
    · exact absurd h hp
  | string hnone hrest =>
    exact ⟨_, .string (hl.trans hnone) (hpending.trans hrest), rfl, hpending, ha.ticks, ha.stacked⟩
  | template hnone hrest ht =>
    exact ⟨_, .template (hl.trans hnone) (hpending.trans hrest) (ha.ticks.trans ht), rfl, hpending, ha.ticks,
      ha.stacked⟩
  | enter hnone hrest hc =>
    exact ⟨_, .enter (hl.trans hnone) (hpending.trans hrest) hc, hl, hpending, ha.ticks, .frame _ none ha.stacked⟩
  | leave hnone hrest hc h =>
    obtain ⟨q', h', ha'⟩ := ha.leave h
    exact ⟨q', .leave (hl.trans hnone) (hpending.trans hrest) hc h', ha'⟩
  | complete hnone hrest h =>
    have hframes : r.frames ≠ [] := by
      intro hframes
      rw [hground hnone hframes] at hp
      exact hp (by decide +kernel)
    obtain ⟨q', h', ha'⟩ := ha.complete hframes h
    exact ⟨q', .complete (hl.trans hnone) (hpending ▸ hrest) h', ha'⟩
  | close hnone hrest hc h h' =>
    have hframes : r.frames ≠ [] := by
      intro hframes
      obtain ⟨link', rfl⟩ := complete_cases h
      simp only [Reading.leave, hframes] at h'
      cases h'
    obtain ⟨q', hcomplete, ha'⟩ := ha.complete hframes h
    obtain ⟨q'', hleave, ha''⟩ := ha'.leave h'
    exact ⟨q'', .close (hl.trans hnone) (hpending ▸ hrest) hc hcomplete hleave, ha''⟩
  | extend hnone hrest hc hb h =>
    have hsame := extend_of_pending hpending h
    obtain ⟨⟨pending, rfl⟩, -⟩ := extend_cases h
    exact ⟨_, .extend (hl.trans hnone) (hpending ▸ hrest) hc hb hsame, hl, rfl, ha.ticks, ha.stacked⟩
  | literal hsome hbreak htick =>
    rename_i l
    refine ⟨_, .literal (hl.trans hsome) hbreak fun hc => ha.ticks.trans (htick hc), rfl, hpending, ?_, ?_⟩
    · simp only [follow, ha.ticks]
    · rcases nextInLiteral_frames c l with h | h <;> simp only [follow, h]
      · exact ha.stacked
      · exact .frame _ none ha.stacked

theorem run_above {cs : List Char} (hu : r.Unnested) (ha : Above base fs r q) (h : r.run strict cs = .ok r')
    (hp : (cs.foldlM Place.next (r.place 0)).isSome = true) : ∃ q', q.run strict cs = .ok q' ∧ Above base fs r' q' := by
  induction cs generalizing r q with
  | nil => cases h; exact ⟨q, rfl, ha⟩
  | cons c cs ih =>
    obtain ⟨r'', hn, hrest⟩ := run_cons_eq_ok h
    have hstep := step_of_next hn
    have hnext : (r.place 0).next c = some (r''.place 0) := by
      rcases hstep.place_next 0 hu with hnext | ⟨hnone, -⟩
      · exact hnext
      · rw [List.foldlM_cons, hnone] at hp
        cases hp
    obtain ⟨q'', hstep', ha'⟩ := hstep.above ha (by rw [hnext]; nofun)
    rw [List.foldlM_cons, hnext] at hp
    obtain ⟨q', hrun, hdone⟩ := ih (hstep.unnested hu) ha' hrest hp
    exact ⟨q', (run_cons_of (next_of_step hstep') cs).trans hrun, hdone⟩

end Reading

end ComponentScript.Script
