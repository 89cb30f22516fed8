/-
  ComponentScript.Proofs.Script.Scan — script text read for its literals and brackets.

  The scan goes through a text character by character. In code it opens and closes brackets
  and starts literals: strings between double quotes and templates between backticks. A
  backslash in a literal takes the next character with it. A dollar sign and a brace in a
  template open a substitution, which is code again, up to the brace that closes it. The
  scan fails at a closing bracket without its partner and at a line break inside a literal.

  A text is closed when its scan ends in code with nothing open.
  - `Closed.anywhere`: a closed text leaves the scan where it was, whatever is open around it.
  - `Leads`: where a text leads the scan; formats are followed piece by piece, each literal
    piece by computation and each hole by the text in it being closed.
  - `closed_quote`, `closed_template`: the literals that the script writes are closed.
  - `closed_indentLines`, `closed_block`: layout keeps texts closed.
  - `literals_block`: a closed text has the same literals inside a block.
-/

import ComponentScript.Script.Layout
import ComponentScript.Script.Operand
import ComponentScript.Script.Quoted
import ComponentScript.Script.Template
import ComponentScript.Text.Blank

namespace ComponentScript.Script

open Text

/-! ## The scan -/

/-- An open bracket of code; a substitution is opened inside a template. -/
inductive Frame where
  | paren | bracket | brace | substitution
  deriving DecidableEq

/-- What a literal is being read as: a string or a template, and whether the character before
    was a backslash or, in a template, a dollar sign. -/
inductive Scan.Literal where
  | string | stringEscape
  | template | templateDollar | templateEscape
  deriving DecidableEq

/-- Where the scan is: in a literal or, without one, in code; with the open brackets, the
    innermost first. -/
structure Scan where
  literal? : Option Scan.Literal := none
  frames : List Frame := []
  deriving DecidableEq

namespace Scan

/-- In code, inside the given brackets. -/
abbrev code (fs : List Frame) : Scan := ⟨none, fs⟩

/-- One character of code. -/
def nextInCode (fs : List Frame) (c : Char) : Option Scan :=
  if c = '\x22' then some ⟨some .string, fs⟩
  else if c = '\x60' then some ⟨some .template, fs⟩
  else if c = '(' then some (code (.paren :: fs))
  else if c = '[' then some (code (.bracket :: fs))
  else if c = '\x7b' then some (code (.brace :: fs))
  else if c = ')' then
    match fs with
    | .paren :: rest => some (code rest)
    | _ => none
  else if c = ']' then
    match fs with
    | .bracket :: rest => some (code rest)
    | _ => none
  else if c = '\x7d' then
    match fs with
    | .brace :: rest => some (code rest)
    | .substitution :: rest => some ⟨some .template, rest⟩
    | _ => none
  else some (code fs)

/-- One character of a template that stands for itself or ends the template; `opened` is
    where a brace leads. -/
def nextInTemplate (fs : List Frame) (opened : Scan) (c : Char) : Scan :=
  if c = '\x60' then code fs
  else if c = '\x5c' then ⟨some .templateEscape, fs⟩
  else if c = '$' then ⟨some .templateDollar, fs⟩
  else if c = '\x7b' then opened
  else ⟨some .template, fs⟩

/-- One character of a literal, other than a line break. -/
def nextInLiteral (fs : List Frame) (c : Char) : Literal → Scan
  | .string =>
    if c = '\x22' then code fs
    else if c = '\x5c' then ⟨some .stringEscape, fs⟩
    else ⟨some .string, fs⟩
  | .stringEscape => ⟨some .string, fs⟩
  | .template => nextInTemplate fs ⟨some .template, fs⟩ c
  | .templateDollar => nextInTemplate fs (code (.substitution :: fs)) c
  | .templateEscape => ⟨some .template, fs⟩

def isLineBreak (c : Char) : Bool := c = '\n' || c = '\r'

/-- The place after one more character, if the text can go on with it. -/
def next (s : Scan) (c : Char) : Option Scan :=
  match s.literal? with
  | none => nextInCode s.frames c
  | some l => if isLineBreak c then none else some (nextInLiteral s.frames c l)

/-- The place after the characters. -/
def run (s : Scan) (cs : List Char) : Option Scan := cs.foldlM next s

/-- The characters that belong to literals, with quotes, backticks and the marks of
    substitutions: the scan is in a literal before them or after them. -/
def literals (s : Scan) : List Char → List Char
  | [] => []
  | c :: cs =>
    match s.next c with
    | none => []
    | some t =>
      if s.literal?.isSome || t.literal?.isSome then c :: t.literals cs else t.literals cs

@[simp] theorem run_nil (s : Scan) : s.run [] = some s := rfl

theorem run_cons (s : Scan) (c : Char) (cs : List Char) :
    s.run (c :: cs) = (s.next c).bind fun t => t.run cs := rfl

theorem run_append (s : Scan) (cs ds : List Char) :
    s.run (cs ++ ds) = (s.run cs).bind fun t => t.run ds := List.foldlM_append

theorem run_append_of {s t : Scan} {cs : List Char} (h : s.run cs = some t) (ds : List Char) :
    s.run (cs ++ ds) = t.run ds := by
  rw [run_append, h, Option.bind_some]

theorem literals_append_of {s t : Scan} {cs : List Char} (h : s.run cs = some t) (ds : List Char) :
    s.literals (cs ++ ds) = s.literals cs ++ t.literals ds := by
  induction cs generalizing s with
  | nil => cases h; rfl
  | cons c cs ih =>
    rw [run_cons] at h
    cases hn : s.next c with
    | none => rw [hn] at h; cases h
    | some u =>
      rw [hn, Option.bind_some] at h
      simp only [List.cons_append, literals, hn, ih h]
      split <;> simp

/-! ## More brackets around -/

/-- The same place inside more open brackets. -/
def inside (base : List Frame) (s : Scan) : Scan := ⟨s.literal?, s.frames ++ base⟩

theorem nextInCode_inside {fs : List Frame} {c : Char} {t : Scan} (h : nextInCode fs c = some t)
    (base : List Frame) : nextInCode (fs ++ base) c = some (t.inside base) := by
  unfold nextInCode at h ⊢
  repeat' split at h
  all_goals simp_all [inside]
  all_goals subst h; simp

theorem nextInLiteral_inside (fs base : List Frame) (c : Char) (l : Literal) :
    nextInLiteral (fs ++ base) c l = (nextInLiteral fs c l).inside base := by
  cases l <;> simp only [nextInLiteral, nextInTemplate] <;> repeat' split
  all_goals rfl

theorem next_inside {s t : Scan} {c : Char} (h : s.next c = some t) (base : List Frame) :
    (s.inside base).next c = some (t.inside base) := by
  obtain ⟨literal?, fs⟩ := s
  cases literal? with
  | none => exact nextInCode_inside h base
  | some l =>
    simp only [next, inside] at h ⊢
    split at h
    · cases h
    · next hb =>
      cases h
      rw [if_neg hb, nextInLiteral_inside]
      rfl

theorem run_inside {s t : Scan} {cs : List Char} (h : s.run cs = some t) (base : List Frame) :
    (s.inside base).run cs = some (t.inside base) ∧ (s.inside base).literals cs = s.literals cs := by
  induction cs generalizing s with
  | nil => cases h; exact ⟨rfl, rfl⟩
  | cons c cs ih =>
    rw [run_cons] at h
    cases hn : s.next c with
    | none => rw [hn] at h; cases h
    | some u =>
      rw [hn, Option.bind_some] at h
      obtain ⟨hrun, hlit⟩ := ih h
      constructor
      · rw [run_cons, next_inside hn, Option.bind_some, hrun]
      · simp only [literals, next_inside hn, hn, hlit]
        rfl

end Scan

/-! ## Closed texts -/

/-- The text takes the scan from `s` to `s'`. -/
def Leads (s : Scan) (t : String) (s' : Scan) : Prop := s.run t.toList = some s'

/-- The scan of the text ends in code with nothing open. -/
def Closed (t : String) : Prop := Leads (.code []) t (.code [])

instance : DecidablePred Closed := fun _ => inferInstanceAs (Decidable (_ = _))

theorem Closed.anywhere {t : String} (h : Closed t) (fs : List Frame) : Leads (.code fs) t (.code fs) :=
  (Scan.run_inside h fs).1

namespace Leads

variable {s s' s'' : Scan} {t u : String} {fs : List Frame}

theorem append (h : Leads s t s') (h' : Leads s' u s'') : Leads s (t ++ u) s'' := by
  rw [Leads, String.toList_append, Scan.run_append_of h]
  exact h'

/-- A format that begins with a piece of its own. -/
theorem start (h : s.run t.toList = some s') : Leads s t s' := h

/-- A format that begins with a hole. -/
theorem first (h : Closed t) : Leads (.code fs) t (.code fs) := h.anywhere fs

/-- The next piece of a format. -/
theorem lit (h : Leads s t s') (h' : s'.run u.toList = some s'') : Leads s (t ++ u) s'' :=
  h.append h'

/-- The next hole of a format. -/
theorem hole (h : Leads s t (.code fs)) (hu : Closed u) : Leads s (t ++ u) (.code fs) :=
  h.append (hu.anywhere fs)

end Leads

theorem Closed.append {t u : String} (ht : Closed t) (hu : Closed u) : Closed (t ++ u) :=
  Leads.append ht hu

theorem closed_ite {p : Prop} [Decidable p] {t u : String} (ht : Closed t) (hu : Closed u) :
    Closed (if p then t else u) := by
  split
  · exact ht
  · exact hu

theorem closed_getD {t? : Option String} {u : String} (ht : ∀ t ∈ t?, Closed t) (hu : Closed u) :
    Closed (t?.getD u) := by
  cases t? with
  | none => exact hu
  | some t => exact ht t rfl

theorem closed_intercalate {sep : String} (hsep : Closed sep) {ts : List String}
    (h : ∀ t ∈ ts, Closed t) : Closed (sep.intercalate ts) := by
  induction ts with
  | nil => exact rfl
  | cons t ts ih =>
    have ht : Closed t := h t (List.mem_cons_self ..)
    cases ts with
    | nil => simpa using ht
    | cons u us =>
      rw [String.intercalate_cons_cons]
      exact (ht.append hsep).append (ih fun v hv => h v (List.mem_cons_of_mem _ hv))

theorem closed_commaList {ts : List String} (h : ∀ t ∈ ts, Closed t) : Closed (commaList ts) :=
  closed_intercalate (by decide) h

theorem closed_joinLines {ts : List String} (h : ∀ t ∈ ts, Closed t) : Closed (joinLines ts) :=
  closed_intercalate (by decide) h

theorem closed_operand {t : String} (h : Closed t) : Closed (operand t) := by
  unfold operand
  split
  · exact h
  · exact (Leads.start rfl).hole h |>.lit rfl

/-! ## Texts without quotes and brackets -/

/-- A character that starts or ends a literal, or opens or closes a bracket. -/
def isMark (c : Char) : Bool := c = '\x22' || c = '\x60' || isOpening c || isClosing c

/-- The text has no quotes, backticks and brackets, as names and numbers do. -/
def Markless (t : String) : Prop := ∀ c ∈ t.toList, isMark c = false

instance : DecidablePred Markless := fun t => List.decidableBAll (isMark · = false) t.toList

namespace Scan

theorem nextInCode_of_isMark {c : Char} (h : isMark c = false) (fs : List Frame) :
    nextInCode fs c = some (code fs) := by
  simp only [isMark, isOpening, isClosing, Bool.or_eq_false_iff, decide_eq_false_iff_not] at h
  simp [nextInCode, h]

theorem run_markless {cs : List Char} (h : ∀ c ∈ cs, isMark c = false) (fs : List Frame) :
    (code fs).run cs = some (code fs) ∧ (code fs).literals cs = [] := by
  induction cs with
  | nil => exact ⟨rfl, rfl⟩
  | cons c cs ih =>
    have hn : (code fs).next c = some (code fs) := nextInCode_of_isMark (h c (List.mem_cons_self ..)) fs
    obtain ⟨hrun, hlit⟩ := ih fun d hd => h d (List.mem_cons_of_mem _ hd)
    constructor
    · rw [run_cons, hn, Option.bind_some, hrun]
    · simp [literals, hn, hlit]

end Scan

theorem Markless.closed {t : String} (h : Markless t) : Closed t := (Scan.run_markless h []).1

/-! ## Literals -/

/-- Whether the last character is a dollar sign; without any characters, as `b` says. -/
def endsInDollar (b : Bool) (cs : List Char) : Bool := cs.foldl (fun _ c => c = '$') b

theorem endsInDollar_cons (b : Bool) (c : Char) (cs : List Char) :
    endsInDollar b (c :: cs) = endsInDollar (c = '$') cs := rfl

theorem endsInDollar_eq (b : Bool) (cs : List Char) :
    endsInDollar b cs = cs.getLast?.elim b fun c => c = '$' := by
  induction cs generalizing b with
  | nil => rfl
  | cons c cs ih =>
    rw [endsInDollar_cons, ih, List.getLast?_cons]
    cases cs.getLast? <;> rfl

namespace Scan

theorem run_escapeChar (c : Char) (fs : List Frame) :
    (Scan.mk (some .string) fs).run (escapeChar c) = some ⟨some .string, fs⟩ := by
  unfold escapeChar
  repeat' split
  all_goals first | rfl | simp_all [run, next, nextInLiteral, isLineBreak]

theorem run_escape (cs : List Char) (fs : List Frame) :
    (Scan.mk (some .string) fs).run (cs.flatMap escapeChar) = some ⟨some .string, fs⟩ := by
  induction cs with
  | nil => rfl
  | cons c cs ih => rw [List.flatMap_cons, run_append_of (run_escapeChar c fs), ih]

/-- In a template, outside of its substitutions and not behind a backslash; behind a dollar
    sign only if `b` holds. -/
def InTemplate (fs : List Frame) (b : Bool) (s : Scan) : Prop :=
  s = ⟨some .template, fs⟩ ∨ b = true ∧ s = ⟨some .templateDollar, fs⟩

theorem run_templateChar {fs : List Frame} {b : Bool} {s : Scan} (hs : InTemplate fs b s) {c : Char} (hc : c ≠ '$')
    (hbrace : b = true → c ≠ '\x7b') : s.run (templateChar c) = some ⟨some .template, fs⟩ := by
  unfold templateChar
  rcases hs with rfl | ⟨hb, rfl⟩
  · repeat' split
    all_goals first | rfl | simp_all [run, next, nextInLiteral, nextInTemplate, isLineBreak]
  · have hne : c ≠ '\x7b' := hbrace hb
    repeat' split
    all_goals first | rfl | simp_all [run, next, nextInLiteral, nextInTemplate, isLineBreak]

/-- Text of a template stays in it. Behind a dollar sign it must not begin with a brace. -/
theorem run_templateChars {fs : List Frame} {b : Bool} (cs : List Char) {s : Scan} (hs : InTemplate fs b s)
    (hbrace : b = true → cs.head? ≠ some '\x7b') :
    ∃ s', InTemplate fs (endsInDollar b cs) s' ∧ s.run (templateChars cs) = some s' := by
  fun_induction templateChars cs generalizing b s with
  | case1 => exact ⟨s, hs, rfl⟩
  | case2 rest ih =>
    have hopen : s.run ['\x5c', '$', '\x7b'] = some ⟨some .template, fs⟩ := by
      rcases hs with rfl | ⟨-, rfl⟩ <;> rfl
    obtain ⟨s', hs', hrun⟩ := ih (b := false) (s := ⟨some .template, fs⟩) (.inl rfl) nofun
    exact ⟨s', hs', (run_append_of hopen _).trans hrun⟩
  | case3 c rest hrest ih =>
    by_cases hc : c = '$'
    · subst hc
      have hdollar : s.run (templateChar '$') = some ⟨some .templateDollar, fs⟩ := by
        rcases hs with rfl | ⟨-, rfl⟩ <;> rfl
      obtain ⟨s', hs', hrun⟩ := ih (b := true) (s := ⟨some .templateDollar, fs⟩) (.inr ⟨rfl, rfl⟩) fun _ hhead => by
        cases rest with
        | nil => cases hhead
        | cons d ds => cases hhead; exact hrest ds rfl rfl
      exact ⟨s', hs', (run_append_of hdollar _).trans hrun⟩
    · have htext := run_templateChar hs hc fun h heq => hbrace h (congrArg some heq)
      obtain ⟨s', hs', hrun⟩ := ih (b := false) (s := ⟨some .template, fs⟩) (.inl rfl) nofun
      refine ⟨s', ?_, (run_append_of htext _).trans hrun⟩
      rwa [endsInDollar_cons, decide_eq_false hc]

end Scan

theorem closed_quote (s : String) : Closed (quote s) := by
  have h : Leads ⟨some .string, []⟩ (escape s) ⟨some .string, []⟩ := by
    rw [Leads, escape, String.toList_ofList, Scan.run_escape]
  exact ((Leads.start rfl).append h).lit rfl

/-- The pieces of a template. Behind a dollar sign, and at first if `b` holds, no text begins
    with a brace. What is substituted has the property `P`. -/
inductive TemplateBody (P : String → Prop) : Bool → List String → Prop
  | nil {b : Bool} : TemplateBody P b []
  | text (t : String) {b : Bool} {ts : List String} : (b = true → t.toList.head? ≠ some '\x7b') →
      TemplateBody P (endsInDollar b t.toList) ts → TemplateBody P b (escapeTemplate t :: ts)
  | hole {b : Bool} {t : String} {ts : List String} :
      P t → TemplateBody P false ts → TemplateBody P b (substitution t :: ts)

theorem leads_substitution {fs : List Frame} {b : Bool} {s : Scan} (hs : Scan.InTemplate fs b s) {t : String}
    (ht : Closed t) : Leads s (substitution t) ⟨some .template, fs⟩ := by
  rcases hs with rfl | ⟨-, rfl⟩
  · exact (Leads.start rfl).hole ht |>.lit rfl
  · exact (Leads.start rfl).hole ht |>.lit rfl

theorem TemplateBody.leads {b : Bool} {ts : List String} (h : TemplateBody Closed b ts) {fs : List Frame} {s : Scan}
    (hs : Scan.InTemplate fs b s) : ∃ b' s', Scan.InTemplate fs b' s' ∧ Leads s (String.join ts) s' := by
  induction h generalizing s with
  | @nil b => exact ⟨b, s, hs, rfl⟩
  | text t hbrace _ ih =>
    obtain ⟨u, hu, hrun⟩ := Scan.run_templateChars t.toList hs hbrace
    obtain ⟨b', s', hs', hrest⟩ := ih hu
    refine ⟨b', s', hs', ?_⟩
    rw [String.join_cons]
    refine Leads.append ?_ hrest
    rw [Leads, escapeTemplate, String.toList_ofList, hrun]
  | hole ht _ ih =>
    obtain ⟨b', s', hs', hrest⟩ := ih (s := ⟨some .template, fs⟩) (.inl rfl)
    refine ⟨b', s', hs', ?_⟩
    rw [String.join_cons]
    exact (leads_substitution hs ht).append hrest

theorem closed_template {ts : List String} (h : TemplateBody Closed false ts) :
    Closed ("`" ++ String.join ts ++ "`") := by
  obtain ⟨_, s, hs, hbody⟩ := h.leads (s := ⟨some .template, []⟩) (.inl rfl)
  refine ((Leads.start rfl).append hbody).append ?_
  rcases hs with rfl | ⟨-, rfl⟩ <;> rfl

/-! ## Layout -/

namespace Scan

/-- A line that is not empty, behind the indentation. -/
def indented (indent line : List Char) : List Char := if line.isEmpty then [] else indent ++ line

/-- Every line on a line of its own. -/
def below (indent : List Char) (ls : List (List Char)) : List Char :=
  ls.flatMap fun l => '\n' :: indented indent l

/-- The lines with the first one as it is, as it goes on behind other text. -/
def continued (indent : List Char) : List (List Char) → List Char
  | [] => []
  | l :: ls => l ++ below indent ls

theorem continued_consLine (indent : List Char) (c : Char) (ls : List (List Char)) :
    continued indent (consLine c ls) = c :: continued indent ls := by
  cases ls with
  | nil => rfl
  | cons l ls => rfl

/-- Two texts lead the scan alike, with the same literals. -/
def Same (s : Scan) (cs ds : List Char) : Prop := s.run cs = s.run ds ∧ s.literals cs = s.literals ds

theorem Same.refl (s : Scan) (cs : List Char) : s.Same cs cs := ⟨rfl, rfl⟩

theorem Same.trans {s : Scan} {cs ds es : List Char} (h : s.Same cs ds) (h' : s.Same ds es) : s.Same cs es :=
  ⟨h.1.trans h'.1, h.2.trans h'.2⟩

theorem Same.cons {s t : Scan} {c : Char} (hn : s.next c = some t) {cs ds : List Char} (h : t.Same cs ds) :
    s.Same (c :: cs) (c :: ds) :=
  ⟨by rw [run_cons, run_cons, hn, Option.bind_some, Option.bind_some, h.1], by simp only [literals, hn, h.2]⟩

theorem Same.symm {s : Scan} {cs ds : List Char} (h : s.Same cs ds) : s.Same ds cs := ⟨h.1.symm, h.2.symm⟩

/-- Only code goes on with a line break. -/
theorem code_of_run_lineBreak {c : Char} {rest : List Char} {s t : Scan} (hc : isLineBreak c = true)
    (h : s.run (c :: rest) = some t) : ∃ fs, s = code fs := by
  obtain ⟨literal?, fs⟩ := s
  cases literal? with
  | none => exact ⟨fs, rfl⟩
  | some l => simp [run_cons, next, hc] at h

/-- In code, characters that are no marks can be left out. -/
theorem same_markless (cs : List Char) (h : ∀ c ∈ cs, isMark c = false) (fs : List Frame) (ds : List Char) :
    (code fs).Same (cs ++ ds) ds := by
  obtain ⟨hrun, hlit⟩ := run_markless h fs
  exact ⟨run_append_of hrun ds, by rw [literals_append_of hrun, hlit, List.nil_append]⟩

section

variable {indent : List Char} (hi : ∀ c ∈ indent, isMark c = false)

include hi

theorem same_indented (fs : List Frame) (l : List Char) (ds : List Char) :
    (code fs).Same (indented indent l ++ ds) (l ++ ds) := by
  cases l with
  | nil => exact .refl ..
  | cons c cs =>
    have h := same_markless indent hi fs ((c :: cs) ++ ds)
    rwa [← List.append_assoc] at h

/-- In code it makes no difference whether the first line is indented or on a line of its own. -/
theorem same_below (fs : List Frame) (ls : List (List Char)) :
    (code fs).Same (below indent ls) (continued indent ls) := by
  cases ls with
  | nil => exact .refl ..
  | cons l ls =>
    have hbreak := same_markless ['\n'] (List.forall_mem_singleton.mpr rfl) fs (indented indent l ++ below indent ls)
    exact hbreak.trans (same_indented hi fs l _)

/-- Behind a line break in code, the lines are as good as the text they come from. -/
theorem same_below_of_break (brk : List Char) {rest : List Char} (hb : ∀ c ∈ brk, isMark c = false)
    {fs : List Frame} {t : Scan} (h : (code fs).run (brk ++ rest) = some t)
    (ih : (code fs).run rest = some t → (code fs).Same (continued indent (lines rest)) rest) :
    (code fs).Same (below indent (lines rest)) (brk ++ rest) := by
  have hskip := same_markless brk hb fs rest
  have hrest := ih (hskip.1.symm.trans h)
  exact (same_below hi fs _).trans (hrest.trans hskip.symm)

/-- A text that can be scanned is as good as its lines with all but the first indented. -/
theorem same_continued {cs : List Char} {s t : Scan} (h : s.run cs = some t) :
    s.Same (continued indent (lines cs)) cs := by
  fun_induction lines cs generalizing s with
  | case1 => exact .refl ..
  | case2 rest ih =>
    obtain ⟨fs, rfl⟩ := code_of_run_lineBreak rfl h
    have hbreak : ∀ c ∈ ['\r', '\n'], isMark c = false :=
      List.forall_mem_cons.mpr ⟨rfl, List.forall_mem_singleton.mpr rfl⟩
    exact same_below_of_break hi ['\r', '\n'] hbreak h ih
  | case3 rest ih =>
    obtain ⟨fs, rfl⟩ := code_of_run_lineBreak rfl h
    exact same_below_of_break hi ['\n'] (List.forall_mem_singleton.mpr rfl) h ih
  | case4 c rest _ _ ih =>
    rw [continued_consLine]
    obtain ⟨u, hn, hrest⟩ := Option.bind_eq_some_iff.mp h
    exact .cons hn (ih hrest)

end

end Scan

theorem toList_joinLines_cons (t : String) (ts : List String) :
    (joinLines (t :: ts)).toList = t.toList ++ ts.flatMap fun u => '\n' :: u.toList := by
  induction ts generalizing t with
  | nil => simp [joinLines]
  | cons u us ih =>
    have hcons : joinLines (t :: u :: us) = t ++ "\n" ++ joinLines (u :: us) := String.intercalate_cons_cons
    rw [hcons, String.toList_append, String.toList_append, ih]
    simp

theorem toList_indentLines (t indent : String) : (indentLines t indent).toList = match lines t.toList with
    | [] => []
    | l :: ls => Scan.indented indent.toList l ++ Scan.below indent.toList ls := by
  have hindent : ∀ l, (indentLine indent l).toList = Scan.indented indent.toList l := by
    intro l
    unfold indentLine Scan.indented
    split <;> simp
  unfold indentLines
  cases lines t.toList with
  | nil => rfl
  | cons l ls => simp only [List.map_cons, toList_joinLines_cons, hindent, List.flatMap_map, Scan.below]

/-- In code, indenting the lines of a text makes no difference to the scan. -/
theorem same_indentLines {t indent : String} (hi : Markless indent) {fs : List Frame} {s : Scan}
    (h : Leads (.code fs) t s) : (Scan.code fs).Same (indentLines t indent).toList t.toList := by
  refine .trans ?_ (Scan.same_continued hi h)
  rw [toList_indentLines]
  cases lines t.toList with
  | nil => exact .refl ..
  | cons l ls => exact Scan.same_indented hi fs l _

theorem closed_indentLines {t indent : String} (hi : Markless indent) (ht : Closed t) :
    Closed (indentLines t indent) :=
  (same_indentLines hi ht).1.trans ht

theorem closed_block {ts : List String} {indent : String} (hi : Markless indent) (h : ∀ t ∈ ts, Closed t) :
    Closed (block ts indent) := by
  have hbody : Closed (joinLines (ts.filter (· ≠ ""))) :=
    closed_joinLines fun t ht => h t (List.mem_filter.mp ht).1
  refine closed_ite (by decide) ?_
  exact (Leads.start rfl).hole (closed_indentLines hi hbody) |>.lit rfl

/-- A mark is one of eight characters, so what tells them all apart from `c` does so for marks. -/
theorem isMark_eq_false {p : Char → Bool} (hp : "\"`()[]\x7b\x7d".toList.any p = false) {c : Char}
    (h : p c = true) : isMark c = false := by
  cases hm : isMark c with
  | false => rfl
  | true =>
    simp only [isMark, isOpening, isClosing, Bool.or_eq_true, decide_eq_true_eq] at hm
    rcases hm with ((rfl | rfl) | ((rfl | rfl) | rfl)) | ((rfl | rfl) | rfl) <;>
      exact absurd h (List.any_eq_false.mp hp _ (by decide))

namespace Scan

theorem isMark_of_isBlank {c : Char} (h : isBlank c = true) : isMark c = false :=
  isMark_eq_false (by decide) h

/-- Only a mark leads out of a literal. -/
theorem nextInLiteral_isSome {c : Char} (h : isMark c = false) (fs : List Frame) (l : Literal) :
    (nextInLiteral fs c l).literal?.isSome = true := by
  simp only [isMark, isOpening, isClosing, Bool.or_eq_false_iff, decide_eq_false_iff_not] at h
  cases l <;> simp only [nextInLiteral, nextInTemplate, h, if_false] <;> repeat' split
  all_goals rfl

/-- A blank that the scan ends in code with was read in code. -/
theorem eq_of_next_blank {s : Scan} {c : Char} {fs : List Frame} (hc : isBlank c = true)
    (h : s.next c = some (code fs)) : s = code fs := by
  have hm := isMark_of_isBlank hc
  obtain ⟨literal?, gs⟩ := s
  cases literal? with
  | none => exact Option.some.inj ((nextInCode_of_isMark hm gs).symm.trans h)
  | some l =>
    have hl := nextInLiteral_isSome hm gs l
    simp only [next] at h
    split at h
    · cases h
    · rw [Option.some.inj h] at hl
      cases hl

theorem run_trimEnd {s : Scan} {fs : List Frame} (rs : List Char) (h : s.run rs.reverse = some (code fs)) :
    s.run (rs.dropWhile isBlank).reverse = some (code fs) := by
  induction rs with
  | nil => exact h
  | cons c rs ih =>
    by_cases hc : isBlank c = true
    · rw [List.dropWhile_cons_of_pos hc]
      rw [List.reverse_cons, run_append] at h
      obtain ⟨u, hu, hlast⟩ := Option.bind_eq_some_iff.mp h
      rw [run_cons] at hlast
      obtain ⟨v, hv, rfl⟩ : ∃ v, u.next c = some v ∧ v = code fs := by simpa using hlast
      obtain rfl := eq_of_next_blank hc hv
      exact ih hu
    · rw [List.dropWhile_cons_of_neg hc]
      exact h

end Scan

/-- Trailing blanks of a closed text are in code. -/
theorem closed_trimEnd {t : String} (h : Closed t) : Closed (String.ofList (trimEnd t.toList)) := by
  rw [Closed, Leads, String.toList_ofList]
  exact Scan.run_trimEnd _ (by rwa [List.reverse_reverse])

/-! ## Literals inside blocks -/

/-- The literals of a text, one behind the other. -/
def literals (t : String) : List Char := (Scan.code []).literals t.toList

/-- A closed text has the same literals inside a block. -/
theorem literals_block {t indent : String} (hi : Markless indent) (ht : Closed t) :
    literals (block [t] indent) = literals t := by
  by_cases hempty : t = ""
  · subst hempty
    have hblock : block [""] indent = "\x7b\x7d" := by simp [block]
    rw [hblock]
    rfl
  have hblock : block [t] indent = "\x7b\n" ++ indentLines t indent ++ "\n\x7d" := by
    simp [block, hempty, joinLines]
  have hopen : Leads (.code []) "\x7b\n" (.code [.brace]) := rfl
  have hbody : Leads (.code [.brace]) (indentLines t indent) (.code [.brace]) := (closed_indentLines hi ht).anywhere _
  have hopened : (Scan.code []).literals "\x7b\n".toList = [] := rfl
  have hclosed : (Scan.code [.brace]).literals "\n\x7d".toList = [] := rfl
  calc literals (block [t] indent)
      = (Scan.code [.brace]).literals (indentLines t indent).toList := by
        rw [hblock, literals, String.toList_append, String.toList_append, List.append_assoc,
          Scan.literals_append_of hopen, Scan.literals_append_of hbody, hopened, hclosed, List.nil_append,
          List.append_nil]
    _ = (Scan.code [.brace]).literals t.toList := (same_indentLines hi (ht.anywhere _)).2
    _ = literals t := (Scan.run_inside ht [.brace]).2

end ComponentScript.Script
