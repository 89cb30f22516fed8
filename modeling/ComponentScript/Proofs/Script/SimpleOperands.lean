/-
  ComponentScript.Proofs.Script.SimpleOperands — texts that are operands as they are.

  The operand scan takes a template for one literal with all its substitutions. Where a
  reader gets through a text, without a backtick inside of a substitution, that is right: the
  operand scan is then in code where the reader is, and so is the scan for literals and
  brackets (`Reading.Step.scan_next`).
  - `Tight`: outside of its brackets and literals a text has names, numbers and dots only,
    and question marks in front of dots.
  - `Whole.operand_eq_iff`: of the texts that a reader gets through, the tight ones stay
    without parentheses.
  - `operand_integer`, `operand_behind_tick`: so do all integers, and what follows a backtick in
    a string in a substitution.
-/

import ComponentScript.Proofs.Script.ChainTexts
import ComponentScript.Proofs.Script.Operands

namespace ComponentScript.Script

open Text

/-- A member can be named behind the text: nothing outside of its brackets and literals is an
    operator or a blank. -/
structure Tight (t : String) : Prop where
  closed : Closed t
  outside : ∀ c ∈ outerChars t, isOperandChar c = true
  /-- A question mark there is followed by a dot. -/
  question : ∀ before after, t.toList = before ++ '?' :: after → (Scan.code []).run before = some (.code []) →
    after.head? = some '.'

theorem isOperandChar_of_next {c : Char} (hm : isMark c = false) (hq : c ≠ '\x27') (h : (Place.code 0).next c ≠ none) :
    isOperandChar c = true := by
  simp only [isMark, isOpening, isClosing, Bool.or_eq_false_iff, decide_eq_false_iff_not] at hm
  simpa [Place.next, isQuoteMark, isOpening, isClosing, hm, hq] using h

theorem isMark_of_next {c : Char} (h : (Place.code 0).next c = none) : isMark c = false := by
  cases hm : isMark c with
  | false => rfl
  | true =>
    simp only [isMark, Bool.or_eq_true, decide_eq_true_eq] at hm
    rcases hm with ((rfl | rfl) | hopen) | hclose
    · cases h
    · cases h
    · simp only [Place.next, hopen, if_true] at h
      split at h <;> cases h
    · simp only [Place.next, hclose, if_true] at h
      repeat' split at h
      all_goals cases h

theorem Scan.isMark_of_nextInCode {fs : List Frame} {c : Char} (h : nextInCode fs c = some (code fs)) :
    isMark c = false := by
  cases hm : isMark c with
  | false => rfl
  | true =>
    simp only [isMark, isOpening, isClosing, Bool.or_eq_true, decide_eq_true_eq] at hm
    rcases hm with ((rfl | rfl) | ((rfl | rfl) | rfl)) | ((rfl | rfl) | rfl) <;>
      simp [nextInCode] at h <;> split at h <;> simp_all

namespace Reading

variable {strict : Bool} {r r' : Reading} {c : Char} {cs : List Char}

/-! ## The scan behind the reader -/

/-- What the scan for literals and brackets knows of the place. -/
def scan (r : Reading) : Scan := ⟨r.literal?, r.frames.map (·.1)⟩

theorem scan_leave (hl : r.literal? = none) (h : r.leave c = .ok r') : r.scan.next c = some r'.scan := by
  unfold leave at h
  split at h
  · cases h
  · next f link? frames hframes =>
    simp only [Scan.next, scan, hl, hframes, List.map_cons]
    split at h
    · next hsub =>
      simp only [Bool.and_eq_true, decide_eq_true_eq] at hsub
      obtain ⟨rfl, rfl⟩ := hsub
      cases h
      rfl
    · next hsub =>
      split at h
      · next hcloser =>
        cases h
        subst hcloser
        cases f with
        | paren | bracket | brace => simp only [hl]; rfl
        | substitution => exact absurd rfl hsub
      · cases h

/-- In code, a character that is no mark moves neither of them. -/
theorem scan_quiet (hl : r.literal? = none) (hm : isMark c = false) : r.scan.next c = some r.scan := by
  simp only [Scan.next, scan, hl, Scan.nextInCode_of_isMark hm]

theorem scan_note (r : Reading) (c : Char) : (r.note c).scan = r.scan := by
  rcases note_cases r c with h | ⟨pending, h⟩ <;> rw [h] <;> rfl

/-- The characters that signs go on with are no marks. -/
theorem isMark_of_extend (h : r.extend c = .ok r') : isMark c = false := by
  have hquiet : ['?', '.', '=', '&', '|'].all (fun c => !isMark c) = true := by decide
  simpa using List.all_eq_true.mp hquiet c (extend_cases h).2

/-- Of the signs only `?`, `??` and `?.` are made of operand characters. -/
theorem extend_of_isOperandChar (hc : isOperandChar c = true) (h : r.extend c = .ok r') :
    r.pending = .question ∧ (c = '?' ∧ r' = { r with pending := .questions } ∨ c = '.') := by
  have hne : ∀ d, isOperandChar d = false → c ≠ d := by
    rintro d hd rfl
    rw [hc] at hd
    cases hd
  unfold extend at h
  split at h
  · next hp =>
    refine ⟨hp, ?_⟩
    split at h
    · next hq => cases h; exact .inl ⟨hq, rfl⟩
    split at h
    · next hdot => exact .inr hdot
    · cases h
  all_goals simp [hne '=' (by decide +kernel), hne '&' (by decide +kernel), hne '|' (by decide +kernel)] at h

/-- The scan goes along with the reader. -/
theorem Step.scan_next (h : Step strict r c r') : r.scan.next c = some r'.scan := by
  cases h with
  | note hl hp hm hq hb => rw [scan_note, scan_quiet hl hm]
  | string hl hp => simp only [Scan.next, scan, hl]; rfl
  | template hl hp ht => simp only [Scan.next, scan, hl]; rfl
  | enter hl hp hc =>
    simp only [Scan.next, scan, hl, Reading.enter, List.map_cons]
    unfold opener? at hc
    repeat' split at hc
    all_goals first | cases hc; done | next h => subst h; cases hc; rfl
  | leave hl hp hc h => exact scan_leave hl h
  | complete hl hp h =>
    obtain ⟨link', rfl⟩ := complete_cases h
    exact scan_quiet hl (by decide)
  | close hl hp hc h h' =>
    obtain ⟨link', rfl⟩ := complete_cases h
    exact scan_leave (r := { r with pending := .none, link? := link' }) hl h'
  | extend hl hp hc hb h =>
    have hm := isMark_of_extend h
    obtain ⟨⟨pending, rfl⟩, -⟩ := extend_cases h
    exact scan_quiet hl hm
  | literal hl hbreak htick =>
    rename_i l
    have hinside := Scan.nextInLiteral_inside [] (r.frames.map (·.1)) c l
    rw [List.nil_append] at hinside
    simp only [Scan.next, scan, hl, hbreak, Bool.false_eq_true, if_false, hinside]
    simp [Scan.inside, follow, List.map_append, Function.comp_def]

theorem run_scan (h : r.run strict cs = .ok r') : r.scan.run cs = some r'.scan := by
  induction cs generalizing r with
  | nil => cases h; rfl
  | cons c cs ih =>
    obtain ⟨r'', hn, hrest⟩ := run_cons_eq_ok h
    rw [Scan.run_cons, (step_of_next hn).scan_next, Option.bind_some, ih hrest]

/-! ## Outside of all brackets -/

/-- In code, with nothing open. -/
structure Ground (r : Reading) : Prop where
  literal : r.literal? = none
  frames : r.frames = []

theorem ground_of_scan (h : r.scan = .code []) : r.Ground :=
  ⟨congrArg Scan.literal? h, List.map_eq_nil_iff.mp (congrArg Scan.frames h)⟩

theorem Ground.scan_eq (h : r.Ground) : r.scan = .code [] := by
  rw [scan, h.literal, h.frames]
  rfl

theorem Ground.place_eq (h : r.Ground) : r.place 0 = .code 0 := by
  simp [place, h.literal, h.frames, substituted, depth]

theorem frames_of_depth {fs : List (Frame × Option Joiner)} (hs : substituted fs = false) (hd : depth fs = 0) :
    fs = [] := by
  cases fs with
  | nil => rfl
  | cons f fs =>
    obtain ⟨f, link?⟩ := f
    rw [substituted_cons, Bool.or_eq_false_iff] at hs
    rw [depth, hs.1, hs.2] at hd
    cases hd

/-- The operand scan looks for operators where nothing is open, and nowhere else. -/
theorem ground_of_place (h : r.place 0 = .code 0) : r.Ground := by
  unfold place at h
  dsimp only at h
  split at h
  · split at h <;> cases h
  · next hs =>
    rw [Bool.not_eq_true] at hs
    split at h
    · next hl =>
      rw [Nat.zero_add, Place.code.injEq] at h
      exact ⟨hl, frames_of_depth hs h⟩
    all_goals cases h

/-- Between two places outside of all brackets there is no quote. -/
theorem Step.ne_quote (h : Step strict r c r') (hg : r.Ground) : c ≠ '\x27' := by
  rintro rfl
  cases h with
  | note _ _ _ hq => exact hq rfl
  | enter _ _ hc => cases hc
  | leave _ _ hc => cases hc
  | close _ _ hc => cases hc
  | extend _ _ _ _ h => exact absurd (extend_cases h).2 (by decide)
  | literal hl => rw [hg.literal] at hl; cases hl

/-- A sign that is open outside of all brackets of an operand is the first half of `?.`. -/
theorem head_of_pending (hg : r.Ground) (hp : r.pending ≠ .none) (h : r.run strict cs = .ok r')
    (hp' : r'.pending = .none) (hs : (cs.foldlM Place.next (r.place 0)).isSome = true) :
    r.pending = .question ∧ cs.head? = some '.' := by
  induction cs generalizing r with
  | nil => cases h; exact absurd hp' hp
  | cons c cs ih =>
    obtain ⟨r'', hn, hrest⟩ := run_cons_eq_ok h
    rw [hg.place_eq, List.foldlM_cons] at hs
    have hnext : (Place.code 0).next c ≠ none := by
      intro hnone
      rw [hnone] at hs
      cases hs
    cases step_of_next hn with
    | note _ hnone => exact absurd hnone hp
    | string _ hnone => exact absurd hnone hp
    | template _ hnone => exact absurd hnone hp
    | enter _ hnone => exact absurd hnone hp
    | leave _ hnone => exact absurd hnone hp
    | complete => exact absurd (by decide +kernel) hnext
    | close _ _ _ hcomplete hleave =>
      obtain ⟨link', rfl⟩ := complete_cases hcomplete
      simp only [Reading.leave, hg.frames] at hleave
      cases hleave
    | literal hl => rw [hg.literal] at hl; cases hl
    | extend _ _ _ _ hextend =>
      have hop : isOperandChar c = true := by
        refine isOperandChar_of_next (isMark_of_extend hextend) ?_ hnext
        rintro rfl
        exact absurd (extend_cases hextend).2 (by decide)
      obtain ⟨hquestion, ⟨rfl, rfl⟩ | rfl⟩ := extend_of_isOperandChar hop hextend
      · -- behind a second question mark there would be no way to go on
        have hg' : Ground { r with pending := .questions } := ⟨hg.literal, hg.frames⟩
        have hstay : (Place.code 0).next '?' = some (.code 0) := by decide +kernel
        rw [hstay] at hs
        have hsecond := ih hg' (by rintro ⟨⟩) hrest (by rwa [hg'.place_eq])
        cases hsecond.1
      · exact ⟨hquestion, rfl⟩

/-- Outside of all brackets of an operand, a question mark is followed by a dot. -/
theorem head_of_question (hg : r.Ground) (h : r.run strict ('?' :: cs) = .ok r') (hp' : r'.pending = .none)
    (hs : (('?' :: cs).foldlM Place.next (r.place 0)).isSome = true) : cs.head? = some '.' := by
  by_cases hp : r.pending = .none
  · have hnote : r.next strict '?' = .ok { r with pending := .question } := by
      rw [next_rest hg.literal hp]
      rfl
    have hg' : Ground { r with pending := .question } := ⟨hg.literal, hg.frames⟩
    have hstay : (Place.code 0).next '?' = some (.code 0) := by decide +kernel
    rw [run_cons_of hnote] at h
    rw [hg.place_eq, List.foldlM_cons, hstay] at hs
    exact (head_of_pending hg' (by rintro ⟨⟩) h hp' (by rwa [hg'.place_eq])).2
  · cases (head_of_pending hg hp h hp' hs).2

/-- Outside of its brackets and literals, what the operand scan gets through is made of operand
    characters. -/
theorem outer_isOperandChar (hu : r.Unnested) (h : r.run strict cs = .ok r')
    (hs : (cs.foldlM Place.next (r.place 0)).isSome = true) : ∀ c ∈ r.scan.outer cs, isOperandChar c = true := by
  induction cs generalizing r with
  | nil => exact List.forall_mem_nil _
  | cons c cs ih =>
    obtain ⟨r'', hn, hrest⟩ := run_cons_eq_ok h
    have hstep := step_of_next hn
    rw [List.foldlM_cons] at hs
    rcases hstep.place_next 0 hu with hnext | ⟨hnone, -⟩
    · rw [hnext] at hs
      have htail := ih (hstep.unnested hu) hrest hs
      simp only [Scan.outer, hstep.scan_next]
      split
      · next hboth =>
        refine List.forall_mem_cons.mpr ⟨?_, htail⟩
        have hg := ground_of_scan hboth.1
        have hstay : Scan.nextInCode [] c = some (.code []) := by
          have hscan := hstep.scan_next
          rwa [hboth.1, hboth.2] at hscan
        have hm : isMark c = false := Scan.isMark_of_nextInCode hstay
        rw [hg.place_eq] at hnext
        exact isOperandChar_of_next hm (hstep.ne_quote hg) (by rw [hnext]; exact Option.some_ne_none _)
      · exact htail
    · rw [hnone] at hs
      cases hs

/-- The operand scan gets through a text that has operand characters only outside of its brackets
    and literals. -/
theorem isSome_of_outer (hu : r.Unnested) (h : r.run strict cs = .ok r')
    (hout : ∀ c ∈ r.scan.outer cs, isOperandChar c = true) : (cs.foldlM Place.next (r.place 0)).isSome = true := by
  induction cs generalizing r with
  | nil => rfl
  | cons c cs ih =>
    obtain ⟨r'', hn, hrest⟩ := run_cons_eq_ok h
    have hstep := step_of_next hn
    simp only [Scan.outer, hstep.scan_next] at hout
    rw [List.foldlM_cons]
    rcases hstep.place_next 0 hu with hnext | ⟨hnone, hzero, hchar⟩
    · rw [hnext]
      refine ih (hstep.unnested hu) hrest fun d hd => hout d ?_
      split
      · exact List.mem_cons_of_mem _ hd
      · exact hd
    · -- the scan ends at an operator outside of everything
      have hg := ground_of_place hzero
      have hm : isMark c = false := by
        rw [hzero] at hnone
        exact isMark_of_next hnone
      have hstay := scan_quiet hg.literal hm
      rw [hstep.scan_next, Option.some.injEq] at hstay
      rw [if_pos ⟨hg.scan_eq, hstay.trans hg.scan_eq⟩] at hout
      have := hout c (List.mem_cons_self ..)
      rw [hchar] at this
      cases this

end Reading

/-! ## Simple operands -/

theorem operand_eq_self_iff {t : String} : operand t = t ↔ isSimpleOperand t = true := by
  constructor
  · intro h
    cases hs : isSimpleOperand t with
    | true => rfl
    | false =>
      simp only [operand, hs, Bool.false_eq_true, if_false] at h
      have hlength := congrArg String.length h
      have hparens : "(".length = 1 ∧ ")".length = 1 := by decide
      simp only [String.length_append] at hlength
      omega
  · exact fun h => if_pos h

theorem isSimpleOperand_iff {t : String} :
    isSimpleOperand t = true ↔ t ≠ "" ∧ (t.toList.foldlM Place.next (.code 0)).isSome = true := by
  simp [isSimpleOperand]

namespace Watch.Whole

variable {w : Watch} {t : String}

theorem tight (h : w.Whole t) (hs : (t.toList.foldlM Place.next (.code 0)).isSome = true) : Tight t where
  closed := Reading.run_scan (h [])
  outside := Reading.outer_isOperandChar (r := w.code none []) (unnested_code none) (h []) hs
  question := by
    intro before after hsplit hscan
    have hrun : (w.code none []).run w.strict t.toList = .ok (w.code (w.after [] t) []) := h []
    rw [hsplit, Reading.run_append] at hrun
    rw [hsplit, List.foldlM_append] at hs
    cases hbefore : (w.code none []).run w.strict before with
    | error e => rw [hbefore] at hrun; cases hrun
    | ok r =>
      rw [hbefore] at hrun
      have hground : r.Ground := by
        have hr := Reading.run_scan hbefore
        exact Reading.ground_of_scan (Option.some.inj (hr.symm.trans hscan))
      have hplace : before.foldlM Place.next (.code 0) = some (r.place 0) := by
        refine Reading.run_place (b := 0) (unnested_code none) hbefore (.inr ?_)
        exact Option.isSome_of_isSome_bind hs
      rw [hplace] at hs
      exact Reading.head_of_question hground hrun rfl hs

/-- Of the texts that a reader gets through, the tight ones are operands as they are. -/
theorem operand_eq_iff (h : w.Whole t) : Script.operand t = t ↔ t ≠ "" ∧ Tight t := by
  rw [operand_eq_self_iff, isSimpleOperand_iff]
  refine and_congr_right fun _ => ⟨h.tight, fun ht => ?_⟩
  exact Reading.isSome_of_outer (r := w.code none []) (unnested_code none) (h []) ht.outside

end Watch.Whole

/-! ## Integers and hidden operators -/

/-- Digits only, as an integer is written. -/
def IsInteger (t : String) : Prop := t ≠ "" ∧ ∀ c ∈ t.toList, c.isDigit = true

theorem isAlphanumeric_of_isDigit {c : Char} (h : c.isDigit = true) : isAlphanumeric c = true := by
  have hsmall : c.toNat < 128 := by
    simp only [Char.isDigit, Bool.and_eq_true, decide_eq_true_eq, UInt32.le_iff_toNat_le] at h
    exact Nat.lt_of_le_of_lt h.2 (by decide)
  simp [isAlphanumeric, isNumeric, hsmall, h]

theorem isOperandChar_of_isDigit {c : Char} (h : c.isDigit = true) : isOperandChar c = true := by
  simp [isOperandChar, isAlphanumeric_of_isDigit h]

theorem IsInteger.tight {t : String} (h : IsInteger t) : Tight t where
  closed := Markless.closed fun c hc => isMark_eq_false (by decide) (h.2 c hc)
  outside c hc := isOperandChar_of_isDigit (h.2 c (Scan.mem_of_mem_outer hc))
  question before after hsplit := by
    have hmem : '?' ∈ t.toList := by simp [hsplit]
    exact absurd (h.2 _ hmem) (by decide)

theorem IsInteger.numeral {t : String} (h : IsInteger t) : IsInteger (numeral t) := by
  constructor
  · intro hempty
    have hchars : numeralChars t.toList ≠ [] := by
      have hne : t.toList ≠ [] := fun hnil => h.1 (String.toList_eq_nil_iff.mp hnil)
      obtain ⟨c, hc⟩ := List.exists_mem_of_ne_nil _ hne
      refine numeralChars_ne_nil (List.any_eq_true.mpr ⟨c, hc, decide_eq_true ?_⟩)
      rintro rfl
      exact absurd (h.2 _ hc) (by decide)
    apply hchars
    rw [← String.toList_ofList (l := numeralChars t.toList)]
    exact congrArg String.toList hempty
  · intro c hc
    rw [Script.numeral, String.toList_ofList] at hc
    exact h.2 c (mem_of_mem_numeralChars hc)

/-- An integer is an operand as it is, though a dot behind it would belong to the number. -/
theorem operand_integer {t : String} (h : IsInteger t) : operand t = t := by
  have hinert : Inert t := fun c hc => isActive_eq_false (by decide) (h.2 c hc)
  have hwhole : (Watch.mk true true).Whole t := (Watch.neutral_of_inert hinert).whole
  exact hwhole.operand_eq_iff.mpr ⟨h.1, h.tight⟩

/-- A quoted piece goes on up to its mark. -/
theorem isSome_quoted {cs : List Char} {d : Nat} {q : Char} (h : ∀ c ∈ cs, c ≠ q) :
    (cs.foldlM Place.next (.quoted d q)).isSome = true ∧ (cs.foldlM Place.next (.escaped d q)).isSome = true := by
  induction cs with
  | nil => exact ⟨rfl, rfl⟩
  | cons c cs ih =>
    obtain ⟨hc, hcs⟩ := List.forall_mem_cons.mp h
    obtain ⟨hquoted, hescaped⟩ := ih hcs
    simp only [List.foldlM_cons, Place.next, hc, if_false]
    refine ⟨?_, hquoted⟩
    split
    · exact hescaped
    · exact hquoted

/-- A template with a backtick in a string in a substitution. -/
def tickTemplate : String := "`$\x7b\"`\"\x7d`"

theorem place_tickTemplate (d : Nat) : tickTemplate.toList.foldlM Place.next (.code d) = some (.quoted d '\x22') := by
  have hlist : tickTemplate.toList = ['\x60', '$', '\x7b', '\x22', '\x60', '\x22', '\x7d', '\x60'] := by decide
  simp [hlist, Place.next, isQuoteMark]

/-- Behind that template the operand scan takes code for a string: whatever follows is left as it
    is, up to a quote. -/
theorem operand_behind_tick {front u : String} {d : Nat}
    (hfront : front.toList.foldlM Place.next (.code 0) = some (.code d)) (h : ∀ c ∈ u.toList, c ≠ '\x22') :
    operand (front ++ tickTemplate ++ u) = front ++ tickTemplate ++ u := by
  rw [operand_eq_self_iff, isSimpleOperand_iff]
  constructor
  · intro hempty
    have htick := (String.append_eq_empty_iff.mp (String.append_eq_empty_iff.mp hempty).1).2
    exact absurd htick (by decide)
  · rw [String.toList_append, String.toList_append, List.foldlM_append, List.foldlM_append, hfront]
    dsimp only [Option.bind_eq_bind, Option.bind_some]
    rw [place_tickTemplate]
    exact (isSome_quoted h).1

/-- So a sum is left as it is, though its sign stands between blanks outside of everything. -/
theorem operand_hidden {u : String} (h : ∀ c ∈ u.toList, c ≠ '\x22') :
    operand (tickTemplate ++ (" + " ++ u)) = tickTemplate ++ (" + " ++ u) ∧ ¬ Tight (tickTemplate ++ (" + " ++ u)) := by
  constructor
  · have hsum : ∀ c ∈ (" + " ++ u).toList, c ≠ '\x22' := by
      rw [String.toList_append]
      exact List.forall_mem_append.mpr ⟨by simp, h⟩
    have hfront : "".toList.foldlM Place.next (.code 0) = some (.code 0) := rfl
    have hbare := operand_behind_tick hfront hsum
    rwa [String.empty_append] at hbare
  · intro htight
    have hclosed : (Scan.code []).run tickTemplate.toList = some (.code []) := by decide
    have hblank : ' ' ∈ outerChars (tickTemplate ++ (" + " ++ u)) := by
      rw [outerChars, String.toList_append, Scan.outer_append_of hclosed, String.toList_append]
      exact List.mem_append_right _ (List.mem_cons_self ..)
    exact absurd (htight.outside ' ' hblank) (by decide +kernel)

end ComponentScript.Script
