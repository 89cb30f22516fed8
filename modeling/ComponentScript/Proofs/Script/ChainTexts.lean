/-
  ComponentScript.Proofs.Script.ChainTexts — what texts do to the chain they stand in.

  A text is neutral if it leaves the chain around it as it is, bounded if it joins it by one
  kind of operators at most, and whole if it can be read where a chain begins. Statements are
  read where a chain begins, and end theirs. A reader that is not strict knows no chains, so
  for it all of these are the same (`Whole.neutral`).
  - `Whole.operand`: as an operand, a whole text is neutral.
  - `Leads`: formats are followed piece by piece, each literal piece by computation and each
    hole by what its text does.
  - `neutral_quote`, `neutral_template`, `neutral_block`: literals and blocks are neutral.
-/

import ComponentScript.Proofs.Script.Chains

namespace ComponentScript.Script

open Text

/-! ## Names and numbers -/

theorem isActive_of_large {c : Char} (h : 128 ≤ c.toNat) : isActive c = false :=
  isActive_eq_false (p := fun c => 128 ≤ c.toNat) (by decide) (decide_eq_true h)

theorem inert_ofList {cs : List Char} (h : ∀ c ∈ cs, isActive c = false) : Inert (String.ofList cs) := by
  intro c hc
  rw [String.toList_ofList] at hc
  exact h c hc

theorem Inert.append {t u : String} (ht : Inert t) (hu : Inert u) : Inert (t ++ u) := by
  intro c hc
  rw [String.toList_append] at hc
  rcases List.mem_append.mp hc with hc | hc
  · exact ht c hc
  · exact hu c hc

theorem inert_of_isIdentifier {name : String} (h : isIdentifier name = true) : Inert name :=
  fun c hc => isActive_eq_false (by decide +kernel) (continuesIdentifier_of_isIdentifier h c hc)

theorem inert_camelCase {name : String} (h : Inert name) : Inert (camelCase name) := by
  refine inert_ofList (forall_mem_camelChars (fun hc => ?_) h)
  exact toLowercase_avoids (by decide +kernel) (fun _ => isActive_of_large) (by decide) hc

theorem inert_numeral {text : String} (h : Inert text) : Inert (numeral text) :=
  inert_ofList fun c hc => h c (mem_of_mem_numeralChars hc)

theorem inert_toString (n : Nat) : Inert (toString n) := by
  intro c hc
  have hdigits : c ∈ Nat.toDigits 10 n := by rwa [← Nat.toList_repr]
  exact isActive_eq_false (by decide) (Nat.isDigit_of_mem_toDigits (by decide) (by decide) hdigits)

/-- In code, characters that mean nothing can be left out. -/
theorem Reading.run_inert {strict : Bool} {r : Reading} (hl : r.literal? = none) (hp : r.pending = .none)
    {cs : List Char} (h : ∀ c ∈ cs, isActive c = false) (ds : List Char) :
    r.run strict (cs ++ ds) = r.run strict ds := by
  induction cs with
  | nil => rfl
  | cons c cs ih =>
    obtain ⟨hc, hcs⟩ := List.forall_mem_cons.mp h
    have hnext : r.next strict c = .ok r := (next_rest hl hp).trans (nextAtRest_of_isActive hc)
    rw [List.cons_append, run_cons_of hnext, ih hcs]

/-! ## Shapes -/

/-- What a text does to its chain, at most. -/
inductive Shape where
  | neutral
  | joined (a : Joiner)
  | whole
  deriving DecidableEq

namespace Shape

instance : LE Shape := ⟨fun o o' => o = .neutral ∨ o' = .whole ∨ o = o'⟩

instance (o o' : Shape) : Decidable (o ≤ o') := inferInstanceAs (Decidable (_ ∨ _ ∨ _))

theorem le_refl (o : Shape) : o ≤ o := .inr (.inr rfl)

theorem neutral_le (o : Shape) : neutral ≤ o := .inl rfl

theorem le_whole (o : Shape) : o ≤ whole := .inr (.inl rfl)

theorem le_trans {o o' o'' : Shape} (h : o ≤ o') (h' : o' ≤ o'') : o ≤ o'' := by
  rcases h with rfl | rfl | rfl
  · exact neutral_le _
  · rcases h' with h' | rfl | rfl
    · cases h'
    · exact le_whole _
    · exact le_whole _
  · exact h'

/-- What two texts do to a chain that they both stand in. -/
def sup (o o' : Shape) : Shape := if o ≤ o' then o' else if o' ≤ o then o else .whole

theorem le_sup_left (o o' : Shape) : o ≤ o.sup o' := by
  unfold sup
  split
  · assumption
  split
  · exact le_refl o
  · exact le_whole o

theorem le_sup_right (o o' : Shape) : o' ≤ o.sup o' := by
  unfold sup
  split
  · exact le_refl o'
  split
  · assumption
  · exact le_whole o'

end Shape

/-! ## Readers -/

/-- How a text is read: whether chains count, and whether templates may start in it. -/
structure Watch where
  strict : Bool
  ticks : Bool

namespace Watch

variable (w : Watch)

/-- Without backticks. -/
def unticked : Watch := { w with ticks := false }

/-- In code, on a level that is joined by `link?`, inside the given brackets. -/
abbrev code (link? : Option Joiner) (fs : List (Frame × Option Joiner)) : Reading :=
  { ticks := w.ticks, link? := link?.filter fun _ => w.strict, frames := fs }

/-- The text takes the reader from `r` to `r'`. -/
def Leads (r : Reading) (t : String) (r' : Reading) : Prop := r.run w.strict t.toList = .ok r'

/-- What a chain that begins with the text is joined by behind it. -/
def after (fs : List (Frame × Option Joiner)) (t : String) : Option Joiner :=
  match (w.code none fs).run w.strict t.toList with
  | .ok r => r.link?
  | .error _ => none

/-- The text leaves the chain it stands in as it is. -/
def Neutral (t : String) : Prop := ∀ link? fs, w.Leads (w.code link? fs) t (w.code link? fs)

/-- The text joins the chain it stands in by `a`, if by anything. -/
def Bounded (a : Joiner) (t : String) : Prop := ∀ link? fs, (∀ b ∈ link?, b = a) →
  ∃ link', (∀ b ∈ link', b = a) ∧ w.Leads (w.code link? fs) t (w.code link' fs)

/-- The text can be read where a chain begins. -/
def Whole (t : String) : Prop := ∀ fs, w.Leads (w.code none fs) t (w.code (w.after fs t) fs)

/-- The text can be read where a chain begins, and ends its chain. -/
def Stated (t : String) : Prop := ∀ fs, w.Leads (w.code none fs) t (w.code none fs)

def Shaped : Shape → String → Prop
  | .neutral => w.Neutral
  | .joined a => w.Bounded a
  | .whole => w.Whole

end Watch

namespace Watch.Leads

variable {w : Watch} {r r' r'' : Reading} {t u : String} {link? : Option Joiner} {fs : List (Frame × Option Joiner)}

theorem append (h : w.Leads r t r') (h' : w.Leads r' u r'') : w.Leads r (t ++ u) r'' := by
  rw [Leads, String.toList_append, Reading.run_append_of h]
  exact h'

/-- A format that begins with a piece of its own, given by its characters. -/
theorem start {cs : List Char} (ht : String.ofList cs = t) (h : r.run w.strict cs = .ok r') : w.Leads r t r' := by
  rw [Leads, ← ht, String.toList_ofList, h]

/-- The next piece of a format. -/
theorem lit {cs : List Char} (h : w.Leads r t r') (hu : String.ofList cs = u) (h' : r'.run w.strict cs = .ok r'') :
    w.Leads r (t ++ u) r'' :=
  h.append (.start hu h')

/-- A format that begins with a neutral hole. -/
theorem first (h : w.Neutral t) : w.Leads (w.code link? fs) t (w.code link? fs) := h link? fs

/-- The next hole of a format. -/
theorem hole (h : w.Leads r t (w.code link? fs)) (hu : w.Neutral u) : w.Leads r (t ++ u) (w.code link? fs) :=
  h.append (hu link? fs)

/-- The next hole, where a chain begins. -/
theorem inner (h : w.Leads r t (w.code none fs)) (hu : w.Whole u) : w.Leads r (t ++ u) (w.code (w.after fs u) fs) :=
  h.append (hu fs)

/-- The next hole, of statements. -/
theorem stated (h : w.Leads r t (w.code none fs)) (hu : w.Stated u) : w.Leads r (t ++ u) (w.code none fs) :=
  h.append (hu fs)

end Watch.Leads

namespace Watch

variable {w : Watch} {t u : String} {a : Joiner}

theorem Whole.intro (h : ∀ fs, ∃ link', w.Leads (w.code none fs) t (w.code link' fs)) : w.Whole t := by
  intro fs
  obtain ⟨link', hlink⟩ := h fs
  have hafter : w.after fs t = link'.filter fun _ => w.strict := by
    rw [after, show (w.code none fs).run w.strict t.toList = .ok (w.code link' fs) from hlink]
  have hcode : w.code (w.after fs t) fs = w.code link' fs := by
    rw [hafter, code, Option.filter_filter]
    simp
  rw [hcode]
  exact hlink

/-! ## One kind from another -/

theorem Neutral.bounded (h : w.Neutral t) : w.Bounded a t := fun link? fs hlink => ⟨link?, hlink, h link? fs⟩

theorem Neutral.stated (h : w.Neutral t) : w.Stated t := h none

theorem Bounded.whole (h : w.Bounded a t) : w.Whole t := .intro fun fs =>
  have ⟨link', _, hlink⟩ := h none fs nofun
  ⟨link', hlink⟩

/-- A text that breaks off any chain. -/
theorem Stated.of_any (h : ∀ link? fs, w.Leads (w.code link? fs) t (w.code none fs)) : w.Stated t := h none

theorem Stated.whole (h : w.Stated t) : w.Whole t := .intro fun fs => ⟨none, h fs⟩

theorem Neutral.whole (h : w.Neutral t) : w.Whole t := h.stated.whole

/-- Without chains there is nothing to join or to break. -/
theorem Whole.neutral (hw : w.strict = false) (h : w.Whole t) : w.Neutral t := by
  have hcode : ∀ link? fs, w.code link? fs = w.code none fs := by
    intro link? fs
    rw [code, code, hw]
    simp
  intro link? fs
  have hleads := h fs
  rw [hcode (w.after fs t)] at hleads
  rw [hcode link?]
  exact hleads

theorem Shaped.whole {o : Shape} (h : w.Shaped o t) : w.Whole t := by
  cases o with
  | neutral => exact Neutral.whole h
  | joined a => exact Bounded.whole h
  | whole => exact h

theorem Neutral.shaped (o : Shape) (h : w.Neutral t) : w.Shaped o t := by
  cases o with
  | neutral => exact h
  | joined a => exact h.bounded
  | whole => exact h.whole

/-- What a text does to a chain matters to strict readers only. -/
theorem Shaped.mono {o o' : Shape} (hle : w.strict = true → o ≤ o') (h : w.Shaped o t) : w.Shaped o' t := by
  cases hw : w.strict with
  | false => exact (h.whole.neutral hw).shaped o'
  | true =>
    rcases hle hw with rfl | rfl | rfl
    · exact Neutral.shaped o' h
    · exact h.whole
    · exact h

theorem Shaped.bounded {o : Shape} (hle : w.strict = true → o ≤ .joined a) (h : w.Shaped o t) : w.Bounded a t :=
  (h.mono hle : w.Shaped (.joined a) t)

theorem Shaped.neutral {o : Shape} (hle : w.strict = true → o ≤ .neutral) (h : w.Shaped o t) : w.Neutral t :=
  (h.mono hle : w.Shaped .neutral t)

/-! ## Formats -/

theorem Neutral.append (ht : w.Neutral t) (hu : w.Neutral u) : w.Neutral (t ++ u) :=
  fun _ _ => (Leads.first ht).hole hu

theorem Bounded.append (ht : w.Bounded a t) (hu : w.Bounded a u) : w.Bounded a (t ++ u) := by
  intro link? fs hlink
  obtain ⟨link', hlink', h⟩ := ht link? fs hlink
  obtain ⟨link'', hlink'', h'⟩ := hu link' fs hlink'
  exact ⟨link'', hlink'', h.append h'⟩

/-- Two texts that do at most the same to their chain, and do not break it. -/
theorem Shaped.append {o : Shape} (ho : w.strict = true → o ≠ .whole) (ht : w.Shaped o t) (hu : w.Shaped o u) :
    w.Shaped o (t ++ u) := by
  cases hw : w.strict with
  | false => exact ((ht.whole.neutral hw).append (hu.whole.neutral hw)).shaped o
  | true =>
    cases o with
    | neutral => exact Neutral.append ht hu
    | joined a => exact Bounded.append ht hu
    | whole => exact absurd rfl (ho hw)

theorem neutral_empty : w.Neutral "" := fun _ _ => .start rfl rfl

theorem neutral_ite {p : Prop} [Decidable p] (ht : w.Neutral t) (hu : w.Neutral u) :
    w.Neutral (if p then t else u) := by
  split
  · exact ht
  · exact hu

theorem joined_of_forall {strict : Bool} {link? : Option Joiner} (h : ∀ b ∈ link?, b = a) :
    Reading.joined strict a (link?.filter fun _ => strict) = .ok ((some a).filter fun _ => strict) := by
  cases link? with
  | none => rfl
  | some b =>
    obtain rfl := h b rfl
    cases strict <;> simp [Reading.joined, Option.filter]

/-- An operator that joins a chain. -/
theorem bounded_operator {cs : List Char} (hu : String.ofList cs = u)
    (h : ∀ link? fs, (w.code link? fs).run w.strict cs = ((w.code link? fs).join w.strict a).bind .ok) :
    w.Bounded a u := by
  intro link? fs hlink
  refine ⟨some a, by simp, ?_⟩
  rw [Leads, ← hu, String.toList_ofList, h, Reading.join, joined_of_forall hlink]
  rfl

theorem bounded_coalesce : w.Bounded .coalesce " ?? " := bounded_operator rfl fun _ _ => rfl

theorem bounded_and : w.Bounded .logical " && " := bounded_operator rfl fun _ _ => rfl

theorem bounded_or : w.Bounded .logical " || " := bounded_operator rfl fun _ _ => rfl

/-- The text in brackets. -/
theorem Whole.parens (h : w.Whole t) : w.Neutral ("(" ++ t ++ ")") :=
  fun _ _ => (Leads.start rfl rfl).inner h |>.lit rfl rfl

/-! ## Operands -/

theorem unnested_code (link? : Option Joiner) : (w.code link? []).Unnested := ⟨nofun, trivial⟩

/-- As an operand, a text is in parentheses where it would touch the chain. -/
theorem Whole.operand (h : w.Whole t) : w.Neutral (operand t) := by
  unfold Script.operand
  split
  · next hsimple =>
    intro link? fs
    have habove : Reading.Above (link?.filter fun _ => w.strict) fs (w.code none []) (w.code link? fs) :=
      ⟨rfl, rfl, rfl, .ground none⟩
    have hplace := (Bool.and_eq_true_iff.mp hsimple).2
    obtain ⟨q, hrun, hliteral, hpending, hticks, hstacked⟩ :=
      Reading.run_above (unnested_code none) habove (h []) hplace
    obtain ⟨literal?, pending, ticks, qlink?, qframes⟩ := q
    cases hliteral; cases hpending; cases hticks; cases hstacked
    exact hrun
  · exact h.parens

/-- Inside of brackets the operand scan goes through the text. -/
theorem Whole.scanned (h : w.Whole t) {d : Nat} (hd : d ≠ 0) : t.toList.foldlM Place.next (.code d) = some (.code d) :=
  Reading.run_place (b := d) (unnested_code none) (h []) (.inl hd)

/-- As an operand, the scan goes through the text where there are none. -/
theorem Whole.operand_scanned (h : w.Whole t) :
    (Script.operand t).toList.foldlM Place.next (.code 0) = some (.code 0) := by
  unfold Script.operand
  split
  · next hsimple =>
    exact Reading.run_place (b := 0) (unnested_code none) (h []) (.inr (Bool.and_eq_true_iff.mp hsimple).2)
  · rw [String.toList_append, String.toList_append, List.foldlM_append, List.foldlM_append]
    show (t.toList.foldlM Place.next (.code 1)).bind _ = _
    rw [h.scanned Nat.one_ne_zero]
    rfl

theorem neutral_of_inert (h : Inert t) : w.Neutral t := by
  intro link? fs
  have hrun : (w.code link? fs).run w.strict (t.toList ++ []) = _ := Reading.run_inert rfl rfl h []
  rwa [List.append_nil] at hrun

/-! ## Lists -/

theorem Whole.append_comma (ht : w.Whole t) (hu : w.Whole u) : w.Whole (t ++ ", " ++ u) :=
  .intro fun fs => ⟨_, ((ht fs).lit rfl rfl).inner hu⟩

theorem whole_commaList {ts : List String} (h : ∀ t ∈ ts, w.Whole t) : w.Whole (commaList ts) := by
  induction ts with
  | nil => exact neutral_empty.whole
  | cons t ts ih =>
    obtain ⟨ht, hts⟩ := List.forall_mem_cons.mp h
    cases ts with
    | nil => simpa [commaList] using ht
    | cons u us =>
      rw [commaList, String.intercalate_cons_cons]
      exact ht.append_comma (ih hts)

theorem stated_joinLines {ts : List String} (h : ∀ t ∈ ts, w.Stated t) : w.Stated (joinLines ts) := by
  induction ts with
  | nil => exact neutral_empty.stated
  | cons t ts ih =>
    obtain ⟨ht, hts⟩ := List.forall_mem_cons.mp h
    cases ts with
    | nil => simpa [joinLines] using ht
    | cons u us =>
      rw [joinLines, String.intercalate_cons_cons]
      exact fun fs => ((ht fs).lit rfl rfl).stated (ih hts)

theorem bounded_conjunction {ts : List String} (h : ∀ t ∈ ts, w.Bounded .logical t) :
    w.Bounded .logical (" && ".intercalate ts) := by
  induction ts with
  | nil => exact neutral_empty.bounded
  | cons t ts ih =>
    obtain ⟨ht, hts⟩ := List.forall_mem_cons.mp h
    cases ts with
    | nil => simpa using ht
    | cons u us =>
      rw [String.intercalate_cons_cons]
      exact (ht.append bounded_and).append (ih hts)

end Watch

/-! ## Literals -/

namespace Reading

variable {strict : Bool}

theorem next_string {c : Char} {r : Reading} (hl : r.literal? = some .string) (hbreak : Scan.isLineBreak c = false)
    (htick : c = '\x60' → r.ticks = true) (hquote : c ≠ '\x22') (hescape : c ≠ '\x5c') : r.next strict c = .ok r := by
  rw [next_of_step (.literal hl hbreak htick)]
  simp [Scan.nextInLiteral, hquote, hescape, follow, ← hl]

theorem run_escapeChar {c : Char} {r : Reading} (hl : r.literal? = some .string) (htick : c = '\x60' → r.ticks = true) :
    r.run strict (escapeChar c) = .ok r := by
  -- a backslash takes its successor with it, whatever it is
  have hescaped : ∀ d ∈ ['\x5c', '\x22', 'n', 'r', 't', '0'], r.run strict ['\x5c', d] = .ok r := by
    obtain ⟨literal?, pending, ticks, link?, frames⟩ := r
    cases hl
    simp only [List.forall_mem_cons]
    exact ⟨rfl, rfl, rfl, rfl, rfl, rfl, List.forall_mem_nil _⟩
  unfold escapeChar
  split
  · exact hescaped '\x5c' (by decide)
  split
  · exact hescaped '\x22' (by decide)
  split
  · exact hescaped 'n' (by decide)
  split
  · exact hescaped 'r' (by decide)
  split
  · exact hescaped 't' (by decide)
  split
  · exact hescaped '0' (by decide)
  next hescape hquote hn hr ht hnul =>
  rw [run_cons_of (next_string hl (by simp [Scan.isLineBreak, hn, hr]) htick hquote hescape), run_nil]

theorem run_escape {cs : List Char} {r : Reading} (hl : r.literal? = some .string)
    (htick : '\x60' ∈ cs → r.ticks = true) :
    r.run strict (cs.flatMap escapeChar) = .ok r := by
  induction cs with
  | nil => rfl
  | cons c cs ih =>
    have hc : c = '\x60' → r.ticks = true := fun hc => htick (hc ▸ List.mem_cons_self ..)
    rw [List.flatMap_cons, run_append_of (run_escapeChar hl hc)]
    exact ih fun hm => htick (List.mem_cons_of_mem _ hm)

/-- In a template, outside of its substitutions and not behind a backslash; behind a dollar
    sign only if `b` holds. -/
def InTemplate (r : Reading) (b : Bool) (s : Reading) : Prop :=
  s = { r with literal? := some .template } ∨ b = true ∧ s = { r with literal? := some .templateDollar }

theorem run_templateChar {r s : Reading} {b : Bool} (ht : r.ticks = true) (hs : InTemplate r b s) {c : Char}
    (hc : c ≠ '$')
    (hbrace : b = true → c ≠ '\x7b') : s.run strict (templateChar c) = .ok { r with literal? := some .template } := by
  have hescaped : ∀ d ∈ ['\x5c', '\x60', 'n', 'r', 't'],
      s.run strict ['\x5c', d] = .ok { r with literal? := some .template } := by
    obtain ⟨literal?, pending, ticks, link?, frames⟩ := r
    cases ht
    simp only [List.forall_mem_cons]
    rcases hs with rfl | ⟨-, rfl⟩ <;> exact ⟨rfl, rfl, rfl, rfl, rfl, List.forall_mem_nil _⟩
  unfold templateChar
  split
  · exact hescaped '\x5c' (by decide)
  split
  · exact hescaped '\x60' (by decide)
  split
  · exact hescaped 'n' (by decide)
  split
  · exact hescaped 'r' (by decide)
  split
  · exact hescaped 't' (by decide)
  next hescape htick hn hr _ =>
  have hbreak : Scan.isLineBreak c = false := by simp [Scan.isLineBreak, hn, hr]
  have hnext : s.next strict c = .ok { r with literal? := some .template } := by
    rcases hs with rfl | ⟨hb, rfl⟩
    · rw [next_of_step (.literal rfl hbreak fun h => absurd h htick)]
      simp [Scan.nextInLiteral, Scan.nextInTemplate, htick, hescape, hc, follow]
    · rw [next_of_step (.literal rfl hbreak fun h => absurd h htick)]
      simp [Scan.nextInLiteral, Scan.nextInTemplate, htick, hescape, hc, hbrace hb, follow]
  rw [run_cons_of hnext, run_nil]

/-- Text of a template stays in it. Behind a dollar sign it must not begin with a brace. -/
theorem run_templateChars (cs : List Char) {r s : Reading} {b : Bool} (ht : r.ticks = true) (hs : InTemplate r b s)
    (hbrace : b = true → cs.head? ≠ some '\x7b') :
    ∃ s', InTemplate r (endsInDollar b cs) s' ∧ s.run strict (templateChars cs) = .ok s' := by
  fun_induction templateChars cs generalizing b s with
  | case1 => exact ⟨s, hs, rfl⟩
  | case2 rest ih =>
    have hopen : s.run strict ['\x5c', '$', '\x7b'] = .ok { r with literal? := some .template } := by
      rcases hs with rfl | ⟨-, rfl⟩ <;> rfl
    obtain ⟨s', hs', hrun⟩ := ih (b := false) (s := { r with literal? := some .template }) (.inl rfl)
      (absurd · Bool.false_ne_true)
    exact ⟨s', hs', (run_append_of hopen _).trans hrun⟩
  | case3 c rest hrest ih =>
    by_cases hc : c = '$'
    · subst hc
      have hdollar : s.run strict (templateChar '$') = .ok { r with literal? := some .templateDollar } := by
        rcases hs with rfl | ⟨-, rfl⟩ <;> rfl
      obtain ⟨s', hs', hrun⟩ := ih (b := true) (s := { r with literal? := some .templateDollar })
          (.inr ⟨rfl, rfl⟩) fun _ hhead => by
        cases rest with
        | nil => cases hhead
        | cons d ds => cases hhead; exact hrest ds rfl rfl
      exact ⟨s', hs', (run_append_of hdollar _).trans hrun⟩
    · have htext : s.run strict _ = _ := run_templateChar ht hs hc fun h heq => hbrace h (congrArg some heq)
      obtain ⟨s', hs', hrun⟩ := ih (b := false) (s := { r with literal? := some .template }) (.inl rfl)
        (absurd · Bool.false_ne_true)
      refine ⟨s', ?_, (run_append_of htext _).trans hrun⟩
      rwa [endsInDollar_cons, decide_eq_false hc]

end Reading

namespace Watch

variable {w : Watch} {t u : String}

/-- A literal may have backticks where templates may start. -/
def Quotable (w : Watch) (s : String) : Prop := '\x60' ∈ s.toList → w.ticks = true

theorem neutral_quote {s : String} (h : w.Quotable s) : w.Neutral (quote s) := by
  intro link? fs
  have hescape : w.Leads { w.code link? fs with literal? := some .string } (escape s)
      { w.code link? fs with literal? := some .string } := by
    rw [Leads, escape, String.toList_ofList]
    exact Reading.run_escape rfl h
  exact ((Leads.start rfl rfl).append hescape).lit rfl rfl

theorem Quotable.camelCase {name : String} (h : w.Quotable name) : w.Quotable (camelCase name) := by
  intro hm
  by_cases hn : '\x60' ∈ name.toList
  · exact h hn
  · have hchars : ∀ c ∈ camelChars name.toList, (c = '\x60' : Bool) = false := by
      refine forall_mem_camelChars (fun hc => ?_) fun c hc => decide_eq_false fun heq => hn (heq ▸ hc)
      refine toLowercase_avoids (by decide +kernel) (fun c hc => decide_eq_false ?_) (by decide) hc
      rintro rfl
      exact absurd hc (by decide)
    rw [Script.camelCase, String.toList_ofList] at hm
    simpa using hchars _ hm

theorem neutral_objectKey {key : String} (h : w.Quotable key) : w.Neutral (objectKey key) := by
  unfold objectKey
  split
  · next hid => exact neutral_of_inert (inert_of_isIdentifier hid)
  · exact neutral_quote h

theorem leads_substitution (hw : w.ticks = true) {link? : Option Joiner} {fs : List (Frame × Option Joiner)} {b : Bool}
    {r : Reading} (hr : Reading.InTemplate (w.code link? fs) b r) (ht : w.unticked.Whole t) :
    w.Leads r (substitution t) { w.code link? fs with literal? := some .template } := by
  obtain ⟨strict, ticks⟩ := w
  cases hw
  rcases hr with rfl | ⟨-, rfl⟩
  · exact Leads.lit (Leads.append (Leads.start rfl rfl) (ht _)) rfl rfl
  · exact Leads.lit (Leads.append (Leads.start rfl rfl) (ht _)) rfl rfl

theorem leads_templateBody (hw : w.ticks = true) {b : Bool} {ts : List String} (h : TemplateBody w.unticked.Whole b ts)
    {link? : Option Joiner} {fs : List (Frame × Option Joiner)} {r : Reading}
    (hr : Reading.InTemplate (w.code link? fs) b r) :
    ∃ b' r', Reading.InTemplate (w.code link? fs) b' r' ∧ w.Leads r (String.join ts) r' := by
  induction h generalizing r with
  | @nil b => exact ⟨b, r, hr, rfl⟩
  | @text t b _ hbrace _ ih =>
    obtain ⟨s, hs, hrun⟩ : ∃ s, Reading.InTemplate _ (endsInDollar b t.toList) s ∧ Reading.run w.strict _ _ = .ok s :=
      Reading.run_templateChars t.toList hw hr hbrace
    obtain ⟨b', r', hr', hrest⟩ := ih hs
    refine ⟨b', r', hr', ?_⟩
    rw [String.join_cons]
    refine Leads.append ?_ hrest
    rw [Leads, escapeTemplate, String.toList_ofList, hrun]
  | hole ht _ ih =>
    obtain ⟨b', r', hr', hrest⟩ := ih (.inl rfl)
    refine ⟨b', r', hr', ?_⟩
    rw [String.join_cons]
    exact (leads_substitution hw hr ht).append hrest

/-- A template, around texts without backticks. -/
theorem neutral_template (hw : w.ticks = true) {ts : List String} (h : TemplateBody w.unticked.Whole false ts) :
    w.Neutral ("`" ++ String.join ts ++ "`") := by
  intro link? fs
  obtain ⟨_, r, hr, hbody⟩ : ∃ b r, Reading.InTemplate (w.code link? fs) b r ∧ w.Leads _ _ r :=
    leads_templateBody hw h (.inl rfl)
  have hopen : w.Leads (w.code link? fs) "`" { w.code link? fs with literal? := some .template } := by
    obtain ⟨strict, ticks⟩ := w
    cases hw
    exact .start rfl rfl
  refine (hopen.append hbody).append ?_
  obtain ⟨strict, ticks⟩ := w
  cases hw
  rcases hr with rfl | ⟨-, rfl⟩ <;> exact .start rfl rfl

end Watch

/-! ## Layout -/

namespace Reading

variable {strict : Bool} {r r' : Reading}

/-- Only code goes on with a line break, and takes no notice of it. -/
theorem run_lineBreak {c : Char} {rest : List Char} (hc : Scan.isLineBreak c = true)
    (h : r.run strict (c :: rest) = .ok r') : r.literal? = none ∧ r.pending = .none ∧ r.run strict rest = .ok r' := by
  obtain ⟨r'', hn, hrest⟩ := run_cons_eq_ok h
  have hactive : isActive c = false := isActive_eq_false (by decide) hc
  have hmark : isClosing c = false ∧ c ≠ ' ' := by
    simp only [Scan.isLineBreak, Bool.or_eq_true, decide_eq_true_eq] at hc
    rcases hc with rfl | rfl <;> decide
  cases hl : r.literal? with
  | some l => simp [next, hl, hc] at hn
  | none =>
    by_cases hp : r.pending = .none
    · rw [next_rest hl hp, nextAtRest_of_isActive hactive] at hn
      cases hn
      exact ⟨rfl, hp, hrest⟩
    · simp only [next, nextInCode, hl, if_neg hp, hmark, if_false, Bool.false_eq_true] at hn
      have hsign : ['?', '.', '=', '&', '|'].all (!Scan.isLineBreak ·) = true := by decide
      have hnot := List.all_eq_true.mp hsign c (extend_cases hn).2
      rw [hc] at hnot
      cases hnot

section

variable {indent : List Char} (hi : ∀ c ∈ indent, isActive c = false)

include hi

theorem run_indented (hl : r.literal? = none) (hp : r.pending = .none) (l ds : List Char) :
    r.run strict (Scan.indented indent l ++ ds) = r.run strict (l ++ ds) := by
  cases l with
  | nil => rfl
  | cons c cs =>
    have h : r.run strict (indent ++ ((c :: cs) ++ ds)) = _ := run_inert hl hp hi ((c :: cs) ++ ds)
    rwa [← List.append_assoc] at h

/-- In code it makes no difference whether the first line is indented or on a line of its own. -/
theorem run_below (hl : r.literal? = none) (hp : r.pending = .none) (ls : List (List Char)) :
    r.run strict (Scan.below indent ls) = r.run strict (Scan.continued indent ls) := by
  cases ls with
  | nil => rfl
  | cons l ls =>
    have hbreak : r.run strict (['\n'] ++ (Scan.indented indent l ++ Scan.below indent ls)) = _ :=
      run_inert hl hp (List.forall_mem_singleton.mpr rfl) _
    exact hbreak.trans (run_indented hi hl hp l _)

/-- A text that can be read is as good as its lines with all but the first indented. -/
theorem run_continued {cs : List Char} (h : r.run strict cs = .ok r') :
    r.run strict (Scan.continued indent (lines cs)) = .ok r' := by
  fun_induction lines cs generalizing r with
  | case1 => exact h
  | case2 rest ih =>
    obtain ⟨hl, hp, h⟩ := run_lineBreak rfl h
    obtain ⟨-, -, h⟩ := run_lineBreak rfl h
    exact (run_below hi hl hp _).trans (ih h)
  | case3 rest ih =>
    obtain ⟨hl, hp, h⟩ := run_lineBreak rfl h
    exact (run_below hi hl hp _).trans (ih h)
  | case4 c rest _ _ ih =>
    rw [Scan.continued_consLine]
    obtain ⟨r'', hn, hrest⟩ := run_cons_eq_ok h
    exact (run_cons_of hn _).trans (ih hrest)

end

theorem literal_of_next {c : Char} {l : Scan.Literal} (hl : r.literal? = some l) (h : r.next strict c = .ok r') :
    r'.literal? = (Scan.nextInLiteral [] c l).literal? := by
  simp only [next, hl] at h
  split at h
  · cases h
  split at h
  · cases h
  · cases h; rfl

/-- A blank in front of a closing bracket can be left out. -/
theorem next_of_blank {c : Char} (hc : isBlank c = true) (h : r.run strict [c, ')'] = .ok r')
    (hr : r'.literal? = none) : r.next strict ')' = .ok r' := by
  obtain ⟨s, hn, h⟩ := run_cons_eq_ok h
  obtain ⟨s', hclose, h⟩ := run_cons_eq_ok h
  cases h
  cases hl : r.literal? with
  | some l =>
    -- neither the blank nor the bracket leads out of a literal
    have hblank := Scan.nextInLiteral_isSome (Scan.isMark_of_isBlank hc) [] l
    rw [← literal_of_next hl hn] at hblank
    obtain ⟨l', hl'⟩ := Option.isSome_iff_exists.mp hblank
    rw [literal_of_next hl' hclose] at hr
    cases l' <;> cases hr
  | none =>
    by_cases hp : r.pending = .none
    · rw [next_rest hl hp, nextAtRest_of_isActive (isActive_eq_false (by decide) hc)] at hn
      cases hn
      exact hclose
    · simp only [next, nextInCode, hl, if_neg hp] at hn ⊢
      split at hn
      · rw [if_neg (by decide), if_pos (by decide), hn]
        obtain ⟨link', rfl⟩ := complete_cases hn
        exact (next_rest (r := { r with pending := .none, link? := link' }) hl rfl).symm.trans hclose
      · have hclosing : isClosing c = false := by
          have hmark := Scan.isMark_of_isBlank hc
          simp only [isMark, Bool.or_eq_false_iff] at hmark
          exact hmark.2
        have hsign : ['?', '.', '=', '&', '|'].all (!isBlank ·) = true := by decide
        rw [if_neg (by rw [hclosing]; decide)] at hn
        have hnot := List.all_eq_true.mp hsign c (extend_cases hn).2
        rw [hc] at hnot
        cases hnot

/-- Trailing blanks in front of a closing bracket can be left out. -/
theorem run_trimEnd (rs : List Char) (h : r.run strict (rs.reverse ++ [')']) = .ok r') (hr : r'.literal? = none) :
    r.run strict ((rs.dropWhile isBlank).reverse ++ [')']) = .ok r' := by
  induction rs with
  | nil => exact h
  | cons c rs ih =>
    by_cases hc : isBlank c = true
    · rw [List.dropWhile_cons_of_pos hc]
      rw [List.reverse_cons, List.append_assoc, run_append] at h
      cases hu : r.run strict rs.reverse with
      | error e => rw [hu] at h; cases h
      | ok u =>
        rw [hu] at h
        have hclose := next_of_blank hc h hr
        exact ih ((run_append_of hu _).trans (run_cons_of hclose _))
    · rw [List.dropWhile_cons_of_neg hc]
      exact h

end Reading

namespace Watch

variable {w : Watch} {t u indent : String}

theorem leads_indentLines (hi : Inert indent) {link? link' : Option Joiner} {fs gs : List (Frame × Option Joiner)}
    (h : w.Leads (w.code link? fs) t (w.code link' gs)) :
    w.Leads (w.code link? fs) (indentLines t indent) (w.code link' gs) := by
  refine .trans ?_ (Reading.run_continued hi h)
  rw [toList_indentLines]
  cases lines t.toList with
  | nil => rfl
  | cons l ls => exact Reading.run_indented hi rfl rfl l _

theorem Stated.indentLines (hi : Inert indent) (h : w.Stated t) : w.Stated (indentLines t indent) :=
  fun fs => leads_indentLines hi (h fs)

theorem neutral_block (hi : Inert indent) {ts : List String} (h : ∀ t ∈ ts, w.Stated t) :
    w.Neutral (block ts indent) := by
  have hbody : w.Stated (joinLines (ts.filter (· ≠ ""))) :=
    stated_joinLines fun t ht => h t (List.mem_filter.mp ht).1
  refine neutral_ite (fun _ _ => .start rfl rfl) fun _ _ => ?_
  exact (Leads.start rfl rfl).stated (hbody.indentLines hi) |>.lit rfl rfl

/-- The text in parentheses, without its trailing blanks. -/
theorem Whole.trimmed (h : w.Whole t) : w.Neutral ("(" ++ String.ofList (trimEnd t.toList) ++ ")") := by
  intro link? fs
  have hparens : w.Leads (w.code none _) (t ++ ")") (w.code link? fs) := (h ((.paren, _) :: fs)).lit rfl rfl
  rw [Leads, String.toList_append] at hparens
  have htrimmed : w.Leads (w.code none ((.paren, link?.filter fun _ => w.strict) :: fs))
      (String.ofList (trimEnd t.toList) ++ ")") (w.code link? fs) := by
    rw [Leads, String.toList_append, String.toList_ofList]
    exact Reading.run_trimEnd _ (by rwa [List.reverse_reverse]) rfl
  rw [String.append_assoc]
  exact Leads.append (.start rfl rfl) htrimmed

end Watch

end ComponentScript.Script
