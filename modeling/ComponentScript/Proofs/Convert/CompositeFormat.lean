/-
  ComponentScript.Proofs.Convert.CompositeFormat — format strings and their pieces.

  A format string is a list of pieces written down: the braces of a text are doubled, a hole is
  its number and its format between braces (`FormatPiece.source`). A list that reading can give
  is in normal form (`normalForm_parse`), and every list in normal form is read back from what
  it is written as (`parse?_source`). Braces side by side are no trouble: a text is read in pairs
  of braces from the left, and a hole starts with a digit.

  `compositeFormat_done_or_untouched` says this, and what a format does with its arguments: all
  of them are converted, or nothing has happened.
-/

import ComponentScript.Proofs.Rules.ClosedText
import ComponentScript.Proofs.Text.Decimal

namespace ComponentScript

open Text

namespace FormatPiece

/-! ## Pieces in normal form -/

/-- A piece as it stands in a format string. -/
def source : FormatPiece → List Char
  | .text cs => cs.flatMap fun c => if c = '\x7b' || c = '\x7d' then [c, c] else [c]
  | .hole index format => '\x7b' :: ((toString index).toList ++ format ++ ['\x7d'])

/-- A text is not empty. A hole has a number of 64 bits, and behind it nothing, or a comma or a
    colon and no closing brace. -/
def Normal : FormatPiece → Prop
  | .text cs => cs ≠ []
  | .hole index format =>
    index < 18446744073709551616 ∧ (∀ c ∈ format.head?, endsIndex c = true) ∧ '\x7d' ∉ format

/-- Pieces in normal form, no two texts side by side. -/
structure NormalForm (pieces : List FormatPiece) : Prop where
  each : ∀ p ∈ pieces, p.Normal
  separated : Separated isText pieces

theorem NormalForm.tail {p : FormatPiece} {pieces : List FormatPiece} (h : NormalForm (p :: pieces)) :
    NormalForm pieces :=
  ⟨fun q hq => h.each q (List.mem_cons_of_mem _ hq), h.separated.2⟩

/-! ## Reading what was written -/

theorem parse?_doubled {c : Char} (hc : c = '\x7b' ∨ c = '\x7d') (rest : List Char) :
    parse? (c :: c :: rest) = (parse? rest).map (consChar c) := by
  rcases hc with rfl | rfl <;> rw [parse?]

theorem parse?_plain {c : Char} (hc : ¬ (c = '\x7b' ∨ c = '\x7d')) (rest : List Char) :
    parse? (c :: rest) = (parse? rest).map (consChar c) := by
  rw [not_or] at hc
  rw [parse?.eq_5 _ _ (fun _ h => absurd h hc.1) (fun _ h => absurd h hc.2) hc.1]

theorem parse?_text (cs rest : List Char) :
    parse? (source (.text cs) ++ rest) = (parse? rest).map fun pieces => cs.foldr consChar pieces := by
  induction cs with
  | nil => simp [source]
  | cons c cs ih =>
    -- a character is read as it is written: a brace from two, any other from one
    have hstep : parse? (source (.text (c :: cs)) ++ rest) =
        (parse? (source (.text cs) ++ rest)).map (consChar c) := by
      by_cases hc : c = '\x7b' ∨ c = '\x7d'
      · have hsource : source (.text (c :: cs)) = c :: c :: source (.text cs) := by simp [source, hc]
        rw [hsource]
        exact parse?_doubled hc _
      · have hsource : source (.text (c :: cs)) = c :: source (.text cs) := by simp [source, hc]
        rw [hsource]
        exact parse?_plain hc _
    rw [hstep, ih, Option.map_map]
    rfl

/-- Characters in front of pieces that do not start with a text are a text of their own. -/
theorem foldr_consChar {cs : List Char} (hcs : cs ≠ []) {pieces : List FormatPiece}
    (h : ∀ p ∈ pieces.head?, p.isText = false) : cs.foldr consChar pieces = .text cs :: pieces := by
  induction cs with
  | nil => exact absurd rfl hcs
  | cons c cs ih =>
    rw [List.foldr_cons]
    by_cases hnil : cs = []
    · subst hnil
      rcases pieces with _ | ⟨ds | ⟨index, format⟩, rest⟩
      · rfl
      · cases h _ rfl
      · rfl
    · rw [ih hnil]
      rfl

theorem parse?_hole {inner after : List Char} (hopen : inner.head? ≠ some '\x7b') (hclose : '\x7d' ∉ inner) :
    parse? ('\x7b' :: (inner ++ '\x7d' :: after)) =
      (readHole? inner).bind fun hole => (parse? after).map (hole :: ·) := by
  have hstop : ∀ c ∈ inner, decide (c ≠ '\x7d') = true := fun c hc => decide_eq_true fun h => hclose (h ▸ hc)
  have htake : (inner ++ '\x7d' :: after).takeWhile (· ≠ '\x7d') = inner := by
    rw [List.takeWhile_append_of_pos hstop]
    simp
  have hdrop : (inner ++ '\x7d' :: after).dropWhile (· ≠ '\x7d') = '\x7d' :: after := by
    rw [List.dropWhile_append_of_pos hstop]
    simp
  have hsingle : ∀ more, inner ++ '\x7d' :: after = '\x7b' :: more → False := by
    intro more heq
    cases inner with
    | nil => cases heq
    | cons c cs => exact hopen (congrArg some (List.cons.inj heq).1)
  rw [parse?.eq_4 _ hsingle]
  split
  · next h => rw [hdrop] at h; cases h
  · next h =>
    rw [hdrop] at h
    cases h
    rw [htake]
    cases readHole? inner with
    | none => rfl
    | some hole => cases parse? after <;> rfl

theorem isBlank_of_isDigit {c : Char} (h : c.isDigit = true) : isBlank c = false := by
  have hrange : 48 ≤ c.toNat ∧ c.toNat ≤ 57 := by
    simpa [Char.isDigit, UInt32.le_iff_toNat_le] using h
  simp [isBlank, inRanges, blankRanges]
  omega

theorem trim_digits {ds : List Char} (h : ∀ d ∈ ds, d.isDigit = true) : trim ds = ds := by
  have hkeep : ∀ cs : List Char, (∀ c ∈ cs, c.isDigit = true) → cs.dropWhile isBlank = cs := by
    intro cs hcs
    cases cs with
    | nil => rfl
    | cons c cs => rw [List.dropWhile_cons_of_neg (by rw [isBlank_of_isDigit (hcs c (List.mem_cons_self ..))]; decide)]
  rw [trim, hkeep ds h, trimEnd, hkeep _ fun d hd => h d (List.mem_reverse.mp hd), List.reverse_reverse]

theorem readIndex_toString {n : Nat} (h : n < 18446744073709551616) : readIndex? (toString n).toList = some n := by
  obtain ⟨d, ds, hn, hd⟩ := toString_eq_cons n
  have hdigits : ∀ c ∈ d :: ds, c.isDigit = true := fun c hc => isDigit_of_mem_toString (n := n) (hn ▸ hc)
  have hplus : d ≠ '+' := by rintro rfl; cases hd
  have hvalue := digitsValue_toString n
  rw [hn] at hvalue ⊢
  unfold readIndex?
  have hall : (d :: ds).all Char.isDigit = true := List.all_eq_true.mpr hdigits
  split
  · next heq => cases heq; exact absurd rfl hplus
  · dsimp only
    rw [hall, if_neg (by simp)]
    show (if digitsValue (d :: ds) < _ then some (digitsValue (d :: ds)) else none) = _
    rw [hvalue, if_pos h]

theorem readHole_source {index : Nat} {format : List Char} (h : Normal (.hole index format)) :
    readHole? ((toString index).toList ++ format) = some (.hole index format) := by
  obtain ⟨hbound, hformat, -⟩ := h
  have hdigits : ∀ c ∈ (toString index).toList, (!endsIndex c) = true := by
    intro c hc
    have hd := isDigit_of_mem_toString (n := index) hc
    cases he : endsIndex c with
    | false => rfl
    | true =>
      simp only [endsIndex, Bool.or_eq_true, decide_eq_true_eq] at he
      rcases he with rfl | rfl <;> cases hd
  have htake : format.takeWhile (!endsIndex ·) = [] ∧ format.dropWhile (!endsIndex ·) = format := by
    cases format with
    | nil => exact ⟨rfl, rfl⟩
    | cons c cs => simp [hformat c rfl]
  rw [readHole?, List.takeWhile_append_of_pos hdigits, List.dropWhile_append_of_pos hdigits, htake.1, htake.2,
    List.append_nil, trim_digits fun d hd => isDigit_of_mem_toString (n := index) hd, readIndex_toString hbound]
  rfl

/-- Pieces in normal form come back from what they are written as. -/
theorem parse?_source {pieces : List FormatPiece} (h : NormalForm pieces) :
    parse? (pieces.flatMap source) = some pieces := by
  induction pieces with
  | nil => rw [List.flatMap_nil, parse?]
  | cons p pieces ih =>
    have hp := h.each p (List.mem_cons_self ..)
    rw [List.flatMap_cons]
    cases p with
    | text cs =>
      rw [parse?_text, ih h.tail, Option.map_some, foldr_consChar hp (h.separated.1 rfl)]
    | hole index format =>
      obtain ⟨d, ds, hindex, hd⟩ := toString_eq_cons index
      have hopen : ((toString index).toList ++ format).head? ≠ some '\x7b' := by
        rw [hindex]
        rintro heq
        cases heq
        cases hd
      have hclose : '\x7d' ∉ (toString index).toList ++ format := by
        intro hm
        rcases List.mem_append.mp hm with hm | hm
        · cases isDigit_of_mem_toString (n := index) hm
        · exact hp.2.2 hm
      have hsource : source (.hole index format) ++ pieces.flatMap source =
          '\x7b' :: (((toString index).toList ++ format) ++ '\x7d' :: pieces.flatMap source) := by
        simp [source]
      rw [hsource, parse?_hole hopen hclose, readHole_source hp, Option.bind_some, ih h.tail]
      rfl

/-! ## What is read is in normal form -/

theorem readIndex_lt {cs : List Char} {n : Nat} (h : readIndex? cs = some n) : n < 18446744073709551616 := by
  simp only [readIndex?, Option.ite_none_left_eq_some, Option.ite_none_right_eq_some, Option.some.injEq] at h
  obtain ⟨-, hlt, rfl⟩ := h
  exact hlt

theorem normal_readHole {inner : List Char} {p : FormatPiece} (h : readHole? inner = some p)
    (hclose : '\x7d' ∉ inner) : p.Normal := by
  obtain ⟨index, hindex, rfl⟩ := Option.map_eq_some_iff.mp h
  refine ⟨readIndex_lt hindex, fun c hc => ?_, fun hm => hclose ((List.dropWhile_sublist _).subset hm)⟩
  have hstop := List.head?_dropWhile_not (fun c => !endsIndex c) inner
  rw [hc] at hstop
  simpa using hstop

theorem normal_consChar (c : Char) {pieces : List FormatPiece} (h : ∀ p ∈ pieces, p.Normal) :
    ∀ p ∈ consChar c pieces, p.Normal := by
  have hfirst : ∀ cs, (FormatPiece.text (c :: cs)).Normal := fun _ => List.cons_ne_nil _ _
  rcases pieces with _ | ⟨cs | ⟨index, format⟩, rest⟩
  · exact List.forall_mem_singleton.mpr (hfirst [])
  · exact List.forall_mem_cons.mpr ⟨hfirst cs, (List.forall_mem_cons.mp h).2⟩
  · exact List.forall_mem_cons.mpr ⟨hfirst [], h⟩

theorem normalForm_parse {cs : List Char} {pieces : List FormatPiece} (h : parse? cs = some pieces) :
    NormalForm pieces := by
  refine ⟨?_, separated_parse h⟩
  fun_induction parse? cs generalizing pieces with
  | case1 => cases h; exact List.forall_mem_nil _
  | case2 rest ih | case3 rest ih =>
    obtain ⟨ps, hps, rfl⟩ := Option.map_eq_some_iff.mp h
    exact normal_consChar _ (ih hps)
  | case4 => cases h
  | case5 rest _ _ after _ ih =>
    obtain ⟨hole, hhole, h⟩ := Option.bind_eq_some_iff.mp h
    obtain ⟨ps, hps, h⟩ := Option.bind_eq_some_iff.mp h
    cases h
    have hclose : '\x7d' ∉ rest.takeWhile (· ≠ '\x7d') := by
      intro hm
      simpa using List.all_eq_true.mp List.all_takeWhile _ hm
    exact List.forall_mem_cons.mpr ⟨normal_readHole hhole hclose, ih hps⟩
  | case6 c rest _ _ _ ih =>
    obtain ⟨ps, hps, rfl⟩ := Option.map_eq_some_iff.mp h
    exact normal_consChar _ (ih hps)

end FormatPiece

/-! ## Formats with their arguments -/

/-- What is wrong with a format: it is no literal, it cannot be read, or it refers to an
    argument that is not there. -/
def Expr.FormatFault (template : Expr) (args : List Argument) : Prop :=
  template.stringLiteral? = none ∨ ∃ text, template.stringLiteral? = some text ∧
    (FormatPiece.parse? text.toList = none ∨ ∃ pieces, FormatPiece.parse? text.toList = some pieces ∧
      ∃ index format, .hole index format ∈ pieces ∧ args.length ≤ index)

theorem FormatPiece.all_fits_eq_false_iff {n : Nat} {pieces : List FormatPiece} :
    pieces.all (fits n) = false ↔ ∃ index format, .hole index format ∈ pieces ∧ n ≤ index := by
  rw [List.all_eq_false]
  constructor
  · rintro ⟨cs | ⟨index, format⟩, hp, hfits⟩
    · exact absurd rfl hfits
    · exact ⟨index, format, hp, by simpa [fits] using hfits⟩
  · rintro ⟨index, format, hp, hle⟩
    exact ⟨_, hp, by simpa [fits] using hle⟩

section

variable (k : Converter) {template : Expr} {args : List Argument} (s : Session)

/-- A format that can be read either fits its arguments or is at fault. -/
theorem Expr.formatFault_iff {text : String} {pieces : List FormatPiece} (htext : template.stringLiteral? = some text)
    (hpieces : FormatPiece.parse? text.toList = some pieces) :
    template.FormatFault args ↔ pieces.all (FormatPiece.fits args.length) = false := by
  rw [FormatPiece.all_fits_eq_false_iff, FormatFault, htext]
  simp [hpieces]

theorem Converter.compositeFormat_out_fault (h : template.FormatFault args) :
    (k.compositeFormat? template args).out s = (none, s) := by
  unfold compositeFormat?
  cases htext : template.stringLiteral? with
  | none => rfl
  | some text =>
    cases hpieces : FormatPiece.parse? text.toList with
    | none => simp only [Option.bind_some, hpieces]; rfl
    | some pieces =>
      simp only [Option.bind_some, hpieces, (Expr.formatFault_iff htext hpieces).mp h, Bool.false_eq_true, if_false]
      rfl

theorem Converter.compositeFormat_out (h : ¬ template.FormatFault args) :
    ∃ text pieces, template.stringLiteral? = some text ∧ FormatPiece.parse? text.toList = some pieces ∧
      let converted := (k.arguments args).out s
      (k.compositeFormat? template args).out s =
        (some ("`" ++ String.join (pieces.map (FormatPiece.render converted.1)) ++ "`"),
          if pieces.any FormatPiece.dropsFormat then
            converted.2.report (.lossy "composite_format" template.span "alignment or format specifier dropped")
          else converted.2) := by
  unfold compositeFormat?
  cases htext : template.stringLiteral? with
  | none => exact absurd (.inl htext) h
  | some text =>
    cases hpieces : FormatPiece.parse? text.toList with
    | none => exact absurd (.inr ⟨text, htext, .inl hpieces⟩) h
    | some pieces =>
      rw [Expr.formatFault_iff htext hpieces, Bool.not_eq_false] at h
      refine ⟨text, pieces, rfl, hpieces, ?_⟩
      simp only [Option.bind_some, hpieces, h, if_true, Emit.out_bind]
      split <;> rfl

end

/-- Format strings and lists of pieces stand for each other: pieces in normal form are read
    back from what they are written as, and only such pieces are ever read. A format with its
    arguments fails exactly if it is at fault, and then nothing has happened. Otherwise each
    argument is converted once, in their order, and the only report that is added is that of a
    format specifier that is dropped. -/
theorem compositeFormat_done_or_untouched :
    (∀ pieces, FormatPiece.NormalForm pieces →
      FormatPiece.parse? (pieces.flatMap FormatPiece.source) = some pieces) ∧
    (∀ cs pieces, FormatPiece.parse? cs = some pieces → FormatPiece.NormalForm pieces) ∧
    ∀ (k : Converter) (template : Expr) (args : List Argument) (s : Session),
      let outcome := (k.compositeFormat? template args).out s
      (outcome.1 = none ↔ template.FormatFault args) ∧
      (outcome.1 = none → outcome.2 = s) ∧
      ∀ script, outcome.1 = some script → ∃ text pieces, template.stringLiteral? = some text ∧
        FormatPiece.parse? text.toList = some pieces ∧
        let converted := (args.mapM fun a => k.expr a.expr).out s
        script = "`" ++ String.join (pieces.map (FormatPiece.render converted.1)) ++ "`" ∧
        outcome.2 = if pieces.any FormatPiece.dropsFormat then
          converted.2.report (.lossy "composite_format" template.span "alignment or format specifier dropped")
          else converted.2 := by
  refine ⟨fun _ => FormatPiece.parse?_source, fun _ _ => FormatPiece.normalForm_parse, ?_⟩
  intro k template args s outcome
  by_cases hfault : template.FormatFault args
  · have hout : outcome = (none, s) := k.compositeFormat_out_fault s hfault
    rw [hout]
    exact ⟨⟨fun _ => hfault, fun _ => rfl⟩, fun _ => rfl, nofun⟩
  · obtain ⟨text, pieces, htext, hpieces, hout⟩ := k.compositeFormat_out s hfault
    have hsome : outcome.1 ≠ none := by rw [show outcome = _ from hout]; nofun
    refine ⟨⟨fun hnone => absurd hnone hsome, fun h => absurd h hfault⟩, fun hnone => absurd hnone hsome, ?_⟩
    intro script hscript
    rw [show outcome = _ from hout] at hscript ⊢
    exact ⟨text, pieces, htext, hpieces, (Option.some.inj hscript).symm, rfl⟩

/-- Braces side by side around a hole with an alignment. The hole asks for a second argument. -/
theorem compositeFormat_done_or_untouched_braces :
    let pieces : List FormatPiece := [.text ['a', '\x7b'], .hole 1 [',', '5'], .text ['\x7d']]
    let text := "a\x7b\x7b\x7b1,5\x7d\x7d\x7d"
    let template : Expr := ⟨⟨3, 9⟩, .literal (.string text)⟩
    let x : Argument := { expr := ⟨{}, .identifier "x"⟩ }
    let k : Converter := { exprAs := fun _ e => return e.kindName, stmt := fun _ => return "" }
    FormatPiece.NormalForm pieces ∧ FormatPiece.parse? text.toList = some pieces ∧
      (k.compositeFormat? template [x]).out {} = (none, {}) ∧
      ((k.compositeFormat? template [x, x]).out {}).1 = some "`a\x7b$\x7bidentifier\x7d\x7d`" := by
  intro pieces text template x k
  have hnormal : FormatPiece.NormalForm pieces := by
    constructor
    · simp [pieces, FormatPiece.Normal, FormatPiece.endsIndex]
    · simp [pieces, Separated, FormatPiece.isText]
  have hsource : pieces.flatMap FormatPiece.source = text.toList := by decide
  have hparse : FormatPiece.parse? text.toList = some pieces :=
    hsource ▸ compositeFormat_done_or_untouched.1 pieces hnormal
  refine ⟨compositeFormat_done_or_untouched.2.1 _ _ hparse, hparse, ?_, ?_⟩
  · obtain ⟨hnone, huntouched, -⟩ := compositeFormat_done_or_untouched.2.2 k template [x] {}
    have hfault : template.FormatFault [x] :=
      .inr ⟨_, rfl, .inr ⟨pieces, hparse, 1, [',', '5'], by simp [pieces], Nat.le_refl 1⟩⟩
    exact Prod.ext (hnone.mpr hfault) (huntouched (hnone.mpr hfault))
  · obtain ⟨hnone, -, hdone⟩ := compositeFormat_done_or_untouched.2.2 k template [x, x] {}
    cases hscript : ((k.compositeFormat? template [x, x]).out {}).1 with
    | none =>
      have hfits := (Expr.formatFault_iff rfl hparse).mp (hnone.mp hscript)
      cases hfits
    | some script =>
      obtain ⟨_, ps, htext, hps, hrendered, -⟩ := hdone script hscript
      cases htext
      rw [show ps = pieces from Option.some.inj (hps.symm.trans hparse)] at hrendered
      rw [hrendered]
      decide

end ComponentScript
