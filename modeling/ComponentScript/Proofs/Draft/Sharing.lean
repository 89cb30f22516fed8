/-
  ComponentScript.Proofs.Draft.Sharing — drafts of operands that a text mentions more than
  once, and of format strings.

  An operand that is not plain is bound outside of the function that shares it; a plain one
  stays in its body, once or more often. So what may be in the body of such a function is only
  asked of plain operands (`AdmitsParts.plain`).
-/

import ComponentScript.Convert.CompositeFormat
import ComponentScript.Convert.Sharing
import ComponentScript.Proofs.Draft.Expression

namespace ComponentScript

open Text Draft

namespace Draft.Placement

/-- The functions that mention plain operands in their bodies. -/
def sharers : List Maker := [.sharing, .deletion, .removal]

/-- What may be both outside and in the bodies of such functions. -/
def shared (A : Placement) : Placement := fun f? p =>
  A f? p ∧ ∀ maker ∈ sharers, ∀ params, A.inside ⟨maker, false, params⟩ f? p

/-- Of two functions around a part only the inner one counts. -/
theorem inside_inside (A : Placement) (f g : Made) : (A.inside f).inside g = A.inside g := by
  funext f? p
  cases f? <;> rfl

theorem shared_inside {A : Placement} {f : Made} {f? : Option Made} {p : Part} (h : A.inside f f? p) :
    A.shared.inside f f? p := by
  refine ⟨h, fun maker _ params => ?_⟩
  have heq := congrFun (congrFun (A.inside_inside ⟨maker, false, params⟩ f) f?) p
  exact Eq.mpr heq h

end Draft.Placement

/-- Where the inner expressions `Y` may be, for a rule that goes to them. -/
structure AdmitsParts (A : Placement) (Y : Expr → Prop) : Prop where
  outside : ∀ {y}, Y y → A.At y
  inside : ∀ {y}, Y y → ∀ maker ∈ [Maker.delay, .range, .comparison], ∀ params, (A.inside ⟨maker, false, params⟩).At y
  plain : ∀ {y}, Y y → y.isPlain = true → ∀ maker ∈ Placement.sharers, ∀ params, (A.inside ⟨maker, false, params⟩).At y

theorem AdmitsParts.shared {A : Placement} {Y : Expr → Prop} (h : AdmitsParts A Y) {y : Expr} (hy : Y y)
    (hplain : y.isPlain = true) : A.shared.At y := fun expected? s =>
  ⟨h.outside hy expected? s, fun maker hm params => h.plain hy hplain maker hm params expected? s⟩

variable {k : Converter} {A : Placement} {Y : Expr → Prop}

/-! ## Shared operands -/

/-- The parameters bound so far, each with the draft of its value. -/
structure DraftSharing where
  bindings : List (String × Draft) := []

namespace DraftSharing

def share (sh : DraftSharing) (e : Expr) (d : Draft) : Emit (Draft × DraftSharing) :=
  if e.isPlain then return (.operand d, sh)
  else do
    let n ← Emit.freshName "v"
    return (name n, ⟨sh.bindings ++ [(n, d)]⟩)

def wrap (sh : DraftSharing) (body : Draft) : Draft :=
  if sh.bindings.isEmpty then body
  else Draft.call ⟨.sharing, false, sh.bindings.map (·.1)⟩ body (sh.bindings.map (·.2))

end DraftSharing

/-- The bound drafts have the bound texts, and may be outside. -/
structure ShowsSharing (k : Converter) (A : Placement) (sh : DraftSharing) (sh' : Sharing) : Prop where
  texts : sh.bindings.map (fun b => (b.1, b.2.text k)) = sh'.bindings
  fits : ∀ b ∈ sh.bindings, b.2.Fits A

/-- What stands for an operand may be in the bodies of functions that share. -/
structure ShowsShared (k : Converter) (A : Placement) (r : Draft × DraftSharing) (r' : String × Sharing) : Prop where
  operand : Shows k A.shared r.1 r'.1
  sharing : ShowsSharing k A r.2 r'.2

theorem ShowsSharing.empty : ShowsSharing k A {} {} := ⟨rfl, nofun⟩

theorem ShowsSharing.isEmpty {sh : DraftSharing} {sh' : Sharing} (h : ShowsSharing k A sh sh') :
    sh'.isEmpty = sh.bindings.isEmpty := by
  rw [Sharing.isEmpty, ← h.texts, List.isEmpty_map]

theorem share_tracks {sh : DraftSharing} {sh' : Sharing} (hsh : ShowsSharing k A sh sh') {e : Expr} {d : Draft}
    {t : String}
    (hd : Shows k A d t) (hplain : e.isPlain = true → d.Fits A.shared) :
    Tracks (ShowsShared k A) (sh.share e d) (sh'.share e t) := by
  obtain ⟨rfl, hfits⟩ := hd
  refine .ite (fun h => ?_) fun _ => ?_
  · exact .pure ⟨⟨rfl, fits_operand.mpr (hplain h)⟩, hsh⟩
  · refine .same _ fun n => .pure ⟨⟨rfl, by simp⟩, ?_⟩
    obtain ⟨htexts, hall⟩ := hsh
    refine ⟨by rw [List.map_append, htexts]; rfl,
      List.forall_mem_append.mpr ⟨hall, List.forall_mem_singleton.mpr hfits⟩⟩

theorem wrap_shows {sh : DraftSharing} {sh' : Sharing} (hsh : ShowsSharing k A sh sh') {body : Draft} {t : String}
    (h : Shows k A.shared body t) : Shows k A (sh.wrap body) (sh'.wrap t) := by
  have hempty := hsh.isEmpty
  obtain ⟨rfl, hbody⟩ := h
  obtain ⟨htexts, hall⟩ := hsh
  unfold DraftSharing.wrap Sharing.wrap
  rw [hempty]
  split
  · exact ⟨rfl, hbody.mono fun _ _ h => h.1⟩
  · refine ⟨?_, fits_call.mpr ⟨?_, List.forall_mem_map.mpr hall⟩⟩
    · rw [← htexts, List.map_map, List.map_map, text_call, List.map_map]
      simp only [Made.head, ← String.append_assoc]
      rfl
    · exact hbody.mono fun _ _ h => h.2 .sharing (by decide) _

namespace Converter

def draftShared (k : Converter) (sh : DraftSharing) (e : Expr) : Emit (Draft × DraftSharing) := do
  sh.share e (← k.draft e)

/-- Only of a plain operand it is asked that it may be in the bodies of functions that share. -/
theorem draftOnce_tracks (hA : AdmitsParts A Y) {e : Expr} (he : Y e) :
    Tracks (fun d t => Shows k A d t ∧ (e.isPlain = true → d.Fits A.shared)) (k.draft e) (k.expr e) := by
  by_cases hplain : e.isPlain = true
  · have h := draft_tracks (k := k) (hA.shared he hplain)
    exact fun s => ⟨⟨⟨(h s).1.text, (h s).1.fits.mono fun _ _ h => h.1⟩, fun _ => (h s).1.fits⟩, (h s).2⟩
  · have h := draft_tracks (k := k) (hA.outside he)
    exact fun s => ⟨⟨(h s).1, fun hp => absurd hp hplain⟩, (h s).2⟩

theorem draftShared_tracks (hA : AdmitsParts A Y) {sh : DraftSharing} {sh' : Sharing} (hsh : ShowsSharing k A sh sh')
    {e : Expr} (he : Y e) : Tracks (ShowsShared k A) (k.draftShared sh e) (k.shared sh' e) :=
  .bind (draftOnce_tracks hA he) fun _ _ hd => share_tracks hsh hd.1 hd.2

end Converter

/-! ## Arguments of calls -/

/-- The draft at an index, else nothing. -/
def Draft.nth (ds : List Draft) (i : Nat) : Draft := ds[i]?.getD (code "")

theorem Draft.text_nth (ds : List Draft) (i : Nat) : (nth ds i).text k = ((ds.map (text k))[i]?).getD "" := by
  rw [nth, List.getElem?_map]
  cases ds[i]? <;> rfl

theorem Draft.fits_nth {ds : List Draft} (h : ∀ d ∈ ds, d.Fits A) (i : Nat) : (nth ds i).Fits A := by
  unfold nth
  cases hi : ds[i]? with
  | none => exact fits_code _
  | some d => exact h d (List.mem_of_getElem? hi)

namespace Converter

variable (k : Converter)

def draftArgument (call : Call) (i : Nat) : Emit Draft :=
  match call.arg? i with
  | some e => k.draft e
  | none => return code ""

def draftArgumentOperand (call : Call) (i : Nat) : Emit Draft :=
  match call.arg? i with
  | some e => k.draftOperand e
  | none => return code ""

variable {k : Converter}

theorem Call.arg_mem {call : Call} {i : Nat} {e : Expr} (h : call.arg? i = some e) : ∃ a ∈ call.args, a.expr = e := by
  obtain ⟨a, ha, rfl⟩ := Option.map_eq_some_iff.mp h
  exact ⟨a, List.mem_of_getElem? ha, rfl⟩

theorem draftArgument_tracks {call : Call} (h : ∀ a ∈ call.args, A.At a.expr) (i : Nat) :
    Tracks (Shows k A) (k.draftArgument call i) (k.argument call i) := by
  unfold draftArgument argument
  cases hi : call.arg? i with
  | none => exact .pure ⟨rfl, by simp⟩
  | some e =>
    obtain ⟨a, ha, rfl⟩ := Call.arg_mem hi
    exact draft_tracks (h a ha)

theorem draftArgumentOperand_tracks {call : Call} (h : ∀ a ∈ call.args, A.At a.expr) (i : Nat) :
    Tracks (Shows k A) (k.draftArgumentOperand call i) (k.argumentOperand call i) := by
  unfold draftArgumentOperand argumentOperand
  cases hi : call.arg? i with
  | none => exact .pure ⟨rfl, by simp⟩
  | some e =>
    obtain ⟨a, ha, rfl⟩ := Call.arg_mem hi
    exact draftOperand_tracks (h a ha)

end Converter

/-! ## Format strings -/

def FormatPiece.draft (values : List Draft) : FormatPiece → Draft
  | .text cs => name (Script.escapeTemplate (String.ofList cs))
  | .hole index _ => code "$\x7b" ++ nth values index ++ code "\x7d"

theorem FormatPiece.draft_shows {values : List Draft} (h : ∀ d ∈ values, d.Fits A) (p : FormatPiece) :
    Shows k A (p.draft values) (p.render (values.map (Draft.text k))) := by
  cases p with
  | text cs => exact ⟨rfl, by simp [draft]⟩
  | hole index format =>
    exact ⟨by simp (disch := decide) only [draft, text_append, text_code, text_nth]; rfl, by simp [draft, fits_nth h]⟩

namespace Converter

def draftFormat? (k : Converter) (template : Expr) (args : List Argument) : Emit (Option Draft) :=
  match template.stringLiteral?.bind fun s => FormatPiece.parse? s.toList with
  | none => return none
  | some pieces =>
    if pieces.all (FormatPiece.fits args.length) then do
      let values ← k.draftArguments args
      if pieces.any FormatPiece.dropsFormat then
        Emit.report (.lossy "composite_format" template.span "alignment or format specifier dropped")
      return some (code "`" ++ joined "" (pieces.map (FormatPiece.draft values)) ++ code "`")
    else return none

theorem draftFormat_tracks (template : Expr) {args : List Argument} (h : ∀ a ∈ args, A.At a.expr) :
    Tracks (ShowsAny k A) (k.draftFormat? template args) (k.compositeFormat? template args) := by
  unfold draftFormat? compositeFormat?
  cases template.stringLiteral?.bind fun s => FormatPiece.parse? s.toList with
  | none => exact .pure ⟨rfl, nofun⟩
  | some pieces =>
    refine .ite (fun _ => ?_) fun _ => .pure ⟨rfl, nofun⟩
    refine .bind (draftArguments_tracks h) fun values ts ⟨hts, hvalues⟩ => ?_
    subst hts
    have hpieces := fun p => FormatPiece.draft_shows (k := k) hvalues p
    have hformat : Shows k A (code "`" ++ joined "" (pieces.map (FormatPiece.draft values)) ++ code "`")
        ("`" ++ String.join (pieces.map (FormatPiece.render (values.map (text k)))) ++ "`") := by
      refine ⟨?_, by simpa using fun p _ => (hpieces p).fits⟩
      have htexts : (pieces.map (FormatPiece.draft values)).map (text k) =
          pieces.map (FormatPiece.render (values.map (text k))) := by
        rw [List.map_map]
        exact List.map_congr_left fun p _ => (hpieces p).text
      simp (disch := decide) only [text_append, text_code, text_joined, htexts, intercalate_empty]
    have hsome : Tracks (ShowsAny k A) (pure (some _)) (pure (some _)) :=
      .pure ⟨congrArg some hformat.text, fun d hd => by cases hd; exact hformat.fits⟩
    by_cases hdrops : pieces.any FormatPiece.dropsFormat
    · simp only [hdrops, if_true]
      exact .same _ fun _ => hsome
    · simp only [hdrops]
      exact hsome

end Converter

end ComponentScript
