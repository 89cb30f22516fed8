/-
  ComponentScript.Proofs.Convert.InterpolatedStrings — interpolated strings as template
  literals.

  The texts of an interpolated string are escaped one by one. Two of them can be next to
  each other, and then a dollar sign at the end of the one and a brace at the beginning of
  the other are a substitution in the template (`Straddles`).
  - `Pieces.templateBody`: the pieces of a template are read back as they are exactly if no
    texts straddle a substitution.
  - `interpolated_keeps_parts`: the template of an interpolated string, read back, has the
    converted expressions as its substitutions, in order and no others, and the source texts
    around them, exactly if no texts straddle a substitution.
-/

import ComponentScript.Proofs.Convert.Dependence
import ComponentScript.Proofs.Convert.LexicallyClosed
import ComponentScript.Proofs.Convert.NodeCalls
import ComponentScript.Proofs.Script.TemplateLiteral

namespace ComponentScript

open Script

theorem Script.unitsOf_append (cs ds : List Char) : unitsOf (cs ++ ds) = unitsOf cs ++ unitsOf ds :=
  List.flatMap_append

namespace InterpolationPart

/-! ## Parts -/

/-- The source texts before, between and behind the expressions. -/
def sections : List InterpolationPart → List String
  | [] => [""]
  | .text t :: ps => (sections ps).modifyHead (t ++ ·)
  | .expr _ _ :: ps => "" :: sections ps

theorem sections_ne_nil (ps : List InterpolationPart) : sections ps ≠ [] := by
  induction ps with
  | nil => simp [sections]
  | cons p ps ih => cases p <;> simp [sections, ih]

variable {ps : List InterpolationPart}

/-! ## Pieces of a template -/

/-- The pieces of a template for the parts, with the texts `ts` for the expressions. -/
inductive Pieces : List InterpolationPart → List String → List String → Prop
  | nil : Pieces [] [] []
  | text {ps : List InterpolationPart} {ts us : List String} (t : String) :
      Pieces ps ts us → Pieces (.text t :: ps) ts (escapeTemplate t :: us)
  | expr {ps : List InterpolationPart} {ts us : List String} (e : Expr) (format? : Option String) (t : String) :
      Pieces ps ts us → Pieces (.expr e format? :: ps) (t :: ts) (substitution t :: us)

/-- The value of a template that keeps the parts. -/
def value (ps : List InterpolationPart) (ts : List String) : TemplateValue :=
  ⟨(sections ps).map fun t => unitsOf t.toList, ts.map String.toList⟩

theorem value_text (t : String) (ts : List String) :
    value (.text t :: ps) ts = (value ps ts).cook (unitsOf t.toList) := by
  rw [value, value, sections]
  cases hs : sections ps with
  | nil => exact absurd hs (sections_ne_nil ps)
  | cons u us => simp [TemplateValue.cook, unitsOf_append]

theorem value_expr (e : Expr) (format? : Option String) (t : String) (ts : List String) :
    value (.expr e format? :: ps) (t :: ts) = (value ps ts).substituted t.toList := rfl

/-- The characters of a template behind its first backtick. -/
def bodyOf (us : List String) : List Char := (String.join us).toList ++ ['\x60']

theorem bodyOf_cons (u : String) (us : List String) : bodyOf (u :: us) = u.toList ++ bodyOf us := by
  simp [bodyOf, String.join_cons]

theorem toList_template (us : List String) : ("`" ++ String.join us ++ "`").toList = '\x60' :: bodyOf us := by
  simp [bodyOf]

namespace Pieces

variable {ts us : List String}

/-- A template begins with a brace where a text with one comes first. -/
theorem head_bodyOf (h : Pieces ps ts us) : (bodyOf us).head? = some '\x7b' ↔ braceFirst ps = true := by
  induction h with
  | nil => simp [bodyOf, braceFirst]
  | text t _ ih =>
    rw [bodyOf_cons, escapeTemplate, String.toList_ofList, braceFirst]
    cases t.toList with
    | nil => simpa [templateChars] using ih
    | cons c cs =>
      simp only [List.head?_cons, decide_eq_true_eq]
      constructor
      · exact head_templateChars cs _
      · rintro rfl
        rfl
  | expr e format? t _ _ =>
    rw [bodyOf_cons]
    simp [substitution, braceFirst]

/-- The pieces are read back as they are exactly if no texts straddle a substitution. -/
theorem templateBody (h : Pieces ps ts us) (hclosed : ∀ t ∈ ts, Closed t) :
    Script.templateBody (.text .text) (bodyOf us) = some (value ps ts) ↔ ¬ Straddles ps := by
  induction h with
  | nil => exact iff_of_true rfl not_straddles_nil
  | @text ps ts us t hpieces ih =>
    rw [bodyOf_cons, escapeTemplate, String.toList_ofList, straddles_text, value_text, not_or]
    by_cases hopen : t.toList.getLast? = some '$' ∧ braceFirst ps = true
    · -- the text that is read ends before the dollar sign, the source text behind it
      obtain ⟨cs, hcs⟩ := List.getLast?_eq_some_iff.mp hopen.1
      refine iff_of_false ?_ fun hno => hno.1 hopen
      rw [hcs, templateBody_straddling cs (hpieces.head_bodyOf.mpr hopen.2)]
      intro hread
      obtain ⟨v, -, hv⟩ := Option.map_eq_some_iff.mp hread
      have hfirst := congrArg (fun v : TemplateValue => v.texts.head?.map List.length) hv
      cases hs : sections ps with
      | nil => exact sections_ne_nil ps hs
      | cons u us => simp [TemplateValue.cook, TemplateValue.opened, value, hs, unitsOf, codeUnits] at hfirst
    · have hhead : ¬ (t.toList.getLast? = some '$' ∧ (bodyOf us).head? = some '\x7b') := by
        rwa [hpieces.head_bodyOf]
      rw [templateBody_templateChars _ hhead, ← ih hclosed]
      refine Iff.trans ?_ (and_iff_right hopen).symm
      exact (Option.map_injective (TemplateValue.cook_injective _)).eq_iff (b := some (value ps ts))
  | @expr ps ts us e format? t hpieces ih =>
    obtain ⟨ht, hts⟩ := List.forall_mem_cons.mp hclosed
    rw [bodyOf_cons, templateBody_substitution ht, straddles_expr, value_expr, ← ih hts]
    exact (Option.map_injective (TemplateValue.substituted_injective _)).eq_iff (b := some (value ps ts))

end Pieces

end InterpolationPart

/-! ## Conversion -/

/-- The two runs have counted the same, whatever they reported. -/
def Ledger.counted : Ledger where
  rel n _ n' _ := n = n'
  counter_eq h := h
  draw h := congrArg (· + 1) h
  report _ h := h

/-- The expression in a part is converted behind the report of its format. -/
theorem Converter.interpolationPart_out (k : Converter) (span : Span) (e : Expr) (format? : Option String)
    {p : Place} {s s' : Session} (h : Linked .counted (.both p) s s') :
    ∃ t : Session, Linked .counted (.both p) t s' ∧
      (k.interpolationPart span (.expr e format?)).out s =
        (substitution ((k.expr e).out t).1, ((k.expr e).out t).2) := by
  cases format? with
  | none => exact ⟨s, h, rfl⟩
  | some format => exact ⟨s.report _, ⟨h.left, h.right, h.ledger⟩, rfl⟩

namespace Engine

open InterpolationPart

variable (settings : Settings) (m : Model)

/-- What the parts give is their pieces, with the texts that the expressions have when they are
    converted one after the other. The reports of dropped formats make no difference. -/
theorem interpolationParts_pieces (span : Span) (parts : List InterpolationPart) {p : Place} {s s' : Session}
    (h : Linked .counted (.both p) s s') :
    Pieces parts
      (((parts.filterMap InterpolationPart.expr?).mapM (converter { settings := settings } m).expr).out s').1
      ((parts.mapM ((converter { settings := settings } m).interpolationPart span)).out s).1 := by
  induction parts generalizing s s' with
  | nil => exact .nil
  | cons part parts ih =>
    rw [List.mapM_cons]
    cases part with
    | text t => exact .text t (ih h)
    | expr e format? =>
      have hstep : Lockstep .counted (.both p) (.both p) ((converter { settings := settings } m).expr e)
          ((converter { settings := settings } m).expr e) :=
        (converter_covered (builtin_local settings) (.refl m [Parts.expr [] e]) (.refl p) [] _ (.self _) []).exprAs none
      obtain ⟨t, ht, hout⟩ := Converter.interpolationPart_out (converter { settings := settings } m) span e format? h
      obtain ⟨htext, hnext⟩ := hstep t s' ht
      have hexprs : (InterpolationPart.expr e format? :: parts).filterMap expr? = e :: parts.filterMap expr? := rfl
      rw [hexprs, List.mapM_cons]
      simp only [Emit.out_bind, Emit.out_pure, hout, htext]
      exact .expr e format? _ (ih hnext)

/-- The text of an interpolated string is a template of pieces. -/
theorem interpolated_text (span : Span) (parts : List InterpolationPart) (expected? : Option TypeRef) (s : Session) :
    ∃ us, Pieces parts
        (((parts.filterMap InterpolationPart.expr?).mapM (converter { settings := settings } m).expr).out s).1 us ∧
      (((converter { settings := settings } m).exprAs expected? ⟨span, .interpolated parts⟩).out s).1.toList =
        '\x60' :: bodyOf us := by
  have hself : Linked .counted (.both s.place) s s := ⟨rfl, rfl, rfl⟩
  refine ⟨_, interpolationParts_pieces settings m span parts hself, ?_⟩
  rw [exprAs_eq_defaultExpr settings m rfl]
  exact toList_template _

end Engine

open InterpolationPart in
/-- Interpolated strings keep their parts, unless texts straddle a substitution. With the
    built-in rules and the default settings, whatever the model: the text of an interpolated
    string is one template literal. Its substitutions are the texts of the expressions, in
    order and with no others, and its cooked texts are the source texts around them,
    exactly if no text that ends in a dollar sign comes before text that begins with a brace.
    The texts of the expressions have to be closed, and those of well-named ones are. -/
theorem interpolated_keeps_parts (m : Model) (span : Span) (parts : List InterpolationPart)
    (expected? : Option TypeRef) (s : Session) :
    let k := ({} : Engine).converter m
    let ts := (((parts.filterMap InterpolationPart.expr?).mapM k.expr).out s).1
    ((∀ t ∈ ts, Closed t) →
      (templateValue? ((k.exprAs expected? ⟨span, .interpolated parts⟩).out s).1 =
          some ⟨(sections parts).map fun t => unitsOf t.toList, ts.map String.toList⟩ ↔
        ¬ Straddles parts)) ∧
    (s.NamesCatches → (∀ e ∈ parts.filterMap InterpolationPart.expr?, (Node.expr e).WellNamed) →
      ∀ t ∈ ts, Closed t) := by
  intro k ts
  constructor
  · intro hclosed
    obtain ⟨us, hpieces, htext⟩ := Engine.interpolated_text {} m span parts expected? s
    rw [templateValue?, htext]
    exact hpieces.templateBody hclosed
  · intro hs hnamed
    have hk : k.Closing := Engine.converter_closing Engine.builtin_closing m
    exact (Converter.exprs_closed hk hnamed s hs).1

open InterpolationPart in
/-- A dollar sign and a name in braces behind it: the name is read as a substitution. -/
theorem interpolated_keeps_parts_straddling :
    let parts : List InterpolationPart := [.text "$", .text "\x7bx\x7d"]
    let text := (((({} : Engine).converter .empty).exprAs none ⟨{}, .interpolated parts⟩).out {}).1
    Straddles parts ∧ templateValue? text ≠ some ⟨[unitsOf "$\x7bx\x7d".toList], []⟩ := by
  intro parts text
  have hstraddles : Straddles parts := ⟨"$", [.text "\x7bx\x7d"], List.suffix_rfl, by decide, by decide⟩
  refine ⟨hstraddles, fun h => ?_⟩
  have hiff := (interpolated_keeps_parts .empty {} parts none {}).1 (List.forall_mem_nil _)
  exact hiff.mp h hstraddles

end ComponentScript
