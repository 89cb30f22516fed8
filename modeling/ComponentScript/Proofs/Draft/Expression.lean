/-
  ComponentScript.Proofs.Draft.Expression — drafts of the expressions that no rule is for.

  `draftDefault_tracks`: the draft of an expression by its kind has the text of the expression,
  and its parts are the inner expressions. A function is made around what fills a new object.
  A function of the source is drafted as a whole.
-/

import ComponentScript.Convert.Expression
import ComponentScript.Proofs.Draft.Pattern

namespace ComponentScript

open Text Draft

variable {A : Placement}

namespace Converter

/-! ## New objects -/

def draftObject (entries : List Draft) : Draft :=
  if entries.isEmpty then code "\x7b\x7d" else code "\x7b " ++ joined ", " entries ++ code " \x7d"

def draftSpread (source? : Option Draft) : List Draft := (source?.map (code "..." ++ ·)).toList

def draftSet (source? : Option Draft) (elements : List Draft) : Draft :=
  match source?, elements with
  | none, [] => code "new Set()"
  | some source, [] => code "new Set(" ++ source ++ code ")"
  | _, _ => code "new Set([" ++ joined ", " (draftSpread source? ++ elements) ++ code "])"

variable (k : Converter)

def draftMemberEntry (rename : String → String) (m : MemberInit) : Emit Draft := do
  let value ← k.draft m.value
  return name (Script.objectKey (rename m.name)) ++ code ": " ++ value

def draftObjectLiteral (members : List MemberInit) : Emit Draft := do
  return draftObject (← members.mapM (k.draftMemberEntry Script.camelCase))

def draftDictEntry (d : DictEntry) : Emit Draft := do
  let key ← match d.key.stringLiteral? with
    | some s => pure (name (Script.objectKey s))
    | none => do
      let key ← k.draft d.key
      pure (code "[" ++ key ++ code "]")
  let value ← k.draft d.value
  return key ++ code ": " ++ value

def draftEntryAssignment (d : DictEntry) : Emit Draft := do
  let key ← k.draft d.key
  let value ← k.draft d.value
  return code "[" ++ key ++ code "] = " ++ value

def draftPopulated (created : Draft) (lines : String → List Draft) : Emit Draft := do
  let target ← Emit.freshName "obj"
  let body := (code "const " ++ name target ++ code " = " ++ created ++ code ";") :: lines target ++
    [code "return " ++ name target ++ code ";"]
  return Draft.call ⟨.population, false, []⟩ (.block body k.indent) []

def draftElements : Option Initializer → Emit (List Draft)
  | some (.collection es) => k.draftAll es
  | _ => return []

def draftEntries : Option Initializer → Emit (List Draft)
  | some (.dictionary ds) => ds.mapM k.draftDictEntry
  | some (.object members) => members.mapM (k.draftMemberEntry id)
  | _ => return []

def draftCopied : List Argument → Emit (Option Draft)
  | [arg] => if k.isCapacity arg.expr then return none else return some (← k.draft arg.expr)
  | _ => return none

def draftInstance (type : String) (args : List Argument) (initializer? : Option Initializer) : Emit Draft := do
  let args ← k.draftArguments args
  let created := code "new " ++ name type ++ code "(" ++ joined ", " args ++ code ")"
  match initializer? with
  | none => return created
  | some (.object members) =>
    if members.isEmpty then return created
    else
      let fields ← k.draftObjectLiteral members
      return code "Object.assign(" ++ created ++ code ", " ++ fields ++ code ")"
  | some (.collection es) => do
    let values ← k.draftAll es
    k.draftPopulated created fun target => values.map fun value => name target ++ code ".add(" ++ value ++ code ");"
  | some (.dictionary ds) => do
    let assignments ← ds.mapM k.draftEntryAssignment
    k.draftPopulated created fun target => assignments.map fun assignment => name target ++ assignment ++ code ";"

def draftCreation (e : Expr) (type? : Option TypeRef) (args : List Argument) (initializer? : Option Initializer) :
    Emit Draft :=
  match type? with
  | none => do
    Emit.report (.lossy "object_creation" e.span "target type of `new()` is unknown; emitted a plain object")
    match initializer? with
    | some (.object members) => k.draftObjectLiteral members
    | _ => return draftObject []
  | some type => do
    let source? ← k.draftCopied args
    match k.creationCategory e type with
    | .list | .sequence =>
      let elements ← k.draftElements initializer?
      return code "[" ++ joined ", " (draftSpread source? ++ elements) ++ code "]"
    | .set => return draftSet source? (← k.draftElements initializer?)
    | .map => return draftObject (draftSpread source? ++ (← k.draftEntries initializer?))
    | _ => k.draftInstance type.simpleName args initializer?

def draftArray (elementType? : Option TypeRef) (size? : Option Expr) (elements : List Expr) : Emit Draft :=
  match size?, elements with
  | some size, [] => do
    let size ← k.draft size
    return code "new Array(" ++ size ++ code ").fill(" ++ name (defaultValue elementType?) ++ code ")"
  | _, _ => do
    let items ← k.draftAll elements
    return code "[" ++ joined ", " items ++ code "]"

variable {k : Converter}

theorem draftObject_shows {ds : List Draft} {ts : List String} (h : ShowsAll k A ds ts) :
    Shows k A (draftObject ds) (objectText ts) := by
  obtain ⟨rfl, hds⟩ := h
  simp only [draftObject, objectText, List.isEmpty_map]
  split
  · exact ⟨rfl, by simp⟩
  · exact ⟨by simp (disch := decide) only [text_append, text_code, text_joined]; rfl, by simpa using hds⟩

theorem draftSpread_shows {source? : Option Draft} {t? : Option String} (h : ShowsAny k A source? t?) :
    ShowsAll k A (draftSpread source?) (spreadOf t?) := by
  obtain ⟨rfl, hsource⟩ := h
  cases source? with
  | none => exact .nil
  | some source => exact .cons ⟨rfl, by simpa using hsource source rfl⟩ .nil

theorem draftSet_shows {source? : Option Draft} {t? : Option String} {ds : List Draft} {ts : List String}
    (h : ShowsAny k A source? t?) (hs : ShowsAll k A ds ts) : Shows k A (draftSet source? ds) (newSet t? ts) := by
  have hall := (draftSpread_shows h).append hs
  obtain ⟨rfl, hsource⟩ := h
  obtain ⟨rfl, hds⟩ := hs
  have hitems : Shows k A (code "new Set([" ++ joined ", " (draftSpread source? ++ ds) ++ code "])")
      s!"new Set([{commaList (spreadOf (source?.map (text k)) ++ ds.map (text k))}])" :=
    ⟨by simp (disch := decide) only [text_append, text_code, text_joined, hall.texts]; rfl, by simpa using hall.fits⟩
  rcases source? with _ | source
  · cases ds with
    | nil => exact ⟨rfl, by simp [draftSet]⟩
    | cons d ds => exact hitems
  · cases ds with
    | nil => exact ⟨by simp (disch := decide) only [draftSet, text_append, text_code]; rfl,
      by simpa [draftSet] using hsource source rfl⟩
    | cons d ds => exact hitems

theorem draftMemberEntry_tracks (rename : String → String) {m : MemberInit} (h : A.At m.value) :
    Tracks (Shows k A) (k.draftMemberEntry rename m) (k.memberEntry rename m) := by
  refine .bind (draft_tracks h) ?_
  rintro d _ ⟨rfl, hd⟩
  exact .pure ⟨by simp (disch := decide) only [text_append, text_code, text_name]; rfl, by simp [hd]⟩

theorem draftObjectLiteral_tracks {members : List MemberInit} (h : ∀ m ∈ members, A.At m.value) :
    Tracks (Shows k A) (k.draftObjectLiteral members) (k.objectLiteral members) :=
  .bind (.mapM fun m hm => draftMemberEntry_tracks _ (h m hm)) fun _ _ hds => .pure (draftObject_shows hds)

theorem draftDictEntry_tracks {d : DictEntry} (hkey : A.At d.key) (hvalue : A.At d.value) :
    Tracks (Shows k A) (k.draftDictEntry d) (k.dictEntry d) := by
  have hentry : ∀ {key t}, Shows k A key t → Tracks (Shows k A)
      (do let value ← k.draft d.value; return key ++ code ": " ++ value)
      (do let value ← k.expr d.value; return s!"{t}: {value}") := by
    rintro key t ⟨ht, hd⟩
    refine .bind (draft_tracks hvalue) ?_
    rintro value t' ⟨ht', hv⟩
    subst ht ht'
    exact .pure ⟨by simp (disch := decide) only [text_append, text_code]; rfl, by simp [hd, hv]⟩
  unfold draftDictEntry dictEntry
  cases d.key.stringLiteral? with
  | some s => exact hentry ⟨rfl, by simp⟩
  | none =>
    simp only [pure_bind]
    refine .bind (draft_tracks hkey) ?_
    rintro key t ⟨ht, hd⟩
    refine hentry ?_
    subst ht
    exact ⟨by simp (disch := decide) only [text_append, text_code]; rfl, by simp [hd]⟩

theorem draftEntryAssignment_tracks {d : DictEntry} (hkey : A.At d.key) (hvalue : A.At d.value) :
    Tracks (Shows k A) (k.draftEntryAssignment d) (k.entryAssignment d) := by
  refine .bind (draft_tracks hkey) ?_
  rintro key t ⟨ht, hd⟩
  refine .bind (draft_tracks hvalue) ?_
  rintro value t' ⟨ht', hv⟩
  subst ht ht'
  exact .pure ⟨by simp (disch := decide) only [text_append, text_code]; rfl, by simp [hd, hv]⟩

/-- The function that fills a new object. -/
abbrev populating : Made := ⟨.population, false, []⟩

theorem draftPopulated_tracks {created : Draft} {t : String} (h : Shows k (A.inside populating) created t)
    {lines : String → List Draft} {lines' : String → List String}
    (hl : ∀ target, ShowsAll k (A.inside populating) (lines target) (lines' target)) :
    Tracks (Shows k A) (k.draftPopulated created lines) (k.populated t lines') := by
  refine .same _ fun target => .pure ?_
  have hfirst : Shows k (A.inside populating) (code "const " ++ name target ++ code " = " ++ created ++ code ";")
      s!"const {target} = {t};" := by
    obtain ⟨rfl, hd⟩ := h
    exact ⟨by simp (disch := decide) only [text_append, text_code, text_name]; rfl, by simp [hd]⟩
  have hlast : Shows k (A.inside populating) (code "return " ++ name target ++ code ";") s!"return {target};" :=
    ⟨by simp (disch := decide) only [text_append, text_code, text_name]; rfl, by simp⟩
  have hbody := ShowsAll.append (.cons hfirst (hl target)) (.cons hlast .nil)
  exact ⟨by simp only [text_call_nil, text_block, hbody.texts, Made.head, ← String.append_assoc]; rfl,
    by simpa using hbody.fits⟩

theorem draftElements_tracks {i? : Option Initializer} (h : ∀ e ∈ i?.toList.flatMap Initializer.exprs, A.At e) :
    Tracks (ShowsAll k A) (k.draftElements i?) (k.elements i?) := by
  rcases i? with _ | ms | es | ds
  · exact .pure .nil
  · exact .pure .nil
  · exact draftAll_tracks (by simpa [Initializer.exprs] using h)
  · exact .pure .nil

theorem draftEntries_tracks {i? : Option Initializer} (h : ∀ e ∈ i?.toList.flatMap Initializer.exprs, A.At e) :
    Tracks (ShowsAll k A) (k.draftEntries i?) (k.entries i?) := by
  rcases i? with _ | ms | es | ds
  · exact .pure .nil
  · exact .mapM fun m hm => draftMemberEntry_tracks _ (h _ (by simpa [Initializer.exprs] using ⟨m, hm, rfl⟩))
  · exact .pure .nil
  · refine .mapM fun d hd => draftDictEntry_tracks (h _ ?_) (h _ ?_)
    · simpa [Initializer.exprs] using ⟨d, hd, .inl rfl⟩
    · simpa [Initializer.exprs] using ⟨d, hd, .inr rfl⟩

theorem draftCopied_tracks {args : List Argument} (h : ∀ a ∈ args, A.At a.expr) :
    Tracks (ShowsAny k A) (k.draftCopied args) (k.copied args) := by
  rcases args with _ | ⟨arg, _ | ⟨arg', args⟩⟩
  · exact .pure ⟨rfl, nofun⟩
  · refine .ite (fun _ => .pure ⟨rfl, nofun⟩) fun _ => ?_
    refine .bind (draft_tracks (h arg (List.mem_singleton.mpr rfl))) ?_
    rintro d t ⟨ht, hd⟩
    refine .pure ⟨congrArg some ht, ?_⟩
    intro d' hd'
    cases hd'
    exact hd
  · exact .pure ⟨rfl, nofun⟩

/-- An instance takes its arguments, and where it is filled, the function around takes all. -/
theorem draftInstance_tracks (type : String) {args : List Argument} {i? : Option Initializer}
    (hargs : ∀ a ∈ args, A.At a.expr ∧ (A.inside populating).At a.expr)
    (hi : ∀ e ∈ i?.toList.flatMap Initializer.exprs, A.At e ∧ (A.inside populating).At e) :
    Tracks (Shows k A) (k.draftInstance type args i?) (k.newInstance type args i?) := by
  have hboth : ∀ a ∈ args, Placement.At (fun f? p => A f? p ∧ A.inside populating f? p) a.expr :=
    fun a ha expected? s => ⟨(hargs a ha).1 expected? s, (hargs a ha).2 expected? s⟩
  refine .bind (draftArguments_tracks hboth) ?_
  rintro ds _ ⟨rfl, hds⟩
  have hcreated : Shows k (fun f? p => A f? p ∧ A.inside populating f? p)
      (code "new " ++ name type ++ code "(" ++ joined ", " ds ++ code ")")
      s!"new {type}({commaList (ds.map (text k))})" :=
    ⟨by simp (disch := decide) only [text_append, text_code, text_name, text_joined]; rfl, by simpa using hds⟩
  have hfits := hcreated.fits.mono (B := A) fun _ _ h => h.1
  have hinside : Shows k (A.inside populating) _ _ := ⟨hcreated.text, hcreated.fits.mono fun _ _ h => h.2⟩
  rcases i? with _ | ms | es | entries
  · exact .pure ⟨hcreated.text, hfits⟩
  · refine .ite (fun _ => .pure ⟨hcreated.text, hfits⟩) fun _ => ?_
    have hms : ∀ m ∈ ms, A.At m.value := fun m hm => (hi _ (by simpa [Initializer.exprs] using ⟨m, hm, rfl⟩)).1
    refine .bind (draftObjectLiteral_tracks hms) ?_
    rintro fields _ ⟨rfl, hd⟩
    exact .pure ⟨by simp (disch := decide) only [text_append, text_code, ← hcreated.text]; rfl, by simp [hd, hfits]⟩
  · have hes : ∀ e ∈ es, (A.inside populating).At e := fun e he => (hi e (by simpa [Initializer.exprs] using he)).2
    refine .bind (draftAll_tracks hes) fun values ts hvalues => draftPopulated_tracks hinside fun target => ?_
    refine hvalues.map ?_
    rintro d _ ⟨rfl, hd⟩
    exact ⟨by simp (disch := decide) only [text_append, text_code, text_name]; rfl, by simp [hd]⟩
  · have hentries : ∀ d ∈ entries, (A.inside populating).At d.key ∧ (A.inside populating).At d.value := fun d hd =>
      ⟨(hi _ (by simpa [Initializer.exprs] using ⟨d, hd, .inl rfl⟩)).2,
        (hi _ (by simpa [Initializer.exprs] using ⟨d, hd, .inr rfl⟩)).2⟩
    refine .bind (.mapM fun d hd => draftEntryAssignment_tracks (hentries d hd).1 (hentries d hd).2) ?_
    refine fun values ts hvalues => draftPopulated_tracks hinside fun target => hvalues.map ?_
    rintro d _ ⟨rfl, hd⟩
    exact ⟨by simp (disch := decide) only [text_append, text_code, text_name]; rfl, by simp [hd]⟩

theorem draftCreation_tracks (e : Expr) (type? : Option TypeRef) {args : List Argument} {i? : Option Initializer}
    (hargs : ∀ a ∈ args, A.At a.expr ∧ (A.inside populating).At a.expr)
    (hi : ∀ e ∈ i?.toList.flatMap Initializer.exprs, A.At e ∧ (A.inside populating).At e) :
    Tracks (Shows k A) (k.draftCreation e type? args i?) (k.creation e type? args i?) := by
  cases type? with
  | none =>
    refine .same _ fun _ => ?_
    rcases i? with _ | ms | es | ds
    · exact .pure (draftObject_shows .nil)
    · exact draftObjectLiteral_tracks fun m hm => (hi _ (by simpa [Initializer.exprs] using ⟨m, hm, rfl⟩)).1
    · exact .pure (draftObject_shows .nil)
    · exact .pure (draftObject_shows .nil)
  | some type =>
    refine .bind (draftCopied_tracks fun a ha => (hargs a ha).1) fun source? t? hsource => ?_
    have hi' := fun e he => (hi e he).1
    cases k.creationCategory e type with
    | list | sequence =>
      refine .bind (draftElements_tracks hi') fun ds ts hds => .pure ?_
      obtain ⟨htexts, hfits⟩ := (draftSpread_shows hsource).append hds
      exact ⟨by simp (disch := decide) only [text_append, text_code, text_joined, htexts]; rfl, by simpa using hfits⟩
    | set => exact .bind (draftElements_tracks hi') fun ds ts hds => .pure (draftSet_shows hsource hds)
    | map =>
      exact .bind (draftEntries_tracks hi') fun ds ts hds =>
        .pure (draftObject_shows ((draftSpread_shows hsource).append hds))
    | _ => exact draftInstance_tracks type.simpleName hargs hi

theorem draftArray_tracks (elementType? : Option TypeRef) {size? : Option Expr} {elements : List Expr}
    (h : ∀ e ∈ size?.toList ++ elements, A.At e) :
    Tracks (Shows k A) (k.draftArray elementType? size? elements) (k.newArray elementType? size? elements) := by
  have hitems : Tracks (Shows k A)
      (do let items ← k.draftAll elements; return code "[" ++ joined ", " items ++ code "]")
      (do let items ← k.exprs elements; return s!"[{commaList items}]") := by
    refine .bind (draftAll_tracks fun e he => h e (List.mem_append_right _ he)) ?_
    rintro ds _ ⟨rfl, hds⟩
    exact .pure ⟨by simp (disch := decide) only [text_append, text_code, text_joined]; rfl, by simpa using hds⟩
  cases size? with
  | none => exact hitems
  | some size =>
    cases elements with
    | nil =>
      refine .bind (draft_tracks (h size (List.mem_cons_self ..))) ?_
      rintro d _ ⟨rfl, hd⟩
      exact .pure ⟨by simp (disch := decide) only [text_append, text_code, text_name]; rfl, by simp [hd]⟩
    | cons e es => exact hitems

/-! ## Kinds -/

variable (k : Converter)

def draftInterpolationPart (span : Span) : InterpolationPart → Emit Draft
  | .text text => return name (Script.escapeTemplate text)
  | .expr e format? => do
    match format? with
    | some format =>
      Emit.report (.lossy "interpolated_string" span s!"format specifier `{format}` dropped")
    | none => pure ()
    let value ← k.draft e
    return code "$\x7b" ++ value ++ code "\x7d"

def draftBinaryOperand (parent : BinaryOp) (operand : Expr) : Emit Draft := do
  let d ← k.draft operand
  return if mixesCoalesce parent operand then code "(" ++ d ++ code ")" else d

def draftUnary (op : UnaryOp) (operand : Draft) : Draft :=
  match op with
  | .not => code "!" ++ operand
  | .neg => code "-" ++ operand
  | .plus => code "+" ++ operand
  | .bitNot => code "~" ++ operand
  | .preIncrement => code "++" ++ operand
  | .preDecrement => code "--" ++ operand
  | .postIncrement => operand ++ code "++"
  | .postDecrement => operand ++ code "--"

/-- The draft of an expression by its kind. -/
def draftDefault (expected? : Option TypeRef) (e : Expr) : Emit Draft :=
  match e.kind with
  | .identifier n => do return name (k.identifier (← get) e n)
  | .this => return name k.settings.instanceReceiver
  | .base => return code "super"
  | .literal value => return name value.script
  | .interpolated parts => do
    let ds ← parts.mapM (k.draftInterpolationPart e.span)
    return code "`" ++ joined "" ds ++ code "`"
  | .binary op left right => do
    let l ← k.draftBinaryOperand op left
    let r ← k.draftBinaryOperand op right
    return l ++ code " " ++ name op.symbol ++ code " " ++ r
  | .unary op operand => do return draftUnary op (← k.draftOperand operand)
  | .assignment op target value => do
    let target ← k.draft target
    let value ← k.draft value
    return target ++ code " " ++ name op.symbol ++ code " " ++ value
  | .member receiver n => do
    let receiver ← k.draftOperand receiver
    return receiver ++ code "." ++ name (Script.camelCase n)
  | .conditionalMember receiver n => do
    let receiver ← k.draftOperand receiver
    return receiver ++ code "?." ++ name (Script.camelCase n)
  | .elementAccess receiver index => do
    let receiver ← k.draftOperand receiver
    let index ← k.draft index
    return receiver ++ code "[" ++ index ++ code "]"
  | .invocation callee _ args => do
    let callee ← k.draftOperand callee
    let args ← k.draftArguments args
    return callee ++ code "(" ++ joined ", " args ++ code ")"
  | .objectCreation type? args initializer? => k.draftCreation e (type? <|> expected?) args initializer?
  | .anonymousObject members => k.draftObjectLiteral members
  | .arrayCreation elementType? size? elements => k.draftArray elementType? size? elements
  | .conditional condition whenTrue whenFalse => do
    let condition ← k.draft condition
    let whenTrue ← k.draft whenTrue
    let whenFalse ← k.draft whenFalse
    return condition ++ code " ? " ++ whenTrue ++ code " : " ++ whenFalse
  | .lambda params body isAsync => do return .lambda (← k.lambda params body isAsync)
  | .await operand => do return code "await " ++ (← k.draftOperand operand)
  | .cast _ operand => k.draft operand
  | .patternTest operand pattern => k.draftIsTest operand pattern
  | .nameOf n => return name (Script.quote (String.ofList (afterLast '.' n.toList)))
  | .defaultOf type? => return name (defaultValue (type? <|> expected?))
  | .parenthesized inner => do return code "(" ++ (← k.draft inner) ++ code ")"
  | .switchExpr scrutinee arms => k.draftChoice scrutinee arms
  | .other nodeKind text => do return name (← Emit.verbatim nodeKind e.span text)

variable {k : Converter}

theorem intercalate_empty (ts : List String) : "".intercalate ts = String.join ts := by
  induction ts with
  | nil => rfl
  | cons t ts ih =>
    cases ts with
    | nil => rw [String.intercalate_singleton, String.join_cons]; exact String.append_empty.symm
    | cons u us => rw [String.intercalate_cons_cons, ih, String.append_empty, ← String.join_cons]

theorem draftInterpolationPart_tracks (span : Span) {p : InterpolationPart} (h : ∀ e ∈ p.expr?, A.At e) :
    Tracks (Shows k A) (k.draftInterpolationPart span p) (k.interpolationPart span p) := by
  cases p with
  | text text => exact .pure ⟨rfl, by simp⟩
  | expr e format? =>
    have hvalue : Tracks (Shows k A) (do let value ← k.draft e; return code "$\x7b" ++ value ++ code "\x7d")
        (do return Script.substitution (← k.expr e)) := by
      exact .bind (draft_tracks (h e rfl)) fun _ _ hd => .pure (hd.between (by decide) (by decide))
    cases format? with
    | none => exact .same (pure ()) fun _ => hvalue
    | some format => exact .same _ fun _ => hvalue

theorem draftBinaryOperand_tracks (parent : BinaryOp) {e : Expr} (h : A.At e) :
    Tracks (Shows k A) (k.draftBinaryOperand parent e) (k.binaryOperand parent e) := by
  refine .bind (draft_tracks h) fun d t hd => .pure ?_
  split
  · exact hd.between (by decide) (by decide)
  · exact hd

theorem draftUnary_shows (op : UnaryOp) {d : Draft} (h : d.Fits A) :
    Shows k A (draftUnary op d) (op.apply (d.text k)) := by
  cases op <;> exact ⟨rfl, by simp [draftUnary, h]⟩

/-- Where the parts of an expression may be, for its draft to fit. -/
structure Admits (A : Placement) (e : Expr) : Prop where
  inner : ∀ y ∈ e.shallowChildren, A.At y
  pattern : ∀ p, .pattern p ∈ (Node.expr e).inner → ∀ y, .expr y ∈ (Node.pattern p).nodes → A.At y
  tested : ∀ p, .pattern p ∈ (Node.expr e).inner → ∀ y, .expr y ∈ (Node.pattern p).nodes →
    ∀ subject, (A.inside ⟨.test, false, [subject]⟩).At y
  chosen : ∀ scrutinee arms, e.kind = .switchExpr scrutinee arms → ∀ y,
    (y ∈ e.shallowChildren ∨ ∃ p, .pattern p ∈ (Node.expr e).inner ∧ .expr y ∈ (Node.pattern p).nodes) →
      (A.inside ⟨.choice, scrutinee.containsAwait || arms.any SwitchArm.containsAwait, []⟩).At y
  populated : ∀ type? args i?, e.kind = .objectCreation type? args i? → ∀ y ∈ e.shallowChildren,
    (A.inside populating).At y

theorem draftDefault_tracks (expected? : Option TypeRef) {e : Expr} (h : Admits A e) :
    Tracks (Shows k A) (k.draftDefault expected? e) (k.defaultExpr expected? e) := by
  obtain ⟨hinner, hpattern, htested, hchosen, hpopulated⟩ := h
  obtain ⟨span, kind⟩ := e
  cases kind with
  | identifier n => exact .same _ fun s => .pure ⟨rfl, by simp⟩
  | this | base | literal | nameOf | defaultOf => exact .pure ⟨rfl, by simp⟩
  | other nodeKind text => exact .same (Emit.verbatim nodeKind span text) fun _ => .pure ⟨rfl, by simp⟩
  | lambda params body isAsync => exact .same (k.lambda params body isAsync) fun _ => .pure ⟨rfl, by simp⟩
  | interpolated parts =>
    have hparts : ∀ p ∈ parts, ∀ e ∈ p.expr?, A.At e := fun p hp e he => hinner e (List.mem_filterMap.mpr ⟨p, hp, he⟩)
    refine .bind (.mapM fun p hp => draftInterpolationPart_tracks span (hparts p hp)) ?_
    rintro ds _ ⟨rfl, hds⟩
    exact .pure ⟨by simp (disch := decide) only [text_append, text_code, text_joined, intercalate_empty],
      by simpa using hds⟩
  | binary op left right =>
    refine .bind (draftBinaryOperand_tracks op (hinner left (by simp [Expr.shallowChildren]))) ?_
    rintro l _ ⟨hl, fl⟩
    refine .bind (draftBinaryOperand_tracks op (hinner right (by simp [Expr.shallowChildren]))) ?_
    rintro r _ ⟨hr, fr⟩
    subst hl hr
    exact .pure ⟨by simp (disch := decide) only [text_append, text_code, text_name]; rfl, by simp [fl, fr]⟩
  | unary op operand =>
    refine .bind (draftOperand_tracks (hinner operand (List.mem_singleton.mpr rfl))) ?_
    rintro d _ ⟨rfl, hd⟩
    exact .pure (draftUnary_shows op hd)
  | assignment op target value =>
    refine .bind (draft_tracks (hinner target (by simp [Expr.shallowChildren]))) ?_
    rintro l _ ⟨hl, fl⟩
    refine .bind (draft_tracks (hinner value (by simp [Expr.shallowChildren]))) ?_
    rintro r _ ⟨hr, fr⟩
    subst hl hr
    exact .pure ⟨by simp (disch := decide) only [text_append, text_code, text_name]; rfl, by simp [fl, fr]⟩
  | member receiver n | conditionalMember receiver n =>
    refine .bind (draftOperand_tracks (hinner receiver (List.mem_singleton.mpr rfl))) ?_
    rintro d _ ⟨rfl, hd⟩
    exact .pure ⟨by simp (disch := decide) only [text_append, text_code, text_name]; rfl, by simp [hd]⟩
  | elementAccess receiver index =>
    refine .bind (draftOperand_tracks (hinner receiver (by simp [Expr.shallowChildren]))) ?_
    rintro l _ ⟨hl, fl⟩
    refine .bind (draft_tracks (hinner index (by simp [Expr.shallowChildren]))) ?_
    rintro r _ ⟨hr, fr⟩
    subst hl hr
    exact .pure ⟨by simp (disch := decide) only [text_append, text_code]; rfl, by simp [fl, fr]⟩
  | invocation callee typeArgs args =>
    have hargs : ∀ a ∈ args, A.At a.expr := fun a ha => hinner _ (List.mem_cons_of_mem _ (List.mem_map_of_mem ha))
    refine .bind (draftOperand_tracks (hinner callee (List.mem_cons_self ..))) ?_
    rintro d t ⟨ht, hd⟩
    refine .bind (draftArguments_tracks hargs) ?_
    rintro ds ts ⟨hts, hds⟩
    subst ht hts
    exact .pure ⟨by simp (disch := decide) only [text_append, text_code, text_joined]; rfl, by simpa [hd] using hds⟩
  | objectCreation type? args i? =>
    refine draftCreation_tracks _ _ (fun a ha => ?_) fun e he => ?_
    · have hmem := List.mem_append_left (i?.toList.flatMap Initializer.exprs)
        (List.mem_map_of_mem (f := Argument.expr) ha)
      exact ⟨hinner _ hmem, hpopulated _ _ _ rfl _ hmem⟩
    · have hmem := List.mem_append_right (args.map (·.expr)) he
      exact ⟨hinner _ hmem, hpopulated _ _ _ rfl _ hmem⟩
  | anonymousObject members => exact draftObjectLiteral_tracks fun m hm => hinner _ (List.mem_map_of_mem hm)
  | arrayCreation elementType? size? elements => exact draftArray_tracks elementType? hinner
  | conditional condition whenTrue whenFalse =>
    refine .bind (draft_tracks (hinner condition (by simp [Expr.shallowChildren]))) ?_
    rintro a _ ⟨ha, fa⟩
    refine .bind (draft_tracks (hinner whenTrue (by simp [Expr.shallowChildren]))) ?_
    rintro b _ ⟨hb, fb⟩
    refine .bind (draft_tracks (hinner whenFalse (by simp [Expr.shallowChildren]))) ?_
    rintro c _ ⟨hc, fc⟩
    subst ha hb hc
    exact .pure ⟨by simp (disch := decide) only [text_append, text_code]; rfl, by simp [fa, fb, fc]⟩
  | await operand =>
    refine .bind (draftOperand_tracks (hinner operand (List.mem_singleton.mpr rfl))) ?_
    rintro d _ ⟨rfl, hd⟩
    exact .pure ⟨rfl, by simp [hd]⟩
  | cast type operand => exact draft_tracks (hinner operand (List.mem_singleton.mpr rfl))
  | patternTest operand pattern =>
    have hmem : Node.pattern pattern ∈ (Node.expr ⟨span, .patternTest operand pattern⟩).inner :=
      List.mem_cons_of_mem _ (List.mem_singleton.mpr rfl)
    exact draftIsTest_tracks (hinner operand (List.mem_singleton.mpr rfl)) (hpattern pattern hmem)
      fun subject y hy => htested pattern hmem y hy subject
  | parenthesized inner =>
    refine .bind (draft_tracks (hinner inner (List.mem_singleton.mpr rfl))) ?_
    rintro d _ ⟨rfl, hd⟩
    exact .pure ⟨rfl, by simp [hd]⟩
  | switchExpr scrutinee arms =>
    have hnodes : (Node.expr ⟨span, .switchExpr scrutinee arms⟩).inner =
        .expr scrutinee :: arms.flatMap fun a => .pattern a.pattern :: a.exprs.map .expr := by
      simp [Node.inner, Node.parts, Expr.parts, List.map_flatMap, Parts.expr, Parts.arm]
    refine draftChoice_tracks rfl (hchosen _ _ rfl scrutinee (.inl (List.mem_cons_self ..))) fun a ha => ⟨?_, ?_⟩
    · intro y hy
      refine hchosen _ _ rfl y (.inr ⟨a.pattern, ?_, hy⟩)
      rw [hnodes]
      exact List.mem_cons_of_mem _ (List.mem_flatMap.mpr ⟨a, ha, List.mem_cons_self ..⟩)
    · exact fun y hy => hchosen _ _ rfl y (.inl (List.mem_cons_of_mem _ (List.mem_flatMap.mpr ⟨a, ha, hy⟩)))

end Converter

end ComponentScript
