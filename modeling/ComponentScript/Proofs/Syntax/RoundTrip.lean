/-
  ComponentScript.Proofs.Syntax.RoundTrip — a tree that is written as JSON and read again is
  the same tree.

  Readers of nodes are tied together by the depth of the value. `NodeReaders.Complete n d`:
  the readers `n` give back every node whose value is at most `d` deep. Then they give back
  the parts of nodes too, and the readers one level up give back the nodes one level deeper
  (`complete_succ`); so the readers of a depth are complete for it (`nodeReaders_complete`).
  `syntax_roundTrips`: every type of the syntax comes back as it was, of any depth.
-/

import ComponentScript.Component.Json
import ComponentScript.Proofs.Json.Reads

namespace ComponentScript

open Json Fields

/-! ## Depth -/

namespace Json

/-- No value among the fields is deeper than `d`. -/
def FitFields (d : Nat) : List (String × Json) → Prop
  | [] => True
  | (_, j) :: fields => j.depth ≤ d ∧ FitFields d fields

variable {d : Nat}

theorem fitFields_of_depth {fields : List (String × Json)} (h : depthFields fields ≤ d) : FitFields d fields := by
  induction fields with
  | nil => trivial
  | cons f fields ih =>
    obtain ⟨key, j⟩ := f
    rw [depthFields] at h
    exact ⟨Nat.le_trans (Nat.le_max_left ..) h, ih (Nat.le_trans (Nat.le_max_right ..) h)⟩

/-- What lies in an object is less deep. -/
theorem fitFields_of_succ {fields : List (String × Json)} (h : (Json.obj fields).depth ≤ d + 1) :
    FitFields d fields :=
  fitFields_of_depth (Nat.le_of_succ_le_succ h)

theorem fitFields_of_obj {fields : List (String × Json)} (h : (Json.obj fields).depth ≤ d) : FitFields d fields :=
  fitFields_of_depth (Nat.le_of_succ_le h)

theorem fitFields_append : ∀ {fields fields' : List (String × Json)}, FitFields d (fields ++ fields') →
    FitFields d fields ∧ FitFields d fields'
  | [], _, h => ⟨trivial, h⟩
  | (_, _) :: _, _, ⟨hj, h⟩ => ⟨⟨hj, (fitFields_append h).1⟩, (fitFields_append h).2⟩

theorem depth_le_of_mem {items : List Json} (h : (Json.arr items).depth ≤ d) {j : Json} (hj : j ∈ items) :
    j.depth ≤ d := by
  have hle : j.depth ≤ depthItems items := by
    induction items with
    | nil => cases hj
    | cons i items ih =>
      rw [depthItems]
      rcases List.mem_cons.mp hj with rfl | hj
      · exact Nat.le_max_left ..
      · refine Nat.le_trans (ih ?_ hj) (Nat.le_max_right ..)
        rw [depth, depthItems] at h
        rw [depth]
        omega
  exact Nat.le_trans hle (Nat.le_of_succ_le h)

end Json

/-! ## Lists and options of nodes -/

/-- A list that is encoded item by item. -/
theorem eq_map_of_cons {α : Type} {encode : α → Json} {encodeAll : List α → List Json} (hnil : encodeAll [] = [])
    (hcons : ∀ a as, encodeAll (a :: as) = encode a :: encodeAll as) : encodeAll = List.map encode := by
  funext as
  induction as with
  | nil => exact hnil
  | cons a as ih => rw [hcons, ih, List.map_cons]

theorem typeRefsJson_eq : typeRefsJson = List.map TypeRef.toJson := eq_map_of_cons rfl fun _ _ => rfl
theorem partsJson_eq : partsJson = List.map InterpolationPart.toJson := eq_map_of_cons rfl fun _ _ => rfl
theorem argumentsJson_eq : argumentsJson = List.map Argument.toJson := eq_map_of_cons rfl fun _ _ => rfl
theorem membersJson_eq : membersJson = List.map MemberInit.toJson := eq_map_of_cons rfl fun _ _ => rfl
theorem entriesJson_eq : entriesJson = List.map DictEntry.toJson := eq_map_of_cons rfl fun _ _ => rfl
theorem paramsJson_eq : paramsJson = List.map Param.toJson := eq_map_of_cons rfl fun _ _ => rfl
theorem armsJson_eq : armsJson = List.map SwitchArm.toJson := eq_map_of_cons rfl fun _ _ => rfl
theorem subpatternsJson_eq : subpatternsJson = List.map Subpattern.toJson := eq_map_of_cons rfl fun _ _ => rfl
theorem exprsJson_eq : exprsJson = List.map Expr.toJson := eq_map_of_cons rfl fun _ _ => rfl
theorem declaratorsJson_eq : declaratorsJson = List.map Declarator.toJson := eq_map_of_cons rfl fun _ _ => rfl
theorem clausesJson_eq : clausesJson = List.map CatchClause.toJson := eq_map_of_cons rfl fun _ _ => rfl
theorem sectionsJson_eq : sectionsJson = List.map SwitchSection.toJson := eq_map_of_cons rfl fun _ _ => rfl
theorem labelsJson_eq : labelsJson = List.map SwitchLabel.toJson := eq_map_of_cons rfl fun _ _ => rfl
theorem stmtsJson_eq : stmtsJson = List.map Stmt.toJson := eq_map_of_cons rfl fun _ _ => rfl

variable {d : Nat}

theorem reads_items {α : Type} {read : Reader α} {encode : α → Json} {encodeAll : List α → List Json}
    (hmap : encodeAll = List.map encode) (h : ∀ a, (encode a).depth ≤ d → Reads read (encode a) a) {as : List α}
    (hd : (Json.arr (encodeAll as)).depth ≤ d) : Reads (readList read) (.arr (encodeAll as)) as := by
  subst hmap
  exact reads_list fun a ha => h a (depth_le_of_mem hd (List.mem_map_of_mem ha))

theorem reads_optionJson {α : Type} {read : Reader α} {encode : α → Json} (hnull : ∀ a, encode a ≠ .null)
    (h : ∀ a, (encode a).depth ≤ d → Reads read (encode a) a) {a? : Option α}
    (hd : (optionJson encode a?).depth ≤ d) : Reads (readOption read) (optionJson encode a?) a? := by
  cases a? with
  | none => exact reads_null read
  | some a => exact reads_some (hnull a) (h a hd)

theorem reads_string? (s? : Option String) : Reads (readOption readString) (optionJson Json.str s?) s? := by
  have hnull : ∀ s : String, Json.str s ≠ .null := nofun
  exact reads_optionJson hnull (fun s _ => reads_string s) (Nat.le_refl _)

/-! ## Leaves -/

theorem Span.reads (s : Span) : Reads Span.read s.toJson s :=
  reads_record (((gives_required rfl (reads_uint32 s.start)).map _).seq (gives_required rfl (reads_uint32 s.stop)))
    rfl rfl

theorem BinaryOp.reads (op : BinaryOp) : Reads (readWord BinaryOp.all BinaryOp.word) (.str op.word) op :=
  reads_word (by cases op <;> rfl)

theorem UnaryOp.reads (op : UnaryOp) : Reads (readWord UnaryOp.all UnaryOp.word) (.str op.word) op :=
  reads_word (by cases op <;> rfl)

theorem AssignOp.reads (op : AssignOp) : Reads (readWord AssignOp.all AssignOp.word) (.str op.word) op :=
  reads_word (by cases op <;> rfl)

theorem ArgModifier.reads (m : ArgModifier) : Reads (readWord ArgModifier.all ArgModifier.word) (.str m.word) m :=
  reads_word (by cases m <;> rfl)

theorem TypeRef.toJson_ne_null (t : TypeRef) : t.toJson ≠ .null := by
  cases t; nofun

/-- As much depth as the value has is enough. -/
theorem readTypeRef_reads : ∀ {d : Nat} (t : TypeRef), t.toJson.depth ≤ d → Reads (readTypeRef d) t.toJson t := by
  intro d
  induction d with
  | zero => intro t hd; cases t; exact absurd hd (Nat.not_succ_le_zero _)
  | succ d ih =>
    intro t hd
    obtain ⟨name, args, nullable⟩ := t
    unfold TypeRef.toJson at hd ⊢
    refine reads_record ((((gives_required rfl (reads_string name)).map _).seq ?_).seq ?_) rfl ?_
    · cases args with
      | nil => exact gives_default [] (by cases nullable <;> rfl)
      | cons arg args =>
        obtain ⟨-, hargs, -⟩ := fitFields_of_succ hd
        exact gives_defaulted rfl (reads_items typeRefsJson_eq ih hargs)
    · cases nullable with
      | false => exact gives_default false (by cases args <;> rfl)
      | true => exact gives_defaulted (by cases args <;> rfl) (reads_bool true)
    · cases args <;> cases nullable <;> rfl

theorem TypeRef.reads (t : TypeRef) : Reads TypeRef.read t.toJson t := by
  have h := readTypeRef_reads t (Nat.le_refl _)
  exact ⟨h.named, h.ok⟩

theorem TypeRef.reads? (t? : Option TypeRef) : Reads (readOption TypeRef.read) (optionJson TypeRef.toJson t?) t? :=
  reads_optionJson toJson_ne_null (fun t _ => t.reads) (Nat.le_refl _)

theorem TypeRef.reads_all (ts : List TypeRef) : Reads (readList TypeRef.read) (.arr (typeRefsJson ts)) ts :=
  reads_items typeRefsJson_eq (fun t _ => t.reads) (Nat.le_refl _)

/-- A literal with a value: by its type word. -/
theorem reads_literal {word : String} {j : Json} {l : Literal}
    (hw : ["null", "bool", "number", "string", "char"].find? (fun w => id w = id word) = some word)
    (hj : j.isMisnamed = false) (h : ∀ o : Origin, literalOf o word (some j) = .ok l) :
    Reads readLiteral (.obj [("type", .str word), ("value", j)]) l := by
  refine ⟨rfl, fun {o} ho => ?_⟩
  have htype : (required "type" (readWord ["null", "bool", "number", "string", "char"] id)).Gives
      [("type", .str word), ("value", j)] word := gives_required rfl (reads_word hw)
  have hvalue : (defaulted "value" none fun _ j => .ok (some j)).Gives [("type", .str word), ("value", j)] (some j) :=
    gives_defaulted rfl ⟨hj, fun _ => rfl⟩
  have hrecord := reads_record ((htype.map Prod.mk).seq hvalue) rfl rfl
  simp only [readLiteral, bind, Except.bind, hrecord.ok ho]
  exact h o

theorem Literal.reads : ∀ l : Literal, Reads readLiteral l.toJson l
  | .null => by
    refine ⟨rfl, fun {o} ho => ?_⟩
    cases o with
    | text room =>
      cases room with
      | zero => cases ho
      | succ room => rfl
    | value => rfl
    | aside => rfl
  | .bool b => reads_literal rfl rfl fun _ => rfl
  | .number text => reads_literal rfl rfl fun _ => rfl
  | .string s => reads_literal rfl rfl fun _ => rfl
  | .char c => reads_literal rfl rfl fun o => by rw [literalOf, (reads_char c).ok (Origin.holds_str o _)]; rfl

theorem LoopTarget.reads : ∀ t : LoopTarget, Reads readLoopTarget t.toJson t
  | .name n => reads_tagged (.intro rfl ((gives_required rfl (reads_string n)).map _) rfl rfl)
  | .tuple _ => reads_tagged (.intro rfl ((gives_required rfl (reads_list fun s _ => reads_string s)).map _) rfl rfl)

/-! ## Parts of nodes -/

/-- The readers give back every node whose value is at most `d` deep. -/
structure NodeReaders.Complete (n : NodeReaders) (d : Nat) : Prop where
  expr (e : Expr) : e.toJson.depth ≤ d → Reads n.expr e.toJson e
  stmt (x : Stmt) : x.toJson.depth ≤ d → Reads n.stmt x.toJson x
  pattern (p : Pattern) : p.toJson.depth ≤ d → Reads n.pattern p.toJson p

theorem Expr.toJson_ne_null (e : Expr) : e.toJson ≠ .null := by
  cases e; nofun

theorem Stmt.toJson_ne_null (x : Stmt) : x.toJson ≠ .null := by
  cases x; nofun

namespace NodeReaders

variable {n : NodeReaders}

variable (h : n.Complete d)
include h

theorem Complete.expr? {e? : Option Expr} (hd : (exprJson? e?).depth ≤ d) :
    Reads (readOption n.expr) (exprJson? e?) e? := by
  have heq : exprJson? e? = optionJson Expr.toJson e? := by cases e? <;> rfl
  rw [heq] at hd ⊢
  exact reads_optionJson Expr.toJson_ne_null h.expr hd

theorem Complete.stmt? {x? : Option Stmt} (hd : (stmtJson? x?).depth ≤ d) :
    Reads (readOption n.stmt) (stmtJson? x?) x? := by
  have heq : stmtJson? x? = optionJson Stmt.toJson x? := by cases x? <;> rfl
  rw [heq] at hd ⊢
  exact reads_optionJson Stmt.toJson_ne_null h.stmt hd

theorem Complete.exprs {es : List Expr} (hd : (Json.arr (exprsJson es)).depth ≤ d) :
    Reads (readList n.expr) (.arr (exprsJson es)) es :=
  reads_items exprsJson_eq h.expr hd

theorem Complete.stmts {xs : List Stmt} (hd : (Json.arr (stmtsJson xs)).depth ≤ d) :
    Reads (readList n.stmt) (.arr (stmtsJson xs)) xs :=
  reads_items stmtsJson_eq h.stmt hd

theorem part_reads : ∀ p : InterpolationPart, p.toJson.depth ≤ d → Reads n.part p.toJson p
  | .text text, _ => reads_tagged (.intro rfl ((gives_required rfl (reads_string text)).map _) rfl rfl)
  | .expr e format?, hd => by
    obtain ⟨-, he, -, -⟩ := fitFields_of_obj hd
    refine reads_tagged (.intro rfl (((gives_required rfl (h.expr e he)).map _).seq ?_) rfl rfl)
    exact gives_nullable rfl (reads_string? format?)

theorem argument_reads (a : Argument) (hd : a.toJson.depth ≤ d) :
    Reads n.argument a.toJson a := by
  obtain ⟨e, modifier?, declares, name?⟩ := a
  obtain ⟨he, -⟩ := fitFields_of_obj hd
  have hmodifier : Reads (readOption (readWord ArgModifier.all ArgModifier.word))
      (optionJson (fun m => Json.str m.word) modifier?) modifier? := by
    have hnull : ∀ m : ArgModifier, Json.str m.word ≠ .null := nofun
    exact reads_optionJson hnull (fun m _ => m.reads) (Nat.le_refl _)
  unfold Argument.toJson
  refine reads_record (((((gives_required rfl (h.expr e he)).map _).seq (gives_nullable rfl hmodifier)).seq ?_).seq
    (gives_nullable ?_ (reads_string? name?))) rfl ?_
  · cases declares with
    | false => exact gives_default false rfl
    | true => exact gives_defaulted rfl (reads_bool true)
  · cases declares <;> rfl
  · cases declares <;> rfl

theorem memberInit_reads (m : MemberInit) (hd : m.toJson.depth ≤ d) :
    Reads n.memberInit m.toJson m := by
  obtain ⟨name, value⟩ := m
  obtain ⟨-, hv, -⟩ := fitFields_of_obj hd
  exact reads_record (((gives_required rfl (reads_string name)).map _).seq (gives_required rfl (h.expr value hv)))
    rfl rfl

theorem dictEntry_reads (e : DictEntry) (hd : e.toJson.depth ≤ d) :
    Reads n.dictEntry e.toJson e := by
  obtain ⟨key, value⟩ := e
  obtain ⟨hk, hv, -⟩ := fitFields_of_obj hd
  exact reads_record (((gives_required rfl (h.expr key hk)).map _).seq (gives_required rfl (h.expr value hv))) rfl rfl

theorem initializer_reads :
    ∀ i : Initializer, i.toJson.depth ≤ d → Reads n.initializer i.toJson i
  | .object _, hd => by
    obtain ⟨-, hm, -⟩ := fitFields_of_obj hd
    have hitems := reads_items membersJson_eq (memberInit_reads h) hm
    exact reads_tagged (.intro rfl ((gives_required rfl hitems).map _) rfl rfl)
  | .collection _, hd => by
    obtain ⟨-, he, -⟩ := fitFields_of_obj hd
    exact reads_tagged (.intro rfl ((gives_required rfl (h.exprs he)).map _) rfl rfl)
  | .dictionary _, hd => by
    obtain ⟨-, he, -⟩ := fitFields_of_obj hd
    have hitems := reads_items entriesJson_eq (dictEntry_reads h) he
    exact reads_tagged (.intro rfl ((gives_required rfl hitems).map _) rfl rfl)

theorem Complete.initializer? {i? : Option Initializer}
    (hd : (initializerJson? i?).depth ≤ d) : Reads (readOption n.initializer) (initializerJson? i?) i? := by
  have heq : initializerJson? i? = optionJson Initializer.toJson i? := by cases i? <;> rfl
  have hnull : ∀ i : Initializer, i.toJson ≠ .null := by intro i; cases i <;> nofun
  rw [heq] at hd ⊢
  exact reads_optionJson hnull (initializer_reads h) hd

theorem param_reads (p : Param) (hd : p.toJson.depth ≤ d) : Reads n.param p.toJson p := by
  obtain ⟨name, type?, default?, isRest⟩ := p
  obtain ⟨-, -, he, -⟩ := fitFields_of_obj hd
  unfold Param.toJson
  refine reads_record (((((gives_required rfl (reads_string name)).map _).seq
    (gives_nullable rfl (TypeRef.reads? type?))).seq (gives_nullable rfl (h.expr? he))).seq ?_) rfl ?_
  · cases isRest with
    | false => exact gives_default false rfl
    | true => exact gives_defaulted rfl (reads_bool true)
  · cases isRest <;> rfl

omit h in
/-- An object of one field, whose name is the form. -/
theorem reads_form {α : Type} {forms : List (String × Reader α)} {key : String} {read : Reader α} {j : Json} {a : α}
    (hf : forms.lookup key = some read) (hj : j ≠ .unnamed) (h : Reads read j a) :
    Reads (readForm forms) (.obj [(key, j)]) a := by
  refine ⟨rfl, fun {o} ho => ?_⟩
  obtain ⟨o', henter, hparts⟩ := ho.fields
  have hnamed : readNamed forms o' (key, j) = .ok a := by
    have hj' := h.named
    have hok := h.ok (hparts _ (List.mem_cons_self ..))
    cases j with
    | misnamed => cases hj'
    | unnamed => exact absurd rfl hj
    | _ => simp only [readNamed, hf, hok]
  cases o with
  | text room =>
    simp only [readForm, henter, bind, Except.bind, hnamed]
    rfl
  | value => cases henter; exact hnamed
  | aside => cases henter; exact hnamed

theorem lambdaBody_reads :
    ∀ b : LambdaBody, b.toJson.depth ≤ d → Reads n.lambdaBody b.toJson b
  | .expr e, hd => by
    obtain ⟨he, -⟩ := fitFields_of_obj hd
    have hne : e.toJson ≠ .unnamed := by cases e; nofun
    exact reads_form rfl hne ⟨(h.expr e he).named, fun ho => by rw [(h.expr e he).ok ho]; rfl⟩
  | .block x, hd => by
    obtain ⟨hx, -⟩ := fitFields_of_obj hd
    have hne : x.toJson ≠ .unnamed := by cases x; nofun
    exact reads_form rfl hne ⟨(h.stmt x hx).named, fun ho => by rw [(h.stmt x hx).ok ho]; rfl⟩

theorem switchArm_reads (a : SwitchArm) (hd : a.toJson.depth ≤ d) :
    Reads n.switchArm a.toJson a := by
  obtain ⟨pattern, guard?, value⟩ := a
  obtain ⟨hp, hg, hv, -⟩ := fitFields_of_obj hd
  exact reads_record ((((gives_required rfl (h.pattern pattern hp)).map _).seq (gives_nullable rfl (h.expr? hg))).seq
    (gives_required rfl (h.expr value hv))) rfl rfl

theorem subpattern_reads (p : Subpattern) (hd : p.toJson.depth ≤ d) :
    Reads n.subpattern p.toJson p := by
  obtain ⟨name, pattern⟩ := p
  obtain ⟨-, hp, -⟩ := fitFields_of_obj hd
  exact reads_record (((gives_required rfl (reads_string name)).map _).seq
    (gives_required rfl (h.pattern pattern hp))) rfl rfl

theorem declarator_reads (x : Declarator) (hd : x.toJson.depth ≤ d) :
    Reads n.declarator x.toJson x := by
  obtain ⟨name, init?⟩ := x
  obtain ⟨-, hi, -⟩ := fitFields_of_obj hd
  exact reads_record (((gives_required rfl (reads_string name)).map _).seq (gives_nullable rfl (h.expr? hi))) rfl rfl

theorem Complete.declarators {ds : List Declarator}
    (hd : (Json.arr (declaratorsJson ds)).depth ≤ d) : Reads (readList n.declarator) (.arr (declaratorsJson ds)) ds :=
  reads_items declaratorsJson_eq (declarator_reads h) hd

theorem forInit_reads : ∀ i : ForInit, i.toJson.depth ≤ d → Reads n.forInit i.toJson i
  | .declaration type? _, hd => by
    obtain ⟨-, -, hds, -⟩ := fitFields_of_obj hd
    exact reads_tagged (.intro rfl (((gives_nullable rfl (TypeRef.reads? type?)).map _).seq
      (gives_required rfl (h.declarators hds))) rfl rfl)
  | .expressions _, hd => by
    obtain ⟨-, he, -⟩ := fitFields_of_obj hd
    exact reads_tagged (.intro rfl ((gives_required rfl (h.exprs he)).map _) rfl rfl)

theorem Complete.forInit? {i? : Option ForInit} (hd : (forInitJson? i?).depth ≤ d) :
    Reads (readOption n.forInit) (forInitJson? i?) i? := by
  have heq : forInitJson? i? = optionJson ForInit.toJson i? := by cases i? <;> rfl
  have hnull : ∀ i : ForInit, i.toJson ≠ .null := by intro i; cases i <;> nofun
  rw [heq] at hd ⊢
  exact reads_optionJson hnull (forInit_reads h) hd

theorem catchClause_reads (c : CatchClause) (hd : c.toJson.depth ≤ d) :
    Reads n.catchClause c.toJson c := by
  obtain ⟨type?, name?, filter?, body⟩ := c
  obtain ⟨-, -, hf, hb, -⟩ := fitFields_of_obj hd
  exact reads_record (((((gives_nullable rfl (TypeRef.reads? type?)).map _).seq
    (gives_nullable rfl (reads_string? name?))).seq (gives_nullable rfl (h.expr? hf))).seq
    (gives_required rfl (h.stmt body hb))) rfl rfl

theorem switchLabel_reads :
    ∀ l : SwitchLabel, l.toJson.depth ≤ d → Reads n.switchLabel l.toJson l
  | .constant value, hd => by
    obtain ⟨-, hv, -⟩ := fitFields_of_obj hd
    exact reads_tagged (.intro rfl ((gives_required rfl (h.expr value hv)).map _) rfl rfl)
  | .pattern pattern guard?, hd => by
    obtain ⟨-, hp, hg, -⟩ := fitFields_of_obj hd
    exact reads_tagged (.intro rfl (((gives_required rfl (h.pattern pattern hp)).map _).seq
      (gives_nullable rfl (h.expr? hg))) rfl rfl)
  | .otherwise, _ => reads_tagged (.intro rfl (gives_pure _) rfl rfl)

theorem switchSection_reads (s : SwitchSection) (hd : s.toJson.depth ≤ d) :
    Reads n.switchSection s.toJson s := by
  obtain ⟨labels, statements⟩ := s
  obtain ⟨hl, hs, -⟩ := fitFields_of_obj hd
  exact reads_record (((gives_required rfl (reads_items labelsJson_eq (switchLabel_reads h) hl)).map _).seq
    (gives_required rfl (h.stmts hs))) rfl rfl

/-! ## Nodes -/

/-- The pattern itself may be one level deeper than what the readers know. -/
theorem patternOf_reads :
    ∀ p : Pattern, p.toJson.depth ≤ d + 1 → Reads n.patternOf p.toJson p
  | .discard, _ => reads_tagged (.intro rfl (gives_pure _) rfl rfl)
  | .constant value, hd => by
    obtain ⟨-, hv, -⟩ := fitFields_of_succ hd
    exact reads_tagged (.intro rfl ((gives_required rfl (h.expr value hv)).map _) rfl rfl)
  | .relational op value, hd => by
    obtain ⟨-, -, hv, -⟩ := fitFields_of_succ hd
    exact reads_tagged (.intro rfl (((gives_required rfl op.reads).map _).seq
      (gives_required rfl (h.expr value hv))) rfl rfl)
  | .property type? _, hd => by
    obtain ⟨-, -, hs, -⟩ := fitFields_of_succ hd
    have hitems := reads_items subpatternsJson_eq (subpattern_reads h) hs
    exact reads_tagged (.intro rfl (((gives_nullable rfl (TypeRef.reads? type?)).map _).seq
      (gives_required rfl hitems)) rfl rfl)
  | .type type, _ => reads_tagged (.intro rfl ((gives_required rfl type.reads).map _) rfl rfl)
  | .not pattern, hd => by
    obtain ⟨-, hp, -⟩ := fitFields_of_succ hd
    exact reads_tagged (.intro rfl ((gives_required rfl (h.pattern pattern hp)).map _) rfl rfl)
  | .and left right, hd => by
    obtain ⟨-, hl, hr, -⟩ := fitFields_of_succ hd
    exact reads_tagged (.intro rfl (((gives_required rfl (h.pattern left hl)).map _).seq
      (gives_required rfl (h.pattern right hr))) rfl rfl)
  | .or left right, hd => by
    obtain ⟨-, hl, hr, -⟩ := fitFields_of_succ hd
    exact reads_tagged (.intro rfl (((gives_required rfl (h.pattern left hl)).map _).seq
      (gives_required rfl (h.pattern right hr))) rfl rfl)

theorem exprKind_tagged :
    ∀ kind : ExprKind, FitFields d kind.fields → Tagged ["span"] "kind" n.exprKinds kind.fields kind
  | .identifier name, _ => .intro rfl ((gives_required rfl (reads_string name)).map _) rfl rfl
  | .this, _ => .intro rfl (gives_pure _) rfl rfl
  | .base, _ => .intro rfl (gives_pure _) rfl rfl
  | .literal value, _ => .intro rfl ((gives_required rfl value.reads).map _) rfl rfl
  | .interpolated _, ⟨_, hp, _⟩ =>
    .intro rfl ((gives_required rfl (reads_items partsJson_eq (part_reads h) hp)).map _) rfl rfl
  | .binary op left right, ⟨_, _, hl, hr, _⟩ =>
    .intro rfl ((((gives_required rfl op.reads).map _).seq (gives_required rfl (h.expr left hl))).seq
      (gives_required rfl (h.expr right hr))) rfl rfl
  | .unary op operand, ⟨_, _, ho, _⟩ =>
    .intro rfl (((gives_required rfl op.reads).map _).seq (gives_required rfl (h.expr operand ho))) rfl rfl
  | .assignment op target value, ⟨_, _, ht, hv, _⟩ =>
    .intro rfl ((((gives_required rfl op.reads).map _).seq (gives_required rfl (h.expr target ht))).seq
      (gives_required rfl (h.expr value hv))) rfl rfl
  | .member receiver name, ⟨_, hr, _⟩ =>
    .intro rfl (((gives_required rfl (h.expr receiver hr)).map _).seq (gives_required rfl (reads_string name))) rfl rfl
  | .conditionalMember receiver name, ⟨_, hr, _⟩ =>
    .intro rfl (((gives_required rfl (h.expr receiver hr)).map _).seq (gives_required rfl (reads_string name))) rfl rfl
  | .elementAccess receiver index, ⟨_, hr, hi, _⟩ =>
    .intro rfl (((gives_required rfl (h.expr receiver hr)).map _).seq (gives_required rfl (h.expr index hi))) rfl rfl
  | .invocation callee [] _, ⟨_, hc, ha, _⟩ =>
    .intro rfl ((((gives_required rfl (h.expr callee hc)).map _).seq (gives_default [] rfl)).seq
      (gives_defaulted rfl (reads_items argumentsJson_eq (argument_reads h) ha))) rfl rfl
  | .invocation callee (type :: types) _, ⟨_, hc, _, ha, _⟩ =>
    .intro rfl ((((gives_required rfl (h.expr callee hc)).map _).seq
      (gives_defaulted rfl (TypeRef.reads_all (type :: types)))).seq
      (gives_defaulted rfl (reads_items argumentsJson_eq (argument_reads h) ha))) rfl rfl
  | .objectCreation type? _ _, ⟨_, _, ha, hi, _⟩ =>
    .intro rfl ((((gives_nullable rfl (TypeRef.reads? type?)).map _).seq
      (gives_defaulted rfl (reads_items argumentsJson_eq (argument_reads h) ha))).seq
      (gives_nullable rfl (h.initializer? hi))) rfl rfl
  | .anonymousObject _, ⟨_, hm, _⟩ =>
    .intro rfl ((gives_required rfl (reads_items membersJson_eq (memberInit_reads h) hm)).map _) rfl rfl
  | .arrayCreation type? _ _, ⟨_, _, hs, he, _⟩ =>
    .intro rfl ((((gives_nullable rfl (TypeRef.reads? type?)).map _).seq (gives_nullable rfl (h.expr? hs))).seq
      (gives_defaulted rfl (h.exprs he))) rfl rfl
  | .conditional condition whenTrue whenFalse, ⟨_, hc, ht, hf, _⟩ =>
    .intro rfl ((((gives_required rfl (h.expr condition hc)).map _).seq (gives_required rfl (h.expr whenTrue ht))).seq
      (gives_required rfl (h.expr whenFalse hf))) rfl rfl
  | .lambda _ body isAsync, ⟨_, hp, hb, _⟩ =>
    .intro rfl ((((gives_required rfl (reads_items paramsJson_eq (param_reads h) hp)).map _).seq
      (gives_required rfl (lambdaBody_reads h body hb))).seq (gives_defaulted rfl (reads_bool isAsync))) rfl rfl
  | .await operand, ⟨_, ho, _⟩ => .intro rfl ((gives_required rfl (h.expr operand ho)).map _) rfl rfl
  | .cast type operand, ⟨_, _, ho, _⟩ =>
    .intro rfl (((gives_required rfl type.reads).map _).seq (gives_required rfl (h.expr operand ho))) rfl rfl
  | .patternTest operand pattern, ⟨_, ho, hp, _⟩ =>
    .intro rfl (((gives_required rfl (h.expr operand ho)).map _).seq
      (gives_required rfl (h.pattern pattern hp))) rfl rfl
  | .nameOf name, _ => .intro rfl ((gives_required rfl (reads_string name)).map _) rfl rfl
  | .defaultOf type?, _ => .intro rfl ((gives_nullable rfl (TypeRef.reads? type?)).map _) rfl rfl
  | .parenthesized inner, ⟨_, hi, _⟩ => .intro rfl ((gives_required rfl (h.expr inner hi)).map _) rfl rfl
  | .switchExpr scrutinee _, ⟨_, hs, ha, _⟩ =>
    .intro rfl (((gives_required rfl (h.expr scrutinee hs)).map _).seq
      (gives_required rfl (reads_items armsJson_eq (switchArm_reads h) ha))) rfl rfl
  | .other nodeKind text, _ =>
    .intro rfl (((gives_required rfl (reads_string nodeKind)).map _).seq
      (gives_required rfl (reads_string text))) rfl rfl

theorem stmtKind_tagged :
    ∀ kind : StmtKind, FitFields d kind.fields → Tagged ["span"] "kind" n.stmtKinds kind.fields kind
  | .block _, ⟨_, hs, _⟩ => .intro rfl ((gives_required rfl (h.stmts hs)).map _) rfl rfl
  | .declaration type? _ isConst, ⟨_, _, hd, _⟩ =>
    .intro rfl ((((gives_nullable rfl (TypeRef.reads? type?)).map _).seq (gives_required rfl (h.declarators hd))).seq
      (gives_defaulted rfl (reads_bool isConst))) rfl rfl
  | .expression e, ⟨_, he, _⟩ => .intro rfl ((gives_required rfl (h.expr e he)).map _) rfl rfl
  | .branch condition thenBranch _, ⟨_, hc, ht, he, _⟩ =>
    .intro rfl ((((gives_required rfl (h.expr condition hc)).map _).seq
      (gives_required rfl (h.stmt thenBranch ht))).seq (gives_nullable rfl (h.stmt? he))) rfl rfl
  | .whileLoop condition body, ⟨_, hc, hb, _⟩ =>
    .intro rfl (((gives_required rfl (h.expr condition hc)).map _).seq (gives_required rfl (h.stmt body hb))) rfl rfl
  | .doLoop body condition, ⟨_, hb, hc, _⟩ =>
    .intro rfl (((gives_required rfl (h.stmt body hb)).map _).seq (gives_required rfl (h.expr condition hc))) rfl rfl
  | .forLoop _ _ _ body, ⟨_, hi, hc, hu, hb, _⟩ =>
    .intro rfl (((((gives_nullable rfl (h.forInit? hi)).map _).seq (gives_nullable rfl (h.expr? hc))).seq
      (gives_defaulted rfl (h.exprs hu))).seq (gives_required rfl (h.stmt body hb))) rfl rfl
  | .forEach target iterable body isAwait, ⟨_, _, hi, hb, _⟩ =>
    .intro rfl (((((gives_required rfl target.reads).map _).seq (gives_required rfl (h.expr iterable hi))).seq
      (gives_required rfl (h.stmt body hb))).seq (gives_defaulted rfl (reads_bool isAwait))) rfl rfl
  | .returns _, ⟨_, hv, _⟩ => .intro rfl ((gives_nullable rfl (h.expr? hv)).map _) rfl rfl
  | .breaks, _ => .intro rfl (gives_pure _) rfl rfl
  | .continues, _ => .intro rfl (gives_pure _) rfl rfl
  | .throws _, ⟨_, hv, _⟩ => .intro rfl ((gives_nullable rfl (h.expr? hv)).map _) rfl rfl
  | .tryCatch body _ _, ⟨_, hb, hc, hf, _⟩ =>
    .intro rfl ((((gives_required rfl (h.stmt body hb)).map _).seq
      (gives_defaulted rfl (reads_items clausesJson_eq (catchClause_reads h) hc))).seq
      (gives_nullable rfl (h.stmt? hf))) rfl rfl
  | .resource _ _ _ isAwait, ⟨_, hd, hr, hb, _⟩ =>
    .intro rfl (((((gives_defaulted rfl (h.declarators hd)).map _).seq (gives_nullable rfl (h.expr? hr))).seq
      (gives_nullable rfl (h.stmt? hb))).seq (gives_defaulted rfl (reads_bool isAwait))) rfl rfl
  | .switchStmt scrutinee _, ⟨_, he, hs, _⟩ =>
    .intro rfl (((gives_required rfl (h.expr scrutinee he)).map _).seq
      (gives_required rfl (reads_items sectionsJson_eq (switchSection_reads h) hs))) rfl rfl
  | .lock target body, ⟨_, ht, hb, _⟩ =>
    .intro rfl (((gives_required rfl (h.expr target ht)).map _).seq (gives_required rfl (h.stmt body hb))) rfl rfl
  | .localFunction name _ body isAsync, ⟨_, _, hp, hb, _⟩ =>
    .intro rfl (((((gives_required rfl (reads_string name)).map _).seq
      (gives_required rfl (reads_items paramsJson_eq (param_reads h) hp))).seq
      (gives_required rfl (h.stmt body hb))).seq (gives_defaulted rfl (reads_bool isAsync))) rfl rfl
  | .yields _, ⟨_, hv, _⟩ => .intro rfl ((gives_nullable rfl (h.expr? hv)).map _) rfl rfl
  | .empty, _ => .intro rfl (gives_pure _) rfl rfl
  | .other nodeKind text, _ =>
    .intro rfl (((gives_required rfl (reads_string nodeKind)).map _).seq
      (gives_required rfl (reads_string text))) rfl rfl

omit h in
/-- A node is its span, unless that is the dummy, and the fields of its kind. -/
theorem reads_spanned {β γ : Type} {variants : Variants β} {make : Span → β → γ} (span : Span)
    {fields : List (String × Json)} {b : β} (h : Tagged ["span"] "kind" variants fields b) :
    Reads (readNode spanField "kind" variants make) (.obj (span.field ++ fields)) (make span b) := by
  have hspan : fields.lookup "span" = none := by
    obtain ⟨_, rest, hf, _⟩ := h.fields
    refine List.lookup_eq_none_iff.mpr fun p hp => ?_
    have hapart := (List.nodup_append.mp hf.nodup).2.2 "span" (List.mem_singleton.mpr rfl) p.1 (List.mem_map_of_mem hp)
    exact bne_iff_ne.mpr hapart
  unfold Span.field
  by_cases hdummy : span.isDummy = true
  · have heq : span = Span.dummy := of_decide_eq_true hdummy
    rw [hdummy, heq]
    exact reads_node (gives_default _ hspan) nofun rfl h
  · rw [Bool.not_eq_true] at hdummy
    rw [hdummy]
    refine reads_node (gives_defaulted rfl span.reads) (fun p hp => ?_) rfl h
    rw [List.mem_singleton.mp hp]
    rfl

theorem complete_succ : Complete ⟨n.exprOf, n.stmtOf, n.patternOf⟩ (d + 1) where
  expr e hd := by
    obtain ⟨span, kind⟩ := e
    refine reads_spanned span (exprKind_tagged h kind ?_)
    exact (fitFields_append (fitFields_of_succ hd)).2
  stmt x hd := by
    obtain ⟨span, kind⟩ := x
    refine reads_spanned span (stmtKind_tagged h kind ?_)
    exact (fitFields_append (fitFields_of_succ hd)).2
  pattern := patternOf_reads h

end NodeReaders

/-- The readers of a depth give back all nodes whose values are not deeper. -/
theorem nodeReaders_complete (d : Nat) : (nodeReaders d).Complete d := by
  induction d with
  | zero =>
    refine ⟨fun e hd => ?_, fun x hd => ?_, fun p hd => ?_⟩
    · cases e; exact absurd hd (Nat.not_succ_le_zero _)
    · cases x; exact absurd hd (Nat.not_succ_le_zero _)
    · cases p <;> exact absurd hd (Nat.not_succ_le_zero _)
  | succ d ih => exact NodeReaders.complete_succ ih


/-! ## Whole values -/

/-- A reader of parts, with the readers of nodes for the depth of its value. -/
def sized {α : Type} (read : NodeReaders → Reader α) : Reader α := fun o j => read (nodeReaders j.depth) o j

theorem sized_reads {α : Type} {read : NodeReaders → Reader α} {encode : α → Json}
    (h : ∀ {n : NodeReaders} {d : Nat}, n.Complete d → ∀ a, (encode a).depth ≤ d → Reads (read n) (encode a) a)
    (a : α) : Reads (sized read) (encode a) a := by
  have ha := h (nodeReaders_complete _) a (Nat.le_refl _)
  exact ⟨ha.named, ha.ok⟩

theorem Expr.reads (e : Expr) : Reads Expr.read e.toJson e := by
  have h := (nodeReaders_complete _).expr e (Nat.le_refl _)
  exact ⟨h.named, h.ok⟩

theorem Stmt.reads (x : Stmt) : Reads Stmt.read x.toJson x := by
  have h := (nodeReaders_complete _).stmt x (Nat.le_refl _)
  exact ⟨h.named, h.ok⟩

theorem Pattern.reads (p : Pattern) : Reads Pattern.read p.toJson p := by
  have h := (nodeReaders_complete _).pattern p (Nat.le_refl _)
  exact ⟨h.named, h.ok⟩

theorem Param.reads (p : Param) : Reads Param.read p.toJson p := sized_reads NodeReaders.param_reads p

/-! ## Components -/

theorem FieldDecl.reads (f : FieldDecl) : Reads FieldDecl.read f.toJson f := by
  obtain ⟨name, type?, init?⟩ := f
  have hinit : Reads (readOption Expr.read) (optionJson Expr.toJson init?) init? :=
    reads_optionJson Expr.toJson_ne_null (fun e _ => e.reads) (Nat.le_refl _)
  exact reads_record ((((gives_required rfl (reads_string name)).map _).seq
    (gives_nullable rfl (TypeRef.reads? type?))).seq (gives_nullable rfl hinit)) rfl rfl

theorem MethodBody.reads : ∀ b : MethodBody, Reads MethodBody.read b.toJson b
  | .block xs => by
    have hitems : Reads (readList Stmt.read) (.arr (stmtsJson xs)) xs :=
      reads_items stmtsJson_eq (fun x _ => x.reads) (Nat.le_refl _)
    exact reads_tagged (.intro rfl ((gives_required rfl hitems).map _) rfl rfl)
  | .expression e => reads_tagged (.intro rfl ((gives_required rfl e.reads).map _) rfl rfl)

theorem MethodDecl.reads (m : MethodDecl) : Reads MethodDecl.read m.toJson m := by
  obtain ⟨name, span, params, returnType?, isAsync, body?⟩ := m
  have hparams : Reads (readList Param.read) (.arr (paramsJson params)) params :=
    reads_items paramsJson_eq (fun p _ => p.reads) (Nat.le_refl _)
  have hbody : Reads (readOption MethodBody.read) (optionJson MethodBody.toJson body?) body? := by
    have hnull : ∀ b : MethodBody, b.toJson ≠ .null := by intro b; cases b <;> nofun
    exact reads_optionJson hnull (fun b _ => b.reads) (Nat.le_refl _)
  unfold MethodDecl.toJson Span.field
  -- the dummy span is left out, and read back as the default
  by_cases hdummy : span.isDummy = true
  · have heq : span = Span.dummy := of_decide_eq_true hdummy
    simp only [hdummy]
    subst heq
    exact reads_record (((((((gives_required rfl (reads_string name)).map _).seq (gives_default _ rfl)).seq
      (gives_defaulted rfl hparams)).seq (gives_nullable rfl (TypeRef.reads? returnType?))).seq
      (gives_defaulted rfl (reads_bool isAsync))).seq (gives_nullable rfl hbody)) rfl rfl
  · simp only [hdummy]
    exact reads_record (((((((gives_required rfl (reads_string name)).map _).seq (gives_defaulted rfl span.reads)).seq
      (gives_defaulted rfl hparams)).seq (gives_nullable rfl (TypeRef.reads? returnType?))).seq
      (gives_defaulted rfl (reads_bool isAsync))).seq (gives_nullable rfl hbody)) rfl rfl

theorem ComponentDecl.reads (c : ComponentDecl) : Reads ComponentDecl.read c.toJson c := by
  obtain ⟨name, fields, methods⟩ := c
  exact reads_record ((((gives_required rfl (reads_string name)).map _).seq
    (gives_defaulted rfl (reads_list fun f _ => f.reads))).seq
    (gives_defaulted rfl (reads_list fun m _ => m.reads))) rfl rfl

/-! ## Every type -/

/-- What is written with `encode` and read again is what it was. -/
def RoundTrips {α : Type} (read : Reader α) (encode : α → Json) : Prop := ∀ a, read .value (encode a) = .ok a

theorem roundTrips_of_reads {α : Type} {read : Reader α} {encode : α → Json}
    (h : ∀ a, Reads read (encode a) a) : RoundTrips read encode :=
  fun a => (h a).ok trivial

/-- The types of the syntax, from operators to components, each with its encoding and its
    reader. -/
structure SyntaxRoundTrips : Prop where
  binaryOp : RoundTrips (readWord BinaryOp.all BinaryOp.word) fun op => .str op.word
  unaryOp : RoundTrips (readWord UnaryOp.all UnaryOp.word) fun op => .str op.word
  assignOp : RoundTrips (readWord AssignOp.all AssignOp.word) fun op => .str op.word
  argModifier : RoundTrips (readWord ArgModifier.all ArgModifier.word) fun m => .str m.word
  span : RoundTrips Span.read Span.toJson
  typeRef : RoundTrips TypeRef.read TypeRef.toJson
  literal : RoundTrips readLiteral Literal.toJson
  loopTarget : RoundTrips readLoopTarget LoopTarget.toJson
  expr : RoundTrips Expr.read Expr.toJson
  interpolationPart : RoundTrips (sized NodeReaders.part) InterpolationPart.toJson
  argument : RoundTrips Argument.read Argument.toJson
  initializer : RoundTrips (sized NodeReaders.initializer) Initializer.toJson
  memberInit : RoundTrips (sized NodeReaders.memberInit) MemberInit.toJson
  dictEntry : RoundTrips (sized NodeReaders.dictEntry) DictEntry.toJson
  param : RoundTrips Param.read Param.toJson
  lambdaBody : RoundTrips (sized NodeReaders.lambdaBody) LambdaBody.toJson
  switchArm : RoundTrips (sized NodeReaders.switchArm) SwitchArm.toJson
  pattern : RoundTrips Pattern.read Pattern.toJson
  subpattern : RoundTrips (sized NodeReaders.subpattern) Subpattern.toJson
  stmt : RoundTrips Stmt.read Stmt.toJson
  declarator : RoundTrips (sized NodeReaders.declarator) Declarator.toJson
  forInit : RoundTrips (sized NodeReaders.forInit) ForInit.toJson
  catchClause : RoundTrips (sized NodeReaders.catchClause) CatchClause.toJson
  switchLabel : RoundTrips (sized NodeReaders.switchLabel) SwitchLabel.toJson
  switchSection : RoundTrips (sized NodeReaders.switchSection) SwitchSection.toJson
  fieldDecl : RoundTrips FieldDecl.read FieldDecl.toJson
  methodBody : RoundTrips MethodBody.read MethodBody.toJson
  methodDecl : RoundTrips MethodDecl.read MethodDecl.toJson
  componentDecl : RoundTrips ComponentDecl.read ComponentDecl.toJson

/-- Every value of the syntax, of any size and depth, comes back from its JSON value. -/
theorem syntax_roundTrips : SyntaxRoundTrips where
  binaryOp := roundTrips_of_reads BinaryOp.reads
  unaryOp := roundTrips_of_reads UnaryOp.reads
  assignOp := roundTrips_of_reads AssignOp.reads
  argModifier := roundTrips_of_reads ArgModifier.reads
  span := roundTrips_of_reads Span.reads
  typeRef := roundTrips_of_reads TypeRef.reads
  literal := roundTrips_of_reads Literal.reads
  loopTarget := roundTrips_of_reads LoopTarget.reads
  expr := roundTrips_of_reads Expr.reads
  interpolationPart := roundTrips_of_reads (sized_reads NodeReaders.part_reads)
  argument := roundTrips_of_reads (sized_reads NodeReaders.argument_reads)
  initializer := roundTrips_of_reads (sized_reads NodeReaders.initializer_reads)
  memberInit := roundTrips_of_reads (sized_reads NodeReaders.memberInit_reads)
  dictEntry := roundTrips_of_reads (sized_reads NodeReaders.dictEntry_reads)
  param := roundTrips_of_reads Param.reads
  lambdaBody := roundTrips_of_reads (sized_reads NodeReaders.lambdaBody_reads)
  switchArm := roundTrips_of_reads (sized_reads NodeReaders.switchArm_reads)
  pattern := roundTrips_of_reads Pattern.reads
  subpattern := roundTrips_of_reads (sized_reads NodeReaders.subpattern_reads)
  stmt := roundTrips_of_reads Stmt.reads
  declarator := roundTrips_of_reads (sized_reads NodeReaders.declarator_reads)
  forInit := roundTrips_of_reads (sized_reads NodeReaders.forInit_reads)
  catchClause := roundTrips_of_reads (sized_reads NodeReaders.catchClause_reads)
  switchLabel := roundTrips_of_reads (sized_reads NodeReaders.switchLabel_reads)
  switchSection := roundTrips_of_reads (sized_reads NodeReaders.switchSection_reads)
  fieldDecl := roundTrips_of_reads FieldDecl.reads
  methodBody := roundTrips_of_reads MethodBody.reads
  methodDecl := roundTrips_of_reads MethodDecl.reads
  componentDecl := roundTrips_of_reads ComponentDecl.reads

end ComponentScript
