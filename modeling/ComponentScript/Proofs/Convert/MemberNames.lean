/-
  ComponentScript.Proofs.Convert.MemberNames — the name of a member of the component,
  wherever it is written.

  A member is declared as a field or a method, reached through the instance, or named
  without a receiver; and a bare name may be resolved or not. All but one of these write the
  name in camel case. An unresolved name with an underscore in front is written as it is.
  - `converter_thisMember`, `identifier_resolved`, `convertComponent_names`: the name in
    camel case.
  - `Settings.memberText_eq_iff`: when the unresolved name is the same.
  - `member_names_agree`: the unresolved name is that of all others exactly if it has no
    underscore in front or is in camel case already.
-/

import ComponentScript.Proofs.Component.Members
import ComponentScript.Proofs.Convert.CatchVariables
import ComponentScript.Proofs.Convert.LexicalScope
import ComponentScript.Proofs.Convert.NodeCalls
import ComponentScript.Proofs.Convert.Resolution

namespace ComponentScript

open Script Text

/-- A member without a receiver has the name of the others unless an underscore keeps its form. -/
theorem Settings.memberText_eq_iff (settings : Settings) (name : String) :
    settings.memberText name = settings.instanceReceiver ++ "." ++ camelCase name ↔
      (name.toList.head? = some '_' → camelCase name = name) := by
  unfold Settings.memberText
  rw [String.append_right_inj]
  split
  · next h => exact ⟨fun heq _ => heq.symm, fun heq => (heq h).symm⟩
  · next h => exact iff_of_true rfl fun h' => absurd h' h

theorem Env.identifier_resolved {env : Env} {s : Session} {e : Expr} {name : String} {symbol : SymbolInfo}
    (hbound : s.isBound name = false) (hsymbol : env.model.symbolOf e = some symbol)
    (hkind : symbol.kind.isInstanceMember = true) :
    env.identifier s e name = env.settings.instanceReceiver ++ "." ++ camelCase name := by
  unfold Env.identifier
  simp [hbound, hsymbol, hkind]

/-- The model does not take the member for one of the mathematics or the task types. -/
def Model.Ordinary (m : Model) (e : Expr) : Prop :=
  m.declaringCategory e ≠ some .math ∧ m.declaringCategory e ≠ some .task

/-- A member of the instance belongs to a family only if the model says so. -/
theorem Env.isMemberOf_this {env : Env} {s : Session} {c : Category} {types : List String} {span : Span} {e : Expr}
    (h : env.model.declaringCategory e ≠ some c) : env.isMemberOf s c types ⟨span, .this⟩ e = false := by
  unfold Env.isMemberOf Model.declaredIn
  cases hc : env.model.declaringCategory e with
  | none => rfl
  | some d =>
    rw [hc] at h
    simpa using h

namespace Rules

/-- No rule is about the members of the instance. -/
theorem not_applies_thisMember {env : Env} {s : Session} {span span' : Span} {name : String}
    (h : env.model.Ordinary ⟨span, .member ⟨span', .this⟩ name⟩) :
    ∀ r ∈ builtinExprs, r.applies env s ⟨span, .member ⟨span', .this⟩ name⟩ = false := by
  have htask : taskHelpers.applies env s ⟨span, .member ⟨span', .this⟩ name⟩ = false :=
    Bool.and_eq_false_imp.mpr fun _ => Env.isMemberOf_this h.2
  have hmath : numericHelpers.applies env s ⟨span, .member ⟨span', .this⟩ name⟩ = false := Env.isMemberOf_this h.1
  have hstring : stringHelpers.applies env s ⟨span, .member ⟨span', .this⟩ name⟩ = false := Bool.and_false _
  have hcollection : collectionProperties.applies env s ⟨span, .member ⟨span', .this⟩ name⟩ = false :=
    Bool.and_eq_false_imp.mpr fun hon => by simp [isOnCollection, isCollectionMember] at hon
  simp only [builtinExprs, List.forall_mem_cons]
  exact ⟨rfl, htask, rfl, hmath, hstring, rfl, hcollection, rfl, rfl, rfl, rfl, List.forall_mem_nil _⟩

end Rules

namespace Engine

theorem converter_thisMember (m : Model) (expected? : Option TypeRef) {span span' : Span} {name : String}
    (h : m.Ordinary ⟨span, .member ⟨span', .this⟩ name⟩) (s : Session) :
    ((({} : Engine).converter m).exprAs expected? ⟨span, .member ⟨span', .this⟩ name⟩).out s =
      ("this." ++ camelCase name, s) := by
  have hfind : (RuleSet.ofList Rules.builtinExprs).find? (env {} m) s ⟨span, .member ⟨span', .this⟩ name⟩ = none :=
    RuleSet.find?_ofList_eq_none.mpr (Rules.not_applies_thisMember h)
  have hthis : ((({} : Engine).converter m).operand ⟨span', .this⟩).out s = ("this", s) := by
    rw [Converter.operand, Converter.expr, Emit.out_bind, exprAs_eq_defaultExpr {} m rfl]
    exact congrArg (·, s) (show operand "this" = "this" by decide)
  rw [exprAs_out_of_find_none (builtin_local {}) expected? hfind]
  dsimp only [Converter.defaultExpr]
  rw [Emit.out_bind, hthis]
  rfl

theorem convertMethod_name {g : Engine} {m : Model} {d : MethodDecl} {r : ConvertedMethod}
    (h : g.convertMethod m d = .ok r) : r.name = camelCase d.name := by
  unfold convertMethod at h
  cases hbody : d.body? with
  | none => rw [hbody] at h; cases h
  | some body => rw [hbody] at h; cases h; rfl

theorem names_of_methods {g : Engine} {m : Model} {ds : List MethodDecl} {rs : List ConvertedMethod}
    (h : rs.map .ok = ds.map (g.convertMethod m)) : rs.map (·.name) = ds.map fun d => camelCase d.name := by
  induction ds generalizing rs with
  | nil => rw [List.map_eq_nil_iff.mp h]; rfl
  | cons d ds ih =>
    cases rs with
    | nil => cases h
    | cons r rs =>
      obtain ⟨hhead, htail⟩ := List.cons.inj h
      rw [List.map_cons, List.map_cons, convertMethod_name hhead.symm, ih htail]

/-- Fields and methods are declared in camel case. -/
theorem convertComponent_names {g : Engine} {m : Model} {c : ComponentDecl} {r : ConvertedComponent}
    (h : g.convertComponent m c = .ok r) :
    r.fields.map (·.name) = c.fields.map (fun f => camelCase f.name) ∧
      r.methods.map (·.name) = c.methods.map (fun d => camelCase d.name) := by
  obtain ⟨-, -, hfields, hmethods⟩ := convertComponent_eq_ok.mp h
  constructor
  · rw [hfields, List.map_map]
    rfl
  · exact names_of_methods hmethods

end Engine

/-- Member names agree but for unresolved names with an underscore. With the built-in rules and
    the default settings, for a name that is not bound and not resolved, and that is not left
    alone but written as a member: through the instance, resolved as a field, property, method
    or event, and declared as a field or a method, the name is in camel case. The unresolved
    name is the same exactly if it has no underscore in front or is in camel case already. -/
theorem member_names_agree (n : String) (m : Model) (span : Span) (expected? : Option TypeRef) (s : Session)
    (hbound : s.isBound n = false) (hsymbol : m.symbolOf ⟨span, .identifier n⟩ = none)
    (hmember : ({} : Settings).leavesName n = false) :
    let text (m : Model) (s : Session) (e : Expr) := (((({} : Engine).converter m).exprAs expected? e).out s).1
    text m s ⟨span, .identifier n⟩ = ({} : Settings).memberText n ∧
    (text m s ⟨span, .identifier n⟩ = "this." ++ camelCase n ↔
      (n.toList.head? = some '_' → camelCase n = n)) ∧
    (∀ m s span span', m.Ordinary ⟨span, .member ⟨span', .this⟩ n⟩ →
      text m s ⟨span, .member ⟨span', .this⟩ n⟩ = "this." ++ camelCase n) ∧
    (∀ m s span symbol, s.isBound n = false → m.symbolOf ⟨span, .identifier n⟩ = some symbol →
      symbol.kind.isInstanceMember = true → text m s ⟨span, .identifier n⟩ = "this." ++ camelCase n) ∧
    ∀ m c r, ({} : Engine).convertComponent m c = .ok r →
      r.fields.map (·.name) = c.fields.map (fun f => camelCase f.name) ∧
      r.methods.map (·.name) = c.methods.map (fun d => camelCase d.name) := by
  intro text
  have hidentifier : ∀ m s span, text m s ⟨span, .identifier n⟩ = Env.identifier ⟨{}, m⟩ s ⟨span, .identifier n⟩ n :=
    fun m s span => congrArg Prod.fst (Engine.converter_identifier {} m expected? span n s)
  have hbare : text m s ⟨span, .identifier n⟩ = ({} : Settings).memberText n := by
    rw [hidentifier, Env.identifier_unresolved ⟨{}, m⟩ s hsymbol, if_neg (by simp [hbound, hmember])]
  refine ⟨hbare, ?_, ?_, ?_, fun m c r hr => Engine.convertComponent_names hr⟩
  · rw [hbare]
    exact Settings.memberText_eq_iff {} n
  · intro m s span span' hordinary
    exact congrArg Prod.fst (Engine.converter_thisMember m expected? hordinary s)
  · intro m s span symbol hbound hsymbol hkind
    exact (hidentifier m s span).trans (Env.identifier_resolved hbound hsymbol hkind)

/-- An unresolved name with an underscore in front of a capital is not the name of the member. -/
theorem member_names_agree_underscore :
    ({} : Settings).leavesName "_Count" = false ∧
    (((({} : Engine).converter .empty).exprAs none ⟨{}, .identifier "_Count"⟩).out {}).1 = "this._Count" ∧
    (((({} : Engine).converter .empty).exprAs none ⟨{}, .member ⟨{}, .this⟩ "_Count"⟩).out {}).1 = "this._count" := by
  have hmember : ({} : Settings).leavesName "_Count" = false := by decide
  obtain ⟨hbare, -, hthis, -⟩ := member_names_agree "_Count" .empty {} none {} rfl rfl hmember
  have hordinary : Model.empty.Ordinary ⟨{}, .member ⟨{}, .this⟩ "_Count"⟩ := ⟨by rintro ⟨⟩, by rintro ⟨⟩⟩
  exact ⟨hmember, hbare, hthis .empty {} {} {} hordinary⟩

end ComponentScript
