/-
  ComponentScript.Proofs.Convert.SubjectUses — how often a pattern test mentions its subject.

  The text of a test is made of fixed texts with the subject between them: the fixed texts
  and the session after the test are the same for every subject (`patternTest_repeats`). How
  often the subject occurs is `Pattern.mentions`. It is at most `Pattern.subjectUses`, the
  number by which a test decides whether to bind its operand, and exactly that unless a
  connective has a discard as an operand. So an operand that is not plain is emitted once at
  most (`subject_mentions`).
-/

import ComponentScript.Convert.Engine
import ComponentScript.Proofs.Convert.Lockstep

namespace ComponentScript

open Text

/-! ## Texts over a subject -/

/-- The text mentions its subject `n` times, between texts that do not depend on it. -/
inductive Repeats : Nat → (String → String) → Prop
  | last {f : String → String} (t : String) : (∀ s, f s = t) → Repeats 0 f
  | mention {n : Nat} {f g : String → String} (t : String) :
    (∀ s, f s = t ++ s ++ g s) → Repeats n g → Repeats (n + 1) f

namespace Repeats

variable {m n : Nat} {f g : String → String}

/-- The fixed texts, one more than there are mentions. -/
theorem texts (h : Repeats n f) : ∃ ts : List String, ts.length = n + 1 ∧ ∀ s, f s = s.intercalate ts := by
  induction h with
  | last t hf => exact ⟨[t], rfl, fun s => by rw [hf, String.intercalate_singleton]⟩
  | mention t hf _ ih =>
    obtain ⟨ts, hlength, hg⟩ := ih
    cases ts with
    | nil => cases hlength
    | cons u us => exact ⟨t :: u :: us, congrArg (· + 1) hlength, fun s => by rw [hf, hg, String.intercalate_cons_cons]⟩

theorem const (t : String) : Repeats 0 fun _ => t := .last t fun _ => rfl

theorem subject : Repeats 1 fun s => s := .mention "" (fun s => by simp) (const "")

theorem after (t : String) (h : Repeats n f) : Repeats n fun s => t ++ f s := by
  cases h with
  | last u hf => exact .last (t ++ u) fun s => by rw [hf]
  | mention u hf hg => exact .mention (t ++ u) (fun s => by simp only [hf, String.append_assoc]) hg

theorem append (hf : Repeats m f) (hg : Repeats n g) : Repeats (m + n) fun s => f s ++ g s := by
  induction hf with
  | last t hf =>
    simp only [hf, Nat.zero_add]
    exact hg.after t
  | mention t hf _ ih =>
    rw [Nat.add_right_comm]
    exact .mention t (fun s => by simp only [hf, String.append_assoc]) ih

/-- With more texts around it. -/
theorem between (h : Repeats n f) (l r : String) : Repeats n fun s => l ++ f s ++ r := (h.after l).append (const r)

/-- The same of a subject with a text behind it. -/
theorem behind (h : Repeats n f) (t : String) : Repeats n fun s => f (s ++ t) := by
  induction h with
  | last u hf => exact .last u fun s => hf (s ++ t)
  | mention u hf _ ih => exact .mention u (fun s => by simp only [hf, String.append_assoc]) (ih.after t)

end Repeats

/-- The texts mention their subject `n` times altogether. -/
inductive RepeatsAll : Nat → (String → List String) → Prop
  | nil {fs : String → List String} : (∀ s, fs s = []) → RepeatsAll 0 fs
  | cons {m n : Nat} {fs gs : String → List String} {f : String → String} : (∀ s, fs s = f s :: gs s) →
      Repeats m f → RepeatsAll n gs → RepeatsAll (m + n) fs

namespace RepeatsAll

variable {n : Nat} {fs : String → List String}

theorem joined (h : RepeatsAll n fs) (separator : String) : Repeats n fun s => separator.intercalate (fs s) := by
  induction h with
  | nil hfs => exact .last "" fun s => by rw [hfs, String.intercalate_nil]
  | @cons m n fs gs f hfs hf hgs ih =>
    cases hgs with
    | nil hgs => simpa only [hfs, hgs, String.intercalate_singleton, Nat.add_zero] using hf
    | @cons m' n' _ gs' g hgs hg hgs' =>
      have hboth := (hf.append (.const separator)).append ih
      simpa only [hfs, hgs, String.intercalate_cons_cons, Nat.add_zero] using hboth

end RepeatsAll

/-! ## Tests that always hold -/

def Pattern.isDiscard : Pattern → Bool
  | .discard => true
  | _ => false

theorem Pattern.eq_discard {p : Pattern} (h : p.isDiscard = true) : p = .discard := by
  cases p with
  | discard => rfl
  | _ => cases h

/-- More than one word. -/
def HasBlank (t : String) : Prop := ' ' ∈ t.toList

instance : DecidablePred HasBlank := fun _ => inferInstanceAs (Decidable (_ ∈ _))

namespace HasBlank

variable {t u : String}

theorem left (h : HasBlank t) (u : String) : HasBlank (t ++ u) := by
  rw [HasBlank, String.toList_append]
  exact List.mem_append_left _ h

theorem right (t : String) (h : HasBlank u) : HasBlank (t ++ u) := by
  rw [HasBlank, String.toList_append]
  exact List.mem_append_right _ h

theorem ne_true (h : HasBlank t) : t ≠ "true" := by
  rintro rfl
  exact absurd h (by decide)

end HasBlank

theorem negated_ne_true (t : String) : "!(" ++ t ++ ")" ≠ "true" := by
  rw [ne_eq, ← String.toList_inj]
  simp

theorem typeTest_hasBlank (subject : String) (type : TypeRef) : HasBlank (typeTest subject type) := by
  have hprimitive : HasBlank ("typeof " ++ subject) := HasBlank.left (by decide) _
  unfold typeTest
  dsimp only
  split
  · exact hprimitive.left _
  · exact hprimitive.left _
  · exact hprimitive.left _
  · split
    · exact .right subject (by decide)
    · exact (HasBlank.right subject (by decide)).left _

namespace Converter

variable (k : Converter) (subject : String)

theorem propertyTest_ne_true {tests : List String} (h : ∀ t ∈ tests, t ≠ "true") :
    (if tests.isEmpty then s!"{subject} != null" else " && ".intercalate tests) ≠ "true" := by
  cases tests with
  | nil => exact (HasBlank.right subject (by decide)).ne_true
  | cons t tests =>
    cases tests with
    | nil => simpa using h t (List.mem_cons_self ..)
    | cons u tests =>
      have hblank : HasBlank (t ++ " && " ++ " && ".intercalate (u :: tests)) := (HasBlank.right t (by decide)).left _
      simpa using hblank.ne_true

/-- Only a discard gives a test that is left out of the tests of members. -/
theorem patternTest_ne_true {p : Pattern} (hp : p.isDiscard = false) (σ : Session) :
    ((k.patternTest subject p).out σ).1 ≠ "true" := by
  cases p with
  | discard => cases hp
  | constant value =>
    rw [patternTest]
    split
    · exact (HasBlank.right subject (by decide)).ne_true
    · exact ((HasBlank.right subject (by decide)).left _).ne_true
  | relational op value =>
    rw [patternTest]
    exact ((((HasBlank.right subject (by decide)).left _).left _).left _).ne_true
  | type type =>
    rw [patternTest, Emit.out_pure]
    dsimp only
    exact (typeTest_hasBlank subject type).ne_true
  | property type? subpatterns =>
    rw [patternTest, Emit.out_bind, Emit.out_pure]
    refine propertyTest_ne_true subject (List.forall_mem_append.mpr ⟨fun t ht => ?_, fun t ht => ?_⟩)
    · obtain ⟨type, -, rfl⟩ := Option.map_eq_some_iff.mp (Option.mem_toList.mp ht)
      exact (typeTest_hasBlank subject type).ne_true
    · simpa using (List.mem_filter.mp ht).2
  | not pattern =>
    rw [patternTest]
    split
    · exact (HasBlank.right subject (by decide)).ne_true
    · rw [Emit.out_bind, Emit.out_pure]
      exact negated_ne_true _
  | and left right =>
    rw [patternTest]
    exact ((HasBlank.right _ (by decide)).left _).ne_true
  | or left right =>
    rw [patternTest]
    exact (((HasBlank.right _ (by decide)).left _).left _).ne_true

theorem patternTest_eq_true_iff (p : Pattern) (σ : Session) :
    ((k.patternTest subject p).out σ).1 = "true" ↔ p.isDiscard = true := by
  cases hp : p.isDiscard with
  | true => simp [Pattern.eq_discard hp, patternTest]
  | false => simpa using k.patternTest_ne_true subject hp σ

theorem memberTest_eq_true_iff (p : Subpattern) (σ : Session) :
    ((k.memberTest subject p).out σ).1 = "true" ↔ p.pattern.isDiscard = true := by
  obtain ⟨name, p⟩ := p
  rw [memberTest]
  exact k.patternTest_eq_true_iff _ p σ

/-- Nothing is left of the tests of members exactly if all are discards. -/
theorem memberTests_eq_nil_iff (ps : List Subpattern) (σ : Session) :
    ((k.memberTests subject ps).out σ).1.filter (· ≠ "true") = [] ↔ ps.all (·.pattern.isDiscard) = true := by
  induction ps generalizing σ with
  | nil => simp [memberTests]
  | cons p ps ih =>
    have hp := k.memberTest_eq_true_iff subject p σ
    rw [memberTests, Emit.out_bind, Emit.out_bind, Emit.out_pure, List.all_cons, Bool.and_eq_true, ← hp, ← ih]
    by_cases htrue : ((k.memberTest subject p).out σ).1 = "true"
    · rw [List.filter_cons_of_neg (by simpa using htrue)]
      exact (and_iff_right htrue).symm
    · rw [List.filter_cons_of_pos (by simpa using htrue)]
      simp [htrue]

end Converter

/-! ## Counting -/

mutual
/-- How often the test of a pattern mentions its subject. -/
def Pattern.mentions : Pattern → Nat
  | .discard => 0
  | .constant _ | .relational .. | .type _ => 1
  | .property type? subpatterns =>
    if type?.isNone && subpatterns.all (·.pattern.isDiscard) then 1
    else (if type?.isSome then 1 else 0) + mentionsList subpatterns
  | .not pattern => pattern.mentions
  | .and left right => left.mentions + right.mentions
  | .or left right => left.mentions + right.mentions
def Subpattern.mentions : Subpattern → Nat
  | ⟨_, pattern⟩ => pattern.mentions
def mentionsList : List Subpattern → Nat
  | [] => 0
  | p :: ps => p.mentions + mentionsList ps
end

mutual
/-- No operand of a connective is a discard. -/
def Pattern.connectsTests : Pattern → Bool
  | .property _ subpatterns => connectTests subpatterns
  | .not pattern => !pattern.isDiscard && pattern.connectsTests
  | .and left right => !left.isDiscard && left.connectsTests && !right.isDiscard && right.connectsTests
  | .or left right => !left.isDiscard && left.connectsTests && !right.isDiscard && right.connectsTests
  | _ => true
def Subpattern.connectsTests : Subpattern → Bool
  | ⟨_, pattern⟩ => pattern.connectsTests
def connectTests : List Subpattern → Bool
  | [] => true
  | p :: ps => p.connectsTests && connectTests ps
end

mutual
theorem Pattern.mentions_le : ∀ p : Pattern, p.mentions ≤ p.subjectUses
  | .discard | .constant _ | .relational .. | .type _ => Nat.le_refl _
  | .property type? ps => by
    have hps := mentionsList_le ps
    rw [Pattern.mentions, Pattern.subjectUses]
    split <;> omega
  | .not p => p.mentions_le
  | .and l r => Nat.add_le_add l.mentions_le r.mentions_le
  | .or l r => Nat.add_le_add l.mentions_le r.mentions_le
theorem Subpattern.mentions_le : ∀ p : Subpattern, p.mentions ≤ p.subjectUses
  | ⟨_, p⟩ => p.mentions_le
theorem mentionsList_le : ∀ ps : List Subpattern, mentionsList ps ≤ subjectUsesList ps
  | [] => Nat.le_refl _
  | p :: ps => Nat.add_le_add p.mentions_le (mentionsList_le ps)
end

/-- A test that is not left out mentions its subject. -/
theorem Pattern.subjectUses_pos : ∀ {p : Pattern}, p.connectsTests = true → p.isDiscard = false → 0 < p.subjectUses
  | .constant _, _, _ => Nat.one_pos
  | .relational .., _, _ => Nat.one_pos
  | .type _, _, _ => Nat.one_pos
  | .property .., _, _ => by rw [subjectUses]; omega
  | .not p, h, _ => by
    simp only [connectsTests, Bool.and_eq_true, Bool.not_eq_true'] at h
    exact subjectUses_pos (p := p) h.2 h.1
  | .and l r, h, _ | .or l r, h, _ => by
    simp only [connectsTests, Bool.and_eq_true, Bool.not_eq_true'] at h
    exact Nat.add_pos_left (subjectUses_pos h.1.1.2 h.1.1.1) _

theorem subjectUsesList_eq_zero {ps : List Subpattern} (h : connectTests ps = true) :
    subjectUsesList ps = 0 ↔ ps.all (·.pattern.isDiscard) = true := by
  induction ps with
  | nil => simp [subjectUsesList]
  | cons p ps ih =>
    rw [connectTests, Bool.and_eq_true] at h
    rw [subjectUsesList, Nat.add_eq_zero_iff, ih h.2, List.all_cons, Bool.and_eq_true]
    refine and_congr_left fun _ => ?_
    obtain ⟨name, p⟩ := p
    cases hd : p.isDiscard with
    | true => simp [Pattern.eq_discard hd, Subpattern.subjectUses, Pattern.subjectUses]
    | false =>
      have hpos : 0 < p.subjectUses := Pattern.subjectUses_pos h.1 hd
      simp only [Subpattern.subjectUses, Bool.false_eq_true, iff_false]
      omega

mutual
theorem Pattern.mentions_eq : ∀ {p : Pattern}, p.connectsTests = true → p.mentions = p.subjectUses
  | .discard, _ | .constant _, _ | .relational .., _ | .type _, _ => rfl
  | .property type? ps, h => by
    have hps : mentionsList ps = subjectUsesList ps := mentionsList_eq h
    have hzero : subjectUsesList ps = 0 ↔ ps.all (·.pattern.isDiscard) = true := subjectUsesList_eq_zero h
    rw [Pattern.mentions, Pattern.subjectUses, hps]
    cases type? with
    | some type => simp
    | none =>
      simp only [Option.isNone_none, Bool.true_and, ← hzero, Option.isSome_none, Bool.false_eq_true, if_false]
      split <;> omega
  | .not p, h => by
    simp only [Pattern.connectsTests, Bool.and_eq_true] at h
    exact Pattern.mentions_eq (p := p) h.2
  | .and l r, h | .or l r, h => by
    simp only [Pattern.connectsTests, Bool.and_eq_true] at h
    rw [Pattern.mentions, Pattern.subjectUses, Pattern.mentions_eq h.1.1.2, Pattern.mentions_eq h.2]
theorem Subpattern.mentions_eq : ∀ {p : Subpattern}, p.connectsTests = true → p.mentions = p.subjectUses
  | ⟨_, _⟩, h => Pattern.mentions_eq h
theorem mentionsList_eq : ∀ {ps : List Subpattern}, connectTests ps = true → mentionsList ps = subjectUsesList ps
  | [], _ => rfl
  | p :: ps, h => by
    rw [connectTests, Bool.and_eq_true] at h
    rw [mentionsList, subjectUsesList, Subpattern.mentions_eq h.1, mentionsList_eq h.2]
end

/-! ## Pattern tests over their subject -/

theorem typeTest_repeats (type : TypeRef) : Repeats 1 fun s => typeTest s type := by
  have hprimitive (rest : String) : Repeats 1 fun s => "typeof " ++ s ++ rest := Repeats.subject.between _ _
  have hbehind (rest : String) : Repeats 1 fun s => s ++ rest := Repeats.subject.append (.const rest)
  unfold typeTest
  dsimp only
  split
  · exact hprimitive _
  · exact hprimitive _
  · exact hprimitive _
  · split
    · exact hbehind _
    · exact (hbehind _).append (.const _)

theorem memberPath_eq (subject path : String) : memberPath subject path =
    subject ++ ("." ++ ".".intercalate
      ((splitOn '.' path.toList).map fun part => Script.camelCase (String.ofList part))) :=
  String.append_assoc ..

theorem typeTests_repeats (type? : Option TypeRef) {n : Nat} {fs : String → List String} (h : RepeatsAll n fs) :
    RepeatsAll ((if type?.isSome then 1 else 0) + n) fun s => (type?.map (typeTest s)).toList ++ fs s := by
  cases type? with
  | none => simpa using h
  | some type => exact .cons (fun _ => rfl) (typeTest_repeats type) h

namespace Converter

variable (k : Converter)

mutual
/-- The fixed texts and the session after the test are the same for every subject. -/
theorem patternTest_repeats : ∀ (p : Pattern) (σ : Session), ∃ f σ', Repeats p.mentions f ∧
    ∀ s, (k.patternTest s p).out σ = (f s, σ')
  | .discard, σ => ⟨fun _ => "true", σ, .const "true", fun _ => rfl⟩
  | .type type, σ => ⟨fun s => typeTest s type, σ, typeTest_repeats type, fun _ => rfl⟩
  | .constant value, σ => by
    by_cases hnull : value.isNull = true
    · refine ⟨fun s => s ++ " == null", σ, Repeats.subject.append (.const _), fun s => ?_⟩
      rw [patternTest, if_pos hnull]
      rfl
    · refine ⟨fun s => s ++ " === " ++ ((k.expr value).out σ).1, ((k.expr value).out σ).2,
        (Repeats.subject.append (.const _)).append (.const _), fun s => ?_⟩
      rw [patternTest, if_neg hnull]
      rfl
  | .relational op value, σ => by
    refine ⟨fun s => s ++ " " ++ op.symbol ++ " " ++ ((k.expr value).out σ).1, ((k.expr value).out σ).2, ?_,
      fun s => ?_⟩
    · exact (((Repeats.subject.append (.const _)).append (.const _)).append (.const _)).append (.const _)
    · rw [patternTest]
      rfl
  | .property type? subpatterns, σ => by
    obtain ⟨fs, σ', hfs, hout⟩ := memberTests_repeats subpatterns σ
    have htests := typeTests_repeats type? hfs
    have hnone : ∀ s, ((type?.map (typeTest s)).toList ++ fs s).isEmpty =
        (type?.isNone && subpatterns.all (·.pattern.isDiscard)) := by
      intro s
      rw [Bool.eq_iff_iff, List.isEmpty_iff, List.append_eq_nil_iff, ← (hout s).1, memberTests_eq_nil_iff,
        Bool.and_eq_true]
      cases type? <;> simp
    rw [Pattern.mentions]
    by_cases hall : (type?.isNone && subpatterns.all (·.pattern.isDiscard)) = true
    · rw [if_pos hall]
      refine ⟨fun s => s ++ " != null", σ', Repeats.subject.append (.const _), fun s => ?_⟩
      rw [patternTest, Emit.out_bind, Emit.out_pure, (hout s).1, (hout s).2, hnone, if_pos hall]
      rfl
    · rw [if_neg hall]
      refine ⟨_, σ', htests.joined " && ", fun s => ?_⟩
      rw [patternTest, Emit.out_bind, Emit.out_pure, (hout s).1, (hout s).2, hnone, if_neg hall]
  | .not pattern, σ => by
    by_cases hnull : pattern.isNull = true
    · have hone : (Pattern.not pattern).mentions = 1 := by
        cases pattern with
        | constant value => rfl
        | _ => cases hnull
      rw [hone]
      refine ⟨fun s => s ++ " != null", σ, Repeats.subject.append (.const _), fun s => ?_⟩
      rw [patternTest, if_pos hnull]
      rfl
    · obtain ⟨f, σ', hf, hout⟩ := patternTest_repeats pattern σ
      refine ⟨fun s => "!(" ++ f s ++ ")", σ', hf.between _ _, fun s => ?_⟩
      rw [patternTest, if_neg hnull, Emit.out_bind, hout]
      rfl
  | .and left right, σ => by
    obtain ⟨f, σ', hf, hl⟩ := patternTest_repeats left σ
    obtain ⟨g, σ'', hg, hr⟩ := patternTest_repeats right σ'
    refine ⟨fun s => f s ++ " && " ++ g s, σ'', (hf.append (.const _)).append hg, fun s => ?_⟩
    rw [patternTest, Emit.out_bind, hl, Emit.out_bind, hr]
    rfl
  | .or left right, σ => by
    obtain ⟨f, σ', hf, hl⟩ := patternTest_repeats left σ
    obtain ⟨g, σ'', hg, hr⟩ := patternTest_repeats right σ'
    refine ⟨fun s => "(" ++ f s ++ " || " ++ g s ++ ")", σ'', ?_, fun s => ?_⟩
    · exact ((hf.between "(" " || ").append hg).append (.const ")")
    · rw [patternTest, Emit.out_bind, hl, Emit.out_bind, hr]
      rfl
theorem memberTest_repeats : ∀ (p : Subpattern) (σ : Session), ∃ f σ', Repeats p.mentions f ∧
    ∀ s, (k.memberTest s p).out σ = (f s, σ')
  | ⟨name, pattern⟩, σ => by
    obtain ⟨f, σ', hf, hout⟩ := patternTest_repeats pattern σ
    refine ⟨fun s => f (memberPath s name), σ', ?_, fun s => by rw [memberTest, hout]⟩
    simp only [memberPath_eq]
    exact hf.behind _
/-- The tests of members without those that always hold. -/
theorem memberTests_repeats : ∀ (ps : List Subpattern) (σ : Session), ∃ fs σ', RepeatsAll (mentionsList ps) fs ∧
    ∀ s, ((k.memberTests s ps).out σ).1.filter (· ≠ "true") = fs s ∧ ((k.memberTests s ps).out σ).2 = σ'
  | [], σ => ⟨fun _ => [], σ, .nil fun _ => rfl, fun _ => ⟨rfl, rfl⟩⟩
  | p :: ps, σ => by
    obtain ⟨f, σ', hf, hp⟩ := memberTest_repeats p σ
    obtain ⟨fs, σ'', hfs, hps⟩ := memberTests_repeats ps σ'
    have hout : ∀ s, (k.memberTests s (p :: ps)).out σ = (f s :: ((k.memberTests s ps).out σ').1, σ'') := by
      intro s
      rw [memberTests, Emit.out_bind, hp, Emit.out_bind, Emit.out_pure, (hps s).2]
    have htrue : ∀ s, f s = "true" ↔ p.pattern.isDiscard = true := by
      intro s
      rw [← k.memberTest_eq_true_iff s p σ, hp]
    simp only [hout]
    obtain ⟨name, pattern⟩ := p
    cases hdiscard : pattern.isDiscard with
    | true =>
      cases Pattern.eq_discard hdiscard
      refine ⟨fs, σ'', by rwa [mentionsList, Subpattern.mentions, Pattern.mentions, Nat.zero_add], fun s => ?_⟩
      rw [(htrue s).mpr rfl, List.filter_cons_of_neg (by simp), (hps s).1]
      exact ⟨rfl, rfl⟩
    | false =>
      have hne : ∀ s, f s ≠ "true" := fun s h => absurd ((htrue s).mp h) (by simp [hdiscard])
      refine ⟨fun s => f s :: fs s, σ'', .cons (fun _ => rfl) hf hfs, fun s => ?_⟩
      rw [List.filter_cons_of_pos (by simpa using hne s), (hps s).1]
      exact ⟨rfl, rfl⟩
end

end Converter

/-! ## Operands of tests -/

namespace Converter

variable (k : Converter)

/-- What becomes of the text of an operand that is not plain: a test that mentions it once at
    most has it in place, any other binds it. -/
def testOf (p : Pattern) (value : String) : Emit String :=
  if p.subjectUses ≤ 1 then k.patternTest (Script.operand value) p
  else do
    let subject ← Emit.freshName "is"
    let test ← k.patternTest subject p
    return s!"(({subject}) => {test})({value})"

theorem isTest_eq {e : Expr} (he : e.isPlain = false) (p : Pattern) : k.isTest e p = k.expr e >>= k.testOf p := by
  unfold isTest testOf
  by_cases hp : p.subjectUses ≤ 1
  · simp only [he, hp]
    rfl
  · simp only [he, hp]
    rfl

theorem testOf_repeats (p : Pattern) (σ : Session) : ∃ n f σ', n ≤ 1 ∧ Repeats n f ∧ ∀ value,
    (k.testOf p value).out σ = (f (if p.subjectUses ≤ 1 then Script.operand value else value), σ') := by
  by_cases hp : p.subjectUses ≤ 1
  · obtain ⟨f, σ', hf, hout⟩ := k.patternTest_repeats p σ
    refine ⟨p.mentions, f, σ', Nat.le_trans p.mentions_le hp, hf, fun value => ?_⟩
    rw [testOf, if_pos hp, if_pos hp, hout]
  · -- the subject is the parameter, so the value occurs as the argument only
    let σ₁ := ((Emit.freshName "is").out σ).2
    let subject := ((Emit.freshName "is").out σ).1
    obtain ⟨f, σ', -, hout⟩ := k.patternTest_repeats p σ₁
    refine ⟨1, fun value => "((" ++ subject ++ ") => " ++ f subject ++ ")(" ++ value ++ ")", σ', Nat.le_refl 1,
      Repeats.subject.between _ _, fun value => ?_⟩
    have htest : (k.patternTest subject p).out σ₁ = (f subject, σ') := hout subject
    rw [testOf, if_neg hp, if_neg hp, Emit.out_bind, Emit.out_bind, htest]
    rfl

end Converter

/-- Subject counting. For every pattern, converter and session there are texts, one more than
    the subject is mentioned, that make up the test of any subject with it between them, and
    the session after the test is the same for all subjects. The mentions are at most as many
    as are counted, and exactly as many if no connective has a discard as an operand. So the
    text of an operand that is not plain is emitted once at most. -/
theorem subject_mentions (k : Converter) (p : Pattern) (σ : Session) :
    (∃ (ts : List String) (σ' : Session), ts ≠ [] ∧
      (∀ subject, (k.patternTest subject p).out σ = (subject.intercalate ts, σ')) ∧
      ts.length ≤ p.subjectUses + 1 ∧ (p.connectsTests = true → ts.length = p.subjectUses + 1)) ∧
    ∀ e : Expr, e.isPlain = false → k.isTest e p = k.expr e >>= k.testOf p ∧
      ∃ (ts : List String) (σ' : Session), ts ≠ [] ∧ ts.length ≤ 2 ∧ ∀ value, (k.testOf p value).out σ =
        ((if p.subjectUses ≤ 1 then Script.operand value else value).intercalate ts, σ') := by
  refine ⟨?_, fun e he => ⟨k.isTest_eq he p, ?_⟩⟩
  · obtain ⟨f, σ', hf, hout⟩ := k.patternTest_repeats p σ
    obtain ⟨ts, hlength, hts⟩ := hf.texts
    refine ⟨ts, σ', List.ne_nil_of_length_eq_add_one hlength, fun s => by rw [hout, hts], ?_, fun hp => ?_⟩
    · rw [hlength]
      exact Nat.succ_le_succ p.mentions_le
    · rw [hlength, Pattern.mentions_eq hp]
  · obtain ⟨n, f, σ', hn, hf, hout⟩ := k.testOf_repeats p σ
    obtain ⟨ts, hlength, hts⟩ := hf.texts
    exact ⟨ts, σ', List.ne_nil_of_length_eq_add_one hlength, by omega, fun value => by rw [hout, hts]⟩

/-- A range of a member beside a member that may be anything: two mentions, and the result of
    a call is bound. -/
theorem subject_mentions_range :
    let bound (op : BinaryOp) (text : String) : Pattern := .relational op ⟨{}, .literal (.number text)⟩
    let p : Pattern := .property none [⟨"Kind", .discard⟩, ⟨"Size", .and (bound .ge "0") (bound .lt "10")⟩]
    let next : Expr := ⟨{}, .invocation ⟨{}, .identifier "next"⟩ [] []⟩
    let k := ({} : Engine).converter .empty
    p.connectsTests = true ∧ next.isPlain = false ∧
      (∃ ts σ', ts.length = 3 ∧ ∀ subject, (k.patternTest subject p).out {} = (subject.intercalate ts, σ')) ∧
      ∃ ts σ', ts.length ≤ 2 ∧ ∀ value, (k.testOf p value).out {} = (value.intercalate ts, σ') := by
  intro bound p next k
  obtain ⟨⟨ts, σ', -, hts, -, hlength⟩, htest⟩ := subject_mentions k p {}
  obtain ⟨-, us, τ, -, hus, hout⟩ := htest next rfl
  exact ⟨rfl, rfl, ⟨ts, σ', hlength rfl, hts⟩, us, τ, hus, hout⟩

end ComponentScript
