/-
  ComponentScript.Proofs.Convert.Resolution — which rule a rule set takes.

  Rules are given in some order and kept by falling priority. `ruleSet_resolution`: of the
  rules that apply to a node, the one of the highest priority is taken, and the first one
  given among equals; none is taken only if none applies. The rule set has the rules that were
  given, as often as they were given, and those of one priority in the order they were given.
  With priorities that are all distinct the order in which they were given makes no difference.
-/

import Mathlib.Data.List.Nodup
import ComponentScript.Convert.Rule
import ComponentScript.Syntax.Build

namespace ComponentScript

variable {ν : Type} {env : Env} {s : Session} {x : ν} {rules : List (Rule ν)} {r : Rule ν}

/-- The rule applies to the node, no rule that does has a higher priority, and none given
    before it has the same one. -/
def Rule.IsChosen (rules : List (Rule ν)) (env : Env) (s : Session) (x : ν) (r : Rule ν) : Prop :=
  ∃ before after, rules = before ++ r :: after ∧ r.applies env s x = true ∧
    (∀ q ∈ before, q.applies env s x = true → q.priority < r.priority) ∧
    ∀ q ∈ after, q.applies env s x = true → q.priority ≤ r.priority

/-- There is at most one such rule. -/
theorem Rule.IsChosen.unique {r' : Rule ν} (h : IsChosen rules env s x r) (h' : IsChosen rules env s x r') :
    r = r' := by
  obtain ⟨before, after, rfl, happlies, hbefore, hafter⟩ := h
  obtain ⟨before', after', heq, happlies', hbefore', hafter'⟩ := h'
  rcases List.append_eq_append_iff.mp heq with ⟨between, hb, ha⟩ | ⟨between, hb, ha⟩
  · cases between with
    | nil => cases ha; rfl
    | cons q between =>
      -- `r'` was given after `r`, so it cannot have a higher priority
      cases ha
      have hle := hafter r' (by simp) happlies'
      have hlt := hbefore' r (by simp [hb]) happlies
      omega
  · cases between with
    | nil => cases ha; rfl
    | cons q between =>
      cases ha
      have hle := hafter' r (by simp) happlies
      have hlt := hbefore r' (by simp [hb]) happlies'
      omega

namespace RuleSet

/-! ## The order of a rule set -/

theorem perm_ofList (rules : List (Rule ν)) : (ofList rules).rules.Perm rules := List.mergeSort_perm rules _

theorem precedes_trans (a b c : Rule ν) (hab : decide (b.priority ≤ a.priority) = true)
    (hbc : decide (c.priority ≤ b.priority) = true) : decide (c.priority ≤ a.priority) = true := by
  simp only [decide_eq_true_eq] at *
  omega

theorem precedes_total (a b : Rule ν) :
    (decide (b.priority ≤ a.priority) || decide (a.priority ≤ b.priority)) = true := by
  simp only [Bool.or_eq_true, decide_eq_true_eq]
  omega

theorem ofList_pairwise (rules : List (Rule ν)) :
    (ofList rules).rules.Pairwise fun a b => b.priority ≤ a.priority := by
  have hsorted : (ofList rules).rules.Pairwise fun a b => decide (b.priority ≤ a.priority) = true :=
    List.pairwise_mergeSort precedes_trans precedes_total rules
  exact hsorted.imp of_decide_eq_true

/-- The rules of one priority stay in the order they were given. -/
theorem filter_priority_ofList (rules : List (Rule ν)) (p : Int) :
    (ofList rules).rules.filter (fun r => r.priority = p) = rules.filter fun r => r.priority = p := by
  have hequal : (rules.filter fun r => r.priority = p).Pairwise
      fun a b => decide (b.priority ≤ a.priority) = true := by
    refine List.pairwise_of_forall_mem_list fun a ha b hb => ?_
    have hpa := of_decide_eq_true (List.mem_filter.mp ha).2
    have hpb := of_decide_eq_true (List.mem_filter.mp hb).2
    exact decide_eq_true (by omega)
  have hstable : (rules.filter fun r => r.priority = p).Sublist (ofList rules).rules :=
    List.sublist_mergeSort precedes_trans precedes_total hequal List.filter_sublist
  have hsub := hstable.filter fun r => r.priority = p
  simp only [List.filter_filter, Bool.and_self] at hsub
  exact (hsub.eq_of_length ((perm_ofList rules).filter _).length_eq.symm).symm

/-- Rules of distinct priorities have only one order. -/
theorem ofList_eq_of_perm {rules' : List (Rule ν)} (h : rules'.Perm rules)
    (hdistinct : (rules.map Rule.priority).Nodup) :
    ofList rules' = ofList rules := by
  have hperm : (ofList rules').rules.Perm (ofList rules).rules :=
    (perm_ofList rules').trans (h.trans (perm_ofList rules).symm)
  have hsorted : (ofList rules').rules = (ofList rules).rules := by
    refine hperm.eq_of_pairwise ?_ (ofList_pairwise rules') (ofList_pairwise rules)
    intro a b ha hb hba hab
    have ha' : a ∈ rules := h.mem_iff.mp ((perm_ofList rules').mem_iff.mp ha)
    have hb' : b ∈ rules := (perm_ofList rules).mem_iff.mp hb
    exact List.inj_on_of_nodup_map hdistinct ha' hb' (by omega)
  exact congrArg RuleSet.mk hsorted

/-! ## The rule that is taken -/

theorem find?_ofList_eq_none : (ofList rules).find? env s x = none ↔ ∀ r ∈ rules, r.applies env s x = false := by
  rw [find?, List.find?_eq_none]
  simp only [(perm_ofList rules).mem_iff, Bool.not_eq_true]

theorem isChosen_of_find (h : (ofList rules).find? env s x = some r) : Rule.IsChosen rules env s x r := by
  obtain ⟨happlies, front, back, hsplit, hfront⟩ := List.find?_eq_some_iff_append.mp h
  have hhighest : ∀ q ∈ rules, q.applies env s x = true → q.priority ≤ r.priority := by
    intro q hq hqa
    have hmem : q ∈ front ++ r :: back := hsplit ▸ (perm_ofList rules).mem_iff.mpr hq
    rcases List.mem_append.mp hmem with hq | hq
    · exact absurd hqa (by simpa using hfront q hq)
    · have hsorted := (List.pairwise_append.mp (hsplit ▸ ofList_pairwise rules)).2.1
      rcases List.mem_cons.mp hq with rfl | hq
      · exact Int.le_refl _
      · exact (List.pairwise_cons.mp hsorted).1 q hq
  -- among the rules of its priority, which stand as they were given, it is the first that applies
  have hfirst : (rules.filter fun q => q.priority = r.priority).find? (fun q => q.applies env s x) = some r := by
    rw [← filter_priority_ofList, hsplit, List.filter_append, List.find?_append]
    have hnone : (front.filter fun q => q.priority = r.priority).find? (fun q => q.applies env s x) = none :=
      List.find?_eq_none.mpr fun q hq => by simpa using hfront q (List.mem_filter.mp hq).1
    rw [hnone, Option.none_or, List.filter_cons_of_pos (by simp)]
    exact List.find?_cons_of_pos happlies
  rw [List.find?_filter] at hfirst
  obtain ⟨-, before, after, rfl, hbefore⟩ := List.find?_eq_some_iff_append.mp hfirst
  refine ⟨before, after, rfl, happlies, fun q hq hqa => ?_, fun q hq hqa => hhighest q (by simp [hq]) hqa⟩
  have hle := hhighest q (by simp [hq]) hqa
  have hne : q.priority ≠ r.priority := by
    have hnot := hbefore q hq
    rw [hqa] at hnot
    simpa using hnot
  omega

theorem find?_ofList_eq_some : (ofList rules).find? env s x = some r ↔ Rule.IsChosen rules env s x r := by
  refine ⟨isChosen_of_find, fun h => ?_⟩
  cases hfind : (ofList rules).find? env s x with
  | none =>
    obtain ⟨before, after, rfl, happlies, -⟩ := h
    have hnot := find?_ofList_eq_none.mp hfind r (by simp)
    rw [happlies] at hnot
    cases hnot
  | some r' => rw [(isChosen_of_find hfind).unique h]

end RuleSet

/-- What a rule set built from rules takes for a node, and in which order it holds them. -/
theorem ruleSet_resolution (rules : List (Rule ν)) :
    (∀ env s x r, (RuleSet.ofList rules).find? env s x = some r ↔ Rule.IsChosen rules env s x r) ∧
    (∀ env s x, (RuleSet.ofList rules).find? env s x = none ↔ ∀ r ∈ rules, r.applies env s x = false) ∧
    (RuleSet.ofList rules).rules.Perm rules ∧
    (∀ p : Int, (RuleSet.ofList rules).rules.filter (fun r => r.priority = p) = rules.filter fun r => r.priority = p) ∧
    ((rules.map Rule.priority).Nodup → ∀ rules' : List (Rule ν), rules'.Perm rules →
      RuleSet.ofList rules' = RuleSet.ofList rules) :=
  ⟨fun _ _ _ _ => RuleSet.find?_ofList_eq_some, fun _ _ _ => RuleSet.find?_ofList_eq_none, RuleSet.perm_ofList rules,
    RuleSet.filter_priority_ofList rules, fun hdistinct _ h => RuleSet.ofList_eq_of_perm h hdistinct⟩

/-- A rule for every node. -/
def Rule.always (name : String) (priority : Int) : Rule Expr := .fixed Expr.kindName name priority none name none

/-- The first of two rules of the same priority is taken before a lower one that was given
    earlier, and two rules of different priorities may be given in either order. -/
theorem ruleSet_resolution_tie :
    (RuleSet.ofList [Rule.always "low" 0, .always "first" 100, .always "second" 100]).find? {} {} (.ident "x") =
      some (.always "first" 100) ∧
    ([Rule.always "low" 0, .always "high" 100].map Rule.priority).Nodup ∧
    RuleSet.ofList [Rule.always "high" 100, .always "low" 0] =
      RuleSet.ofList [.always "low" 0, .always "high" 100] := by
  have hdistinct : ([Rule.always "low" 0, .always "high" 100].map Rule.priority).Nodup := by decide
  refine ⟨((ruleSet_resolution _).1 _ _ _ _).mpr ⟨[_], [_], rfl, rfl, ?_, ?_⟩, hdistinct, ?_⟩
  · exact List.forall_mem_singleton.mpr fun _ => by decide
  · exact List.forall_mem_singleton.mpr fun _ => by decide
  · exact (ruleSet_resolution _).2.2.2.2 hdistinct _ (.swap _ _ _)

end ComponentScript
