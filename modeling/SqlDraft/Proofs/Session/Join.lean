/-
  SqlDraft.Proofs.Session.Join — the condition a join is made with. All of its columns are
  qualified and belong to the two models of the join (`columns_make`), and it has raw text
  only where a condition with raw text was given (`isRawFree_make`).
-/

import SqlDraft.Proofs.Lexical.Statement
import SqlDraft.Proofs.Registry.Reachable
import SqlDraft.Proofs.Relationship.Swapped
import SqlDraft.Proofs.Session.Step

namespace SqlDraft

/-- The columns of a condition, from left to right. -/
def JoinCondition.columns : JoinCondition → List ColumnName
  | .keys k => [k.key, k.link]
  | .explicit f => f.columns

/-- A join that was made was asked for, and both of its models are registered. -/
theorem joined?_eq_some {r : Registry} {c : Call} {j : Joined} (h : c.joined? r = some j) :
    ∃ kind source target on condition, c = .join kind source target on ∧ r.model? source = some j.source ∧
      r.model? target = some j.target ∧ JoinCondition.make r j.source j.target on = .ok condition ∧
      j.clause = ⟨kind, j.target.name, condition⟩ := by
  cases c with
  | join kind source target on =>
    have hmake : Joined.make r kind source target on = .ok j := by
      simp only [Call.joined?] at h
      cases hm : Joined.make r kind source target on with
      | error e => rw [hm] at h; cases h
      | ok made => rw [hm] at h; cases h; rfl
    obtain ⟨sourceModel, hs, hmake⟩ := Except.bind_eq_ok.mp hmake
    obtain ⟨targetModel, ht, hmake⟩ := Except.bind_eq_ok.mp hmake
    obtain ⟨condition, hc, hmake⟩ := Except.bind_eq_ok.mp hmake
    cases hmake
    exact ⟨kind, source, target, on, condition, rfl, Registry.require_eq_ok.mp hs, Registry.require_eq_ok.mp ht,
      hc, rfl⟩
  | _ => cases h

/-- The models of a join are registered under their own types. -/
theorem models_of_joined? {r : Registry} {c : Call} {j : Joined} (h : c.joined? r = some j) :
    r.model? j.source.type = some j.source ∧ r.model? j.target.type = some j.target := by
  obtain ⟨kind, source, target, on, condition, -, hs, ht, -⟩ := joined?_eq_some h
  constructor
  · rwa [Registry.type_of_model? hs]
  · rwa [Registry.type_of_model? ht]

theorem columns_keyLink {source target : Model} {l : Relationship} {k : KeyLink}
    (hl : Relationship.infer source target = .ok l) (hk : l.keyLink = .ok k) :
    ∀ name ∈ [k.key, k.link], ∃ m f, (m = source ∨ m = target) ∧ f ∈ m.fields ∧ name = m.columnName true f := by
  obtain ⟨hends, hlink⟩ := Relationship.ends_of_infer hl
  obtain ⟨key, hkey, hmade⟩ := Relationship.keyLink_infer hl
  obtain rfl := Except.ok.inj (hmade.symm.trans hk)
  have hkeys : key ∈ l.parent.fields := List.mem_of_find?_eq_some hkey
  have hparent : l.parent = source ∨ l.parent = target := hends.imp And.left And.left
  have hchild : l.child = source ∨ l.child = target := (hends.imp And.right And.right).symm
  intro name hn
  rcases List.mem_cons.mp hn with rfl | hn
  · exact ⟨l.parent, key, hparent, hkeys, rfl⟩
  · rw [List.mem_singleton.mp hn]
    exact ⟨l.child, l.link, hchild, hlink, rfl⟩

theorem columns_make {r : Registry} {source target : Model} {on : Option Condition} {condition : JoinCondition}
    (hs : r.model? source.type = some source) (ht : r.model? target.type = some target)
    (h : JoinCondition.make r source target on = .ok condition) :
    ∀ name ∈ condition.columns, ∃ m f, (m = source ∨ m = target) ∧ f ∈ m.fields ∧ name = m.columnName true f := by
  cases on with
  | none =>
    simp only [JoinCondition.make] at h
    obtain ⟨l, hl, h⟩ := Except.bind_eq_ok.mp h
    obtain ⟨k, hk, h⟩ := Except.bind_eq_ok.mp h
    cases h
    exact columns_keyLink hl hk
  | some given =>
    obtain ⟨f, hf, rfl⟩ := Except.map_eq_ok.mp h
    intro name hn
    obtain ⟨m, field, hm, hscope, hfield, hname⟩ := columns_resolve (Predicate.resolve_eq_ok hf) name hn
    refine ⟨m, field, ?_, hfield, hname⟩
    simp only [Predicate.pair, Scope.admits, Bool.or_eq_true, decide_eq_true_eq] at hscope
    rcases hscope with he | he
    · rw [← he, hs] at hm
      exact .inl (Option.some.inj hm).symm
    · rw [← he, ht] at hm
      exact .inr (Option.some.inj hm).symm

theorem isRawFree_make {r : Registry} {source target : Model} {on : Option Condition} {condition : JoinCondition}
    (hraw : ∀ c ∈ on, c.isRawFree = true) (h : JoinCondition.make r source target on = .ok condition) :
    condition.isRawFree = true := by
  cases on with
  | none =>
    simp only [JoinCondition.make] at h
    obtain ⟨l, hl, h⟩ := Except.bind_eq_ok.mp h
    obtain ⟨k, hk, h⟩ := Except.bind_eq_ok.mp h
    cases h
    rfl
  | some given =>
    obtain ⟨f, hf, rfl⟩ := Except.map_eq_ok.mp h
    have := isRawFree_resolve (Predicate.resolve_eq_ok hf)
    rw [JoinCondition.isRawFree, this]
    exact hraw given rfl

/-- All columns of a join that was made are qualified, each with one of its two models. -/
theorem columns_joined {r : Registry} {c : Call} {j : Joined} (h : c.joined? r = some j) :
    ∀ name ∈ j.clause.condition.columns, ∃ m f, (m = j.source ∨ m = j.target) ∧ f ∈ m.fields ∧
      name = m.columnName true f := by
  obtain ⟨kind, source, target, on, condition, -, -, -, hmake, hclause⟩ := joined?_eq_some h
  obtain ⟨hs, ht⟩ := models_of_joined? h
  rw [hclause]
  exact columns_make hs ht hmake

end SqlDraft
