/-
  SqlDraft.Proofs.Registry.Order — in which order models are registered. Whether a request is
  accepted depends on the request itself and on whether its type and its name are still free,
  so requests are all accepted just when each is sound and no two share a type or a name
  (`accepted_eq_self_iff`), which does not depend on their order. Models may refer to types
  that are registered later or never: a registration looks at no reference.

  A registry is asked for models by type and by name only. Two registries of the same models
  find the same ones, in whatever order they list them, and so they answer every request in
  the same way (`registerAll_perm`).
-/

import Mathlib.Data.List.Sort
import Mathlib.Data.String.Basic
import SqlDraft.Proofs.Registry.Registration
import SqlDraft.Relationship
import SqlDraft.Resolution

namespace SqlDraft

/-! ## When a request is accepted -/

namespace Registration

/-- No field is declared twice, and of keys a table has one, a shape one at most. -/
def IsSound : Registration → Prop
  | .table m => (m.fields.map (·.name)).Nodup ∧ m.keyCount = 1
  | .shape m => (m.fields.map (·.name)).Nodup ∧ m.keyCount ≤ 1

/-- The requests are for different types and different names. -/
def Apart (p q : Registration) : Prop := p.model.type ≠ q.model.type ∧ p.model.name ≠ q.model.name

theorem Apart.symm {p q : Registration} (h : p.Apart q) : q.Apart p := ⟨h.1.symm, h.2.symm⟩

end Registration

namespace Registry

variable {r r' : Registry} {m : Model} {q : Registration} {qs ps : List Registration}

theorem insert_isOk_iff : (r.insert m).isOk = true ↔
    r.model? m.type = none ∧ r.named? m.name = none ∧ (m.fields.map (·.name)).Nodup := by
  rw [← firstRepeated?_nil_eq_none_iff]
  unfold insert
  cases r.model? m.type with
  | some n => simp [Except.isOk, Except.toBool]
  | none =>
    cases r.named? m.name with
    | some n => simp [Except.isOk, Except.toBool]
    | none => cases firstRepeated? [] (m.fields.map (·.name)) <;> simp [Except.isOk, Except.toBool]

theorem perform_isOk_iff : (q.perform r).isOk = true ↔
    q.IsSound ∧ r.model? q.model.type = none ∧ r.named? q.model.name = none := by
  cases q with
  | table m =>
    by_cases hkeys : m.keyCount = 1
    · rw [Registration.perform, register, if_neg (by simpa using hkeys), insert_isOk_iff]
      simp only [Registration.IsSound, Registration.model, hkeys]
      tauto
    · simp [Registration.perform, register, hkeys, Registration.IsSound, Except.isOk, Except.toBool]
  | shape m =>
    by_cases hkeys : m.keyCount ≤ 1
    · rw [Registration.perform, registerShape, if_neg (by omega), insert_isOk_iff]
      simp only [Registration.IsSound, Registration.model, hkeys]
      tauto
    · simp [Registration.perform, registerShape, Nat.lt_of_not_le hkeys, hkeys, Registration.IsSound, Except.isOk,
        Except.toBool]

/-! ## When all are accepted -/

theorem length_accepted_le : (r.accepted qs).length ≤ qs.length := by
  induction qs generalizing r with
  | nil => exact Nat.le_refl 0
  | cons q qs ih =>
    rw [accepted]
    split
    · exact Nat.succ_le_succ ih
    · exact Nat.le_succ_of_le ih

theorem accepted_cons_eq_self_iff :
    r.accepted (q :: qs) = q :: qs ↔ (q.perform r).isOk = true ∧ (r.after q).accepted qs = qs := by
  rw [accepted]
  split
  · rename_i hok
    simp [hok]
  · rename_i hfail
    have hlength : ((r.after q).accepted qs).length ≠ (q :: qs).length := by
      have hle : ((r.after q).accepted qs).length ≤ qs.length := length_accepted_le
      rw [List.length_cons]
      omega
    constructor
    · exact fun h => absurd (congrArg List.length h) hlength
    · exact fun h => absurd h.1 hfail

/-- An accepted model takes its type and its name and leaves the others free. -/
theorem lookups_after (hok : (q.perform r).isOk = true) (p : Registration) :
    (r.after q).model? p.model.type = none ∧ (r.after q).named? p.model.name = none ↔
      (r.model? p.model.type = none ∧ r.named? p.model.name = none) ∧ q.Apart p := by
  have hmodels : (r.after q).models = r.models ++ [q.model] := by rw [models_after, if_pos hok]
  rw [model?, named?, hmodels, List.find?_append, List.find?_append, ← model?, ← named?, Option.or_eq_none_iff,
    Option.or_eq_none_iff]
  simp only [List.find?_eq_none, List.mem_singleton, forall_eq, decide_eq_true_eq, Registration.Apart]
  tauto

theorem accepted_eq_self_iff : r.accepted qs = qs ↔ qs.Pairwise Registration.Apart ∧
    ∀ q ∈ qs, q.IsSound ∧ r.model? q.model.type = none ∧ r.named? q.model.name = none := by
  induction qs generalizing r with
  | nil => simp [accepted]
  | cons q qs ih =>
    rw [accepted_cons_eq_self_iff, ih, List.pairwise_cons, List.forall_mem_cons, ← perform_isOk_iff]
    by_cases hok : (q.perform r).isOk = true
    · simp only [hok, lookups_after hok]
      constructor
      · rintro ⟨-, happart, hqs⟩
        exact ⟨⟨fun p hp => (hqs p hp).2.2, happart⟩, trivial, fun p hp => ⟨(hqs p hp).1, (hqs p hp).2.1⟩⟩
      · rintro ⟨⟨hq, happart⟩, -, hqs⟩
        exact ⟨trivial, happart, fun p hp => ⟨(hqs p hp).1, (hqs p hp).2, hq p hp⟩⟩
    · simp [hok]

theorem accepted_eq_self_of_perm (h : qs.Perm ps) (hqs : r.accepted qs = qs) : r.accepted ps = ps := by
  obtain ⟨happart, hsound⟩ := accepted_eq_self_iff.mp hqs
  exact accepted_eq_self_iff.mpr
    ⟨(h.pairwise_iff fun {_ _} => Registration.Apart.symm).mp happart, fun q hq => hsound q (h.mem_iff.mpr hq)⟩

/-! ## What is looked up -/

variable {scope : Scope} {qualified : Bool}

/-- The registries find the same models by their types. -/
def Agree (r r' : Registry) : Prop := ∀ type, r'.model? type = r.model? type

theorem Agree.column (h : Agree r r') (c : ColumnRef) : c.resolve r' scope qualified = c.resolve r scope qualified := by
  unfold ColumnRef.resolve
  rw [h]

theorem Agree.resolveRight (h : Agree r r') (field : String) (left : ColumnName) (op : ComparisonOp) (right : Operand) :
    Condition.resolveRight r' scope qualified field left op right =
      Condition.resolveRight r scope qualified field left op right := by
  cases right with
  | column c => simp only [Condition.resolveRight, h.column]
  | _ => rfl

mutual

theorem Agree.resolve (h : Agree r r') : ∀ c : Condition, c.resolve r' scope qualified = c.resolve r scope qualified
  | .compare left op right => by
    simp only [Condition.resolve, h.column, h.resolveRight]
  | .compound op parts => by
    simp only [Condition.resolve, h.resolveAll parts]
  | .not inner => by
    simp only [Condition.resolve, h.resolve inner]
  | .raw _ => rfl

theorem Agree.resolveAll (h : Agree r r') : ∀ cs : List Condition,
    Condition.resolveAll r' scope qualified cs = Condition.resolveAll r scope qualified cs
  | [] => rfl
  | c :: cs => by
    simp only [Condition.resolveAll, h.resolve c, h.resolveAll cs]

end

theorem Agree.toSql (h : Agree r r') (d : Dialect) (p : Predicate) : p.toSql r' d qualified = p.toSql r d qualified := by
  simp only [Predicate.toSql, Predicate.resolve, h.resolve]

theorem Agree.require (h : Agree r r') (type : ModelType) : r'.require type = r.require type := by
  unfold Registry.require
  rw [h]

/-! ## The same models in another order -/

theorem perm_models_registerAll (h : qs.Perm ps) (hqs : r.accepted qs = qs) :
    (r.registerAll qs).models.Perm (r.registerAll ps).models := by
  rw [models_registerAll, models_registerAll, hqs, accepted_eq_self_of_perm h hqs]
  exact (h.map _).append_left _

theorem agree_of_perm (hr : Reachable r) (hr' : Reachable r') (h : r.models.Perm r'.models) : Agree r r' := by
  intro type
  apply Option.ext
  intro m
  rw [hr.model?_eq_some_iff, hr'.model?_eq_some_iff, h.mem_iff]

theorem named?_eq_of_perm (hr : Reachable r) (hr' : Reachable r') (h : r.models.Perm r'.models) (name : String) :
    r'.named? name = r.named? name := by
  apply Option.ext
  intro m
  rw [hr.named?_eq_some_iff, hr'.named?_eq_some_iff, h.mem_iff]

/-- Names in code point order have only one order. -/
theorem sortedNames_eq_of_perm (h : r.models.Perm r'.models) : r'.sortedNames = r.sortedNames := by
  have hperm : r'.sortedNames.Perm r.sortedNames :=
    perm_sortedNames.trans ((h.symm.map _).trans perm_sortedNames.symm)
  exact hperm.eq_of_pairwise' (r := (· ≤ ·)) (List.pairwise_mergeSort' _ _) (List.pairwise_mergeSort' _ _)

/-! ## What is answered -/

/-- The field of one registered model that holds the key of another. -/
def foreignKeyOf (r : Registry) (parent child : ModelType) : Except QueryError (Option Field) := do
  let parentModel ← r.require parent
  let childModel ← r.require child
  return foreignKey? parentModel childModel

/-- How two registered models are related. -/
def relationshipOf (r : Registry) (source target : ModelType) : Except QueryError Relationship := do
  let sourceModel ← r.require source
  let targetModel ← r.require target
  Relationship.infer sourceModel targetModel

/-- The registries answer alike, whether they find what they are asked for or not. -/
structure Interchangeable (r r' : Registry) : Prop where
  models : ∀ type, r'.require type = r.require type
  named : ∀ name, r'.named? name = r.named? name
  listed : r'.sortedNames = r.sortedNames
  foreignKeys : ∀ parent child, r'.foreignKeyOf parent child = r.foreignKeyOf parent child
  relationships : ∀ source target, r'.relationshipOf source target = r.relationshipOf source target
  predicates : ∀ d qualified p, Predicate.toSql r' d qualified p = Predicate.toSql r d qualified p

/-- Requests that are all accepted are so in every order, and then the order shows in no answer. -/
theorem registerAll_perm (h : qs.Perm ps) (hqs : empty.accepted qs = qs) :
    empty.accepted ps = ps ∧ Interchangeable (empty.registerAll qs) (empty.registerAll ps) := by
  have hr : Reachable (empty.registerAll qs) := Reachable.empty.registerAll qs
  have hr' : Reachable (empty.registerAll ps) := Reachable.empty.registerAll ps
  have hmodels := perm_models_registerAll h hqs
  have hagree := agree_of_perm hr hr' hmodels
  refine ⟨accepted_eq_self_of_perm h hqs, ?_⟩
  constructor
  case models => exact hagree.require
  case named => exact named?_eq_of_perm hr hr' hmodels
  case listed => exact sortedNames_eq_of_perm hmodels
  case foreignKeys =>
    intro parent child
    unfold foreignKeyOf
    rw [hagree.require, hagree.require]
  case relationships =>
    intro source target
    unfold relationshipOf
    rw [hagree.require, hagree.require]
  case predicates => exact fun d qualified p => hagree.toSql d p

/-- A book before the author it refers to, whose own reference is to a model that is never registered. -/
theorem registerAll_perm_library :
    let key : Field := { name := "id", isPrimaryKey := true }
    let author : Registration := .table
      { type := ⟨"Author"⟩, name := "author", fields := [key, { name := "agentId", references := some ⟨"Agent"⟩ }] }
    let book : Registration := .shape
      { type := ⟨"Book"⟩, name := "book", fields := [{ name := "authorId", references := some ⟨"Author"⟩ }] }
    empty.accepted [author, book] = [author, book] ∧ empty.accepted [book, author] = [book, author] ∧
      Interchangeable (empty.registerAll [author, book]) (empty.registerAll [book, author]) := by
  intro key author book
  have haccepted : empty.accepted [author, book] = [author, book] := by decide
  have hperm : [author, book].Perm [book, author] := .swap book author []
  exact ⟨haccepted, registerAll_perm hperm haccepted⟩

end Registry

end SqlDraft
