/-
  SqlDraft.Proofs.Condition.Fault — which predicates have a text, and why the others have
  none. A condition comes down to its comparisons from left to right (`comparisons`); raw
  text and connectives have nothing in them that could be at fault. Each comparison is
  well-formed or has a fault (`WellFormed`, `Fault`): first that of its left column, then
  that of the operator with what is on its right, then that of a column there.

  Resolving a condition stops at its first comparison at fault (`failure?_resolve`), so a
  predicate has a text just if all comparisons are well-formed, and otherwise the error is
  that fault. Dialect and qualification have no say in it (`judged_toSql`).
-/

import SqlDraft.Proofs.Success
import SqlDraft.Resolution

namespace SqlDraft

/-- A comparison, wherever it stands in a condition. -/
structure Comparison where
  left : ColumnRef
  op : ComparisonOp
  right : Operand
  deriving Repr

namespace Condition

mutual

/-- The comparisons, from left to right. -/
def comparisons : Condition → List Comparison
  | .compare left op right => [⟨left, op, right⟩]
  | .compound _ cs => comparisonsOf cs
  | .not c => c.comparisons
  | .raw _ => []

def comparisonsOf : List Condition → List Comparison
  | [] => []
  | c :: cs => c.comparisons ++ comparisonsOf cs

end

end Condition

/-- The models that a scope names. -/
def Scope.models : Scope → List ModelType
  | .single m => [m]
  | .pair source target => [source, target]

theorem Scope.admits_iff {scope : Scope} {type : ModelType} : scope.admits type = true ↔ type ∈ scope.models := by
  cases scope with
  | single m => simp [admits, models, eq_comm (a := type)]
  | pair source target => simp [admits, models, eq_comm (a := type)]

theorem ComparisonOp.takesList_iff {op : ComparisonOp} : op.takesList = true ↔ op = .isIn ∨ op = .notIn := by
  cases op <;> simp [takesList]

/-! ## Columns -/

namespace ColumnRef

/-- A field of a registered model that the scope names. -/
structure Known (r : Registry) (scope : Scope) (c : ColumnRef) : Prop where
  named : c.model ∈ scope.models
  declared : ∃ m, r.model? c.model = some m ∧ ∃ f ∈ m.fields, f.name = c.field

inductive Fault (r : Registry) (scope : Scope) (c : ColumnRef) : PredicateFault → Prop
  | outOfScope : c.model ∉ scope.models → Fault r scope c (.outOfScope c)
  | unknownModel : c.model ∈ scope.models → r.model? c.model = none → Fault r scope c (.unknownModel c.model)
  | unknownField {m : Model} : c.model ∈ scope.models → r.model? c.model = some m →
      (∀ f ∈ m.fields, f.name ≠ c.field) → Fault r scope c (.unknownField m.name c.field)

variable {r : Registry} {scope : Scope} {qualified : Bool} {c : ColumnRef}

theorem known_or_fault (r : Registry) (scope : Scope) (c : ColumnRef) :
    c.Known r scope ∨ ∃ fault, c.Fault r scope fault := by
  by_cases hnamed : c.model ∈ scope.models
  · cases hm : r.model? c.model with
    | none => exact .inr ⟨_, .unknownModel hnamed hm⟩
    | some m =>
      by_cases hdeclared : ∃ f ∈ m.fields, f.name = c.field
      · exact .inl ⟨hnamed, m, hm, hdeclared⟩
      · exact .inr ⟨_, .unknownField hnamed hm fun f hf hname => hdeclared ⟨f, hf, hname⟩⟩
  · exact .inr ⟨_, .outOfScope hnamed⟩

theorem resolve_of_known (h : c.Known r scope) : ∃ name, c.resolve r scope qualified = .ok name := by
  obtain ⟨hnamed, m, hm, f, hf, hname⟩ := h
  cases hown : m.field? c.field with
  | none => exact absurd hname (Model.field?_eq_none_iff.mp hown f hf)
  | some own => exact ⟨m.columnName qualified own, by simp [resolve, Scope.admits_iff.mpr hnamed, hm, hown]⟩

theorem resolve_of_fault {fault : PredicateFault} (h : c.Fault r scope fault) :
    c.resolve r scope qualified = .error fault := by
  cases h with
  | outOfScope hscope => simp [resolve, mt Scope.admits_iff.mp hscope]
  | unknownModel hnamed hm => simp [resolve, Scope.admits_iff.mpr hnamed, hm]
  | unknownField hnamed hm hfields =>
    simp [resolve, Scope.admits_iff.mpr hnamed, hm, Model.field?_eq_none_iff.mpr hfields]

end ColumnRef

/-! ## Comparisons -/

namespace Comparison

/-- The operator suits what is on its right, columns apart: NULL stands with `=` and `<>`
    alone, and a list with the operators for lists alone, which have nothing else and no
    empty one. -/
structure Suited (k : Comparison) : Prop where
  null : k.right = .null → k.op = .eq ∨ k.op = .ne
  list : ∀ values, k.right = .list values → (k.op = .isIn ∨ k.op = .notIn) ∧ values ≠ []
  listed : k.op = .isIn ∨ k.op = .notIn → ∃ values, k.right = .list values

inductive Unsuited (k : Comparison) : PredicateFault → Prop
  | nullComparison : k.right = .null → k.op ≠ .eq → k.op ≠ .ne →
      Unsuited k (.nullComparison k.left.field k.op)
  | emptyList : k.right = .list [] → k.op = .isIn ∨ k.op = .notIn → Unsuited k (.emptyList k.op k.left.field)
  | listMisplaced {values : List Json} : k.right = .list values → k.op ≠ .isIn → k.op ≠ .notIn →
      Unsuited k (.listMismatch k.op k.left.field)
  | listMissing : k.right ≠ .null → (∀ values, k.right ≠ .list values) → k.op = .isIn ∨ k.op = .notIn →
      Unsuited k (.listMismatch k.op k.left.field)

structure WellFormed (r : Registry) (scope : Scope) (k : Comparison) : Prop where
  left : k.left.Known r scope
  suited : k.Suited
  right : ∀ c, k.right = .column c → c.Known r scope

/-- The fault that counts: the left column's, else the operator's, else the right column's. -/
inductive Fault (r : Registry) (scope : Scope) (k : Comparison) : PredicateFault → Prop
  | left {fault : PredicateFault} : k.left.Fault r scope fault → Fault r scope k fault
  | unsuited {fault : PredicateFault} : k.left.Known r scope → k.Unsuited fault → Fault r scope k fault
  | right {c : ColumnRef} {fault : PredicateFault} : k.left.Known r scope → k.Suited → k.right = .column c →
      c.Fault r scope fault → Fault r scope k fault

def resolve (r : Registry) (scope : Scope) (qualified : Bool) (k : Comparison) : Except PredicateFault Fragment :=
  (Condition.compare k.left k.op k.right).resolve r scope qualified

variable {r : Registry} {scope : Scope} {qualified : Bool} {k : Comparison} {name : ColumnName}

theorem suited_or_unsuited (k : Comparison) : k.Suited ∨ ∃ fault, k.Unsuited fault := by
  obtain ⟨left, op, right⟩ := k
  cases right with
  | null =>
    by_cases hop : op = .eq ∨ op = .ne
    · refine .inl ⟨fun _ => hop, nofun, fun hlist => ?_⟩
      rcases hop with rfl | rfl <;> simp at hlist
    · exact .inr ⟨_, .nullComparison rfl (mt .inl hop) (mt .inr hop)⟩
  | list values =>
    by_cases hop : op = .isIn ∨ op = .notIn
    · cases values with
      | nil => exact .inr ⟨_, .emptyList rfl hop⟩
      | cons v vs =>
        refine .inl ⟨nofun, fun values h => ?_, fun _ => ⟨_, rfl⟩⟩
        cases h
        exact ⟨hop, nofun⟩
    · exact .inr ⟨_, .listMisplaced rfl (mt .inl hop) (mt .inr hop)⟩
  | _ =>
    by_cases hop : op = .isIn ∨ op = .notIn
    · exact .inr ⟨_, .listMissing nofun nofun hop⟩
    · exact .inl ⟨nofun, nofun, fun hlist => absurd hlist hop⟩

theorem resolveRight_of_unsuited {fault : PredicateFault} (h : k.Unsuited fault) :
    Condition.resolveRight r scope qualified k.left.field name k.op k.right = .error fault := by
  obtain ⟨left, op, right⟩ := k
  cases h with
  | nullComparison hright heq hne =>
    -- The operators for lists are no exception: NULL is looked at first.
    cases hright
    cases op <;> first | rfl | contradiction
  | emptyList hright hop =>
    cases hright
    exact if_pos (ComparisonOp.takesList_iff.mpr hop)
  | listMisplaced hright hin hnot =>
    cases hright
    exact if_neg (by simp [ComparisonOp.takesList_iff, hin, hnot])
  | listMissing hnull hlist hop =>
    cases right with
    | null => contradiction
    | list values => exact absurd rfl (hlist values)
    | _ => exact if_pos (ComparisonOp.takesList_iff.mpr hop)

/-- Where the operator suits what is on its right, all that is left to find is a column there. -/
theorem resolveRight_of_suited (h : k.Suited) :
    (∃ c, k.right = .column c ∧ Condition.resolveRight r scope qualified k.left.field name k.op k.right =
        (c.resolve r scope qualified).map fun right => .compare name k.op (.column right)) ∨
      (∀ c, k.right ≠ .column c) ∧
        ∃ f, Condition.resolveRight r scope qualified k.left.field name k.op k.right = .ok f := by
  obtain ⟨left, op, right⟩ := k
  have htakes (hright : ∀ values, right ≠ .list values) : ¬ op.takesList = true := fun ht => by
    obtain ⟨values, hv⟩ := h.listed (ComparisonOp.takesList_iff.mp ht)
    exact hright values hv
  cases right with
  | null => rcases h.null rfl with rfl | rfl <;> exact .inr ⟨nofun, _, rfl⟩
  | list values =>
    obtain ⟨hop, hvalues⟩ := h.list values rfl
    refine .inr ⟨nofun, .compare name op (.list values), ?_⟩
    simp [Condition.resolveRight, ComparisonOp.takesList_iff.mpr hop, hvalues]
  | column c => exact .inl ⟨c, rfl, if_neg (htakes nofun)⟩
  | value v => exact .inr ⟨nofun, _, if_neg (htakes nofun)⟩

theorem resolve_of_wellFormed (h : k.WellFormed r scope) : ∃ f, k.resolve r scope qualified = .ok f := by
  obtain ⟨name, hleft⟩ := ColumnRef.resolve_of_known h.left
  have hresolve : k.resolve r scope qualified =
      Condition.resolveRight r scope qualified k.left.field name k.op k.right := by
    rw [resolve, Condition.resolve, hleft]
    rfl
  rw [hresolve]
  rcases resolveRight_of_suited h.suited with ⟨c, hc, heq⟩ | ⟨-, hf⟩
  · obtain ⟨right, hright⟩ := ColumnRef.resolve_of_known (h.right c hc)
    exact ⟨_, by rw [heq, hright]; rfl⟩
  · exact hf

theorem resolve_of_fault {fault : PredicateFault} (h : k.Fault r scope fault) :
    k.resolve r scope qualified = .error fault := by
  rw [resolve, Condition.resolve]
  cases h with
  | left hleft =>
    rw [ColumnRef.resolve_of_fault hleft]
    rfl
  | unsuited hleft hk =>
    obtain ⟨name, hname⟩ := ColumnRef.resolve_of_known hleft
    rw [hname]
    exact resolveRight_of_unsuited hk
  | @right c _ hleft hk hc hright =>
    obtain ⟨name, hname⟩ := ColumnRef.resolve_of_known hleft
    rw [hname]
    rcases resolveRight_of_suited hk with ⟨c', hc', heq⟩ | ⟨hno, -⟩
    · rw [hc] at hc'
      cases hc'
      refine heq.trans ?_
      rw [ColumnRef.resolve_of_fault hright]
      rfl
    · exact absurd hc (hno c)

theorem wellFormed_or_fault (r : Registry) (scope : Scope) (k : Comparison) :
    k.WellFormed r scope ∨ ∃ fault, k.Fault r scope fault := by
  rcases k.left.known_or_fault r scope with hleft | ⟨fault, hleft⟩
  · rcases suited_or_unsuited k with hk | ⟨fault, hk⟩
    · by_cases hright : ∃ c, k.right = .column c ∧ ∃ fault, c.Fault r scope fault
      · obtain ⟨c, hc, fault, hfault⟩ := hright
        exact .inr ⟨fault, .right hleft hk hc hfault⟩
      · refine .inl ⟨hleft, hk, fun c hc => ?_⟩
        exact (c.known_or_fault r scope).resolve_right fun hfault => hright ⟨c, hc, hfault⟩
    · exact .inr ⟨fault, .unsuited hleft hk⟩
  · exact .inr ⟨fault, .left hleft⟩

theorem failure?_eq_none_iff : (k.resolve r scope qualified).failure? = none ↔ k.WellFormed r scope := by
  rw [Except.failure?_eq_none_iff]
  refine ⟨fun ⟨f, hf⟩ => ?_, resolve_of_wellFormed⟩
  rcases wellFormed_or_fault r scope k with h | ⟨fault, h⟩
  · exact h
  · rw [resolve_of_fault h] at hf
    cases hf

theorem failure?_eq_some_iff {fault : PredicateFault} :
    (k.resolve r scope qualified).failure? = some fault ↔ k.Fault r scope fault := by
  rw [Except.failure?_eq_some_iff]
  refine ⟨fun he => ?_, resolve_of_fault⟩
  rcases wellFormed_or_fault r scope k with h | ⟨other, h⟩
  · obtain ⟨f, hf⟩ : ∃ f, k.resolve r scope qualified = .ok f := resolve_of_wellFormed h
    rw [he] at hf
    cases hf
  · rw [resolve_of_fault h] at he
    cases he
    exact h

end Comparison

/-! ## Whole conditions -/

variable {r : Registry} {scope : Scope} {qualified : Bool}

namespace Condition

mutual

/-- A condition fails with the first of its comparisons that does. -/
theorem failure?_resolve : ∀ c : Condition, (c.resolve r scope qualified).failure? =
    c.comparisons.findSome? fun k => (k.resolve r scope qualified).failure?
  | .compare left op right => by
    simp only [comparisons, List.findSome?_singleton]
    rfl
  | .compound op cs => by
    rw [resolve, Except.failure?_map, failure?_resolveAll cs]
    rfl
  | .not c => by
    rw [resolve, Except.failure?_map, failure?_resolve c]
    rfl
  | .raw _ => rfl

theorem failure?_resolveAll : ∀ cs : List Condition, (resolveAll r scope qualified cs).failure? =
    (comparisonsOf cs).findSome? fun k => (k.resolve r scope qualified).failure?
  | [] => rfl
  | c :: cs => by
    rw [resolveAll, comparisonsOf, List.findSome?_append, ← failure?_resolve c, ← failure?_resolveAll cs]
    cases c.resolve r scope qualified with
    | error e => rfl
    | ok f => cases resolveAll r scope qualified cs <;> rfl

end

end Condition

namespace Predicate

variable {d : Dialect} {p : Predicate}

theorem failure?_toSql : (p.toSql r d qualified).failure? =
    (p.condition.comparisons.findSome? fun k => (k.resolve r p.scope qualified).failure?).map .predicate := by
  rw [toSql, Except.failure?_map, resolve, Except.failure?_mapError, Condition.failure?_resolve]

theorem exists_toSql_iff : (∃ sql, p.toSql r d qualified = .ok sql) ↔
    ∀ k ∈ p.condition.comparisons, k.WellFormed r p.scope := by
  rw [← Except.failure?_eq_none_iff, failure?_toSql, Option.map_eq_none_iff, List.findSome?_eq_none_iff]
  simp only [Comparison.failure?_eq_none_iff]

theorem toSql_eq_error_iff {e : QueryError} : p.toSql r d qualified = .error e ↔
    ∃ before k after fault, p.condition.comparisons = before ++ k :: after ∧
      (∀ b ∈ before, b.WellFormed r p.scope) ∧ k.Fault r p.scope fault ∧ e = .predicate fault := by
  rw [← Except.failure?_eq_some_iff, failure?_toSql, Option.map_eq_some_iff]
  simp only [List.findSome?_eq_some_iff, Comparison.failure?_eq_none_iff, Comparison.failure?_eq_some_iff]
  constructor
  · rintro ⟨fault, ⟨before, k, after, hk, hfault, hbefore⟩, rfl⟩
    exact ⟨before, k, after, fault, hk, hbefore, hfault, rfl⟩
  · rintro ⟨before, k, after, fault, hk, hbefore, hfault, rfl⟩
    exact ⟨fault, ⟨before, k, after, hk, hfault, hbefore⟩, rfl⟩

end Predicate

/-- What comes of a predicate, in every dialect and whether or not columns are qualified. -/
structure Judged (r : Registry) (p : Predicate) : Prop where
  ok_iff : ∀ d qualified, (∃ sql, p.toSql r d qualified = .ok sql) ↔
    ∀ k ∈ p.condition.comparisons, k.WellFormed r p.scope
  /-- The first comparison at fault counts. -/
  error_iff : ∀ d qualified e, p.toSql r d qualified = .error e ↔
    ∃ before k after fault, p.condition.comparisons = before ++ k :: after ∧
      (∀ b ∈ before, b.WellFormed r p.scope) ∧ k.Fault r p.scope fault ∧ e = .predicate fault
  /-- The same error in every form. -/
  alike : ∀ d qualified d' qualified' e, p.toSql r d qualified = .error e → p.toSql r d' qualified' = .error e

/-- A predicate has a text just if all comparisons in it are well-formed, and otherwise the
    fault of the first that is not. Raw text and compounds of nothing are always spelled. -/
theorem judged_toSql (r : Registry) :
    (∀ p, Judged r p) ∧
      (∀ scope sql d qualified, (Predicate.mk scope (.raw sql)).toSql r d qualified = .ok sql) ∧
      ∀ scope op d qualified, (Predicate.mk scope (.compound op [])).toSql r d qualified = .ok "TRUE" := by
  refine ⟨fun p => ?_, fun _ _ _ _ => rfl, fun _ _ _ _ => rfl⟩
  constructor
  case ok_iff => exact fun _ _ => Predicate.exists_toSql_iff
  case error_iff => exact fun _ _ _ => Predicate.toSql_eq_error_iff
  case alike =>
    intro d qualified d' qualified' e h
    rw [Predicate.toSql_eq_error_iff] at h ⊢
    exact h

/-- The operator is looked at before the column on its right, and the first comparison counts. -/
example : (Predicate.single ⟨"Book"⟩ (.compound .or
    [.raw "x", .not (.compare ⟨⟨"Book"⟩, "title"⟩ .isIn (.column ⟨⟨"Author"⟩, "id"⟩)),
      .compare ⟨⟨"Book"⟩, "pages"⟩ .eq .null])).toSql ⟨[⟨⟨"Book"⟩, "book", [{ name := "title" }]⟩]⟩ .sqlite true =
    .error (.predicate (.listMismatch .isIn "title")) := rfl

end SqlDraft
