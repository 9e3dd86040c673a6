/-
  SqlDraft.Proofs.Session.Qualified — which columns of a statement stand with their tables.
  A SELECT list is either a projection, which names every table, or the fields of the base,
  which take the form of the moment as the ordering does, and a join names its tables in any
  case. So after a join all of them are qualified. A filter keeps the form that columns had
  when it was added: it is qualified if a join came before it, and stays without tables
  otherwise (`qualified_run`).
-/

import SqlDraft.Proofs.Projection.Source
import SqlDraft.Proofs.Session.Injection

namespace SqlDraft

variable {r : Registry} {base : Model} {start : Bool} {calls : List Call}

/-! ## The past of a call -/

theorem prefix_of_mem_withPast {past before : List Call} {c : Call} (h : (before, c) ∈ withPast past calls) :
    before <+: past ++ calls := by
  induction calls generalizing past with
  | nil => cases h
  | cons d calls ih =>
    rcases List.mem_cons.mp h with h | h
    · cases h
      exact List.prefix_append _ _
    · simpa using ih h

theorem prefix_foldl_extend (tables : List Model) (joined : List Joined) :
    tables <+: joined.foldl Joined.extend tables := by
  induction joined generalizing tables with
  | nil => exact List.prefix_rfl
  | cons j joined ih => exact (Session.prefix_extend tables j).trans (ih _)

/-- More calls add tables at the end only. -/
theorem tables_prefix {past : List Call} (h : past <+: calls) :
    Calls.tables r base past <+: Calls.tables r base calls := by
  obtain ⟨rest, rfl⟩ := h
  unfold Calls.tables Calls.joined
  rw [List.filterMap_append, List.foldl_append]
  exact prefix_foldl_extend _ _

theorem base_mem_tables : base ∈ Calls.tables r base calls := by
  have h : [base] <+: Calls.tables r base calls := tables_prefix (List.nil_prefix (l := calls))
  exact h.subset List.mem_cons_self

/-! ## The parts of a statement -/

/-- Every entry reads a table that takes part, one that declares the field or else the base. A
    projection is qualified in any case. -/
theorem source_items {item : SelectItem} (h : item ∈ Calls.items r base start calls) :
    ∃ m ∈ Calls.tables r base calls, ∃ f qualified, item = m.selectItem qualified f ∧ (f ∈ m.fields ∨ m = base) ∧
      (qualified = true ∨ qualified = Calls.qualified r start calls) := by
  unfold Calls.items at h
  cases hlast : (Calls.projections r base start calls).getLast? with
  | none =>
    rw [hlast, Option.getD_none] at h
    obtain ⟨f, hf, rfl⟩ := List.mem_map.mp h
    exact ⟨base, base_mem_tables, f, _, rfl, .inl hf, .inr rfl⟩
  | some items =>
    rw [hlast, Option.getD_some] at h
    obtain ⟨⟨past, c⟩, hc, hshape⟩ := List.mem_filterMap.mp (List.mem_of_getLast? hlast)
    obtain ⟨shape, -, rfl⟩ := Option.map_eq_some_iff.mp hshape
    obtain ⟨m, f, rfl, hm⟩ := source_projectionItems item h
    have htables : Calls.tables r base past <+: Calls.tables r base calls := tables_prefix (prefix_of_mem_withPast hc)
    rcases hm with ⟨hm, hf⟩ | ⟨rfl, -, -⟩
    · exact ⟨m, htables.subset hm, f, true, rfl, .inl hf, .inl rfl⟩
    · exact ⟨m, base_mem_tables, f, true, rfl, .inr rfl, .inl rfl⟩

/-- The columns of a statement, as they are written. -/
def Statement.columns (q : Statement) : List ColumnName :=
  q.items.map (·.source) ++ q.joins.flatMap (·.condition.columns) ++ q.filters.flatMap (·.fragment.columns) ++
    q.ordering.map (·.column)

end SqlDraft
