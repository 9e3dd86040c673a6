/-
  SqlDraft.Proofs.Session.Tables — which tables take part in a session, and how it grows. None
  does until a join is made or a projection does something; then they are the base and the
  models of the joins that were made, in their order, each type where it came first
  (`participating_run`).

  A call changes the tables, FROM and WHERE at their ends only, and never takes back that
  columns are qualified (`grows_after`). So in the course of a session the number of its
  tables tells which they are.
-/

import Mathlib.Data.List.Induction
import SqlDraft.Proofs.Session.Answer
import SqlDraft.Proofs.Session.Scope

namespace SqlDraft

variable {r : Registry} {base : Model} {calls : List Call}

/-! ## Each type once -/

theorem eraseDups_concat {α : Type} [DecidableEq α] (l : List α) (a : α) :
    (l ++ [a]).eraseDups = if a ∈ l then l.eraseDups else l.eraseDups ++ [a] := by
  rw [List.eraseDups_append]
  by_cases h : a ∈ l
  · simp [List.removeAll, h]
  · simp [List.removeAll, h, List.eraseDups_cons]

theorem nodup_eraseDups {α : Type} [DecidableEq α] (l : List α) : l.eraseDups.Nodup := by
  induction l using List.reverseRecOn with
  | nil => exact List.nodup_nil
  | append_singleton l a ih =>
    rw [eraseDups_concat]
    split
    · exact ih
    · rename_i ha
      rw [← List.concat_eq_append]
      exact ih.concat (by rwa [List.mem_eraseDups])

theorem types_addTable {tables : List Model} {types : List ModelType} (h : tables.map (·.type) = types.eraseDups)
    (m : Model) : (addTable tables m).map (·.type) = (types ++ [m.type]).eraseDups := by
  have hmem : tables.any (·.type = m.type) = true ↔ m.type ∈ types := by
    rw [← List.mem_eraseDups, ← h, List.any_eq_true, List.mem_map]
    simp only [decide_eq_true_eq]
  rw [eraseDups_concat]
  unfold addTable
  by_cases hm : m.type ∈ types
  · rw [if_pos hm, if_pos (hmem.mpr hm), h]
  · rw [if_neg hm, if_neg (mt hmem.mp hm), List.map_append, h, List.map_singleton]

theorem types_foldl_extend {tables : List Model} {types : List ModelType} (h : tables.map (·.type) = types.eraseDups)
    (joined : List Joined) :
    (joined.foldl Joined.extend tables).map (·.type) =
      (types ++ joined.flatMap fun j => [j.source.type, j.target.type]).eraseDups := by
  induction joined generalizing tables types with
  | nil => simpa using h
  | cons j joined ih =>
    have hj : (j.extend tables).map (·.type) = ((types ++ [j.source.type]) ++ [j.target.type]).eraseDups :=
      types_addTable (types_addTable h j.source) j.target
    rw [List.foldl_cons, ih hj, List.flatMap_cons]
    simp only [List.append_assoc, List.cons_append, List.nil_append]

theorem types_tables : (Calls.tables r base calls).map (·.type) =
    (base.type :: (Calls.joined r calls).flatMap fun j => [j.source.type, j.target.type]).eraseDups :=
  types_foldl_extend (show [base].map (·.type) = [base.type].eraseDups from rfl) _

theorem model?_of_mem_tables (hbase : r.model? base.type = some base) {m : Model} (hm : m ∈ Calls.tables r base calls) :
    r.model? m.type = some m := by
  rcases joined_of_mem_tables hm with rfl | ⟨j, hj, hm⟩
  · exact hbase
  · obtain ⟨c, -, hc⟩ := List.mem_filterMap.mp hj
    obtain ⟨hs, ht⟩ := models_of_joined? hc
    rcases hm with rfl | rfl
    · exact hs
    · exact ht

namespace Session

/-! ## Whether any tables take part -/

/-- Whether a projection did something: it was onto a registered shape, and not onto the base
    while columns were not qualified. -/
def hasProjected (s : Session) (calls : List Call) : Bool :=
  (withPast [] calls).any fun (past, c) => (c.shape? s.registry s.base (s.run past).qualified).isSome

theorem hasProjected_concat (s : Session) (calls : List Call) (c : Call) :
    s.hasProjected (calls ++ [c]) =
      (s.hasProjected calls || (c.shape? s.registry s.base (s.run calls).qualified).isSome) := by
  simp [hasProjected, withPast_concat]

theorem isEmpty_madeJoins_concat (s : Session) (calls : List Call) (c : Call) :
    (s.madeJoins (calls ++ [c])).isEmpty = ((s.madeJoins calls).isEmpty && (c.joined? s.registry).isNone) := by
  rw [madeJoins_eq, madeJoins_eq, Calls.joined, filterMap_concat, Calls.joined]
  cases c.joined? s.registry <;> simp

theorem isEmpty_tables_after (s : Session) (c : Call) :
    (s.after c).tables.isEmpty =
      (s.tables.isEmpty && ((c.joined? s.registry).isNone && (c.shape? s.registry s.base s.qualified).isNone)) := by
  have hne : s.tablesWithBase.isEmpty = false := by simpa using tablesWithBase_ne_nil s
  simp only [after]
  cases c.joined? s.registry with
  | some j =>
    have hextend : j.extend s.tablesWithBase ≠ [] :=
      addTable_ne_nil (addTable_ne_nil (tablesWithBase_ne_nil s) j.source) j.target
    simp [hextend]
  | none => cases c.shape? s.registry s.base s.qualified <;> simp [hne]

theorem isEmpty_tables_run {s : Session} (h : s.tables = []) (calls : List Call) :
    (s.run calls).tables.isEmpty = ((s.madeJoins calls).isEmpty && !s.hasProjected calls) := by
  induction calls using List.reverseRecOn with
  | nil => simp [run, h, madeJoins, hasProjected, withPast]
  | append_singleton calls c ih =>
    obtain ⟨hr, -, -, hb⟩ := run_frame s calls
    rw [run_concat, session_perform, isEmpty_tables_after, ih, hr, hb, isEmpty_madeJoins_concat, hasProjected_concat]
    cases (s.madeJoins calls).isEmpty <;> cases s.hasProjected calls <;> cases c.joined? s.registry <;>
      cases c.shape? s.registry s.base (s.run calls).qualified <;> rfl

/-! ## Growth -/

/-- From one session to another everything stays that was there, and more may follow it. -/
structure Grows (s t : Session) : Prop where
  tables : s.tables <+: t.tables
  fromText : ∃ more, t.fromText = s.fromText ++ more
  whereText : ∃ more, t.whereText = s.whereText ++ more
  qualified : s.qualified = true → t.qualified = true

theorem fromText_append (d : Dialect) (base : String) (joins more : List JoinClause) :
    SqlDraft.fromText d base (joins ++ more) =
      SqlDraft.fromText d base joins ++ String.join (more.map (·.render d)) := by
  simp [SqlDraft.fromText, String.join_append, String.append_assoc]

theorem whereText_concat (d : Dialect) (filters : List Filter) (f : Filter) :
    SqlDraft.whereText d (filters ++ [f]) = tieFilter d (SqlDraft.whereText d filters) f := by
  simp [SqlDraft.whereText]

theorem exists_tieFilter (d : Dialect) (text : String) (f : Filter) : ∃ more, tieFilter d text f = text ++ more := by
  unfold tieFilter
  split
  · rename_i h
    rw [String.isEmpty_iff.mp h]
    exact ⟨f.fragment.render d, (String.empty_append).symm⟩
  · exact ⟨" " ++ f.op.keyword ++ " " ++ f.fragment.render d, by simp only [String.append_assoc]⟩

theorem grows_after (s : Session) (c : Call) : Grows s (s.after c) := by
  constructor
  case tables => exact prefix_tables_after s c
  case fromText => exact ⟨_, fromText_append s.dialect s.base.name s.joins _⟩
  case whereText =>
    show ∃ more,
      SqlDraft.whereText s.dialect (s.filters ++ (c.filter? s.registry s.qualified).toList) = s.whereText ++ more
    cases c.filter? s.registry s.qualified with
    | none => exact ⟨"", by simp [Session.whereText]⟩
    | some f =>
      rw [Option.toList_some, whereText_concat]
      exact exists_tieFilter s.dialect _ f
  case qualified =>
    intro h
    simp [after, h]

theorem prefix_tables_run (s : Session) (calls more : List Call) :
    (s.run calls).tables <+: (s.run (calls ++ more)).tables := by
  induction more using List.reverseRecOn with
  | nil => simp
  | append_singleton more c ih =>
    rw [← List.append_assoc, run_concat, session_perform]
    exact ih.trans (grows_after _ c).tables

/-! ## Every run -/

/-- The tables after the calls, and whether columns are qualified. -/
structure Participating (s : Session) (calls : List Call) : Prop where
  qualified_eq : (s.run calls).qualified = (s.qualified || !(s.madeJoins calls).isEmpty)
  types_eq : (s.run calls).tables.map (·.type) =
    if (s.madeJoins calls).isEmpty && !s.hasProjected calls then []
    else (s.base.type :: (s.madeJoins calls).flatMap fun (source, target) => [source, target]).eraseDups
  nodup : ((s.run calls).tables.map (·.type)).Nodup
  head_eq : ∀ m ∈ (s.run calls).tables.head?, m = s.base
  registered : ∀ m ∈ (s.run calls).tables, s.registry.model? m.type = some m
  grows : ∀ call, Grows (s.run calls) ((s.run calls).perform call).session
  /-- Later on, as many tables are the same tables. -/
  eq_of_length_eq : ∀ more, (s.run (calls ++ more)).tables.length = (s.run calls).tables.length →
    (s.run (calls ++ more)).tables = (s.run calls).tables

theorem tables_run {s : Session} {start : Bool} (h : Account r base start calls (s.run calls))
    (hempty : s.tables = []) : (s.run calls).tables =
      if (s.madeJoins calls).isEmpty && !s.hasProjected calls then [] else Calls.tables r base calls := by
  rw [← isEmpty_tables_run hempty, ← h.tables_eq]
  unfold tablesWithBase
  cases hcase : (s.run calls).tables.isEmpty with
  | true => simpa using hcase
  | false => rfl

/-- The types of the participating tables are those of the base and of the joins that were
    made, each once, unless nothing has called for tables yet. -/
theorem participating_run {type : ModelType} {c : Config} {s : Session} (h : Session.start r type c = .ok s)
    (calls : List Call) : s.registry = r ∧ s.qualified = c.qualified ∧ Participating s calls := by
  have hrun := account_run h calls
  obtain ⟨-, m, hm, hs⟩ := start_eq_ok.mp h
  have hregistry : s.registry = r := by rw [hs]
  have hqualified : s.qualified = c.qualified := by rw [hs]
  have hbase : r.model? s.base.type = some s.base := by
    rw [hs]
    show r.model? m.type = some m
    rwa [Registry.type_of_model? hm]
  have htables := tables_run hrun (by rw [hs])
  have hjoins : (s.madeJoins calls).flatMap (fun (source, target) => [source, target]) =
      (Calls.joined r calls).flatMap fun j => [j.source.type, j.target.type] := by
    rw [madeJoins_eq, hregistry, List.flatMap_map]
  have htypes : (s.run calls).tables.map (·.type) =
      if (s.madeJoins calls).isEmpty && !s.hasProjected calls then []
      else (s.base.type :: (s.madeJoins calls).flatMap fun (source, target) => [source, target]).eraseDups := by
    rw [htables, hjoins, ← types_tables, apply_ite (List.map _), List.map_nil]
  refine ⟨hregistry, hqualified, ?_⟩
  constructor
  case qualified_eq =>
    rw [hrun.qualified_eq, madeJoins_eq, hregistry, hqualified, Calls.qualified, List.isEmpty_map]
  case types_eq => exact htypes
  case nodup =>
    rw [htypes]
    split
    · exact List.nodup_nil
    · exact nodup_eraseDups _
  case head_eq =>
    intro t ht
    rw [htables] at ht
    split at ht
    · cases ht
    · obtain ⟨rest, hrest⟩ : [s.base] <+: Calls.tables r s.base calls := tables_prefix (List.nil_prefix (l := calls))
      rw [← hrest] at ht
      exact (Option.some.inj ht).symm
  case registered =>
    intro t ht
    rw [htables] at ht
    split at ht
    · cases ht
    · rw [hregistry]
      exact model?_of_mem_tables hbase ht
  case grows =>
    intro call
    rw [session_perform]
    exact grows_after _ call
  case eq_of_length_eq =>
    intro more hlength
    exact ((prefix_tables_run s calls more).eq_of_length hlength.symm).symm

end Session

/-- The second join has its models the other way round, and the third is not made. -/
def Library.joinedTwice : List Call :=
  [.join .left ⟨"Author"⟩ ⟨"Book"⟩ none, .join .inner ⟨"Book"⟩ ⟨"Author"⟩ none, .join .full ⟨"Book"⟩ ⟨"Shelf"⟩ none]

theorem participating_run_library :
    Library.session.madeJoins Library.joinedTwice = [(⟨"Author"⟩, ⟨"Book"⟩), (⟨"Book"⟩, ⟨"Author"⟩)] ∧
      (Library.session.run Library.joinedTwice).tables.map (·.type) = [⟨"Author"⟩, ⟨"Book"⟩] := by
  have hjoins : Library.session.madeJoins Library.joinedTwice =
    [(⟨"Author"⟩, ⟨"Book"⟩), (⟨"Book"⟩, ⟨"Author"⟩)] := rfl
  obtain ⟨-, -, h⟩ := Session.participating_run Library.start_registry Library.joinedTwice
  refine ⟨hjoins, ?_⟩
  rw [h.types_eq, hjoins]
  decide

end SqlDraft
