/-
  SqlDraft.Proofs.Projection.Entry — a SELECT list, entry by entry. The index finds a name
  where scanning the tables in order, and the fields of each in order, finds it first
  (`get?_ofTables_eq_some_iff`). So each field of a shape has one entry, in declared order:
  the column of the first field of that name among the tables, or else the shape's own
  column in the base (`entries_projectionItems`). Where the base heads the tables and no
  two of its fields share a name, its projection is the list of all its fields, whatever
  tables follow (`projectionItems_base`).
-/

import Mathlib.Data.List.Forall2
import SqlDraft.Proofs.Projection.Source

namespace SqlDraft

/-- Among the tables, `table` is the first that declares the name, and `own` is the first field
    under it there. -/
structure FirstDeclared (tables : List Model) (name : String) (table : Model) (own : Field) : Prop where
  name_eq : own.name = name
  first_table : ∃ before after, tables = before ++ table :: after ∧ ∀ t ∈ before, ∀ g ∈ t.fields, g.name ≠ name
  first_field : ∃ before after, table.fields = before ++ own :: after ∧ ∀ g ∈ before, g.name ≠ name

/-- How a SELECT list reads a field of a table: the table, a dot, and the column, which for a
    row version is the dialect's. -/
def Field.entry (d : Dialect) (table : Model) (f : Field) : String :=
  d.quote table.name ++ "." ++ if f.isRowVersion then d.rowVersion f.column else d.quote f.column

/-- The entry of a field `f` of a shape. -/
inductive Entry (d : Dialect) (base : Model) (tables : List Model) (f : Field) : String → Prop
  | declared {table : Model} {own : Field} : FirstDeclared tables f.name table own →
      Entry d base tables f (own.entry d table)
  | undeclared : (∀ t ∈ tables, ∀ g ∈ t.fields, g.name ≠ f.name) → Entry d base tables f (f.entry d base)

namespace FieldIndex

variable {tables : List Model} {name : String}

theorem get?_ofTables_eq_some_iff {table : Model} {own : Field} :
    (ofTables tables).get? name = some (table, own) ↔ FirstDeclared tables name table own := by
  rw [get?_ofTables, List.findSome?_eq_some_iff]
  simp only [Option.map_eq_none_iff, Option.map_eq_some_iff, Model.field?_eq_none_iff]
  constructor
  · rintro ⟨before, t, after, htables, ⟨g, hg, he⟩, hbefore⟩
    cases he
    obtain ⟨hname, hfield⟩ := Model.field?_eq_some_iff.mp hg
    exact ⟨hname, ⟨before, after, htables, hbefore⟩, hfield⟩
  · rintro ⟨hname, ⟨before, after, htables, hbefore⟩, hfield⟩
    exact ⟨before, table, after, htables, ⟨own, Model.field?_eq_some_iff.mpr ⟨hname, hfield⟩, rfl⟩, hbefore⟩

theorem get?_ofTables_eq_none_iff :
    (ofTables tables).get? name = none ↔ ∀ t ∈ tables, ∀ g ∈ t.fields, g.name ≠ name := by
  rw [get?_ofTables, List.findSome?_eq_none_iff]
  simp only [Option.map_eq_none_iff, Model.field?_eq_none_iff]

end FieldIndex

/-- One entry for each field of the shape, in the order of the fields. -/
theorem entries_projectionItems (d : Dialect) (base : Model) (tables : List Model) (shape : Model) :
    List.Forall₂ (Entry d base tables) shape.fields ((projectionItems base tables shape).map (·.render d)) := by
  rw [List.forall₂_map_right_iff, projectionItems, List.forall₂_map_right_iff, List.forall₂_same]
  intro f _
  cases hget : (FieldIndex.ofTables tables).get? f.name with
  | some found => exact .declared (FieldIndex.get?_ofTables_eq_some_iff.mp hget)
  | none => exact .undeclared (FieldIndex.get?_ofTables_eq_none_iff.mp hget)

/-- Every entry names a table that takes part, if the base does. -/
theorem table_projectionItems {base shape : Model} {tables : List Model} (hbase : base ∈ tables) :
    ∀ item ∈ projectionItems base tables shape, ∃ table ∈ tables, item.source.table = some table.name := by
  intro item hitem
  obtain ⟨m, f, rfl, ⟨hm, -⟩ | ⟨rfl, -⟩⟩ := source_projectionItems item hitem
  · exact ⟨m, hm, rfl⟩
  · exact ⟨m, hbase, rfl⟩

/-- The fields of a table whose names are apart are found there first if the table comes first. -/
theorem firstDeclared_head {base : Model} (hnames : (base.fields.map (·.name)).Nodup) (rest : List Model) {f : Field}
    (hf : f ∈ base.fields) : FirstDeclared (base :: rest) f.name base f := by
  obtain ⟨before, after, hfields⟩ := List.append_of_mem hf
  refine ⟨rfl, ⟨[], rest, rfl, nofun⟩, before, after, hfields, fun g hg hname => ?_⟩
  rw [hfields, List.map_append, List.map_cons] at hnames
  have hnot : f.name ∉ before.map (·.name) := fun hmem =>
    (List.nodup_append.mp hnames).2.2 _ hmem _ List.mem_cons_self rfl
  exact hnot (hname ▸ List.mem_map_of_mem hg)

theorem projectionItems_base {base : Model} (hnames : (base.fields.map (·.name)).Nodup) (rest : List Model) :
    projectionItems base (base :: rest) base = base.fields.map (base.selectItem true) := by
  refine List.map_congr_left fun f hf => ?_
  rw [FieldIndex.get?_ofTables_eq_some_iff.mpr (firstDeclared_head hnames rest hf)]

end SqlDraft
