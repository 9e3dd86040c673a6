/-
  SqlDraft.Proofs.Projection.Index — the index of some tables against the row of all that they
  declare, table after table and field after field (`declarations`). Each table answers for
  the names that are still free, each with its first field of that name; so the index finds
  what a scan of the row finds first (`get?_ofTables_eq_find?`). Rows are appended as tables
  are, and a table that comes later has a say only in names that none before it declares
  (`get?_ofTables_append`).
-/

import SqlDraft.Proofs.Projection.Entry

namespace SqlDraft

/-- What the tables declare, each field with its table. -/
def declarations (tables : List Model) : List (Model × Field) := tables.flatMap fun t => t.fields.map (t, ·)

namespace FieldIndex

theorem get?_ofTables_eq_find? (tables : List Model) (name : String) :
    (ofTables tables).get? name = (declarations tables).find? (·.2.name = name) := by
  rw [get?_ofTables, declarations, List.find?_flatMap]
  congr 1
  funext t
  rw [List.find?_map]
  rfl

theorem get?_ofTables_append (tables more : List Model) (name : String) :
    (ofTables (tables ++ more)).get? name = ((ofTables tables).get? name).or ((ofTables more).get? name) := by
  rw [get?_ofTables, get?_ofTables, get?_ofTables, List.findSome?_append]

/-- What the index of the tables answers for a name. -/
structure Scanned (tables : List Model) (name : String) : Prop where
  scan_eq : (ofTables tables).get? name = (declarations tables).find? (·.2.name = name)
  some_iff : ∀ table own, (ofTables tables).get? name = some (table, own) ↔ FirstDeclared tables name table own
  none_iff : (ofTables tables).get? name = none ↔ ∀ t ∈ tables, ∀ g ∈ t.fields, g.name ≠ name
  append_eq : ∀ more, (ofTables (tables ++ more)).get? name =
    ((ofTables tables).get? name).or ((ofTables more).get? name)
  /-- What is found stays, whatever tables are added. -/
  lasting : ∀ more found, (ofTables tables).get? name = some found →
    (ofTables (tables ++ more)).get? name = some found

/-- Tables and fields may repeat and share names: of all declarations of a name the index has
    the first. -/
theorem scanned_ofTables (tables : List Model) (name : String) : Scanned tables name where
  scan_eq := get?_ofTables_eq_find? tables name
  some_iff := fun _ _ => get?_ofTables_eq_some_iff
  none_iff := get?_ofTables_eq_none_iff
  append_eq := fun more => get?_ofTables_append tables more name
  lasting := by
    intro more found h
    rw [get?_ofTables_append, h, Option.some_or]

/-- A table that stands twice, and names declared twice, in one table and in two. -/
example :
    let author : Model := ⟨⟨"Author"⟩, "author", [{ name := "id" }, { name := "name", column := "first" },
      { name := "name", column := "last" }]⟩
    let book : Model := ⟨⟨"Book"⟩, "book", [{ name := "title" }, { name := "name", column := "short" }]⟩
    let index := ofTables [author, book, author]
    (index.get? "name").map (fun (t, f) => (t.name, f.column)) = some ("author", "first") ∧
      (index.get? "title").map (·.1.name) = some "book" ∧ index.get? "isbn" = none :=
  ⟨rfl, rfl, rfl⟩

end FieldIndex

end SqlDraft
