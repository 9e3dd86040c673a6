/-
  SqlDraft.Proofs.Projection.Source — what the entries of a SELECT list are read from. Looking
  a name up in the index of some tables is scanning them in order (`get?_ofTables`), so an
  entry reads a column of a table that declares the field, or, if none does, a column of the
  base (`source_projectionItems`).
-/

import SqlDraft.Session.Projection

namespace SqlDraft

namespace FieldIndex

/-- The fields of a table are added under the names that are not taken. -/
theorem getElem?_addFields (entries : Std.TreeMap String (Model × Field)) (table : Model) (fields : List Field)
    (name : String) :
    (fields.foldl (fun entries f => entries.insertIfNew f.name (table, f)) entries)[name]? =
      entries[name]?.or ((fields.find? (·.name = name)).map (table, ·)) := by
  induction fields generalizing entries with
  | nil => simp
  | cons f fields ih =>
    rw [List.foldl_cons, ih, Std.TreeMap.getElem?_insertIfNew]
    by_cases hf : f.name = name
    · cases hname : entries[name]? with
      | none => simp [hf, hname, Std.TreeMap.mem_iff_isSome_getElem?]
      | some e => simp [hf, hname, Std.TreeMap.mem_iff_isSome_getElem?]
    · simp [hf]

theorem get?_addTable (index : FieldIndex) (table : Model) (name : String) :
    (index.addTable table).get? name = (index.get? name).or ((table.field? name).map (table, ·)) :=
  getElem?_addFields index.entries table table.fields name

/-- The first table that declares the name, with the first field it declares of that name. -/
theorem get?_ofTables (tables : List Model) (name : String) :
    (ofTables tables).get? name = tables.findSome? fun t => (t.field? name).map (t, ·) := by
  suffices h : ∀ index : FieldIndex, (tables.foldl addTable index).get? name =
      (index.get? name).or (tables.findSome? fun t => (t.field? name).map (t, ·)) from h empty
  intro index
  induction tables generalizing index with
  | nil => simp
  | cons t tables ih =>
    rw [List.foldl_cons, ih, get?_addTable, Option.or_assoc, List.findSome?_cons]
    cases t.field? name <;> rfl

theorem mem_of_get?_ofTables {tables : List Model} {name : String} {table : Model} {f : Field}
    (h : (ofTables tables).get? name = some (table, f)) : table ∈ tables ∧ f ∈ table.fields := by
  rw [get?_ofTables] at h
  obtain ⟨t, ht, hf⟩ := List.exists_of_findSome?_eq_some h
  obtain ⟨g, hg, he⟩ := Option.map_eq_some_iff.mp hf
  cases he
  exact ⟨ht, List.mem_of_find?_eq_some hg⟩

end FieldIndex

/-- Every entry is qualified with the table it reads, which declares the field unless no table
    does. -/
theorem source_projectionItems {base shape : Model} {tables : List Model} :
    ∀ item ∈ projectionItems base tables shape, ∃ m f, item = m.selectItem true f ∧
      (m ∈ tables ∧ f ∈ m.fields ∨ m = base ∧ f ∈ shape.fields ∧ ∀ t ∈ tables, t.field? f.name = none) := by
  intro item hitem
  obtain ⟨f, hf, rfl⟩ := List.mem_map.mp hitem
  cases hget : (FieldIndex.ofTables tables).get? f.name with
  | some found =>
    obtain ⟨table, own⟩ := found
    exact ⟨table, own, rfl, .inl (FieldIndex.mem_of_get?_ofTables hget)⟩
  | none =>
    refine ⟨base, f, rfl, .inr ⟨rfl, hf, ?_⟩⟩
    rw [FieldIndex.get?_ofTables, List.findSome?_eq_none_iff] at hget
    intro t ht
    exact Option.map_eq_none_iff.mp (hget t ht)

end SqlDraft
