/-
  SqlDraft.FieldIndex — where a field is read from when several tables take part: the first
  table that declares its name. Adding tables at the end changes no answer already given.
-/

import SqlDraft.Model
import Std.Data.TreeMap

namespace SqlDraft

/-- Field names with the table and the field that declare them first. -/
structure FieldIndex where
  entries : Std.TreeMap String (Model × Field)

namespace FieldIndex

def empty : FieldIndex := ⟨∅⟩

/-- Adds the fields of a table under the names that are still free. -/
def addTable (index : FieldIndex) (table : Model) : FieldIndex :=
  ⟨table.fields.foldl (fun entries f => entries.insertIfNew f.name (table, f)) index.entries⟩

def ofTables (tables : List Model) : FieldIndex := tables.foldl addTable empty

def get? (index : FieldIndex) (name : String) : Option (Model × Field) := index.entries[name]?

end FieldIndex

end SqlDraft
