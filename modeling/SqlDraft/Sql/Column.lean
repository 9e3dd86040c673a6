/-
  SqlDraft.Sql.Column — columns as a statement names them, with their table or without.
-/

import SqlDraft.Dialect
import SqlDraft.Model

namespace SqlDraft

structure ColumnName where
  /-- The table before the column, if the reference is qualified. -/
  table : Option String
  column : String
  deriving DecidableEq, Repr

/-- A table in front of one of its columns. -/
def Dialect.qualifier (d : Dialect) : Option String → String
  | some table => d.quote table ++ "."
  | none => ""

/-- The column of a field of `m`, with its table if `qualified`. -/
def Model.columnName (m : Model) (qualified : Bool) (f : Field) : ColumnName :=
  { table := if qualified then some m.name else none, column := f.column }

def ColumnName.render (d : Dialect) (c : ColumnName) : String := d.qualifier c.table ++ d.quote c.column

/-- An entry of a SELECT list. -/
structure SelectItem where
  source : ColumnName
  isRowVersion : Bool
  deriving DecidableEq, Repr

/-- What reads a field of `m`. -/
def Model.selectItem (m : Model) (qualified : Bool) (f : Field) : SelectItem :=
  { source := m.columnName qualified f, isRowVersion := f.isRowVersion }

def SelectItem.render (d : Dialect) (i : SelectItem) : String :=
  d.qualifier i.source.table ++ d.reading i.source.column i.isRowVersion

end SqlDraft
