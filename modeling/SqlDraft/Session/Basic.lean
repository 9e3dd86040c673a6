/-
  SqlDraft.Session.Basic — a session drafts one SELECT statement over a base model. It keeps
  the parts of the statement as data and spells them only when they are asked for, each in
  the session's dialect.

  Columns are qualified with their tables from the start if the configuration says so,
  otherwise from the first join on. A WHERE fragment keeps the form it had when it was
  added; the default SELECT list and the ordering take the form of the moment.
-/

import SqlDraft.Config
import SqlDraft.Registry
import SqlDraft.Log

namespace SqlDraft

/-- The SELECT list built for a shape when so many tables took part. -/
structure CachedProjection where
  shape : ModelType
  tableCount : Nat
  items : List SelectItem
  deriving DecidableEq, Repr

/-- A term of the ordering. Its column is looked up when the statement is assembled. -/
structure OrderTerm where
  column : ColumnRef
  direction : SortDirection
  deriving DecidableEq, Repr

structure Session where
  registry : Registry
  dialect : Dialect
  separator : String
  base : Model
  qualified : Bool
  /-- The participating tables, the base first, each once. There are none before the first
      join or projection. -/
  tables : List Model := []
  joins : List JoinClause := []
  filters : List Filter := []
  /-- The SELECT list that the last projection left. -/
  projection : Option (List SelectItem) := none
  cache : List CachedProjection := []
  ordering : List OrderTerm := []
  limit : Option Nat := none
  offset : Option Nat := none
  deriving Repr

namespace Session

/-- A session without any part but its base. The configuration is checked before the base is
    looked up. -/
def start (registry : Registry) (base : ModelType) (config : Config) : Except QueryError Session := do
  let config ← config.check
  let model ← registry.require base
  return { registry, dialect := config.dialect, separator := config.separator, base := model,
           qualified := config.qualified }

/-- The participating tables, among which the base is from the first join or projection on. -/
def tablesWithBase (s : Session) : List Model := if s.tables.isEmpty then [s.base] else s.tables

/-- The SELECT list: the projection, or all fields of the base. -/
def items (s : Session) : List SelectItem :=
  s.projection.getD (s.base.fields.map (s.base.selectItem s.qualified))

def selectText (s : Session) : String := SqlDraft.selectText s.dialect s.items

def fromText (s : Session) : String := SqlDraft.fromText s.dialect s.base.name s.joins

def whereText (s : Session) : String := SqlDraft.whereText s.dialect s.filters

def orderBy (s : Session) (column : ColumnRef) (direction : SortDirection) : Session :=
  { s with ordering := s.ordering ++ [⟨column, direction⟩] }

end Session

end SqlDraft
