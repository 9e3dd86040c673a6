/-
  SqlDraft.Session.Projection — reading the fields of a shape from the participating tables.

  A SELECT list depends on the shape and the tables. Tables are only ever added, so within a
  session their number tells them apart, and a list is kept under the shape and that number.
-/

import SqlDraft.Session.Basic
import SqlDraft.FieldIndex

namespace SqlDraft

/-- The SELECT list for a shape. Each field is read from the first table that declares its
    name, as that table declares it, or else from the base, as the shape declares it. -/
def projectionItems (base : Model) (tables : List Model) (shape : Model) : List SelectItem :=
  let index := FieldIndex.ofTables tables
  shape.fields.map fun f =>
    match index.get? f.name with
    | some (table, own) => table.selectItem true own
    | none => base.selectItem true f

/-- A record for each field of the shape that no table declares. -/
def projectionNotes (base : Model) (tables : List Model) (shape : Model) : List LogRecord :=
  let index := FieldIndex.ofTables tables
  (shape.fields.filter fun f => (index.get? f.name).isNone).map fun f => .fieldFromBase f.name base.name

namespace Session

def cached? (s : Session) (shape : ModelType) (tableCount : Nat) : Option (List SelectItem) :=
  (s.cache.find? fun c => c.shape = shape ∧ c.tableCount = tableCount).map (·.items)

/-- Sets the SELECT list to that of a shape. The base without a join is its own projection,
    and nothing changes. -/
def project (s : Session) (shape : ModelType) : Except QueryError (Session × List LogRecord) :=
  if shape = s.base.type ∧ s.qualified = false then .ok (s, [])
  else do
    let model ← s.registry.require shape
    let tables := s.tablesWithBase
    match s.cached? shape tables.length with
    | some items => return ({ s with tables, projection := some items }, [.projectionReused model.name])
    | none =>
      let items := projectionItems s.base tables model
      let projected := { s with
        tables
        projection := some items
        cache := ⟨shape, tables.length, items⟩ :: s.cache }
      return (projected, projectionNotes s.base tables model ++ [.projected items.length model.name])

end Session

end SqlDraft
