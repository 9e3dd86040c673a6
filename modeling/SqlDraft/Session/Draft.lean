/-
  SqlDraft.Session.Draft — the statement that a session has come to. Only an ordering term
  can be at fault, and the first faulty one is reported.
-/

import SqlDraft.Session.Basic

namespace SqlDraft

/-- The column of an ordering term, looked up in the registry. -/
def OrderTerm.resolve (r : Registry) (qualified : Bool) (o : OrderTerm) : Except QueryError SortKey :=
  match r.model? o.column.model with
  | none => .error (.orderNotRegistered o.column.model)
  | some m =>
    match m.field? o.column.field with
    | none => .error (.predicate (.unknownField m.name o.column.field))
    | some f => .ok ⟨m.columnName qualified f, o.direction⟩

namespace Session

def draft (s : Session) : Except QueryError Statement := do
  let ordering ← s.ordering.mapM (OrderTerm.resolve s.registry s.qualified)
  return { items := s.items, base := s.base.name, joins := s.joins, filters := s.filters, ordering,
           limit := s.limit, offset := s.offset }

/-- The text of the statement. -/
def statement (s : Session) : Except QueryError String := s.draft.map (·.render s.dialect s.separator)

end Session

end SqlDraft
