/-
  SqlDraft.Session.Filter — adding to the WHERE clause.
-/

import SqlDraft.Session.Basic
import SqlDraft.Resolution

namespace SqlDraft

/-- Adds a predicate, its columns qualified if the session's are at this moment. -/
def Session.filter (s : Session) (op : LogicalOp) (p : Predicate) :
    Except QueryError (Session × List LogRecord) := do
  let fragment ← p.resolve s.registry s.qualified
  let filtered := { s with filters := s.filters ++ [⟨op, fragment⟩] }
  return (filtered, [.filtered filtered.whereText])

end SqlDraft
