/-
  SqlDraft.Session.Join — joining a further table. The condition is made before anything
  changes, so a join that fails leaves no trace.
-/

import SqlDraft.Session.Basic
import SqlDraft.Resolution

namespace SqlDraft

/-- The condition given for a join, always qualified, or else the one that the link between
    the two models implies. -/
def JoinCondition.make (r : Registry) (source target : Model) :
    Option Condition → Except QueryError JoinCondition
  | some c => ((Predicate.pair source.type target.type c).resolve r true).map .explicit
  | none => do
    let relationship ← Relationship.infer source target
    let link ← relationship.keyLink
    return .keys link

/-- Adds a table, unless its type is there already. -/
def addTable (tables : List Model) (m : Model) : List Model :=
  if tables.any (·.type = m.type) then tables else tables ++ [m]

/-- Joins `target`, with `source` as the other side of the condition. -/
def Session.join (s : Session) (kind : JoinKind) (source target : ModelType) (on : Option Condition) :
    Except QueryError (Session × List LogRecord) := do
  let sourceModel ← s.registry.require source
  let targetModel ← s.registry.require target
  let condition ← JoinCondition.make s.registry sourceModel targetModel on
  let joined := { s with
    qualified := true
    tables := addTable (addTable s.tablesWithBase sourceModel) targetModel
    joins := s.joins ++ [⟨kind, targetModel.name, condition⟩] }
  return (joined, [.joined kind targetModel.name sourceModel.name])

end SqlDraft
