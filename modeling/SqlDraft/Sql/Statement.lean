/-
  SqlDraft.Sql.Statement — SELECT statements as data, and their text.
-/

import SqlDraft.Relationship
import SqlDraft.Sql.Fragment

namespace SqlDraft

inductive JoinKind where
  | inner | left | right | full
  deriving DecidableEq, Repr

def JoinKind.keywords : JoinKind → String
  | .inner => "INNER JOIN"
  | .left => "LEFT JOIN"
  | .right => "RIGHT JOIN"
  | .full => "FULL JOIN"

inductive JoinCondition where
  | keys (link : KeyLink)
  | explicit (fragment : Fragment)
  deriving Repr

def JoinCondition.render (d : Dialect) : JoinCondition → String
  | .keys link => link.render d
  | .explicit fragment => fragment.render d

structure JoinClause where
  kind : JoinKind
  target : String
  condition : JoinCondition
  deriving Repr

def JoinClause.render (d : Dialect) (j : JoinClause) : String :=
  " " ++ j.kind.keywords ++ " " ++ d.quote j.target ++ "  ON " ++ j.condition.render d

/-- A fragment of a WHERE clause and the operator that ties it to those before it. -/
structure Filter where
  op : LogicalOp
  fragment : Fragment
  deriving Repr

inductive SortDirection where
  | asc | desc
  deriving DecidableEq, Repr

def SortDirection.keyword : SortDirection → String
  | .asc => "ASC"
  | .desc => "DESC"

/-- A term of an ORDER BY clause. -/
structure SortKey where
  column : ColumnName
  direction : SortDirection
  deriving DecidableEq, Repr

def SortKey.render (d : Dialect) (k : SortKey) : String := k.column.render d ++ " " ++ k.direction.keyword

def selectText (d : Dialect) (items : List SelectItem) : String :=
  "SELECT " ++ ", ".intercalate (items.map (·.render d))

def fromText (d : Dialect) (base : String) (joins : List JoinClause) : String :=
  "FROM " ++ d.quote base ++ String.join (joins.map (·.render d))

/-- Ties a fragment to the text before it; the operator is left out where there is none. -/
def tieFilter (d : Dialect) (text : String) (f : Filter) : String :=
  if text.isEmpty then f.fragment.render d else text ++ " " ++ f.op.keyword ++ " " ++ f.fragment.render d

def whereText (d : Dialect) (filters : List Filter) : String := filters.foldl (tieFilter d) ""

structure Statement where
  items : List SelectItem
  base : String
  joins : List JoinClause
  filters : List Filter
  ordering : List SortKey
  limit : Option Nat
  offset : Option Nat
  deriving Repr

namespace Statement

/-- An empty WHERE text has no clause. -/
def whereClause (d : Dialect) (separator : String) (s : Statement) : String :=
  let text := whereText d s.filters
  if text.isEmpty then "" else separator ++ "WHERE " ++ text

def orderClause (d : Dialect) (s : Statement) : String :=
  if s.ordering.isEmpty then "" else " ORDER BY " ++ ", ".intercalate (s.ordering.map (·.render d))

/-- The separator stands before FROM and before WHERE. -/
def render (d : Dialect) (separator : String) (s : Statement) : String :=
  selectText d s.items ++ separator ++ fromText d s.base s.joins ++ s.whereClause d separator
    ++ s.orderClause d ++ d.paging s.limit s.offset (!s.ordering.isEmpty)

end Statement

end SqlDraft
