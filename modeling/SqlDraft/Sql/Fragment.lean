/-
  SqlDraft.Sql.Fragment — conditions whose columns have been found, and their text. Every
  comparison and every non-empty compound is parenthesised, and so is what is negated, so a
  fragment without raw text keeps its meaning wherever it is put.
-/

import SqlDraft.Condition
import SqlDraft.Sql.Column
import SqlDraft.Sql.Literal

namespace SqlDraft

/-- The right side of a comparison. -/
inductive Term where
  | column (column : ColumnName)
  | value (value : Json)
  | list (values : List Json)
  deriving Repr

inductive Fragment where
  | nullTest (column : ColumnName) (isNull : Bool)
  | compare (left : ColumnName) (op : ComparisonOp) (right : Term)
  | compound (op : LogicalOp) (parts : List Fragment)
  | not (inner : Fragment)
  | raw (sql : String)
  deriving Repr

def Term.render (d : Dialect) : Term → String
  | .column c => c.render d
  | .value v => v.literal
  | .list vs => "(" ++ ", ".intercalate (vs.map Json.literal) ++ ")"

namespace Fragment

mutual

/-- A compound without parts is true. -/
def render (d : Dialect) : Fragment → String
  | .nullTest c isNull => "(" ++ c.render d ++ (if isNull then " IS NULL)" else " IS NOT NULL)")
  | .compare left op right => "(" ++ left.render d ++ " " ++ op.symbol ++ " " ++ right.render d ++ ")"
  | .compound _ [] => "TRUE"
  | .compound op (f :: fs) => "(" ++ f.render d ++ renderRest d op fs ++ ")"
  | .not f => "NOT (" ++ f.render d ++ ")"
  | .raw sql => sql

def renderRest (d : Dialect) (op : LogicalOp) : List Fragment → String
  | [] => ""
  | f :: fs => " " ++ op.keyword ++ " " ++ f.render d ++ renderRest d op fs

end

end Fragment

end SqlDraft
