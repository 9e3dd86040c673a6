/-
  SqlDraft.Dialect — what differs between databases: how a name is quoted, how a
  row-version column is read and how a statement is paged. Everything else of a statement
  is the same in all of them.
-/

import SqlDraft.Text.Quoted

namespace SqlDraft

inductive Dialect where
  /-- Names stand as they are. -/
  | plain
  | sqlite
  | postgres
  | sqlserver
  deriving DecidableEq, Repr

namespace Dialect

def all : List Dialect := [.plain, .sqlite, .postgres, .sqlserver]

def name : Dialect → String
  | .plain => "plain"
  | .sqlite => "sqlite"
  | .postgres => "postgres"
  | .sqlserver => "sqlserver"

def ofName? (name : String) : Option Dialect := all.find? (·.name = name)

theorem ofName?_name (d : Dialect) : ofName? d.name = some d := by cases d <;> decide

/-- The marks around a quoted name, if the dialect quotes names. -/
def marks? : Dialect → Option Text.Marks
  | .plain => none
  | .sqlite | .postgres => some ⟨'"', '"'⟩
  | .sqlserver => some ⟨'[', ']'⟩

/-- The name of a table or a column as a statement spells it. -/
def quote (d : Dialect) (name : String) : String :=
  match d.marks? with
  | none => name
  | some m => m.quote name

/-- What reads a row-version column: in PostgreSQL the system column `xmin` under the
    column's name. -/
def rowVersion (d : Dialect) (column : String) : String :=
  match d with
  | .postgres => "xmin as " ++ d.quote column
  | _ => d.quote column

/-- What reads a column in a SELECT list. -/
def reading (d : Dialect) (column : String) (isRowVersion : Bool) : String :=
  if isRowVersion then d.rowVersion column else d.quote column

/-- The end of a statement that skips `offset` rows and stops after `limit`; `ordered` tells
    whether an ORDER BY clause stands before it. SQL Server has no paging without one and
    no limit without an offset. -/
def paging (d : Dialect) (limit offset : Option Nat) (ordered : Bool) : String :=
  match d with
  | .sqlserver =>
    if limit.isNone && offset.isNone then ""
    else
      (if ordered then "" else " ORDER BY (SELECT NULL)")
        ++ " OFFSET " ++ toString (offset.getD 0) ++ " ROWS"
        ++ match limit with
          | some n => " FETCH NEXT " ++ toString n ++ " ROWS ONLY"
          | none => ""
  | _ =>
    (match limit with
      | some n => " LIMIT " ++ toString n
      | none => "")
      ++ match offset with
        | some n => " OFFSET " ++ toString n
        | none => ""

end Dialect

end SqlDraft
