/-
  SqlDraft.Relationship — which of two models is the parent, by the field that links the
  other one to it.
-/

import SqlDraft.Error
import SqlDraft.Sql.Column

namespace SqlDraft

structure Relationship where
  parent : Model
  child : Model
  /-- The field of `child` that holds the key of `parent`. -/
  link : Field
  deriving DecidableEq, Repr

/-- The equation of a key with the column that holds it, both qualified. -/
structure KeyLink where
  key : ColumnName
  link : ColumnName
  deriving DecidableEq, Repr

/-- On a line of its own. -/
def KeyLink.render (d : Dialect) (k : KeyLink) : String :=
  "\n(" ++ k.key.render d ++ " = " ++ k.link.render d ++ ")"

namespace Relationship

/-- The source is tried as the parent first. -/
def infer? (source target : Model) : Option Relationship :=
  ((foreignKey? source target).map fun f => ⟨source, target, f⟩).or
    ((foreignKey? target source).map fun f => ⟨target, source, f⟩)

def infer (source target : Model) : Except QueryError Relationship :=
  match infer? source target with
  | some r => .ok r
  | none => .error (.noRelationship source.name target.name)

def keyLink (r : Relationship) : Except QueryError KeyLink :=
  match r.parent.primaryKey? with
  | some key => .ok ⟨r.parent.columnName true key, r.child.columnName true r.link⟩
  | none => .error (.schema (.noPrimaryKey r.parent.name))

end Relationship

end SqlDraft
