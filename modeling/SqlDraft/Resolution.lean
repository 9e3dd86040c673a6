/-
  SqlDraft.Resolution — finding the columns of a condition in the registry. The first fault
  is reported, comparisons being visited from left to right and, in each, the left column
  first, then the shape of the right side, then its column. Neither a dialect nor a
  session has a part in it.
-/

import SqlDraft.Registry
import SqlDraft.Sql.Fragment

namespace SqlDraft

namespace ColumnRef

def resolve (r : Registry) (scope : Scope) (qualified : Bool) (c : ColumnRef) :
    Except PredicateFault ColumnName :=
  if scope.admits c.model then
    match r.model? c.model with
    | none => .error (.unknownModel c.model)
    | some m =>
      match m.field? c.field with
      | none => .error (.unknownField m.name c.field)
      | some f => .ok (m.columnName qualified f)
  else .error (.outOfScope c)

end ColumnRef

namespace Condition

/-- A comparison whose left column has been found. -/
def resolveRight (r : Registry) (scope : Scope) (qualified : Bool) (field : String) (left : ColumnName)
    (op : ComparisonOp) : Operand → Except PredicateFault Fragment
  | .null =>
    match op with
    | .eq => .ok (.nullTest left true)
    | .ne => .ok (.nullTest left false)
    | _ => .error (.nullComparison field op)
  | .list values =>
    if op.takesList then
      if values.isEmpty then .error (.emptyList op field) else .ok (.compare left op (.list values))
    else .error (.listMismatch op field)
  | .column c =>
    if op.takesList then .error (.listMismatch op field)
    else (c.resolve r scope qualified).map fun right => .compare left op (.column right)
  | .value v =>
    if op.takesList then .error (.listMismatch op field) else .ok (.compare left op (.value v))

mutual

def resolve (r : Registry) (scope : Scope) (qualified : Bool) : Condition → Except PredicateFault Fragment
  | .compare left op right => do
    let column ← left.resolve r scope qualified
    resolveRight r scope qualified left.field column op right
  | .compound op parts => (resolveAll r scope qualified parts).map (.compound op)
  | .not inner => (inner.resolve r scope qualified).map .not
  | .raw sql => .ok (.raw sql)

def resolveAll (r : Registry) (scope : Scope) (qualified : Bool) :
    List Condition → Except PredicateFault (List Fragment)
  | [] => .ok []
  | c :: cs => do
    let f ← c.resolve r scope qualified
    let fs ← resolveAll r scope qualified cs
    return f :: fs

end

end Condition

def Predicate.resolve (r : Registry) (qualified : Bool) (p : Predicate) : Except QueryError Fragment :=
  (p.condition.resolve r p.scope qualified).mapError .predicate

/-- The text of a predicate. -/
def Predicate.toSql (r : Registry) (d : Dialect) (qualified : Bool) (p : Predicate) : Except QueryError String :=
  (p.resolve r qualified).map (·.render d)

end SqlDraft
