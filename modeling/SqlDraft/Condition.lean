/-
  SqlDraft.Condition — Boolean conditions over the columns of models, and predicates: a
  condition together with the models it may speak of.
-/

import SqlDraft.Model
import SqlDraft.Json.Basic

namespace SqlDraft

inductive ComparisonOp where
  | eq | ne | lt | le | gt | ge | like | notLike | isIn | notIn
  deriving DecidableEq, Repr

namespace ComparisonOp

def symbol : ComparisonOp → String
  | .eq => "="
  | .ne => "<>"
  | .lt => "<"
  | .le => "<="
  | .gt => ">"
  | .ge => ">="
  | .like => "LIKE"
  | .notLike => "NOT LIKE"
  | .isIn => "IN"
  | .notIn => "NOT IN"

/-- Whether the right side is a list of values. -/
def takesList : ComparisonOp → Bool
  | .isIn | .notIn => true
  | _ => false

end ComparisonOp

inductive LogicalOp where
  | and | or
  deriving DecidableEq, Repr

def LogicalOp.keyword : LogicalOp → String
  | .and => "AND"
  | .or => "OR"

/-- A field of a model, by name. -/
structure ColumnRef where
  model : ModelType
  field : String
  deriving DecidableEq, Repr

/-- The right side of a comparison. -/
inductive Operand where
  | column (column : ColumnRef)
  | value (value : Json)
  | list (values : List Json)
  | null
  deriving Repr

/-- A JSON null is no value to compare with, but the absence of one. -/
def Operand.ofJson : Json → Operand
  | .null => .null
  | v => .value v

inductive Condition where
  | compare (left : ColumnRef) (op : ComparisonOp) (right : Operand)
  | compound (op : LogicalOp) (parts : List Condition)
  | not (inner : Condition)
  /-- SQL text, taken as it stands. -/
  | raw (sql : String)
  deriving Repr

namespace Condition

def eq (left : ColumnRef) (right : Operand) : Condition := .compare left .eq right
def ne (left : ColumnRef) (right : Operand) : Condition := .compare left .ne right
def lt (left : ColumnRef) (right : Operand) : Condition := .compare left .lt right
def le (left : ColumnRef) (right : Operand) : Condition := .compare left .le right
def gt (left : ColumnRef) (right : Operand) : Condition := .compare left .gt right
def ge (left : ColumnRef) (right : Operand) : Condition := .compare left .ge right

def like (left : ColumnRef) (pattern : String) : Condition := .compare left .like (.value (.text pattern))

def isIn (left : ColumnRef) (values : List Json) : Condition := .compare left .isIn (.list values)

def isNull (left : ColumnRef) : Condition := .compare left .eq .null

def isNotNull (left : ColumnRef) : Condition := .compare left .ne .null

/-- Both under one operator. A compound of that operator on the left takes the other one in
    as its last part, so a chain of one operator stays flat. -/
def combine (op : LogicalOp) (a b : Condition) : Condition :=
  match a with
  | .compound existing parts =>
    if existing = op then .compound op (parts ++ [b]) else .compound op [a, b]
  | _ => .compound op [a, b]

def and (a b : Condition) : Condition := combine .and a b

def or (a b : Condition) : Condition := combine .or a b

/-- `first`, combined with each of the others in turn. -/
def chain (first : Condition) (others : List (LogicalOp × Condition)) : Condition :=
  others.foldl (fun c (op, d) => combine op c d) first

def negate (c : Condition) : Condition := .not c

end Condition

/-- The models whose columns a condition may name. -/
inductive Scope where
  | single (model : ModelType)
  | pair (source target : ModelType)
  deriving DecidableEq, Repr

def Scope.admits (model : ModelType) : Scope → Bool
  | .single m => m = model
  | .pair source target => source = model || target = model

structure Predicate where
  scope : Scope
  condition : Condition
  deriving Repr

def Predicate.single (model : ModelType) (condition : Condition) : Predicate := ⟨.single model, condition⟩

def Predicate.pair (source target : ModelType) (condition : Condition) : Predicate :=
  ⟨.pair source target, condition⟩

end SqlDraft
