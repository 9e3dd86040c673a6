/-
  SqlDraft.Registry — the registered models, in the order of their registration. A type is
  registered once and a name used once, so a model is found by either; a refused
  registration leaves nothing behind.
-/

import SqlDraft.Error

namespace SqlDraft

structure Registry where
  models : List Model
  deriving DecidableEq, Repr

namespace Registry

def empty : Registry := ⟨[]⟩

def model? (r : Registry) (type : ModelType) : Option Model := r.models.find? (·.type = type)

theorem type_of_model? {r : Registry} {type : ModelType} {m : Model} (h : r.model? type = some m) : m.type = type := by
  simpa using List.find?_some h

def named? (r : Registry) (name : String) : Option Model := r.models.find? (·.name = name)

def require (r : Registry) (type : ModelType) : Except QueryError Model :=
  match r.model? type with
  | some m => .ok m
  | none => .error (.notRegistered type)

/-- The names of the models in code point order. -/
def sortedNames (r : Registry) : List String :=
  (r.models.map (·.name)).mergeSort fun a b => decide (a ≤ b)

/-- The first of `names` that is among `seen` or stands before itself. -/
def firstRepeated? (seen : List String) : List String → Option String
  | [] => none
  | n :: rest => if n ∈ seen then some n else firstRepeated? (n :: seen) rest

/-- Adds a model whose keys have been counted. -/
def insert (r : Registry) (m : Model) : Except SchemaFault Registry :=
  if (r.model? m.type).isSome then .error (.typeTaken m.type)
  else if (r.named? m.name).isSome then .error (.nameTaken m.name)
  else
    match firstRepeated? [] (m.fields.map (·.name)) with
    | some field => .error (.repeatedField m.name field)
    | none => .ok ⟨r.models ++ [m]⟩

/-- Registers a table, which has exactly one key. -/
def register (r : Registry) (m : Model) : Except SchemaFault Registry :=
  if m.keyCount ≠ 1 then .error (.keyCount m.name m.keyCount) else r.insert m

/-- Registers a shape, which has at most one key. -/
def registerShape (r : Registry) (m : Model) : Except SchemaFault Registry :=
  if 1 < m.keyCount then .error (.shapeKeys m.name) else r.insert m

end Registry

end SqlDraft
